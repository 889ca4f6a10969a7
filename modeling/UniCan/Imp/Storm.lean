import Mathlib.Algebra.BigOperators.Group.Multiset.Basic
import UniCan.Foundation.Tally
import UniCan.Imp.Device

/-!
# No frame storm

A frame that a device gets may make it send another one.  Two devices that only
answer each other fall silent: a frame weighs more than the answer to it, but for an
ACK, which makes a transfer go on, and then the transfer has that much less to send.

## Main definitions

* `Cmd.weight`, `Session.potential` — what a frame weighs, and what a transfer has
  left to send.
* `Storm`, `Storm.Delivers` — two devices and the frames that are on their way, and a
  delivery.

## Main results

* `addFrame_measure` — a frame weighs more than what it brings about.
* `no_frame_storm` — **every sequence of deliveries is finite.**
-/

namespace UniCan
namespace Imp

/-! ### Weights -/

/-- What the frame of a command weighs. -/
def Cmd.weight : Cmd → ℕ
  | .abortWa => 1
  | .startWa | .dataWa | .endWa | .ack => 2
  | .start | .data => 3
  | .nack => 4
  | .end_ => 5

/-- What a frame weighs. -/
def frameWeight (frame : CanMessage) : ℕ :=
  match Cmd.ofCode? (canidGetCommand frame.id) with
  | none => 1
  | some command => command.weight

theorem frameWeight_pos (frame : CanMessage) : 0 < frameWeight frame := by
  unfold frameWeight
  split
  · exact Nat.one_pos
  · rename_i command _
    cases command <;> decide

theorem frameWeight_frameTo (addressFrom addressTo sessionId : UInt8) (command : Cmd)
    (bytes : List UInt8) :
    frameWeight (frameTo addressFrom addressTo sessionId command bytes) = command.weight := by
  rw [frameWeight, frameTo, canidGetCommand_canidCreate, Cmd.ofCode?_code]

/-- What an acknowledged transfer has left to send. -/
def Session.potential (s : Session) : ℕ :=
  match s.state with
  | .txWaitStartAck => 4 * (s.payloadSize.toNat - s.payloadOffset.toNat + 1)
  | .txWaitDataAck =>
      4 * (s.payloadSize.toNat - s.payloadOffset.toNat - s.lastDataLength.toNat + 1)
  | _ => 0

/-- What a device has left to send. -/
def Ctx.potential (ctx : Ctx) : ℕ := (ctx.sessions.map Session.potential).sum

/-- What an answer weighs. -/
def replyWeight (reply : Option (Cmd × List UInt8)) : ℕ := reply.elim 0 fun p => p.1.weight

/-! ### Sessions -/

section Session

variable {own : UInt8} {limit : UInt16} {ctx : Ctx} {s s' : Session} {nowMs : UInt32}
  {bytes : List UInt8} {command : Cmd} {reply : Option (Cmd × List UInt8)} {kind : Event}
  {received : Option Msg}

@[simp] theorem potential_release : (sessionRelease s).potential = 0 := rfl

/-- What a session that waits for an acknowledgement has left to send, from the next
offset on. -/
theorem Session.Acked.potential {offset : UInt16} (h : s.Acked offset) :
    s.potential = 4 * (s.payloadSize.toNat - offset.toNat + 1) := by
  cases h with
  | start hstate hoffset => simp only [Session.potential, hstate, hoffset]
  | data hstate hoffset =>
    simp only [Session.potential, hstate, hoffset]
    omega

/-- A command weighs more than what it brings about at the sender. -/
theorem TxCase.weight (h : TxCase s nowMs command s' reply kind) :
    s'.potential + replyWeight reply < s.potential + command.weight := by
  cases h with
  | aborted h =>
    have hpos : 0 < command.weight := by
      cases command <;> decide
    simp only [potential_release, replyWeight, Option.elim_none]
    omega
  | refused hack hnack habort =>
    have hweight : 1 < command.weight := by
      cases command <;> first | decide | exact absurd rfl habort
    simp only [potential_release, replyWeight, Option.elim_some]
    have : Cmd.abortWa.weight = 1 := rfl
    omega
  | resentStart hstate =>
    simp only [Session.potential, replyWeight, Option.elim_some, hstate]
    exact Nat.add_lt_add_left (show 3 < 4 by decide) _
  | resentData hstate =>
    simp only [Session.potential, replyWeight, Option.elim_some, hstate]
    exact Nat.add_lt_add_left (show 3 < 4 by decide) _
  | data hacked hpos hle hin =>
    rw [hacked.potential]
    simp only [Session.potential, replyWeight, Option.elim_some]
    show _ + 3 < _ + 2
    omega
  | end_ hacked =>
    rw [hacked.potential]
    simp only [Session.potential, replyWeight, Option.elim_some]
    show 0 + 5 < _ + 2
    omega
  | finished | ignored =>
    simp only [potential_release, replyWeight, Option.elim_none]
    show _ < _ + 2
    omega

/-- And at the receiver. -/
theorem RxCase.weight (h : RxCase ctx s bytes nowMs command s' reply kind received)
    (hrx : s.state = .rx) : s'.potential + replyWeight reply < s.potential + command.weight := by
  have hzero : s.potential = 0 := by simp only [Session.potential, hrx]
  have hzero' : s'.potential = 0 := by
    cases h with
    | started | appended => simp only [Session.potential, hrx]
    | _ => exact potential_release
  have hreply : replyWeight reply < command.weight := by
    cases h with
    | aborted => decide
    | refused h => rcases h with rfl | rfl <;> decide
    | started h =>
      -- the answer to a START is an ACK, if there is one
      rcases h with rfl | rfl
      · split_ifs <;> decide
      · rw [if_neg (by simp)]
        decide
    | appended h | dropped h | rejected h | uncreated h | finished h =>
      rcases h with rfl | rfl <;> decide
  omega

end Session

/-! ### Devices -/

theorem Ctx.potential_setSession {ctx : Ctx} {i : ℕ} (hi : i < ctx.sessions.length) (s : Session) :
    (ctx.setSession i s).potential + (ctx.session i).potential = ctx.potential + s.potential := by
  rw [← ctx.getElem_sessions hi]
  exact tally_set hi s

/-- **A frame weighs more than what it brings about**, and the answer to it goes to its
sender. -/
theorem addFrame_measure {ctx : Ctx} (hctx : ctx.Ok) (frame : CanMessage) (nowMs : UInt32)
    (env : Env) :
    ∃ r, addFrame ctx env frame nowMs = r ∧ r.1.Ok ∧ r.1.ownAddress = ctx.ownAddress ∧
      (∀ answer ∈ r.2.1.frame, (canidGetTo answer.id).toNat < 31) ∧
      r.1.potential + r.2.1.frame.elim 0 frameWeight < ctx.potential + frameWeight frame := by
  obtain ⟨r, hr, hcase⟩ := addFrame_spec hctx frame nowMs env
  have hpos := frameWeight_pos frame
  refine ⟨r, hr, ?_⟩
  rcases hcase with ⟨-, hsame, hout⟩ | ⟨h, hheading, hcase⟩
  · rw [hsame, hout]
    exact ⟨hctx, rfl, fun _ h => absurd h (by simp), by simpa using hpos⟩
  obtain ⟨-, -, -, -, hcmd, hfrom, -, -, -⟩ := heading_eq_some hheading
  have hweight : frameWeight frame = h.command.weight := by
    rw [frameWeight, hcmd]
  have hto : ∀ sessionId command bytes,
      (canidGetTo (frameTo ctx.ownAddress h.addressFrom sessionId command bytes).id).toNat <
        31 := by
    intro sessionId command bytes
    rw [frameTo, canidGetTo_canidCreate _ _ _ _ (by omega)]
    exact hfrom
  rcases hcase with ⟨-, hsame, -, hframe⟩ |
    ⟨i, s, s', reply, kind, received, hhandles, hok, hset, hreacts⟩
  · -- there is no session: the answer is an ABORT, if there is one
    rw [hsame, hframe, hweight]
    refine ⟨hctx, rfl, ?_, Nat.add_lt_add_left ?_ _⟩
    · intro answer
      split_ifs
      · exact fun hanswer => absurd hanswer (by simp)
      · rintro ⟨⟩
        exact hto _ _ _
    · split_ifs with hack
      · exact hweight ▸ hpos
      · rw [Option.elim_some, frameWeight_frameTo]
        generalize h.command = command at hack ⊢
        cases command <;> first | decide | exact absurd rfl hack
  · have hsession := frameSession_eq_some hhandles.found
    have hframe : r.2.1.frame = reply.map fun p =>
        frameTo ctx.ownAddress h.addressFrom s.sessionId p.1 p.2 := by
      rw [hreacts.frame, hsession.peerAddress]
    have hstep : s'.potential + replyWeight reply < s.potential + h.command.weight := by
      rcases hhandles.moves with ⟨-, -, htx⟩ | ⟨hrx, hcase⟩
      · exact htx.weight
      · exact hcase.weight hrx
    have hold : (ctx.session i).potential = s.potential := by
      rcases hsession.origin with rfl | ⟨hfree, -, -, -, rfl⟩
      · rfl
      · simp only [Session.potential, hfree]
        rfl
    have hsum := Ctx.potential_setSession hsession.lt s'
    have hreply : r.2.1.frame.elim 0 frameWeight = replyWeight reply := by
      rw [hframe]
      cases reply with
      | none => rfl
      | some p => exact frameWeight_frameTo _ _ _ _ _
    rw [hset, hreply, hweight]
    refine ⟨hctx.setSession hsession.lt hok, rfl, ?_, by omega⟩
    rw [hframe]
    intro answer hanswer
    obtain ⟨p, -, rfl⟩ := Option.map_eq_some_iff.mp hanswer
    exact hto _ _ _

/-! ### Two devices -/

/-- Two devices, and the frames that are on their way to one of them. -/
structure Storm where
  node : Side → Ctx
  flight : Multiset (Side × CanMessage)

/-- A device gets the frames to its address and those to all. -/
def Ctx.Hears (ctx : Ctx) (frame : CanMessage) : Prop :=
  canidGetTo frame.id = ctx.ownAddress ∨ canidGetTo frame.id = deviceIdAll

instance (ctx : Ctx) (frame : CanMessage) : Decidable (ctx.Hears frame) :=
  inferInstanceAs (Decidable (_ ∨ _))

namespace Storm

/-- A frame on its way to whom it is addressed: to one of the devices, to both, or to
none. -/
def route (node : Side → Ctx) (frame : CanMessage) : Multiset (Side × CanMessage) :=
  (if (node .a).Hears frame then {(.a, frame)} else 0) +
    if (node .b).Hears frame then {(.b, frame)} else 0

/-- A frame is delivered: the answer to it, if there is one, joins the frames that are
on their way. -/
inductive Delivers (s : Storm) : Storm → Prop
  | intro (side : Side) (frame : CanMessage) (rest : Multiset (Side × CanMessage))
      (nowMs : UInt32) (env : Env) (h : s.flight = (side, frame) ::ₘ rest) :
      Delivers s {
        node := Function.update s.node side (addFrame (s.node side) env frame nowMs).1
        flight := rest +
          ((addFrame (s.node side) env frame nowMs).2.1.frame.elim 0 (route s.node)) }

/-- What the frames weigh, and what the devices have left to send. -/
def measure (s : Storm) : ℕ :=
  (s.flight.map fun p => frameWeight p.2).sum + (s.node .a).potential + (s.node .b).potential

/-- The two devices satisfy their invariants and have different addresses. -/
structure Ok (s : Storm) : Prop where
  node : ∀ side, (s.node side).Ok
  distinct : (s.node .a).ownAddress ≠ (s.node .b).ownAddress

/-- A frame to a device goes to one of the two at most. -/
theorem sum_route {s : Storm} (h : s.Ok) {frame : CanMessage}
    (hto : (canidGetTo frame.id).toNat < 31) :
    ((route s.node frame).map fun p => frameWeight p.2).sum ≤ frameWeight frame := by
  have hall := ne_deviceIdAll hto
  have hears : ∀ side, (s.node side).Hears frame ↔
      canidGetTo frame.id = (s.node side).ownAddress := fun side => or_iff_left hall
  unfold route
  by_cases ha : (s.node .a).Hears frame
  · have hb : ¬ (s.node .b).Hears frame := by
      rw [hears] at ha ⊢
      exact fun hb => h.distinct (ha.symm.trans hb)
    rw [if_pos ha, if_neg hb, add_zero, Multiset.map_singleton, Multiset.sum_singleton]
  · rw [if_neg ha, zero_add]
    split_ifs
    · rw [Multiset.map_singleton, Multiset.sum_singleton]
    · simp

/-- **A delivery leaves less to do.** -/
theorem Ok.delivers {s s' : Storm} (h : s.Ok) (hs : s.Delivers s') :
    s'.Ok ∧ s'.measure < s.measure := by
  obtain ⟨side, frame, rest, nowMs, env, hflight⟩ := hs
  obtain ⟨r, hr, hok, hown, hanswer, hless⟩ := addFrame_measure (h.node side) frame nowMs env
  rw [hr]
  have hroute : ((r.2.1.frame.elim 0 (route s.node)).map fun p => frameWeight p.2).sum ≤
      r.2.1.frame.elim 0 frameWeight := by
    cases hframe : r.2.1.frame with
    | none => simp
    | some answer => exact sum_route h (hanswer answer hframe)
  have hweight : (s.flight.map fun p => frameWeight p.2).sum =
      frameWeight frame + (rest.map fun p => frameWeight p.2).sum := by
    rw [hflight, Multiset.map_cons, Multiset.sum_cons]
  have hnode : ∀ other, Function.update s.node side r.1 other =
      if other = side then r.1 else s.node other := fun other => by
    by_cases ho : other = side
    · rw [ho, Function.update_self, if_pos rfl]
    · rw [Function.update_of_ne ho, if_neg ho]
  refine ⟨⟨fun other => ?_, ?_⟩, ?_⟩
  · simp only [hnode]
    split_ifs
    · exact hok
    · exact h.node other
  · have hdistinct := h.distinct
    simp only [hnode]
    cases side <;> simpa [hown] using hdistinct
  · simp only [measure, Multiset.map_add, Multiset.sum_add, hweight, hnode]
    cases side with
    | a =>
      simp only [if_true, reduceCtorEq, if_false]
      omega
    | b =>
      simp only [if_true, reduceCtorEq, if_false]
      omega

/-- A number of deliveries one after the other is at most the measure at the start. -/
theorem Ok.le_measure (n : ℕ) {run : ℕ → Storm} (h : (run 0).Ok)
    (hrun : ∀ k, k < n → (run k).Delivers (run (k + 1))) :
    (run n).Ok ∧ (run n).measure + n ≤ (run 0).measure := by
  induction n with
  | zero => exact ⟨h, Nat.le_refl _⟩
  | succ n ih =>
    obtain ⟨hok, hle⟩ := ih fun k hk => hrun k (Nat.lt_succ_of_lt hk)
    obtain ⟨hok', hlt⟩ := hok.delivers (hrun n (Nat.lt_succ_self n))
    exact ⟨hok', by omega⟩

end Storm

/-- **No frame storm.**  Two devices with different addresses, each of them in a state
that some calls have led to, and any frames on their way to them: there are never more
deliveries, in whatever order, than a number that is known at the start, and so no
infinite sequence of them. -/
theorem no_frame_storm {node : Side → Ctx} (hnode : ∀ side, (node side).Reachable)
    (hne : (node .a).ownAddress ≠ (node .b).ownAddress) (flight : Multiset (Side × CanMessage)) :
    (∀ (n : ℕ) (run : ℕ → Storm), run 0 = ⟨node, flight⟩ →
        (∀ k, k < n → (run k).Delivers (run (k + 1))) → n ≤ (Storm.mk node flight).measure) ∧
      ¬ ∃ run : ℕ → Storm, run 0 = ⟨node, flight⟩ ∧ ∀ k, (run k).Delivers (run (k + 1)) := by
  have hok : (Storm.mk node flight).Ok := ⟨fun side => (hnode side).ok, hne⟩
  have hbound : ∀ (n : ℕ) (run : ℕ → Storm), run 0 = ⟨node, flight⟩ →
      (∀ k, k < n → (run k).Delivers (run (k + 1))) → n ≤ (Storm.mk node flight).measure := by
    intro n run hstart hrun
    rw [← hstart] at hok ⊢
    exact le_trans (Nat.le_add_left _ _) (hok.le_measure n hrun).2
  refine ⟨hbound, ?_⟩
  rintro ⟨run, hstart, hrun⟩
  have hle := hbound ((Storm.mk node flight).measure + 1) run hstart fun k _ => hrun k
  omega

/-- Two devices that get a START and an ACK of transfers that the other one knows
nothing of. -/
theorem no_frame_storm_smallNode :
    ¬ ∃ run : ℕ → Storm, run 0 = ⟨smallNode true,
        {(.a, frameTo 2 1 1 .start []), (.b, frameTo 1 2 4 .ack [])}⟩ ∧
      ∀ k, (run k).Delivers (run (k + 1)) :=
  (no_frame_storm (fun side => (smallNode_initial true side).reachable)
    (show (1 : UInt8) ≠ 2 by decide) _).2

end Imp
end UniCan
