import Mathlib.Algebra.BigOperators.Group.Finset.Piecewise
import Mathlib.Data.Fintype.Card
import UniCan.Foundation.Budget
import UniCan.Imp.Storm

/-!
# A bus falls silent

Any number of devices are on a bus whose frames may be lost, or overtake each other, and
time passes as it will.  As long as no message is started, the devices have only so much to
say to each other: what is left of the transfers that they are at, and the answers.

Against the storm of two devices there are more of them here, and they may be processed: a
transfer without acknowledgement is sent by the clock, not by answers, and each of its
frames may go to all others.

## Main definitions

* `Session.unsent`, `Ctx.unsent` — what transfers without acknowledgement have left to send.
* `Air`, `Air.Step` — the devices and the frames in flight, and what may happen to them
  while no message is started.

## Main results

* `process_measure` — a frame that a device makes by the clock is one less that it has left.
* `bus_falls_silent` — **in every run, the frames that are delivered or sent are no more
  than a number that is known at the start**; and from some point on there are none.
-/

namespace UniCan
namespace Imp

/-! ### What is left to send by the clock -/

/-- What a transfer without acknowledgement has left to send, with its END. -/
def Session.unsent (s : Session) : ℕ :=
  match s.state with
  | .txWithoutAck => s.payloadSize.toNat - s.payloadOffset.toNat + 1
  | _ => 0

/-- What a device has left to send by the clock. -/
def Ctx.unsent (ctx : Ctx) : ℕ := tally Session.unsent ctx.sessions

section Session

variable {own : UInt8} {ctx : Ctx} {s s' : Session} {nowMs : UInt32} {bytes : List UInt8}
  {command : Cmd} {reply : Option (Cmd × List UInt8)} {kind : Event} {received : Option Msg}

@[simp] theorem unsent_release : (sessionRelease s).unsent = 0 := rfl

/-- A command adds nothing to what a sender has left. -/
theorem TxCase.unsent_le (h : TxCase s nowMs command s' reply kind) : s'.unsent ≤ s.unsent := by
  cases h with
  | aborted | refused | finished => exact Nat.zero_le _
  | resentStart hstate | resentData hstate => simp [Session.unsent, hstate]
  | data | end_ => exact Nat.zero_le _
  | ignored => exact Nat.le_refl _

/-- Nor to a receiver, which has nothing to send. -/
theorem RxCase.unsent_eq (h : RxCase ctx s bytes nowMs command s' reply kind received)
    (hrx : s.state = .rx) : s'.unsent = 0 := by
  cases h with
  | started | appended => simp [Session.unsent, hrx]
  | _ => exact unsent_release

/-- **The clock** sends a frame that was left, and a light one. -/
theorem EmitCase.unsent_lt {frame : Cmd × List UInt8} (h : EmitCase s s' frame kind)
    (hstate : s.state = .txWithoutAck) :
    s'.unsent < s.unsent ∧ s'.potential = s.potential ∧ frame.1.weight = 2 := by
  cases h with
  | data hpos hle hoffset hin =>
    refine ⟨?_, ?_, rfl⟩
    · simp only [Session.unsent, hstate]
      omega
    · simp only [Session.potential, hstate]
  | end_ =>
    refine ⟨?_, ?_, rfl⟩
    · rw [unsent_release]
      simp only [Session.unsent, hstate]
      omega
    · rw [potential_release]
      simp only [Session.potential, hstate]

end Session

theorem Ctx.unsent_setSession {ctx : Ctx} {i : ℕ} (hi : i < ctx.sessions.length) (s : Session) :
    (ctx.setSession i s).unsent + (ctx.session i).unsent = ctx.unsent + s.unsent := by
  rw [← ctx.getElem_sessions hi]
  exact tally_set hi s

/-- A frame adds nothing to what a device has left to send by the clock. -/
theorem addFrame_unsent {ctx : Ctx} (hctx : ctx.Ok) (frame : CanMessage) (nowMs : UInt32)
    (env : Env) : (addFrame ctx env frame nowMs).1.unsent ≤ ctx.unsent := by
  obtain ⟨r, hr, hcase⟩ := addFrame_spec hctx frame nowMs env
  rw [hr]
  rcases hcase with ⟨-, hsame, -⟩ | ⟨h, -, ⟨-, hsame, -⟩ | hcase⟩
  · rw [hsame]
  · rw [hsame]
  · obtain ⟨i, s, s', reply, kind, received, hhandles, -, hset, -⟩ := hcase
    have hsession := frameSession_eq_some hhandles.found
    have hsum := Ctx.unsent_setSession hsession.lt s'
    have hle : s'.unsent ≤ (ctx.session i).unsent := by
      rcases hhandles.moves with ⟨htx, -, hcase⟩ | ⟨hrx, hcase⟩
      · obtain rfl := hsession.eq_of_isTx htx
        exact hcase.unsent_le
      · rw [hcase.unsent_eq hrx]
        exact Nat.zero_le _
    rw [hset]
    omega

/-- **A frame that a device makes by the clock** is one less that it has left; and it adds
nothing to what is left of the others. -/
theorem process_measure {ctx : Ctx} (hctx : ctx.Ok) (nowMs : UInt32) :
    ∃ r, process ctx nowMs = r ∧ r.1.Ok ∧ r.1.ownAddress = ctx.ownAddress ∧
      r.1.potential ≤ ctx.potential ∧
      match r.2.1.frame with
      | none => r.1.unsent ≤ ctx.unsent
      | some frame => r.1.unsent < ctx.unsent ∧ frameWeight frame = 2 := by
  obtain ⟨r, hr, -, hcase⟩ := process_spec hctx nowMs
  refine ⟨r, hr, ?_⟩
  rcases hcase with ⟨hsame, hout⟩ | ⟨i, s', reply, kind, hi, hcase, hok, hset, hreacts⟩
  · rw [hsame, hout]
    exact ⟨hctx, rfl, Nat.le_refl _, Nat.le_refl _⟩
  have hunsent := Ctx.unsent_setSession hi s'
  have hpotential := Ctx.potential_setSession hi s'
  rw [hset, hreacts.frame]
  refine ⟨hctx.setSession hi hok, rfl, ?_⟩
  rcases hcase with ⟨-, rfl, rfl, -⟩ | ⟨hstate, frame, rfl, hemit⟩
  · -- the session is released, and nothing is sent
    rw [unsent_release] at hunsent
    rw [potential_release] at hpotential
    exact ⟨by omega, show _ ≤ _ by omega⟩
  · obtain ⟨hlt, hsame, hweight⟩ := hemit.unsent_lt hstate
    refine ⟨by omega, show _ < _ by omega, ?_⟩
    rw [frameWeight_frameTo, hweight]

/-! ### The devices on a bus -/

variable {ι : Type*} [Fintype ι] [DecidableEq ι]

/-- Devices, and the frames that are on their way to one of them. -/
structure Air (ι : Type*) where
  node : ι → Ctx
  flight : Multiset (ι × CanMessage)

namespace Air

/-- A frame on its way to all that it is addressed to. -/
def route (node : ι → Ctx) (frame : CanMessage) : Multiset (ι × CanMessage) :=
  (Finset.univ.filter fun p => (node p).Hears frame).val.map fun p => (p, frame)

/-- What may happen while no message is started: a frame is delivered, or time has passed,
and the frame that the device makes ready gets on its way to some of its addressees; or
frames get lost.  It costs one to deliver a frame, and to make one by the clock. -/
inductive Step (s : Air ι) : ℕ → Air ι → Prop
  | deliver (p : ι) (frame : CanMessage) (rest added : Multiset (ι × CanMessage)) (nowMs : UInt32)
      (env : Env) (hflight : s.flight = (p, frame) ::ₘ rest)
      (hadded : added ≤
        (addFrame (s.node p) env frame nowMs).2.1.frame.elim 0 (route s.node)) :
      Step s 1 {
        node := Function.update s.node p (addFrame (s.node p) env frame nowMs).1
        flight := rest + added }
  | process (p : ι) (added : Multiset (ι × CanMessage)) (nowMs : UInt32)
      (hadded : added ≤ (process (s.node p) nowMs).2.1.frame.elim 0 (route s.node)) :
      Step s (if (process (s.node p) nowMs).2.1.frame.isSome then 1 else 0) {
        node := Function.update s.node p (process (s.node p) nowMs).1
        flight := s.flight + added }
  | lose (rest : Multiset (ι × CanMessage)) (hrest : rest ≤ s.flight) :
      Step s 0 { s with flight := rest }

/-- What the frames in a flight weigh. -/
def weight (flight : Multiset (ι × CanMessage)) : ℕ := (flight.map fun p => frameWeight p.2).sum

/-- What the frames weigh, and what the devices have left to send; a frame that is sent by
the clock may go to all devices. -/
def measure (s : Air ι) : ℕ :=
  weight s.flight + ∑ p, ((s.node p).potential + (2 * Fintype.card ι + 1) * (s.node p).unsent)

/-- The devices satisfy their invariants and have different addresses. -/
structure Ok (s : Air ι) : Prop where
  node : ∀ p, (s.node p).Ok
  distinct : Function.Injective fun p => (s.node p).ownAddress

section Weight

variable {node : ι → Ctx} {frame : CanMessage} {flight flight' : Multiset (ι × CanMessage)} {p : ι}

omit [Fintype ι] [DecidableEq ι] in
theorem weight_add : weight (flight + flight') = weight flight + weight flight' := by
  rw [weight, Multiset.map_add, Multiset.sum_add]
  rfl

omit [Fintype ι] [DecidableEq ι] in
theorem weight_cons : weight ((p, frame) ::ₘ flight) = frameWeight frame + weight flight := by
  rw [weight, Multiset.map_cons, Multiset.sum_cons]
  rfl

omit [Fintype ι] [DecidableEq ι] in
/-- Frames that get lost weigh nothing. -/
theorem weight_mono (h : flight ≤ flight') : weight flight ≤ weight flight' := by
  obtain ⟨lost, rfl⟩ := Multiset.le_iff_exists_add.mp h
  rw [weight_add]
  exact Nat.le_add_right _ _

omit [DecidableEq ι] in
/-- Every addressee gets the frame. -/
theorem weight_route : weight (route node frame) =
    (Finset.univ.filter fun p => (node p).Hears frame).card * frameWeight frame := by
  rw [weight, route, Multiset.map_map]
  exact Finset.sum_const_nat fun _ _ => rfl

omit [DecidableEq ι] in
/-- A frame to one device is heard by one at most. -/
theorem weight_route_le (hdistinct : Function.Injective fun p => (node p).ownAddress)
    (hto : (canidGetTo frame.id).toNat < 31) : weight (route node frame) ≤ frameWeight frame := by
  have hcard : (Finset.univ.filter fun p => (node p).Hears frame).card ≤ 1 := by
    refine Finset.card_le_one.mpr fun p hp q hq => hdistinct ?_
    have hears : ∀ x ∈ Finset.univ.filter fun p => (node p).Hears frame,
        canidGetTo frame.id = (node x).ownAddress := fun x hx =>
      (Finset.mem_filter.mp hx).2.resolve_right (ne_deviceIdAll hto)
    exact (hears p hp).symm.trans (hears q hq)
  rw [weight_route]
  exact le_trans (Nat.mul_le_mul_right _ hcard) (Nat.le_of_eq (Nat.one_mul _))

/-- One device moves. -/
theorem sum_update (g : Ctx → ℕ) (node : ι → Ctx) (p : ι) (ctx : Ctx) :
    (∑ x, g (Function.update node p ctx x)) + g (node p) = (∑ x, g (node x)) + g ctx := by
  have hupdate : (fun x => g (Function.update node p ctx x)) =
      Function.update (fun x => g (node x)) p (g ctx) := Function.comp_update g node p ctx
  rw [hupdate, Finset.sum_update_of_mem (Finset.mem_univ p),
    ← Finset.add_sum_erase Finset.univ (fun x => g (node x)) (Finset.mem_univ p),
    Finset.sdiff_singleton_eq_erase]
  omega

end Weight

namespace Ok

variable {s s' : Air ι} {c : ℕ}

omit [Fintype ι] in
/-- A device moves, and keeps its address. -/
theorem update (h : s.Ok) {p : ι} {ctx : Ctx} (hctx : ctx.Ok)
    (hown : ctx.ownAddress = (s.node p).ownAddress) (flight : Multiset (ι × CanMessage)) :
    Ok { node := Function.update s.node p ctx, flight := flight } where
  node x := by
    by_cases hx : x = p
    · subst hx
      simpa using hctx
    · simpa [hx] using h.node x
  distinct := by
    have hsame : (fun x => (Function.update s.node p ctx x).ownAddress) =
        fun x => (s.node x).ownAddress := by
      funext x
      by_cases hx : x = p
      · subst hx
        simpa using hown
      · simp [hx]
    show Function.Injective fun x => (Function.update s.node p ctx x).ownAddress
    rw [hsame]
    exact h.distinct

end Ok

/-- **Every step is paid for** by what is left to say. -/
theorem pays : Pays (Step (ι := ι)) Ok measure where
  inv := by
    intro s c s' h hs
    cases hs with
    | deliver p frame rest added nowMs env =>
      obtain ⟨r, hr, hok, hown, -⟩ := addFrame_measure (h.node p) frame nowMs env
      rw [hr]
      exact h.update hok hown _
    | process p added nowMs =>
      obtain ⟨r, hr, hok, hown, -⟩ := process_measure (h.node p) nowMs
      rw [hr]
      exact h.update hok hown _
    | lose rest => exact ⟨h.node, h.distinct⟩
  pays := by
    intro s c s' h hs
    set left : Ctx → ℕ := fun ctx =>
      ctx.potential + (2 * Fintype.card ι + 1) * ctx.unsent with hleft
    cases hs with
    | deliver p frame rest added nowMs env hflight hadded =>
      obtain ⟨r, hr, hok, hown, hanswer, hless⟩ := addFrame_measure (h.node p) frame nowMs env
      have hunsent := addFrame_unsent (h.node p) frame nowMs env
      rw [hr] at hunsent hadded ⊢
      have hsum := sum_update left s.node p r.1
      have hweight : weight added ≤ r.2.1.frame.elim 0 frameWeight := by
        refine le_trans (weight_mono hadded) ?_
        cases hframe : r.2.1.frame with
        | none => exact Nat.le_refl 0
        | some answer => exact weight_route_le h.distinct (hanswer answer hframe)
      have hmul := Nat.mul_le_mul_left (2 * Fintype.card ι + 1) hunsent
      simp only [measure, hflight, weight_cons, weight_add]
      simp only [hleft] at hsum
      omega
    | process p added nowMs hadded =>
      obtain ⟨r, hr, hok, hown, hpotential, hcase⟩ := process_measure (h.node p) nowMs
      rw [hr] at hadded ⊢
      have hsum := sum_update left s.node p r.1
      simp only [measure, weight_add]
      simp only [hleft] at hsum
      cases hframe : r.2.1.frame with
      | none =>
        rw [hframe] at hcase hadded
        have hweight : weight added ≤ 0 := weight_mono hadded
        have hmul := Nat.mul_le_mul_left (2 * Fintype.card ι + 1) hcase
        simp only [Option.isSome_none, Bool.false_eq_true, if_false]
        omega
      | some frame =>
        rw [hframe] at hcase hadded
        obtain ⟨hlt, htwo⟩ := hcase
        -- the frame goes to all devices at most
        have hweight : weight added ≤ Fintype.card ι * 2 := by
          refine le_trans (weight_mono hadded) ?_
          rw [Option.elim_some, weight_route, htwo]
          exact Nat.mul_le_mul_right 2 (Finset.card_le_univ _)
        have hmul := Nat.mul_le_mul_left (2 * Fintype.card ι + 1) (Nat.succ_le_of_lt hlt)
        rw [Nat.mul_succ] at hmul
        simp only [Option.isSome_some, if_true]
        omega
    | lose rest hrest =>
      have hweight := weight_mono hrest
      simp only [measure]
      omega

end Air

/-- **A bus falls silent.**  Any number of devices with different addresses, each of them in
a state that some calls have led to, and any frames on their way: as long as no message is
started, and whatever the order of the deliveries, the clocks, the losses, the memory and
the validators are, the frames that are delivered and those that devices make by the clock
are no more in any run than a number that is known at its start.  In a run that goes on for
ever there are none from some point on. -/
theorem bus_falls_silent {node : ι → Ctx} (hnode : ∀ p, (node p).Reachable)
    (hdistinct : Function.Injective fun p => (node p).ownAddress)
    (flight : Multiset (ι × CanMessage)) (run : ℕ → Air ι) (cost : ℕ → ℕ)
    (hstart : run 0 = ⟨node, flight⟩) :
    (∀ n, (∀ k, k < n → (run k).Step (cost k) (run (k + 1))) →
        ∑ k ∈ Finset.range n, cost k ≤ (Air.mk node flight).measure) ∧
      ((∀ k, (run k).Step (cost k) (run (k + 1))) → ∃ K, ∀ k, K ≤ k → cost k = 0) := by
  have hok : (run 0).Ok := by
    rw [hstart]
    exact ⟨fun p => (hnode p).ok, hdistinct⟩
  refine ⟨fun n hrun => ?_, Air.pays.eventually hok⟩
  have hle := (Air.pays.sum_le hok n hrun).2
  rw [← hstart]
  omega

/-- Devices 1, 2 and 3. -/
def smallBus (p : Fin 3) : Ctx := smallDevice (UInt8.ofNat (p.val + 1)) false

/-- Device 1 has got a START of device 2. -/
def startedBus : Fin 3 → Ctx :=
  Function.update smallBus 0 (addFrame (smallBus 0) .ample (frameTo 2 1 1 .start []) 0).1

/-- The START is delivered, and the answer to it is lost. -/
def smallRun : ℕ → Air (Fin 3)
  | 0 => ⟨smallBus, {(0, frameTo 2 1 1 .start [])}⟩
  | 1 => ⟨startedBus, 0 + Air.route smallBus (frameTo 1 2 1 .ack [])⟩
  | _ + 2 => ⟨startedBus, 0⟩

/-- What its steps cost. -/
def smallCost (k : ℕ) : ℕ := if k = 0 then 1 else 0

theorem smallRun_step (k : ℕ) : (smallRun k).Step (smallCost k) (smallRun (k + 1)) := by
  match k with
  | 0 =>
    exact Air.Step.deliver (s := smallRun 0) 0 (frameTo 2 1 1 .start []) 0
      (Air.route smallBus (frameTo 1 2 1 .ack [])) 0 .ample rfl (le_of_eq rfl)
  | 1 => exact Air.Step.lose (s := smallRun 1) 0 (Multiset.zero_le _)
  | k + 2 => exact Air.Step.lose (s := smallRun 2) 0 (Multiset.zero_le _)

/-- The bus is silent. -/
theorem bus_falls_silent_smallRun :
    ∑ k ∈ Finset.range 3, smallCost k ≤ (smallRun 0).measure ∧
      ∃ K, ∀ k, K ≤ k → smallCost k = 0 := by
  have hnode : ∀ p, (smallBus p).Reachable := fun p =>
    (smallDevice_initial (by revert p; decide) false).reachable
  have hdistinct : Function.Injective fun p => (smallBus p).ownAddress := by
    intro p q
    revert p q
    decide
  obtain ⟨hsum, hsilent⟩ :=
    bus_falls_silent hnode hdistinct (smallRun 0).flight smallRun smallCost rfl
  exact ⟨hsum 3 fun k _ => smallRun_step k, hsilent smallRun_step⟩

end Imp
end UniCan
