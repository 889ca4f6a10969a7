import UniCan.Imp.Transfer

/-!
# How a session ends

A session ends in many ways: its transfer is complete, it is given up by the peer or
refused by this side, there is no memory or no room for it, or it has waited too long.
Whatever the way is, the call that ends it reports it, once, with its address and its id.

## Main definitions

* `Ctx.Frees` — a call ends a session.
* `Ctx.Ends` — what is reported is what ends.
* `Session.Logged` — the frames of a session, some of which may have been sent again,
  contain what it has sent of its data.

## Main results

* `session_ends_once` — **every session that ends is reported exactly once**, and one that
  sends is only reported as finished when all of it was sent, up to its END.
-/

namespace UniCan
namespace Imp

/-! ### Reports -/

/-- An event of a session that receives. -/
def Event.isRx : Event → Bool
  | .rxFinished | .rxTimeout | .rxAborted => true
  | _ => false

/-- Session `i` was in use, and is free now. -/
def Ctx.Frees (ctx ctx' : Ctx) (i : ℕ) : Prop :=
  (ctx.session i).state ≠ .free ∧ (ctx'.session i).state = .free

/-- What is reported is the session that ends, if there is one. -/
structure Ctx.Ends (ctx ctx' : Ctx) (output : Output) : Prop where
  event : output.event ≠ .none ↔ ∃! i, ctx.Frees ctx' i
  unique : ∀ i j, ctx.Frees ctx' i → ctx.Frees ctx' j → i = j
  reported : ∀ i, ctx.Frees ctx' i → output.peerAddress = (ctx.session i).peerAddress ∧
    output.sessionId = (ctx.session i).sessionId ∧
    (output.event.isRx = true ↔ (ctx.session i).state = .rx)
  message : output.receivedMessage.isSome = true ↔ output.event = .rxFinished

section Ends

variable {ctx ctx' : Ctx} {own : UInt8} {output : Output} {i j : ℕ} {s s' : Session}
  {nowMs : UInt32} {bytes : List UInt8} {command : Cmd} {reply : Option (Cmd × List UInt8)}
  {kind : Event} {received : Option Msg}

theorem Ctx.frees_setSession (hi : i < ctx.sessions.length) :
    ctx.Frees (ctx.setSession i s) j ↔
      j = i ∧ (ctx.session i).state ≠ .free ∧ s.state = .free := by
  unfold Ctx.Frees
  rw [Ctx.session_setSession hi]
  split_ifs with hj
  · rw [hj]
    simp
  · simp [hj]

/-- A call that ends no session says so. -/
theorem Ctx.Ends.none (hevent : output.event = .none) (hmessage : output.receivedMessage = none)
    (hno : ∀ i, ¬ ctx.Frees ctx' i) : ctx.Ends ctx' output where
  event := ⟨fun h => absurd hevent h, fun ⟨i, hi, _⟩ => absurd hi (hno i)⟩
  unique i _ hi := absurd hi (hno i)
  reported i hi := absurd hi (hno i)
  message := by simp [hevent, hmessage]

/-- A session that moves is reported if it ends. -/
theorem Ctx.Ends.of_reacts (hi : i < ctx.sessions.length) (hlive : (ctx.session i).state ≠ .free)
    (h : Reacts own (ctx.session i) (s', output) s' reply kind received)
    (hkind : kind ≠ .none ↔ s'.state = .free)
    (hrx : kind ≠ .none → (kind.isRx = true ↔ (ctx.session i).state = .rx))
    (hmessage : received.isSome = true ↔ kind = .rxFinished) :
    ctx.Ends (ctx.setSession i s') output := by
  have hevent : output.event = kind := h.event
  have hreceived : output.receivedMessage = received := h.message
  refine ⟨?_, fun j k hj hk => ?_, fun j hj => ?_, ?_⟩
  · rw [hevent, hkind]
    constructor
    · intro hfree
      exact ⟨i, (Ctx.frees_setSession hi).mpr ⟨rfl, hlive, hfree⟩,
        fun j hj => ((Ctx.frees_setSession hi).mp hj).1⟩
    · rintro ⟨j, hj, -⟩
      exact ((Ctx.frees_setSession hi).mp hj).2.2
  · rw [((Ctx.frees_setSession hi).mp hj).1, ((Ctx.frees_setSession hi).mp hk).1]
  · obtain ⟨rfl, -, hfree⟩ := (Ctx.frees_setSession hi).mp hj
    have hne := hkind.mpr hfree
    obtain ⟨hpeer, hid⟩ := h.peer hne
    rw [hevent]
    exact ⟨hpeer, hid, hrx hne⟩
  · rw [hevent, hreceived]
    exact hmessage

/-- A session that sends reports that it ends, and nothing else. -/
theorem TxCase.ends (h : TxCase s nowMs command s' reply kind) (htx : sessionIsTx s = true) :
    (kind ≠ .none ↔ s'.state = .free) ∧ kind.isRx = false := by
  have hlive := (Session.isTx_iff.mp htx).1
  cases h with
  | aborted | refused | finished => simp [sessionRelease, Event.isRx]
  | resentStart | resentData | ignored => simp [hlive, Event.isRx]
  | data | end_ => simp [Event.isRx]

/-- A session that receives reports that it ends, and its message if it is complete. -/
theorem RxCase.ends (h : RxCase ctx s bytes nowMs command s' reply kind received)
    (hrx : s.state = .rx) :
    (kind ≠ .none ↔ s'.state = .free) ∧ (kind ≠ .none → kind.isRx = true) ∧
      (received.isSome = true ↔ kind = .rxFinished) := by
  cases h with
  | aborted | refused | dropped | rejected | uncreated | finished =>
    simp [sessionRelease, Event.isRx]
  | started | appended => simp [hrx]

/-- A transfer that starts does not end. -/
theorem RxCase.start_ends (h : RxCase ctx s bytes nowMs command s' reply kind received)
    (hcommand : command = .start ∨ command = .startWa) : kind = .none ∧ received = none := by
  cases h with
  | started => exact ⟨rfl, rfl⟩
  | aborted => exact absurd hcommand (by simp)
  | refused h | appended h | dropped h | rejected h | uncreated h | finished h =>
    rcases hcommand with rfl | rfl <;> exact absurd h (by simp)

/-- **What a call reports is the session that it ends.** -/
theorem Ctx.Does.ends {call : Call} (h : ctx.Does call ctx' output) : ctx.Ends ctx' output := by
  cases h with
  | nothing hquiet => exact .none hquiet.event hquiet.message fun i hi => hi.1 hi.2
  | started hquiet hs =>
    exact .none hquiet.event hquiet.message fun j hj =>
      ((Ctx.frees_setSession hs.lt).mp hj).2.1 hs.free
  | @handled _ _ _ hd i s s' reply kind received _ hheading hhandles hok hreacts =>
    have hsession := frameSession_eq_some hhandles.found
    rcases hsession.origin with rfl | ⟨hfree, hcommand, -, -, hopen⟩
    · rcases hhandles.moves with ⟨htx, rfl, hcase⟩ | ⟨hrx, hcase⟩
      · obtain ⟨hends, hkind⟩ := hcase.ends htx
        refine .of_reacts hsession.lt hsession.live hreacts hends (fun _ => ?_) ?_
        · simp [hkind, (Session.isTx_iff.mp htx).2]
        · simp only [Option.isSome_none, Bool.false_eq_true, false_iff]
          rintro rfl
          exact absurd hkind (by simp [Event.isRx])
      · obtain ⟨hends, hkind, hmessage⟩ := hcase.ends hrx
        exact .of_reacts hsession.lt hsession.live hreacts hends
          (fun hne => ⟨fun _ => hrx, fun _ => hkind hne⟩) hmessage
    · -- the session is only just opened
      have hrx : s.state = .rx := by rw [hopen]; rfl
      have hnone : kind = .none ∧ received = none := by
        rcases hhandles.moves with ⟨htx, -⟩ | ⟨-, hcase⟩
        · exact absurd hrx (Session.isTx_iff.mp htx).2
        · exact hcase.start_ends hcommand
      exact .none (hreacts.event.trans hnone.1) (hreacts.message.trans hnone.2) fun j hj =>
        ((Ctx.frees_setSession hsession.lt).mp hj).2.1 hfree
  | @expired nowMs i _ hi htimed hreacts =>
    have hlive : (ctx.session i).state ≠ .free := by
      intro hfree
      simp [timedOut, hfree] at htimed
    refine .of_reacts hi hlive hreacts ?_ (fun _ => ?_) ?_
    · split_ifs <;> simp [sessionRelease]
    · split_ifs with hrx <;> simp [hrx, Event.isRx]
    · split_ifs <;> simp
  | @emitted nowMs i s' frame kind _ hi hstate hemit hok hreacts =>
    refine .of_reacts hi (by simp [hstate]) hreacts ?_ (fun _ => ?_) ?_
    · cases hemit <;> simp [hstate, sessionRelease]
    · cases hemit <;> simp [hstate, Event.isRx]
    · cases hemit <;> simp

end Ends

/-! ### What a session has sent -/

/-- What a session has sent of its data is among its pieces; and if it only waits for the
last acknowledgement, they go up to the END. -/
def Session.Logged (s : Session) (pieces : List (Mark MsgMode UInt8)) : Prop :=
  if s.state = .txWaitEndAck then Completes s.data pieces else Covers s.emitted pieces

/-- The pieces after one more, if there is one. -/
def piecesAfter (pieces : List (Mark MsgMode UInt8)) (mark : Option (Mark MsgMode UInt8)) :
    List (Mark MsgMode UInt8) :=
  mark.elim pieces fun m => m.after pieces

section Logged

variable {own : UInt8} {limit : UInt16} {s s' : Session} {nowMs : UInt32} {command : Cmd}
  {reply : Option (Cmd × List UInt8)} {kind : Event} {pieces : List (Mark MsgMode UInt8)}

theorem Session.Logged.covers (h : s.Logged pieces) (hstate : s.state ≠ .txWaitEndAck) :
    Covers s.emitted pieces := by
  rw [Session.Logged, if_neg hstate] at h
  exact h

/-- The bytes of an answer fit a frame. -/
theorem TxCase.length_reply (h : TxCase s nowMs command s' reply kind) (hok : s.Ok own limit)
    (htx : sessionIsTx s = true) : ∀ p ∈ reply, p.2.length ≤ maxLen := by
  intro p hp
  cases h with
  | aborted | finished | ignored => exact absurd hp (by simp)
  | refused | resentStart | end_ =>
    obtain rfl := Option.some.inj hp
    exact Nat.zero_le _
  | resentData hstate =>
    obtain ⟨-, hle, hin⟩ := (hok.tx htx).waitDataAck hstate
    obtain rfl := Option.some.inj hp
    rw [hok.length_readAt hin]
    exact hle
  | data _ _ hle hin =>
    obtain rfl := Option.some.inj hp
    rw [hok.length_readAt hin]
    exact hle

/-- **A session that goes on** has sent what it has sent before, and its answer. -/
theorem TxCase.logged (h : TxCase s nowMs command s' reply kind) (hok : s.Ok own limit)
    (htx : sessionIsTx s = true) (hs : s.Logged pieces) (htx' : sessionIsTx s' = true) :
    s'.Logged (piecesAfter pieces (replyMark reply)) := by
  cases h with
  | aborted | refused | finished => exact absurd htx' (by simp)
  | ignored => exact hs
  | resentStart hstate =>
    -- the START is sent again, so nothing was sent since
    have hnone : s.emitted = [] := by
      simp [Session.emitted, hstate, (hok.tx htx).waitStartAck hstate]
    have hcovers : Covers s.emitted ([] : List (Mark MsgMode UInt8)) := by
      rw [hnone]
      exact covers_nil []
    rw [Session.Logged, if_neg (by simp [hstate])]
    exact hcovers
  | resentData hstate =>
    have hcovers := hs.covers (by simp [hstate])
    rw [Session.Logged, if_neg (by simp [hstate])]
    exact hcovers.concat _
  | @data offset length hacked =>
    obtain ⟨hemitted, hwait⟩ := hacked.emitted
    have hcovers := (hs.covers hwait).data (readAt s.data offset.toNat length.toNat)
    rw [hemitted, readAt, ← List.take_add] at hcovers
    rw [Session.Logged, if_neg (by simp)]
    exact hcovers
  | end_ hacked =>
    obtain ⟨hemitted, hwait⟩ := hacked.emitted
    have hcovers := hs.covers hwait
    rw [hemitted, ← hok.length_data, List.take_length] at hcovers
    rw [Session.Logged, if_pos rfl]
    exact ⟨pieces, rfl, hcovers⟩

/-- **A session that sends is finished** when all of it was sent. -/
theorem TxCase.completes (h : TxCase s nowMs command s' reply .txFinished) (hs : s.Logged pieces) :
    Completes s.data (piecesAfter pieces (replyMark reply)) := by
  cases h with
  | finished hstate =>
    rw [Session.Logged, if_pos hstate] at hs
    exact hs

theorem EmitCase.logged {frame : Cmd × List UInt8} (h : EmitCase s s' frame kind)
    (hstate : s.state = .txWithoutAck) (hs : s.Logged pieces)
    (htx' : sessionIsTx s' = true) : s'.Logged (piecesAfter pieces (replyMark (some frame))) := by
  have hcovers := hs.covers (by simp [hstate])
  have hemitted : s.emitted = s.data.take s.payloadOffset.toNat := by
    simp only [Session.emitted, hstate]
  cases h with
  | end_ => exact absurd htx' (by simp)
  | @data offset length hpos hle hoffset hin =>
    have hnext := hcovers.data (readAt s.data s.payloadOffset.toNat length)
    rw [hemitted, readAt, ← List.take_add, ← hoffset] at hnext
    rw [Session.Logged, if_neg (by simp [hstate]), Session.emitted]
    simp only [hstate]
    exact hnext

theorem EmitCase.completes {frame : Cmd × List UInt8} (h : EmitCase s s' frame .txFinished)
    (hok : s.Ok own limit) (hstate : s.state = .txWithoutAck) (hs : s.Logged pieces) :
    Completes s.data (piecesAfter pieces (replyMark (some frame))) := by
  have hcovers := hs.covers (by simp [hstate])
  simp only [Session.emitted, hstate] at hcovers
  cases h with
  | end_ heq =>
    rw [heq, ← hok.length_data, List.take_length] at hcovers
    exact ⟨pieces, rfl, hcovers⟩

end Logged

/-- The sessions that send have their data in the frames that were sent. -/
def Ctx.Logs (ctx : Ctx) (sent : List CanMessage) : Prop :=
  ∀ i, sessionIsTx (ctx.session i) = true →
    (ctx.session i).Logged (since (ctx.session i).txKey (marks sent))

/-- The frames that a device has put out. -/
def framesOf (outputs : List (Output × Result)) : List CanMessage :=
  outputs.flatMap fun o => o.1.frame.toList

section Logs

variable {ctx ctx' : Ctx} {own : UInt8} {sent frames : List CanMessage} {i : ℕ} {s s' : Session}
  {mark : Option (Mark MsgMode UInt8)} {output : Output}

theorem framesOf_concat (outputs : List (Output × Result)) (output : Output) (result : Result) :
    framesOf (outputs ++ [(output, result)]) = framesOf outputs ++ output.frame.toList := by
  rw [framesOf, List.flatMap_append]
  simp [framesOf]

/-- The pieces of a key after some more frames. -/
theorem since_marks (sent : List CanMessage) {key key' : UInt8 × UInt8}
    (h : marks frames = mark.toList.map fun m => (key, m)) :
    since key' (marks (sent ++ frames)) =
      if key = key' then piecesAfter (since key' (marks sent)) mark
      else since key' (marks sent) := by
  rw [marks_append, h]
  cases mark with
  | none => simp [piecesAfter]
  | some m =>
    rw [Option.toList_some, List.map_singleton, since_concat]
    rfl

/-- A session moves and sends a frame of its own. -/
theorem Ctx.Logs.setSession (h : ctx.Logs sent) (hi : i < ctx.sessions.length)
    (key : UInt8 × UInt8) (mark : Option (Mark MsgMode UInt8))
    (hframes : marks frames = mark.toList.map fun m => (key, m))
    (hother : mark = none ∨
      ∀ j, j ≠ i → sessionIsTx (ctx.session j) = true → (ctx.session j).txKey ≠ key)
    (hself : sessionIsTx s' = true →
      s'.txKey = key ∧ s'.Logged (piecesAfter (since key (marks sent)) mark)) :
    (ctx.setSession i s').Logs (sent ++ frames) := by
  intro j htx
  rw [Ctx.session_setSession hi] at htx ⊢
  rw [since_marks sent hframes]
  split_ifs at htx ⊢ with hj hkey hkey
  · rw [← hkey]
    exact (hself htx).2
  · exact absurd (hself htx).1.symm hkey
  · rcases hother with rfl | hother
    · exact h j htx
    · exact absurd hkey.symm (hother j hj htx)
  · exact h j htx

/-- A session moves that sends nothing. -/
theorem Ctx.Logs.quiet (h : ctx.Logs sent) (hi : i < ctx.sessions.length)
    (hframes : marks frames = []) (hself : sessionIsTx s' = false) :
    (ctx.setSession i s').Logs (sent ++ frames) :=
  h.setSession hi (0, 0) none hframes (.inl rfl)
    fun htx => absurd htx (by simp [hself])

/-- **Whatever a call does**, the sessions that send have their data in the frames. -/
theorem Ctx.Does.logs {call : Call} (h : ctx.Does call ctx' output) (hctx : ctx.Ok)
    (hd : ctx.TxDistinct) (hlogs : ctx.Logs sent) : ctx'.Logs (sent ++ output.frame.toList) := by
  cases h with
  | nothing hquiet hframe =>
    have hmarks : marks output.frame.toList = [] := by
      cases hf : output.frame with
      | none => rfl
      | some frame =>
        obtain ⟨addressTo, sessionId, hto, hid, rfl⟩ := hframe frame hf
        rw [Option.toList_some, marks, List.filterMap_cons,
          frameMark_frameTo _ _ (Nat.lt_succ_of_lt hto) hid (Nat.zero_le _)]
        rfl
    intro j htx
    rw [marks_append, hmarks, List.append_nil]
    exact hlogs j htx
  | @started _ _ _ _ i u s _ hquiet hs =>
    refine hlogs.setSession hs.lt s.txKey (some _) (Sender.mark_start hs)
      (.inr fun j _ htx => hs.txKey_ne htx) fun _ => ⟨rfl, ?_⟩
    have hstate := hs.state
    have hoffset := hs.payloadOffset
    have hnone : s.emitted = [] ∧ s.state ≠ .txWaitEndAck := by
      split_ifs at hstate <;> simp [Session.emitted, hstate, hoffset]
    rw [Session.Logged, if_neg hnone.2, hnone.1]
    exact covers_nil _
  | @handled _ _ _ hd' i s s' reply kind received _ hheading hhandles hok hreacts =>
    have hsession := frameSession_eq_some hhandles.found
    rcases hhandles.moves with ⟨htx, -, hcase⟩ | ⟨hrx, hcase⟩
    · obtain rfl := hsession.eq_of_isTx htx
      have hsok := hctx.sessions i
      refine hlogs.setSession hsession.lt _ _ (hreacts.marks hsok (hcase.length_reply hsok htx))
        (.inr fun j hj hjtx heq => hj (hd j i hjtx htx heq)) fun htx' => ?_
      exact ⟨(hhandles.kept.sends htx').2, hcase.logged hsok htx (hlogs i htx) htx'⟩
    · -- a session that receives sends no piece
      have hsok := hsession.ok hctx
      obtain ⟨-, -, -, -, -, hfrom, hid, hto, -⟩ := heading_eq_some hheading
      obtain ⟨hplain, hmark⟩ := hcase.plain
      refine hlogs.quiet hsession.lt ?_ ?_
      · rw [hreacts.marks (hsok hfrom hid hto) fun p hp => (hplain p hp).length, hmark]
        rfl
      · by_contra htx'
        rw [Bool.not_eq_false] at htx'
        exact (Session.isTx_iff.mp (hhandles.kept.sends htx').1).2 hrx
  | @expired nowMs i _ hi htimed hreacts =>
    have hframe : output.frame = none := hreacts.frame
    exact hlogs.quiet hi (by rw [hframe]; rfl) rfl
  | @emitted nowMs i s' frame kind _ hi hstate hemit hok hreacts =>
    have hsok := hctx.sessions i
    have htx : sessionIsTx (ctx.session i) = true := by simp [sessionIsTx, hstate]
    refine hlogs.setSession hi _ _
      (hreacts.marks hsok fun p hp => Option.some.inj hp ▸ (hemit.plain hsok).1.length)
      (.inr fun j hj hjtx heq => hj (hd j i hjtx htx heq)) fun htx' => ?_
    exact ⟨((hemit.kept hstate).sends htx').2, hemit.logged hstate (hlogs i htx) htx'⟩

/-- A session that is reported as finished has sent all of its data, up to its END. -/
theorem Ctx.Does.completes {call : Call} (h : ctx.Does call ctx' output) (hctx : ctx.Ok)
    (hlogs : ctx.Logs sent) (hfrees : ctx.Frees ctx' i) (hevent : output.event = .txFinished) :
    Completes (ctx.session i).data
      (since (ctx.session i).txKey (marks (sent ++ output.frame.toList))) := by
  have hsok := hctx.sessions i
  cases h with
  | nothing hquiet => exact absurd (hquiet.event.symm.trans hevent) (by simp)
  | started hquiet => exact absurd (hquiet.event.symm.trans hevent) (by simp)
  | @handled _ _ _ hd j s s' reply kind received _ hheading hhandles hok hreacts =>
    obtain rfl : kind = .txFinished := hreacts.event.symm.trans hevent
    have hsession := frameSession_eq_some hhandles.found
    obtain ⟨rfl, -⟩ := (Ctx.frees_setSession hsession.lt).mp hfrees
    rcases hhandles.moves with ⟨htx, -, hcase⟩ | ⟨hrx, hcase⟩
    · obtain rfl := hsession.eq_of_isTx htx
      rw [since_marks sent (hreacts.marks hsok (hcase.length_reply hsok htx)), if_pos rfl]
      exact hcase.completes (hlogs i htx)
    · exact absurd ((hcase.ends hrx).2.1 (by simp)) (by simp [Event.isRx])
  | @expired nowMs j _ hj htimed hreacts =>
    have hkind := hreacts.event.symm.trans hevent
    split_ifs at hkind
  | @emitted nowMs j s' frame kind _ hj hstate hemit hok hreacts =>
    obtain rfl : kind = .txFinished := hreacts.event.symm.trans hevent
    obtain ⟨rfl, -⟩ := (Ctx.frees_setSession hj).mp hfrees
    have htx : sessionIsTx (ctx.session i) = true := by simp [sessionIsTx, hstate]
    rw [since_marks sent (hreacts.marks hsok fun p hp =>
      Option.some.inj hp ▸ (hemit.plain hsok).1.length), if_pos rfl]
    exact hemit.completes hsok hstate (hlogs i htx)

end Logs

/-- The sessions that send have their data in the frames of the whole run. -/
theorem Ctx.Initial.logs {ctx₀ : Ctx} (h : ctx₀.Initial) (calls : List Call) :
    (device.final ctx₀ calls).Ok ∧
      (device.final ctx₀ calls).Logs (framesOf (device.outputs ctx₀ calls)) := by
  have hrun := device.final_outputs (P := fun ctx outputs =>
      ctx.Ok ∧ ctx.TxDistinct ∧ ctx.Logs (framesOf outputs)) (s := ctx₀)
    ⟨h.ok, h.txDistinct, fun i hi => absurd hi (by simp [sessionIsTx, h.free i])⟩
    (fun ctx outputs call ⟨hok, hdistinct, hlogs⟩ => by
      obtain ⟨ctx', output, result, hstep, hdoes⟩ := device_step_does hok call
      have hok' := (device_step_moves hok call).1.ok
      have hdistinct' := hdistinct.step call hok
      rw [hstep] at hok' hdistinct' ⊢
      refine ⟨hok', hdistinct', ?_⟩
      rw [framesOf_concat]
      exact hdoes.logs hok hdistinct hlogs) calls
  exact ⟨hrun.1, hrun.2.2⟩

/-- **Every session that ends is reported exactly once.**  After any run, a call has an
event if and only if it ends a session, and it ends one at most; the event names that
session, it is one of a receiver if the session received, and there is a message if and
only if a transfer was received completely.  A transfer that was sent is reported as
finished only when the frames since its START, of which some may have been sent again,
have all of its payload, and its END. -/
theorem session_ends_once {ctx₀ : Ctx} (h : ctx₀.Initial) (calls : List Call) (call : Call)
    (ctx ctx' : Ctx) (output : Output) (result : Result) (hctx : ctx = device.final ctx₀ calls)
    (hstep : device.step ctx call = (ctx', output, result)) :
    ctx.Ends ctx' output ∧ ∀ i, ctx.Frees ctx' i → output.event = .txFinished →
      Completes (ctx.session i).data (since (ctx.session i).txKey
        (marks (framesOf (device.outputs ctx₀ (calls ++ [call]))))) := by
  obtain ⟨hok, hlogs⟩ := h.logs calls
  rw [← hctx] at hok hlogs
  obtain ⟨ctx'', output', result', hstep', hdoes⟩ := device_step_does hok call
  obtain ⟨rfl, rfl, rfl⟩ : ctx' = ctx'' ∧ output = output' ∧ result = result' := by
    simpa using hstep.symm.trans hstep'
  refine ⟨hdoes.ends, fun i hfrees hevent => ?_⟩
  rw [device.outputs_append, ← hctx, device.outputs_cons, hstep, device.outputs_nil,
    framesOf_concat]
  exact hdoes.completes hok hlogs hfrees hevent

/-- A message without acknowledgement, up to its last data. -/
def smallSend : List Call :=
  [.startSend (smallMsg .withoutAck 1 2) unackedMsg_readable 0 .ample, .process 0]

/-- The call that sends the END reports the session. -/
theorem session_ends_once_smallDevice :
    (device.step (device.final (smallDevice 1 false) smallSend) (.process 0)).2.1.event =
        .txFinished ∧
      Completes [7, 8, 9] (since (2, 0) (marks (framesOf
        (device.outputs (smallDevice 1 false) (smallSend ++ [.process 0]))))) := by
  have hinitial : (smallDevice 1 false).Initial := smallDevice_initial (by decide) false
  have hevent : (device.step (device.final (smallDevice 1 false) smallSend)
      (.process 0)).2.1.event = .txFinished := by decide
  exact ⟨hevent, (session_ends_once hinitial smallSend (.process 0) _ _ _ _ rfl rfl).2 0
    ⟨by decide, by decide⟩ hevent⟩

end Imp
end UniCan
