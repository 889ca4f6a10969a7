import UniCan.Imp.Lookup

/-!
# What a call leaves alone

A call that fails leaves the sessions as they are, and any other call moves one of them
at most: the one that a frame is for, or the free one that a START takes.  And there are
frames that are never answered: nobody could tell which of many devices an answer to a
broadcast comes from, and two devices that answer each other's aborts would not stop.

## Main definitions

* `Result.Refuses` — the results of a frame that no session gets.
* `Ctx.Gets` — the session that a frame is for.
* `Ctx.SameBut` — nothing moves but one session.

## Main results

* `failures_leave` — **calls that fail leave the rest intact.**
* `broadcast_unanswered` — **a broadcast and an abort are never answered.**
-/

namespace UniCan
namespace Imp

/-! ### Sessions that stay -/

/-- The results of a frame that no session gets. -/
def Result.Refuses (result : Result) : Prop :=
  result = .invalidArgument ∨ result = .invalidFrame ∨ result = .wrongAddress ∨
    result = .noFreeSession

/-- Session `i` is the one that is found for a frame, or the free one that its START
takes. -/
inductive Ctx.Gets (ctx : Ctx) (frame : CanMessage) (i : ℕ) : Prop
  | found (h : findSession ctx (canidGetFrom frame.id) (canidGetTo frame.id)
      (canidGetSessionId frame.id) = some i)
  | taken (hnone : findSession ctx (canidGetFrom frame.id) (canidGetTo frame.id)
      (canidGetSessionId frame.id) = none)
      (hstart : canidGetCommand frame.id = Cmd.code .start ∨
        canidGetCommand frame.id = Cmd.code .startWa)
      (h : findFreeSession ctx (canidGetFrom frame.id) = some i)

/-- Every session but `i` is as before. -/
structure Ctx.SameBut (ctx : Ctx) (i : ℕ) (ctx' : Ctx) : Prop where
  length : ctx'.sessions.length = ctx.sessions.length
  sessions : ∀ j, j ≠ i → ctx'.session j = ctx.session j

section Leave

variable {ctx : Ctx} {i : ℕ} {s : Session}

theorem Ctx.SameBut.refl (ctx : Ctx) (i : ℕ) : ctx.SameBut i ctx := ⟨rfl, fun _ _ => rfl⟩

theorem Ctx.SameBut.setSession (ctx : Ctx) (i : ℕ) (s : Session) :
    ctx.SameBut i (ctx.setSession i s) where
  length := length_setSession
  sessions j hj := by
    rw [Ctx.session, Ctx.session, Ctx.setSession, List.getD_eq_getElem?_getD,
      List.getD_eq_getElem?_getD, List.getElem?_set_ne (Ne.symm hj)]

/-- A session that sends refuses no frame. -/
theorem handleTxFrame_takes (ctx : Ctx) (session : Session) (command : Cmd) (nowMs : UInt32)
    (output : Output) : ¬ (handleTxFrame ctx session command nowMs output).2.2.Refuses := by
  unfold handleTxFrame Result.Refuses
  cases command with
  | ack | nack => cases session.state <;> simp
  | start | startWa | data | dataWa | end_ | endWa | abortWa => simp

/-- Appending has one of three results. -/
theorem sessionAppend_takes (ctx : Ctx) (env : Env) (session : Session) (output : Output)
    (data : List UInt8) (length : UInt16) :
    ¬ (sessionAppend ctx env session output data length).2.2.Refuses := by
  unfold sessionAppend appendBytes Result.Refuses
  simp only
  split_ifs
  · simp
  · simp
  · cases env.payload <;> simp
  · simp

/-- A session that receives refuses no frame. -/
theorem handleRxFrame_takes (ctx : Ctx) (env : Env) (session : Session) (frame : CanMessage)
    (command : Cmd) (nowMs : UInt32) (output : Output) :
    ¬ (handleRxFrame ctx env session frame command nowMs output).2.2.Refuses := by
  have hdata := sessionAppend_takes ctx env session output frame.data.toList frame.len
  have hfinish : ¬ (finishRx ctx env session command output).2.2.Refuses := by
    unfold finishRx Result.Refuses
    simp only
    split
    · simp
    · cases msgCreate env session.mode session.peerAddress session.localAddress session.payload
        session.payloadSize <;> simp
  have hok : ¬ Result.ok.Refuses := by simp [Result.Refuses]
  unfold handleRxFrame
  cases command with
  | end_ | endWa => exact hfinish
  | data | dataWa =>
    simp only
    split
    · exact hdata
    · exact hok
  | ack | nack | abortWa | start | startWa => simp [Result.Refuses]

/-- The session that the code takes for a frame. -/
theorem Ctx.Gets.of_frameSession {frame : CanMessage} {command : Cmd} {nowMs : UInt32}
    (hcommand : Cmd.ofCode? (canidGetCommand frame.id) = some command)
    (hs : frameSession ctx (canidGetFrom frame.id) (canidGetTo frame.id)
      (canidGetSessionId frame.id) command nowMs = some (i, s)) : ctx.Gets frame i := by
  unfold frameSession at hs
  cases hfind : findSession ctx (canidGetFrom frame.id) (canidGetTo frame.id)
      (canidGetSessionId frame.id) with
  | some j =>
    rw [hfind] at hs
    obtain ⟨rfl, rfl⟩ := Prod.mk.inj (Option.some.inj hs)
    exact .found hfind
  | none =>
    rw [hfind] at hs
    simp only at hs
    split_ifs at hs with hstart
    obtain ⟨j, hfree, heq⟩ := Option.map_eq_some_iff.mp hs
    obtain ⟨rfl, rfl⟩ := Prod.mk.inj heq
    refine .taken hfind ?_ hfree
    rw [Cmd.ofCode?_eq_some hcommand]
    simp only [Bool.or_eq_true, decide_eq_true_eq] at hstart
    rcases hstart with rfl | rfl
    · exact .inl rfl
    · exact .inr rfl

/-- **A frame is refused**, and nothing moves, or nothing moves but the session that it
is for. -/
theorem addFrame_leaves (ctx : Ctx) (env : Env) (frame : CanMessage) (nowMs : UInt32) :
    (addFrame ctx env frame nowMs).2.2.Refuses ∧ (addFrame ctx env frame nowMs).1 = ctx ∨
      ¬ (addFrame ctx env frame nowMs).2.2.Refuses ∧
        ∃ i, ctx.Gets frame i ∧ ctx.SameBut i (addFrame ctx env frame nowMs).1 := by
  unfold addFrame
  split
  · exact .inl ⟨by simp [Result.Refuses], rfl⟩
  simp only
  split
  · exact .inl ⟨by simp [Result.Refuses], rfl⟩
  cases hcommand : Cmd.ofCode? (canidGetCommand frame.id) with
  | none => exact .inl ⟨by simp [Result.Refuses], rfl⟩
  | some command =>
    simp only
    split
    · exact .inl ⟨by simp [Result.Refuses], rfl⟩
    unfold addCommand
    cases hs : frameSession ctx (canidGetFrom frame.id) (canidGetTo frame.id)
        (canidGetSessionId frame.id) command nowMs with
    | none => exact .inl ⟨by simp [Result.Refuses], rfl⟩
    | some p =>
      obtain ⟨i, s⟩ := p
      refine .inr ⟨?_, i, Ctx.Gets.of_frameSession hcommand hs, Ctx.SameBut.setSession ..⟩
      simp only
      split
      · exact handleTxFrame_takes ctx s command nowMs {}
      · exact handleRxFrame_takes ctx env s frame command nowMs {}

/-- Processing moves one session at most. -/
theorem process_leaves (ctx : Ctx) (nowMs : UInt32) :
    ∃ i, ctx.SameBut i (process ctx nowMs).1 := by
  unfold process
  cases ctx.sessions.findIdx? (timedOut ctx nowMs) with
  | some i => exact ⟨i, Ctx.SameBut.setSession ..⟩
  | none =>
    cases ctx.sessions.findIdx? fun session => session.state == .txWithoutAck with
    | some i => exact ⟨i, Ctx.SameBut.setSession ..⟩
    | none => exact ⟨0, Ctx.SameBut.refl ..⟩

end Leave

/-- **Calls that fail leave the rest intact.**  In every reachable context, a transfer
that cannot be started changes no session and has no frame ready; a frame that no
session gets changes none, and any other frame none but the one that it is for; and
processing changes one at most. -/
theorem failures_leave {ctx : Ctx} (h : ctx.Reachable) :
    (∀ msg : Msg, msg.Readable → ∀ nowMs env, (startSend ctx env msg nowMs).2.2 ≠ .ok →
      (startSend ctx env msg nowMs).1 = ctx ∧ (startSend ctx env msg nowMs).2.1.frame = none) ∧
    (∀ frame nowMs env,
      ((addFrame ctx env frame nowMs).2.2.Refuses → (addFrame ctx env frame nowMs).1 = ctx) ∧
      (¬ (addFrame ctx env frame nowMs).2.2.Refuses →
        ∃ i, ctx.Gets frame i ∧ ctx.SameBut i (addFrame ctx env frame nowMs).1)) ∧
    ∀ nowMs, ∃ i, ctx.SameBut i (process ctx nowMs).1 := by
  refine ⟨fun msg readable nowMs env hfail => ?_, fun frame nowMs env => ?_, process_leaves ctx⟩
  · obtain ⟨r, hr, -, hcase⟩ := startSend_spec h.ok readable nowMs env
    rw [hr] at hfail ⊢
    rcases hcase with ⟨hsame, hframe, -⟩ | ⟨hok, -⟩
    · exact ⟨hsame, hframe⟩
    · exact absurd hok hfail
  · rcases addFrame_leaves ctx env frame nowMs with ⟨hrefuses, hsame⟩ | ⟨htakes, hgets⟩
    · exact ⟨fun _ => hsame, fun htakes => absurd hrefuses htakes⟩
    · exact ⟨fun hrefuses => absurd hrefuses htakes, fun _ => hgets⟩

/-- A device that receives a transfer, and has no memory for one of its own. -/
theorem failures_leave_smallDevice :
    (startSend (device.final (smallDevice 1 false) [.addFrame (frameTo 2 1 1 .start []) 0 .ample])
        { Env.ample with payload := none } (smallMsg .withAck 1 2) 0).2.2 = .cantAllocate ∧
      (startSend
        (device.final (smallDevice 1 false) [.addFrame (frameTo 2 1 1 .start []) 0 .ample])
        { Env.ample with payload := none } (smallMsg .withAck 1 2) 0).1 =
        device.final (smallDevice 1 false) [.addFrame (frameTo 2 1 1 .start []) 0 .ample] := by
  have hresult : (startSend
      (device.final (smallDevice 1 false) [.addFrame (frameTo 2 1 1 .start []) 0 .ample])
      { Env.ample with payload := none } (smallMsg .withAck 1 2) 0).2.2 = .cantAllocate := by
    decide
  have hreachable : (device.final (smallDevice 1 false)
      [.addFrame (frameTo 2 1 1 .start []) 0 .ample]).Reachable :=
    ⟨_, smallDevice_initial (by decide) false, _, rfl⟩
  exact ⟨hresult, ((failures_leave hreachable).1 _ ackedMsg_readable _ _
    (by rw [hresult]; simp)).1⟩

/-! ### Frames that are not answered -/

section Unanswered

variable {ctx : Ctx} {s s' : Session} {nowMs : UInt32} {bytes : List UInt8} {command : Cmd}
  {reply : Option (Cmd × List UInt8)} {kind : Event} {received : Option Msg}

/-- A session that receives answers no command that needs no acknowledgement. -/
theorem RxCase.unanswered (h : RxCase ctx s bytes nowMs command s' reply kind received)
    (hack : command.withoutAck = true) : reply = none := by
  cases h with
  | aborted => rfl
  | refused h => rcases h with rfl | rfl <;> exact absurd hack (by decide)
  | started h => rcases h with rfl | rfl <;> simp_all [Cmd.withoutAck]
  | appended h | dropped h | rejected h | uncreated h | finished h =>
    rcases h with rfl | rfl <;> simp_all [Cmd.withoutAck]

/-- A session that sends is given up without a word. -/
theorem TxCase.unanswered (h : TxCase s nowMs .abortWa s' reply kind) : reply = none := by
  cases h with
  | aborted => rfl
  | refused _ _ habort => exact absurd rfl habort

end Unanswered

/-- **A broadcast and an abort are never answered**, whatever session of a reachable
context gets them, and whether it takes them or not. -/
theorem broadcast_unanswered {ctx : Ctx} (h : ctx.Reachable) (frame : CanMessage)
    (hframe : canidGetTo frame.id = deviceIdAll ∨ canidGetCommand frame.id = Cmd.code .abortWa)
    (nowMs : UInt32) (env : Env) : (addFrame ctx env frame nowMs).2.1.frame = none := by
  obtain ⟨r, hr, hcase⟩ := addFrame_spec h.ok frame nowMs env
  rw [hr]
  rcases hcase with ⟨-, -, hout⟩ | ⟨hd, hheading, hcase⟩
  · rw [hout]
  obtain ⟨-, -, hto, -, hcommand, hfrom, hid, hlocal, hall⟩ := heading_eq_some hheading
  -- a broadcast is let in only if it needs no acknowledgement
  have hack : hd.command.withoutAck = true := by
    rcases hframe with hbroadcast | habort
    · exact hall (hto.trans hbroadcast)
    · rw [habort, Cmd.ofCode?_code, Option.some.injEq] at hcommand
      rw [← hcommand]
      rfl
  rcases hcase with ⟨-, -, -, hout⟩ | ⟨i, s, s', reply, kind, received, hhandles, -, -, hreacts⟩
  · rw [hout, if_pos hack]
  have hsession := frameSession_eq_some hhandles.found
  have hreply : reply = none := by
    rcases hhandles.moves with ⟨htx, -, hcase⟩ | ⟨-, hcase⟩
    · rcases hframe with hbroadcast | habort
      · -- no transfer is sent from the address of all devices
        have hlocal' := ((hsession.ok h.ok hfrom hid hlocal).tx htx).localAddress
        have hown := h.ok.ownAddress
        rw [← hlocal', hsession.localAddress, hto, hbroadcast] at hown
        exact absurd hown (by decide)
      · rw [habort, Cmd.ofCode?_code, Option.some.injEq] at hcommand
        rw [← hcommand] at hcase
        exact hcase.unanswered
    · exact hcase.unanswered hack
  rw [hreacts.frame, hreply]
  rfl

/-- A broadcast that opens a session, and an abort of the transfer that is
being sent. -/
theorem broadcast_unanswered_smallDevice :
    (addFrame (smallDevice 1 false) .ample (frameTo 2 deviceIdAll 1 .startWa []) 0).2.1.frame =
        none ∧
      (addFrame (device.final (smallDevice 1 false)
          [.startSend (smallMsg .withAck 1 2) ackedMsg_readable 0 .ample]) .ample
        (frameTo 2 1 0 .abortWa []) 0).2.1.frame = none :=
  have hinitial : (smallDevice 1 false).Initial := smallDevice_initial (by decide) false
  ⟨broadcast_unanswered hinitial.reachable _ (.inl (by decide)) _ _,
    broadcast_unanswered ⟨_, hinitial, _, rfl⟩ _ (.inr (by decide)) _ _⟩

end Imp
end UniCan
