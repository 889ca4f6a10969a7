import UniCan.Imp.Drain
import UniCan.Imp.Transfer

/-!
# The two sessions of a transfer

A transfer that nothing disturbs takes one session of its sender and one of its receiver,
which answer each other: what both of them say is known to the byte, whatever other
sessions there are.

## Main definitions

* `Session.Awaits` — a session waits for an acknowledgement, and so much of its data is
  still to come after it.
* `Session.Collects` — a session receives a transfer, and has got so much of it.
* `Env.Grants`, `Env.Accepts` — there is memory for everything, and the validator likes the
  message.
* `Ctx.Holds` — a place of a table for the session of a transfer.
* `chosenId` — the id that a transfer gets.

## Main results

* `Ctx.Ok.sends_start`, `Ctx.Holds.sends_data`, `Ctx.Holds.sends_end`,
  `Ctx.Holds.sends_finish` — **what a sender says**, from the START to the last
  acknowledgement.
* `Ctx.Holds.emits_data`, `Ctx.Holds.emits_end` — **what it says when it is processed.**
* `Ctx.Ok.gets_start`, `Ctx.Holds.gets_data`, `Ctx.Holds.gets_end` — **what a receiver
  answers.**
-/

namespace UniCan
namespace Imp

/-! ### The session in its table -/

section Table

variable {ctx : Ctx} {i : ℕ} {s s' : Session} {p : Session → Bool}
  {peerAddress localAddress sessionId : UInt8}

theorem Ctx.setSession_setSession (ctx : Ctx) (i : ℕ) (s s' : Session) :
    (ctx.setSession i s).setSession i s' = ctx.setSession i s' := by
  unfold Ctx.setSession
  simp only [List.set_set]

/-- The only session of its kind is the first one. -/
theorem findIdx?_setSession (hi : i < ctx.sessions.length) (hs : p s = true)
    (hother : ∀ j, j < ctx.sessions.length → j ≠ i → p (ctx.session j) = false) :
    (ctx.setSession i s).sessions.findIdx? p = some i := by
  have hlt : i < (ctx.setSession i s).sessions.length := by rwa [Ctx.length_setSession]
  rw [List.findIdx?_eq_some_iff_getElem]
  refine ⟨hlt, ?_, fun j hj => ?_⟩
  · rw [Ctx.getElem_sessions, Ctx.session_setSession hi, if_pos rfl]
    exact hs
  · rw [Ctx.getElem_sessions, Ctx.session_setSession hi, if_neg (Nat.ne_of_lt hj), Bool.not_eq_true]
    exact hother j (hj.trans hi) (Nat.ne_of_lt hj)

/-- There is still no session of a kind. -/
theorem findIdx?_setSession_none (hi : i < ctx.sessions.length) (hs : p s = false)
    (hother : ∀ j, j < ctx.sessions.length → j ≠ i → p (ctx.session j) = false) :
    (ctx.setSession i s).sessions.findIdx? p = none := by
  rw [List.findIdx?_eq_none_iff]
  intro x hx
  obtain ⟨j, hj, rfl⟩ := List.getElem_of_mem hx
  rw [Ctx.getElem_sessions, Ctx.session_setSession hi]
  split_ifs with hij
  · exact hs
  · rw [Ctx.length_setSession] at hj
    exact hother j hj hij

/-- A session for frames that no other session is for is found. -/
theorem findSession_setSession (hi : i < ctx.sessions.length) (hlive : s.state ≠ .free)
    (hkey : s.key = (peerAddress, localAddress, sessionId))
    (hnone : findSession ctx peerAddress localAddress sessionId = none) :
    findSession (ctx.setSession i s) peerAddress localAddress sessionId = some i := by
  simp only [Session.key, Prod.mk.injEq] at hkey
  refine findIdx?_setSession hi ?_ fun j hj _ => Ctx.findIdx?_eq_none hnone hj
  simp [hlive, hkey.1, hkey.2.1, hkey.2.2]

/-- A session that is released leaves the table as it was before. -/
theorem Ctx.setSession_release (h : ctx.Ok) (hfree : (ctx.session i).state = .free)
    (hmask : s.addressMask = (ctx.session i).addressMask) :
    ctx.setSession i (sessionRelease s) = ctx := by
  have hrelease : sessionRelease s = ctx.session i := by
    rw [(h.sessions i).free hfree, sessionRelease, hmask]
  rw [hrelease]
  exact Ctx.setSession_session

end Table

/-! ### The session of the sender -/

/-- A session waits for its last frame to be acknowledged, and so much of its data is to
come after that. -/
def Session.Awaits (s : Session) (rest : List UInt8) : Prop :=
  ∃ offset, s.Acked offset ∧ rest = s.data.drop offset.toNat

section Sender

variable {ctx : Ctx} {s : Session} {rest : List UInt8} {nowMs : UInt32}

/-- An acknowledgement makes a session emit its next frame. -/
theorem handleTxFrame_acked (h : s.Ok ctx.ownAddress ctx.maxMessageSize) {offset : UInt16}
    (hacked : s.Acked offset) (nowMs : UInt32) : ∃ output : Output, output.seen = {} ∧
      handleTxFrame ctx s .ack nowMs {} =
        ((emitNextAckedFrame ctx { s with payloadOffset := offset } nowMs output).1,
          (emitNextAckedFrame ctx { s with payloadOffset := offset } nowMs output).2, .ok) := by
  unfold handleTxFrame
  cases hacked with
  | start hstate hoffset =>
    subst hoffset
    rw [hstate]
    exact ⟨{}, rfl, rfl⟩
  | data hstate hoffset =>
    have hs := h.tx (by simp [sessionIsTx, hstate])
    obtain ⟨-, -, hin⟩ := hs.waitDataAck hstate
    have heq : UInt16.ofNat (s.payloadOffset.toNat + s.lastDataLength.toNat) = offset := by
      rw [← UInt16.toNat_inj, UInt16.toNat_ofNat', hoffset]
      exact Nat.mod_eq_of_lt (Nat.lt_of_le_of_lt hin s.payloadSize.toNat_lt)
    rw [hstate]
    simp only [heq]
    exact ⟨_, rfl, rfl⟩

/-- A session goes on with its transfer, in its place. -/
structure Session.Continues (s s' : Session) (own : UInt8) (limit : UInt16) : Prop where
  ok : s'.Ok own limit
  key : s'.key = s.key
  addressMask : s'.addressMask = s.addressMask

/-- After an acknowledgement a session that is not released goes on. -/
theorem handleTxFrame_continues (h : s.Ok ctx.ownAddress ctx.maxMessageSize)
    (htx : sessionIsTx s = true) (nowMs : UInt32)
    (hlive : (handleTxFrame ctx s .ack nowMs {}).1.state ≠ .free) :
    s.Continues (handleTxFrame ctx s .ack nowMs {}).1 ctx.ownAddress ctx.maxMessageSize := by
  obtain ⟨s', reply, kind, hcase, hreacts⟩ := handleTxFrame_spec h htx .ack nowMs
  have hsession : (handleTxFrame ctx s .ack nowMs {}).1 = s' := hreacts.session
  rw [hsession] at hlive ⊢
  rcases hcase.kept htx with hfree | ⟨hkey, -⟩
  · exact absurd hfree hlive
  · exact ⟨hcase.ok h htx, hkey, hcase.addressMask⟩

/-- A session that has sent the next data of its transfer. -/
theorem emitNextAckedFrame_data (ctx : Ctx) (output : Output) (nowMs : UInt32)
    (hlt : s.payloadOffset < s.payloadSize) :
    ∃ s', emitNextAckedFrame ctx s nowMs output =
        (s', answerData ctx output s' .data (nextLength s')) ∧
      s'.state = .txWaitDataAck ∧ s'.lastDataLength = nextLength s' ∧
      s'.payloadOffset = s.payloadOffset ∧ s'.payloadSize = s.payloadSize ∧ s'.data = s.data := by
  rw [emitNextAckedFrame, if_pos hlt]
  exact ⟨_, rfl, rfl, rfl, rfl, rfl, rfl⟩

/-- **An acknowledgement is answered with the next data**, as long as there is some. -/
theorem handleTxFrame_data (h : s.Ok ctx.ownAddress ctx.maxMessageSize) (hawaits : s.Awaits rest)
    (hrest : rest ≠ []) (nowMs : UInt32) :
    ∃ s' output, handleTxFrame ctx s .ack nowMs {} = (s', output, .ok) ∧
      s.Continues s' ctx.ownAddress ctx.maxMessageSize ∧ s'.Awaits (rest.drop 8) ∧
      output.seen = { frame := some (frameTo ctx.ownAddress s.peerAddress s.sessionId .data
        (rest.take 8)) } := by
  obtain ⟨offset, hacked, rfl⟩ := hawaits
  have hlt : offset < s.payloadSize := by
    rw [UInt16.lt_iff_toNat_lt, ← h.length_data]
    exact Nat.lt_of_not_le fun hle => hrest (List.drop_eq_nil_of_le hle)
  obtain ⟨output, hseen, hack⟩ := handleTxFrame_acked h hacked nowMs
  obtain ⟨s', hemit, hstate, hlast, hoffset, hsize, hdata⟩ :=
    emitNextAckedFrame_data ctx output nowMs (s := { s with payloadOffset := offset }) hlt
  rw [hemit] at hack
  have hcontinues := handleTxFrame_continues h hacked.waits.2 nowMs
    (by rw [hack]; simp [hstate])
  rw [hack] at hcontinues ⊢
  have hok := hcontinues.ok
  have hs' := hok.tx (by simp [sessionIsTx, hstate])
  have hlt' : s'.payloadOffset < s'.payloadSize := by
    rw [hoffset, hsize]
    exact hlt
  have hle := UInt16.le_of_lt hlt'
  obtain ⟨-, -, hin⟩ := nextLength_spec s' hlt'
  have hnext : (UInt16.ofNat (s'.payloadOffset.toNat + (nextLength s').toNat)).toNat =
      s'.payloadOffset.toNat + (nextLength s').toNat :=
    UInt16.toNat_ofNat_of_lt' (Nat.lt_of_le_of_lt hin s'.payloadSize.toNat_lt)
  have hremaining : s'.remaining = s.data.drop offset.toNat := by
    rw [Session.remaining, hdata, hoffset]
    rfl
  have hkey := hcontinues.key
  simp only [Session.key, Prod.mk.injEq] at hkey
  refine ⟨s', _, rfl, hcontinues, ⟨_, .data hstate (by rw [hnext, hlast]), ?_⟩, ?_⟩
  · rw [hnext, hok.drop_nextLength hle, hremaining]
  · have hframe := answerData_frame ctx output .data hok hs' hin
    rw [hok.readAt_nextLength hle, hremaining, hkey.1, hkey.2.2] at hframe
    show ({ output.seen with frame := _ } : Output) = _
    rw [hseen, hframe]

/-- **After the last data comes the END.** -/
theorem handleTxFrame_end (h : s.Ok ctx.ownAddress ctx.maxMessageSize) (hawaits : s.Awaits [])
    (nowMs : UInt32) :
    ∃ s' output, handleTxFrame ctx s .ack nowMs {} = (s', output, .ok) ∧
      s.Continues s' ctx.ownAddress ctx.maxMessageSize ∧ s'.state = .txWaitEndAck ∧
      output.seen =
        { frame := some (frameTo ctx.ownAddress s.peerAddress s.sessionId .end_ []) } := by
  obtain ⟨offset, hacked, hnil⟩ := hawaits
  have hlt : ¬ offset < s.payloadSize := by
    rw [UInt16.lt_iff_toNat_lt, ← h.length_data, Nat.not_lt]
    exact List.drop_eq_nil_iff.mp hnil.symm
  obtain ⟨output, hseen, hack⟩ := handleTxFrame_acked h hacked nowMs
  rw [emitNextAckedFrame, if_neg hlt] at hack
  have hcontinues := handleTxFrame_continues h hacked.waits.2 nowMs (by rw [hack]; simp)
  rw [hack] at hcontinues ⊢
  refine ⟨_, _, rfl, hcontinues, rfl, ?_⟩
  have hframe := answer_frame ctx output s .end_
  show ({ output.seen with frame := (answer ctx output s .end_).frame } : Output) = _
  rw [hseen, hframe]

/-- **The last acknowledgement finishes the transfer.** -/
theorem handleTxFrame_finish (hstate : s.state = .txWaitEndAck) (nowMs : UInt32) :
    handleTxFrame ctx s .ack nowMs {} = (sessionRelease s, setEvent {} .txFinished s, .ok) := by
  unfold handleTxFrame
  rw [hstate]

end Sender

/-! ### The session of the receiver -/

/-- The command that starts a transfer. -/
def MsgMode.start (mode : MsgMode) : Cmd := if mode = .withAck then .start else .startWa

/-- The command that takes its data. -/
def MsgMode.data (mode : MsgMode) : Cmd := if mode = .withAck then .data else .dataWa

/-- The command that ends it. -/
def MsgMode.end_ (mode : MsgMode) : Cmd := if mode = .withAck then .end_ else .endWa

/-- How a device answers the frames of a transfer. -/
def MsgMode.answer (mode : MsgMode) (own peer sessionId : UInt8) : Option CanMessage :=
  if mode = .withAck then some (frameTo own peer sessionId .ack []) else none

/-- A session receives a transfer, and has got so much of its data. -/
structure Session.Collects (s : Session) (mode : MsgMode) (data : List UInt8) : Prop where
  state : s.state = .rx
  mode : s.mode = mode
  data : s.data = data

/-- A call gets all the memory that it asks for. -/
def Env.Grants (env : Env) : Prop :=
  env.payload.isSome = true ∧ env.calloc = true ∧ env.malloc = true

/-- The validator likes a message, whatever there is behind its bytes in the buffer. -/
def Env.Accepts (env : Env) (msg : Msg) : Prop :=
  ∀ candidate : Msg, { candidate with data := msg.data } = msg → candidate.bytes = msg.bytes →
    env.validates candidate = true

section Receiver

variable {ctx : Ctx} {env : Env} {s : Session} {nowMs : UInt32} {mode : MsgMode}
  {data bytes : List UInt8} {length : UInt16} {output : Output}

/-- Appending says nothing at all. -/
theorem sessionAppend_seen (ctx : Ctx) (env : Env) (s : Session) (output : Output)
    (data : List UInt8) (length : UInt16) :
    (sessionAppend ctx env s output data length).2.1.seen = output.seen := by
  unfold sessionAppend appendBytes
  simp only
  split_ifs
  · rfl
  · rfl
  · cases env.payload <;> rfl
  · rfl

/-- Appending works when there is room, and memory. -/
theorem sessionAppend_ok (hroom : s.payloadSize.toNat + length.toNat ≤ ctx.maxMessageSize.toNat)
    (henv : env.payload.isSome = true) :
    (sessionAppend ctx env s output bytes length).2.2 = .ok := by
  obtain ⟨fresh, hfresh⟩ := Option.isSome_iff_exists.mp henv
  unfold sessionAppend appendBytes
  simp only [hfresh]
  rw [if_neg (Nat.not_lt.mpr hroom)]
  split_ifs <;> rfl

/-- A session that is not released goes on. -/
theorem handleRxFrame_continues (h : s.Ok ctx.ownAddress ctx.maxMessageSize) (hrx : s.state = .rx)
    (env : Env) {frame : CanMessage} (hlen : frame.len.toNat ≤ maxLen) (command : Cmd)
    (nowMs : UInt32) (hlive : (handleRxFrame ctx env s frame command nowMs {}).1.state ≠ .free) :
    s.Continues (handleRxFrame ctx env s frame command nowMs {}).1 ctx.ownAddress
      ctx.maxMessageSize := by
  obtain ⟨s', reply, kind, received, hcase, hreacts⟩ := handleRxFrame_spec h hlen env command nowMs
  have hsession : (handleRxFrame ctx env s frame command nowMs {}).1 = s' := hreacts.session
  rw [hsession] at hlive ⊢
  rcases hcase.kept hrx with hfree | ⟨hkey, -⟩
  · exact absurd hfree hlive
  · exact ⟨hcase.ok h hrx, hkey, hcase.addressMask⟩

/-- What is answered without data, if anything is. -/
theorem seen_answer (hseen : output.seen = {}) (s : Session) :
    (if mode = .withAck then answer ctx output s .ack else output).seen =
      { frame := mode.answer ctx.ownAddress s.peerAddress s.sessionId } := by
  unfold MsgMode.answer
  split_ifs
  · show ({ output.seen with frame := (answer ctx output s .ack).frame } : Output) = _
    rw [hseen, answer_frame]
  · exact hseen

/-- **Data is kept, and answered.** -/
theorem handleRxFrame_collects (h : s.Ok ctx.ownAddress ctx.maxMessageSize)
    (hs : s.Collects mode data) (henv : env.Grants) {frame : CanMessage}
    (hlen : frame.len.toNat ≤ maxLen)
    (hroom : data.length + frame.bytes.length ≤ ctx.maxMessageSize.toNat) (nowMs : UInt32) :
    ∃ s' output, handleRxFrame ctx env s frame mode.data nowMs {} = (s', output, .ok) ∧
      s.Continues s' ctx.ownAddress ctx.maxMessageSize ∧ s'.Collects mode (data ++ frame.bytes) ∧
      output.seen = { frame := mode.answer ctx.ownAddress s.peerAddress s.sessionId } := by
  have hdata : frame.len.toNat ≤ frame.data.toList.length := by
    rw [Vector.length_toList]
    exact hlen
  have hbytes : frame.bytes.length = frame.len.toNat := by
    rw [CanMessage.bytes, List.length_take]
    exact Nat.min_eq_left hdata
  have hok : (sessionAppend ctx env s {} frame.data.toList frame.len).2.2 = .ok := by
    refine sessionAppend_ok ?_ henv.1
    rw [← h.length_data, hs.data, ← hbytes]
    exact hroom
  have hseen := sessionAppend_seen ctx env s {} frame.data.toList frame.len
  obtain ⟨-, hcases⟩ := sessionAppend_spec env h hdata Output.safe_empty
  rcases hcases with ⟨hne, -⟩ | ⟨-, payload, size, capacity, hnew, -, -, -, htake⟩
  · exact absurd hok hne
  have hstep : handleRxFrame ctx env s frame mode.data nowMs {} =
      ({ (sessionAppend ctx env s {} frame.data.toList frame.len).1 with lastActivityMs := nowMs },
        if mode = .withAck then
          answer ctx (sessionAppend ctx env s {} frame.data.toList frame.len).2.1
            { (sessionAppend ctx env s {} frame.data.toList frame.len).1 with
              lastActivityMs := nowMs } .ack
        else (sessionAppend ctx env s {} frame.data.toList frame.len).2.1, .ok) := by
    unfold MsgMode.data
    split_ifs <;> simp [handleRxFrame, hok]
  have hcontinues := handleRxFrame_continues h hs.state env hlen mode.data nowMs (by
    rw [hstep, hnew]
    simp [hs.state])
  rw [hstep] at hcontinues ⊢
  refine ⟨_, _, rfl, hcontinues, ?_, ?_⟩
  · rw [hnew]
    refine ⟨hs.state, hs.mode, ?_⟩
    rw [← hs.data]
    exact htake
  · rw [seen_answer hseen, hnew]

/-- **A START is answered**, and nothing has come yet. -/
theorem handleRxFrame_opens (h : s.Ok ctx.ownAddress ctx.maxMessageSize) (hrx : s.state = .rx)
    (hlocal : s.localAddress.toNat < 31) (hmode : mode ≠ .other) (env : Env) {frame : CanMessage}
    (hlen : frame.len.toNat ≤ maxLen) (nowMs : UInt32) :
    ∃ s' output, handleRxFrame ctx env s frame mode.start nowMs {} = (s', output, .ok) ∧
      s.Continues s' ctx.ownAddress ctx.maxMessageSize ∧ s'.Collects mode [] ∧
      output.seen = { frame := mode.answer ctx.ownAddress s.peerAddress s.sessionId } := by
  have hnotall := ne_deviceIdAll hlocal
  obtain ⟨s', hs'⟩ : ∃ s' : Session, s' = { s with
      payload := none
      payloadSize := 0
      payloadCapacity := 0
      payloadOffset := 0
      mode := mode
      lastActivityMs := nowMs } := ⟨_, rfl⟩
  have hstep : handleRxFrame ctx env s frame mode.start nowMs {} =
      (s', if mode = .withAck then answer ctx {} s' .ack else {}, .ok) := by
    rw [hs']
    cases mode with
    | withAck | withoutAck => simp [handleRxFrame, MsgMode.start, startMode, hnotall]
    | other => exact absurd rfl hmode
  have hstate : s'.state = .rx := by
    rw [hs']
    exact hrx
  have hcontinues := handleRxFrame_continues h hrx env hlen mode.start nowMs
    (by rw [hstep]; simp [hstate])
  rw [hstep] at hcontinues ⊢
  refine ⟨s', _, rfl, hcontinues, ⟨hstate, by rw [hs'], by rw [hs']; rfl⟩, ?_⟩
  rw [seen_answer rfl, hs']

/-- There is a message to be made of a session. -/
theorem msgCreate_grants (h : s.Ok ctx.ownAddress ctx.maxMessageSize) (henv : env.Grants)
    (hmode : s.mode ≠ .other) (hpeer : s.peerAddress.toNat < 31)
    (hlocal : s.localAddress.toNat < 31) :
    ∃ msg,
      msgCreate env s.mode s.peerAddress s.localAddress s.payload s.payloadSize = some msg := by
  have hsource := (sourceAddressValid_iff _).mpr hpeer
  have hvalid := (addressValid_iff _).mpr (Nat.lt_succ_of_lt hlocal)
  have hpayload : (decide (s.payloadSize > 0) && s.payload.isNone) = false := by
    cases hsome : s.payload with
    | some payload => simp
    | none =>
      -- nothing fits a buffer that is not there
      have hbuffer := h.buffer
      have hsize := UInt16.le_iff_toNat_le.mp h.size_le
      rw [hsome, Option.getD_none, List.length_nil] at hbuffer
      simp only [gt_iff_lt, UInt16.lt_iff_toNat_lt]
      simp
      omega
  unfold msgCreate
  simp [hmode, hsource, hvalid, hpayload, henv.2.1, henv.2.2]

/-- The validator likes the message of a session. -/
theorem Env.Accepts.validates (h : s.Ok ctx.ownAddress ctx.maxMessageSize)
    (hlocal : s.localAddress ≠ deviceIdAll) (haccepts : env.Accepts s.msg) :
    env.validates ⟨s.mode, s.peerAddress, s.localAddress, s.sessionId, s.payloadSize, s.payload⟩ =
      true := by
  refine haccepts _ ?_ ?_
  · simp [Session.msg, hlocal]
  · show s.data = s.msg.bytes
    have hlength := h.length_data
    rw [Msg.bytes, Session.msg]
    simp only
    split_ifs with hpos
    · rw [Option.getD_some, List.take_of_length_le (Nat.le_of_eq hlength)]
    · rw [gt_iff_lt, UInt16.lt_iff_toNat_lt] at hpos
      rw [Option.getD_none, List.take_nil, ← List.length_eq_zero_iff, hlength]
      exact Nat.eq_zero_of_not_pos hpos

/-- **The END is answered, and the message is reported.** -/
theorem handleRxFrame_finish (h : s.Ok ctx.ownAddress ctx.maxMessageSize)
    (hs : s.Collects mode data) (hmode : mode ≠ .other) (henv : env.Grants)
    (hvalidator : ctx.messageValidator = true → env.Accepts s.msg)
    (hpeer : s.peerAddress.toNat < 31) (hlocal : s.localAddress.toNat < 31)
    (frame : CanMessage) (nowMs : UInt32) :
    ∃ output, handleRxFrame ctx env s frame mode.end_ nowMs {} = (sessionRelease s, output, .ok) ∧
      output.seen = {
        frame := mode.answer ctx.ownAddress s.peerAddress s.sessionId
        receivedMessage := some s.msg
        event := .rxFinished
        peerAddress := s.peerAddress
        sessionId := s.sessionId } := by
  have hnotall := ne_deviceIdAll hlocal
  have hvalid : ¬ (ctx.messageValidator && !env.validates ⟨s.mode, s.peerAddress, s.localAddress,
      s.sessionId, s.payloadSize, s.payload⟩) = true := by
    simp only [Bool.and_eq_true, Bool.not_eq_true', not_and, Bool.not_eq_false]
    exact fun hsome => (hvalidator hsome).validates h hnotall
  obtain ⟨msg, hmsg⟩ := msgCreate_grants h henv (by rw [hs.mode]; exact hmode) hpeer hlocal
  have hsession := msgCreate_session hmsg
  have hend : ∀ command : Cmd, (command = .end_ ↔ mode = .withAck) →
      ∃ output, finishRx ctx env s command {} = (sessionRelease s, output, .ok) ∧
        output.seen = {
          frame := mode.answer ctx.ownAddress s.peerAddress s.sessionId
          receivedMessage := some s.msg
          event := .rxFinished
          peerAddress := s.peerAddress
          sessionId := s.sessionId } := by
    intro command hcommand
    unfold finishRx
    simp only [if_neg hvalid, hmsg, hsession, hcommand]
    have hframe : (if mode = .withAck then answer ctx {} s .ack else {}).frame =
        mode.answer ctx.ownAddress s.peerAddress s.sessionId :=
      congrArg Output.frame (seen_answer rfl s)
    refine ⟨_, rfl, ?_⟩
    rw [← hframe]
    rfl
  unfold MsgMode.end_
  split_ifs with hack
  · exact hend .end_ (by simp [hack])
  · exact hend .endWa (by simp [hack])

end Receiver

/-! ### Their devices -/

/-- A place of a table is free for session `s`, which is the only one for the frames of a
transfer with a peer. -/
structure Ctx.Holds (ctx : Ctx) (i : ℕ) (peer sessionId : UInt8) (s : Session) : Prop where
  table : ctx.Ok
  peer_lt : peer.toNat < 31
  lt : i < ctx.sessions.length
  free : (ctx.session i).state = .free
  unused : findSession ctx peer ctx.ownAddress sessionId = none
  addressMask : s.addressMask = (ctx.session i).addressMask
  key : s.key = (peer, ctx.ownAddress, sessionId)
  ok : s.Ok ctx.ownAddress ctx.maxMessageSize

namespace Ctx.Holds

variable {ctx : Ctx} {i : ℕ} {peer sessionId : UInt8} {s s' : Session}
  {rest data bytes : List UInt8}
  {mode : MsgMode} {command : Cmd} {env : Env} {nowMs : UInt32}

theorem continues (h : ctx.Holds i peer sessionId s)
    (hs : s.Continues s' ctx.ownAddress ctx.maxMessageSize) : ctx.Holds i peer sessionId s' :=
  { h with
    addressMask := hs.addressMask.trans h.addressMask
    key := hs.key.trans h.key
    ok := hs.ok }

theorem release (h : ctx.Holds i peer sessionId s) :
    ctx.setSession i (sessionRelease s) = ctx :=
  Ctx.setSession_release h.table h.free h.addressMask

theorem fields (h : ctx.Holds i peer sessionId s) : s.peerAddress = peer ∧
    s.localAddress = ctx.ownAddress ∧ s.sessionId = sessionId ∧ sessionId.toNat < 16 := by
  have hkey := h.key
  simp only [Session.key, Prod.mk.injEq] at hkey
  exact ⟨hkey.1, hkey.2.1, hkey.2.2, hkey.2.2 ▸ h.ok.sessionId⟩

/-- **A frame of the transfer reaches its session**, and no other. -/
theorem addFrame (h : ctx.Holds i peer sessionId s) (hlive : s.state ≠ .free)
    (hlen : bytes.length ≤ maxLen) (command : Cmd) (nowMs : UInt32) (env : Env) :
    device.step (ctx.setSession i s)
        (.addFrame (frameTo peer ctx.ownAddress sessionId command bytes) nowMs env) =
      (let r := if sessionIsTx s then handleTxFrame ctx s command nowMs {}
        else handleRxFrame ctx env s (frameTo peer ctx.ownAddress sessionId command bytes) command
          nowMs {}
       (ctx.setSession i r.1, r.2.1, r.2.2)) := by
  have heq := addFrame_eq (ctx.setSession i s) env
    (frameTo peer ctx.ownAddress sessionId command bytes) nowMs
  rw [Ctx.setSession_ownAddress,
    heading_frameTo h.peer_lt (.inl rfl) h.table.ownAddress h.fields.2.2.2 hlen] at heq
  have hfind := findSession_setSession h.lt hlive h.key h.unused
  have hsession : frameSession (ctx.setSession i s) peer ctx.ownAddress sessionId command nowMs =
      some (i, s) := by
    rw [frameSession, hfind]
    simp only [Ctx.session_setSession h.lt, if_true]
  simp only at heq
  show UniCan.Imp.addFrame _ _ _ _ = _
  rw [heq, addCommand, hsession]
  simp only [Ctx.setSession_setSession]
  rfl

/-- The same for a session that sends, and an acknowledgement. -/
theorem addFrame_ack (h : ctx.Holds i peer sessionId s) (htx : sessionIsTx s = true)
    (nowMs : UInt32) (env : Env) {output : Output}
    (hack : handleTxFrame ctx s .ack nowMs {} = (s', output, .ok)) :
    device.step (ctx.setSession i s)
        (.addFrame (frameTo peer ctx.ownAddress sessionId .ack []) nowMs env) =
      (ctx.setSession i s', output, .ok) := by
  rw [h.addFrame (Session.isTx_iff.mp htx).1 (Nat.zero_le _)]
  simp only [htx, if_true, hack]

/-- The same for a session that receives. -/
theorem addFrame_rx (h : ctx.Holds i peer sessionId s) (hrx : s.state = .rx)
    (hlen : bytes.length ≤ maxLen) {output : Output}
    (hrun : handleRxFrame ctx env s (frameTo peer ctx.ownAddress sessionId command bytes) command
      nowMs {} = (s', output, .ok)) :
    device.step (ctx.setSession i s)
        (.addFrame (frameTo peer ctx.ownAddress sessionId command bytes) nowMs env) =
      (ctx.setSession i s', output, .ok) := by
  have hnotx : ¬ sessionIsTx s = true := by simp [sessionIsTx, hrx]
  rw [h.addFrame (by simp [hrx]) hlen]
  simp only [hnotx, hrun]
  rfl

/-- **The sender hears an acknowledgement**, and goes on with its data. -/
theorem sends_data (h : ctx.Holds i peer sessionId s) (hawaits : s.Awaits rest) (hrest : rest ≠ [])
    (nowMs : UInt32) (env : Env) :
    ∃ s' output, device.step (ctx.setSession i s)
        (.addFrame (frameTo peer ctx.ownAddress sessionId .ack []) nowMs env) =
        (ctx.setSession i s', output, .ok) ∧
      ctx.Holds i peer sessionId s' ∧ s'.Awaits (rest.drop 8) ∧
      output.seen =
        { frame := some (frameTo ctx.ownAddress peer sessionId .data (rest.take 8)) } := by
  obtain ⟨s', output, hack, hcontinues, hawaits', hseen⟩ :=
    handleTxFrame_data h.ok hawaits hrest nowMs
  obtain ⟨offset, hacked, -⟩ := hawaits
  obtain ⟨hpeer, -, hid, -⟩ := h.fields
  rw [hpeer, hid] at hseen
  exact ⟨s', output, h.addFrame_ack hacked.waits.2 nowMs env hack, h.continues hcontinues, hawaits',
    hseen⟩

theorem sends_end (h : ctx.Holds i peer sessionId s) (hawaits : s.Awaits []) (nowMs : UInt32)
    (env : Env) :
    ∃ s' output, device.step (ctx.setSession i s)
        (.addFrame (frameTo peer ctx.ownAddress sessionId .ack []) nowMs env) =
        (ctx.setSession i s', output, .ok) ∧
      ctx.Holds i peer sessionId s' ∧ s'.state = .txWaitEndAck ∧
      output.seen = { frame := some (frameTo ctx.ownAddress peer sessionId .end_ []) } := by
  obtain ⟨s', output, hack, hcontinues, hstate, hseen⟩ := handleTxFrame_end h.ok hawaits nowMs
  obtain ⟨offset, hacked, -⟩ := hawaits
  obtain ⟨hpeer, -, hid, -⟩ := h.fields
  rw [hpeer, hid] at hseen
  exact ⟨s', output, h.addFrame_ack hacked.waits.2 nowMs env hack, h.continues hcontinues, hstate,
    hseen⟩

/-- After the last acknowledgement the table is what it was. -/
theorem sends_finish (h : ctx.Holds i peer sessionId s) (hstate : s.state = .txWaitEndAck)
    (nowMs : UInt32) (env : Env) :
    ∃ output, device.step (ctx.setSession i s)
        (.addFrame (frameTo peer ctx.ownAddress sessionId .ack []) nowMs env) =
        (ctx, output, .ok) ∧
      output.seen = { event := .txFinished, peerAddress := peer, sessionId := sessionId } := by
  obtain ⟨hpeer, -, hid, -⟩ := h.fields
  have hstep := h.addFrame_ack (by simp [sessionIsTx, hstate]) nowMs env
    (handleTxFrame_finish hstate nowMs)
  rw [h.release] at hstep
  refine ⟨_, hstep, ?_⟩
  rw [← hpeer, ← hid]
  rfl

/-- **The receiver gets data**, and keeps it. -/
theorem gets_data (h : ctx.Holds i peer sessionId s) (hs : s.Collects mode data)
    (henv : env.Grants) (hlen : bytes.length ≤ maxLen)
    (hroom : data.length + bytes.length ≤ ctx.maxMessageSize.toNat) (nowMs : UInt32) :
    ∃ s' output, device.step (ctx.setSession i s)
        (.addFrame (frameTo peer ctx.ownAddress sessionId mode.data bytes) nowMs env) =
        (ctx.setSession i s', output, .ok) ∧
      ctx.Holds i peer sessionId s' ∧ s'.Collects mode (data ++ bytes) ∧
      output.seen = { frame := mode.answer ctx.ownAddress peer sessionId } := by
  obtain ⟨hpeer, -, hid, -⟩ := h.fields
  have hbytes : (frameTo peer ctx.ownAddress sessionId mode.data bytes).bytes = bytes :=
    bytes_frameTo hlen
  have hlen' : (frameTo peer ctx.ownAddress sessionId mode.data bytes).len.toNat ≤ maxLen := by
    rw [len_frameTo hlen]
    exact hlen
  obtain ⟨s', output, hrun, hcontinues, hcollects, hseen⟩ := handleRxFrame_collects h.ok hs henv
    hlen' (by rw [hbytes]; exact hroom) nowMs
  rw [hbytes] at hcollects
  rw [hpeer, hid] at hseen
  exact ⟨s', output, h.addFrame_rx hs.state hlen hrun, h.continues hcontinues, hcollects, hseen⟩

/-- After the END the table is what it was. -/
theorem gets_end (h : ctx.Holds i peer sessionId s) (hs : s.Collects mode data)
    (hmode : mode ≠ .other) (henv : env.Grants)
    (hvalidator : ctx.messageValidator = true → env.Accepts s.msg) (nowMs : UInt32) :
    ∃ output, device.step (ctx.setSession i s)
        (.addFrame (frameTo peer ctx.ownAddress sessionId mode.end_ []) nowMs env) =
        (ctx, output, .ok) ∧
      output.seen = {
        frame := mode.answer ctx.ownAddress peer sessionId
        receivedMessage := some s.msg
        event := .rxFinished
        peerAddress := peer
        sessionId := sessionId } := by
  obtain ⟨hpeer, hlocal, hid, -⟩ := h.fields
  obtain ⟨output, hrun, hseen⟩ := handleRxFrame_finish h.ok hs hmode henv hvalidator
    (by rw [hpeer]; exact h.peer_lt) (by rw [hlocal]; exact h.table.ownAddress)
    (frameTo peer ctx.ownAddress sessionId mode.end_ []) nowMs
  have hstep := h.addFrame_rx hs.state (Nat.zero_le _) hrun
  rw [h.release] at hstep
  rw [hpeer, hid] at hseen
  exact ⟨output, hstep, hseen⟩

/-- Nothing else is to be done: no session of the table has waited too long, or sends
without acknowledgement. -/
theorem process_eq (h : ctx.Holds i peer sessionId s) (hstate : s.state = .txWithoutAck)
    (htime : ∀ j, timedOut ctx nowMs (ctx.session j) = false)
    (hstill : ∀ j, (ctx.session j).state ≠ .txWithoutAck) :
    device.step (ctx.setSession i s) (.process nowMs) =
      (ctx.setSession i (processSession ctx s).1, (processSession ctx s).2, .ok) := by
  have htimed : (ctx.setSession i s).sessions.findIdx? (timedOut (ctx.setSession i s) nowMs) =
      none :=
    findIdx?_setSession_none h.lt (by simp [timedOut, hstate]) fun j _ _ => htime j
  have hstreams : (ctx.setSession i s).sessions.findIdx? Session.streams = some i :=
    findIdx?_setSession h.lt (by simp [Session.streams, hstate]) fun j _ _ => by
      simpa [Session.streams] using hstill j
  show process (ctx.setSession i s) nowMs = _
  rw [process_of_streams _ htimed hstreams, Ctx.session_setSession h.lt, if_pos rfl,
    Ctx.setSession_setSession]
  rfl

/-- **The sender is processed**, and sends its next data. -/
theorem emits_data (h : ctx.Holds i peer sessionId s) (hstate : s.state = .txWithoutAck)
    (htime : ∀ j, timedOut ctx nowMs (ctx.session j) = false)
    (hstill : ∀ j, (ctx.session j).state ≠ .txWithoutAck) (hrest : s.remaining ≠ []) :
    ∃ s' output, device.step (ctx.setSession i s) (.process nowMs) =
        (ctx.setSession i s', output, .ok) ∧
      ctx.Holds i peer sessionId s' ∧ s'.state = .txWithoutAck ∧
      s'.remaining = s.remaining.drop 8 ∧ output.seen = {
        frame := some (frameTo ctx.ownAddress peer sessionId .dataWa (s.remaining.take 8))
        peerAddress := peer
        sessionId := sessionId } := by
  have hlt : s.payloadOffset < s.payloadSize := by
    have hlength := h.ok.length_remaining
    rw [← List.length_pos_iff, hlength] at hrest
    rw [UInt16.lt_iff_toNat_lt]
    omega
  obtain ⟨offset, hnext, hremaining, hseen⟩ := processSession_data h.ok hstate hlt
  obtain ⟨s', frame, kind, hemit, hreacts⟩ := processSession_spec h.ok hstate
  have hok := hemit.ok h.ok hstate
  rw [← hreacts.session] at hok
  obtain ⟨hpeer, -, hid, -⟩ := h.fields
  refine ⟨_, _, h.process_eq hstate htime hstill, h.continues ⟨hok, ?_, ?_⟩, ?_, hremaining, ?_⟩
  · rw [hnext]
    rfl
  · rw [hnext]
  · rw [hnext]
    exact hstate
  · rw [hseen, dataOutput, hpeer, hid]

/-- After the END the table is what it was. -/
theorem emits_end (h : ctx.Holds i peer sessionId s) (hstate : s.state = .txWithoutAck)
    (htime : ∀ j, timedOut ctx nowMs (ctx.session j) = false)
    (hstill : ∀ j, (ctx.session j).state ≠ .txWithoutAck) (hrest : s.remaining = []) :
    ∃ output, device.step (ctx.setSession i s) (.process nowMs) = (ctx, output, .ok) ∧
      output.seen = {
        frame := some (frameTo ctx.ownAddress peer sessionId .endWa [])
        event := .txFinished
        peerAddress := peer
        sessionId := sessionId } := by
  have hlt : ¬ s.payloadOffset < s.payloadSize := by
    have hlength := h.ok.length_remaining
    rw [hrest, List.length_nil] at hlength
    rw [UInt16.lt_iff_toNat_lt]
    omega
  obtain ⟨hnext, hseen⟩ := processSession_end ctx hlt
  have hstep := h.process_eq hstate htime hstill
  rw [hnext, h.release] at hstep
  obtain ⟨hpeer, -, hid, -⟩ := h.fields
  refine ⟨_, hstep, ?_⟩
  rw [hseen, endOutput, hpeer, hid]

end Ctx.Holds

/-- The session id that a transfer to an address gets. -/
def chosenId (ctx : Ctx) (addressTo : UInt8) : Option UInt8 :=
  ((List.range 8).find? fun u => !reservedIds ctx addressTo u).map (startSessionId ctx addressTo)

/-- How many transfers there are to an address. -/
def transfersTo (ctx : Ctx) (addressTo : UInt8) : ℕ :=
  ctx.sessions.countP fun s => sessionIsTx s && s.peerAddress == addressTo

/-- There is an id as long as there are less than eight transfers. -/
theorem chosenId_of_lt {ctx : Ctx} {addressTo : UInt8} (h : transfersTo ctx addressTo < 8) :
    ∃ id, chosenId ctx addressTo = some id := by
  rw [← Option.isSome_iff_exists, chosenId, Option.isSome_map, List.find?_isSome]
  by_contra hnone
  push Not at hnone
  -- eight ids that are reserved are those of eight transfers
  have hsubset : List.range 8 ⊆ (ctx.sessions.filter fun s =>
      sessionIsTx s && s.peerAddress == addressTo).map fun s : Session =>
        (s.sessionId >>> 1).toNat := by
    intro u hu
    have hreserved := hnone u hu
    rw [Ne, Bool.not_eq_true', Bool.not_eq_false, reservedIds, List.any_eq_true] at hreserved
    obtain ⟨s, hs, hp⟩ := hreserved
    rw [Bool.and_eq_true, beq_iff_eq] at hp
    exact List.mem_map.mpr ⟨s, List.mem_filter.mpr ⟨hs, hp.1⟩, hp.2⟩
  have hlength := (List.subperm_of_subset List.nodup_range hsubset).length_le
  rw [List.length_range, List.length_map, ← List.countP_eq_length_filter] at hlength
  exact absurd h (Nat.not_lt.mpr hlength)

/-- A transfer is started if there is memory for it. -/
theorem startSession_ok (ctx : Ctx) {env : Env} (henv : env.payload.isSome = true)
    (session : Session) (sessionId : UInt8) (msg : Msg) (nowMs : UInt32) (output : Output) :
    (startSession ctx env session sessionId msg nowMs output).2.2 = .ok := by
  obtain ⟨fresh, hfresh⟩ := Option.isSome_iff_exists.mp henv
  unfold startSession sessionCopyPayload
  simp only [hfresh]
  split_ifs <;> rfl

/-- **The sender starts its transfer**, in a session of its own. -/
theorem Ctx.Ok.sends_start {ctx : Ctx} (hctx : ctx.Ok) {msg : Msg} (readable : msg.Readable)
    (hdata : msg.length > 0 → msg.data ≠ none) (hknown : msg.mode ≠ .other)
    (hfrom : msg.addressFrom = ctx.ownAddress) (hto : msg.addressTo.toNat < 31)
    (hother : msg.addressTo ≠ ctx.ownAddress) (hlen : msg.length ≤ ctx.maxMessageSize) {i : ℕ}
    (hfind : findFreeSession ctx msg.addressTo = some i) {sessionId : UInt8}
    (hid : chosenId ctx msg.addressTo = some sessionId)
    (hunused : findSession ctx msg.addressTo ctx.ownAddress sessionId = none) {env : Env}
    (henv : env.payload.isSome = true) (nowMs : UInt32) :
    ∃ s output, device.step ctx (.startSend msg readable nowMs env) =
        (ctx.setSession i s, output, .ok) ∧
      ctx.Holds i msg.addressTo sessionId s ∧ s.data = msg.bytes ∧ s.payloadOffset = 0 ∧
      s.state = (if msg.mode = .withoutAck then .txWithoutAck else .txWaitStartAck) ∧
      output.seen = {
        frame := some (frameTo ctx.ownAddress msg.addressTo sessionId msg.mode.start [])
        peerAddress := msg.addressTo
        sessionId := sessionId } := by
  obtain ⟨u, hu, rfl⟩ := Option.map_eq_some_iff.mp hid
  obtain ⟨hi, hfree, haccepts⟩ := findFreeSession_eq_some hfind
  have hvalid : addressValid msg.addressTo = true :=
    (addressValid_iff _).mpr (Nat.lt_succ_of_lt hto)
  have hnotall := ne_deviceIdAll hto
  have hread := readable.length_le hdata
  obtain ⟨r, hr, -, hevent, hmessage, hcase⟩ := startSession_spec hctx env nowMs hvalid hother hlen
    hread hfree haccepts (List.mem_range.mp (List.mem_of_find?_eq_some hu))
  have hok := startSession_ok ctx henv (ctx.session i) (startSessionId ctx msg.addressTo u) msg
    nowMs {}
  rw [hr] at hok
  rcases hcase with ⟨hfail, -⟩ | ⟨-, -, hstarted, hframe, hpeer, hsession⟩
  · exact absurd (hok.symm.trans hfail) (by simp)
  have hgood : ¬ (msg.addressFrom != ctx.ownAddress || !addressValid msg.addressTo ||
      msg.addressTo == ctx.ownAddress || decide (msg.length > ctx.maxMessageSize) ||
      (decide (msg.length > 0) && msg.data.isNone)) = true := by
    simp only [Bool.or_eq_true, bne_iff_ne, ne_eq, Bool.not_eq_true', beq_iff_eq, decide_eq_true_eq,
      Bool.and_eq_true, not_or, not_not, Bool.not_eq_false, not_and]
    refine ⟨⟨⟨⟨hfrom, hvalid⟩, hother⟩, UInt16.not_lt.mpr hlen⟩, fun hpos => ?_⟩
    rw [Option.isNone_iff_eq_none]
    exact hdata hpos
  have hmode : r.1.mode = msg.mode := by rw [hstarted.mode, if_neg hnotall]
  refine ⟨r.1, r.2.1, ?_, ?_, hstarted.data, hstarted.payloadOffset, ?_, ?_⟩
  · show startSend ctx env msg nowMs = _
    unfold startSend
    rw [if_neg hknown, if_neg hgood, hfind]
    simp only [hu, hr, hok]
  · exact {
      table := hctx
      peer_lt := hto
      lt := hi
      free := hfree
      unused := hunused
      addressMask := hstarted.addressMask
      key := by rw [Session.key, hstarted.peerAddress, hstarted.localAddress, hstarted.sessionId]
      ok := hstarted.ok }
  · rw [hstarted.state, hmode]
  · have hstart : (if msg.mode = .withoutAck then Cmd.startWa else .start) = msg.mode.start := by
      cases hcases : msg.mode with
      | withAck | withoutAck => rfl
      | other => exact absurd hcases hknown
    rw [hmode, hstart] at hframe
    simp only [Output.seen, hframe, hevent, hmessage, hpeer, hsession]

/-- **The receiver gets a START**, and opens a session for it. -/
theorem Ctx.Ok.gets_start {ctx : Ctx} (hctx : ctx.Ok) {i : ℕ} {peer sessionId : UInt8}
    (hpeer : peer.toNat < 31) (hid : sessionId.toNat < 16)
    (hunused : findSession ctx peer ctx.ownAddress sessionId = none)
    (hfind : findFreeSession ctx peer = some i) {mode : MsgMode} (hmode : mode ≠ .other)
    (nowMs : UInt32) (env : Env) :
    ∃ s output, device.step ctx
        (.addFrame (frameTo peer ctx.ownAddress sessionId mode.start []) nowMs env) =
        (ctx.setSession i s, output, .ok) ∧
      ctx.Holds i peer sessionId s ∧ s.Collects mode [] ∧
      output.seen = { frame := mode.answer ctx.ownAddress peer sessionId } := by
  obtain ⟨hlt, hfree, haccepts⟩ := findFreeSession_eq_some hfind
  set s₀ := openSession (ctx.session i) peer ctx.ownAddress sessionId mode.start nowMs with hs₀
  have hok : s₀.Ok ctx.ownAddress ctx.maxMessageSize :=
    Session.ok_open (h := ⟨peer, ctx.ownAddress, sessionId, mode.start⟩) haccepts hpeer hid
      (.inl rfl)
  have hholds : ctx.Holds i peer sessionId s₀ := {
    table := hctx
    peer_lt := hpeer
    lt := hlt
    free := hfree
    unused := hunused
    addressMask := rfl
    key := rfl
    ok := hok }
  have hlen : (frameTo peer ctx.ownAddress sessionId mode.start []).len.toNat ≤ maxLen := by
    rw [len_frameTo (Nat.zero_le _)]
    exact Nat.zero_le _
  obtain ⟨s, output, hrun, hcontinues, hcollects, hseen⟩ :=
    handleRxFrame_opens hok rfl hctx.ownAddress hmode env hlen nowMs
  have heq := addFrame_eq ctx env (frameTo peer ctx.ownAddress sessionId mode.start []) nowMs
  rw [heading_frameTo hpeer (.inl rfl) hctx.ownAddress hid (Nat.zero_le _)] at heq
  have hsession :
      frameSession ctx peer ctx.ownAddress sessionId mode.start nowMs = some (i, s₀) := by
    have hstart : (mode.start = .start || mode.start = .startWa) = true := by
      unfold MsgMode.start
      split_ifs <;> simp
    rw [frameSession, hunused]
    simp only [hstart, if_true, hfind]
    rfl
  refine ⟨s, output, ?_, hholds.continues hcontinues, hcollects, hseen⟩
  simp only at heq
  change addFrame ctx env (frameTo peer ctx.ownAddress sessionId mode.start []) nowMs = _
  rw [heq, addCommand, hsession]
  have hnotx : ¬ sessionIsTx s₀ = true := by simp [hs₀, sessionIsTx, openSession]
  simp only [hnotx, hrun]
  rfl

end Imp
end UniCan
