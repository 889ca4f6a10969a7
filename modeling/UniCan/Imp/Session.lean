import UniCan.Imp.Protocol

/-!
# What a frame does to a session

A session is a small machine of its own: a frame of its transfer moves it on, and it
answers with at most one frame to its peer.  The cases are listed here once, for
sessions that satisfy the invariant, and everything else is read off them.

## Main definitions

* `frameTo` — the frame of a command.
* `Session.Ok` — the invariant of a session.
* `TxCase`, `RxCase`, `EmitCase` — what a command does to a session that sends, to one
  that receives, and what becomes of a transfer that is not acknowledged.

## Main results

* `handleTxFrame_spec`, `handleRxFrame_spec`, `processSession_spec` — **the code does
  what the cases say**, and its copies stay inside the payload.
* `TxCase.ok`, `RxCase.ok`, `EmitCase.ok` — the cases keep the invariant.
-/

namespace UniCan
namespace Imp

/-! ### Frames -/

/-- The frame of a command, with some bytes of data. -/
def frameTo (addressFrom addressTo sessionId : UInt8) (command : Cmd) (bytes : List UInt8) :
    CanMessage where
  id := canidCreate addressFrom addressTo sessionId command
  flags := flagExtId
  len := UInt16.ofNat bytes.length
  data := CanData.ofBytes bytes

theorem len_frameTo {addressFrom addressTo sessionId : UInt8} {command : Cmd} {bytes : List UInt8}
    (h : bytes.length ≤ maxLen) :
    (frameTo addressFrom addressTo sessionId command bytes).len.toNat = bytes.length := by
  have h8 : maxLen = 8 := rfl
  rw [frameTo, UInt16.toNat_ofNat']
  exact Nat.mod_eq_of_lt (by omega)

theorem bytes_frameTo {addressFrom addressTo sessionId : UInt8} {command : Cmd}
    {bytes : List UInt8} (h : bytes.length ≤ maxLen) :
    (frameTo addressFrom addressTo sessionId command bytes).bytes = bytes := by
  rw [CanMessage.bytes, len_frameTo h]
  exact CanData.take_toList_ofBytes h

/-- What a call says about its accesses to memory: the copies are inside the payloads,
and the numbers fit. -/
structure Output.Safe (output : Output) : Prop where
  copies : ∀ c ∈ output.copies, c.Inside
  words : ∀ w ∈ output.words, w < 2 ^ 16

theorem Output.safe_empty : Output.Safe {} where
  copies _ h := absurd h (by simp)
  words _ h := absurd h (by simp)

/-! ### The invariant -/

namespace Session

/-- The payload of a session as far as it is filled. -/
def data (s : Session) : List UInt8 := (s.payload.getD []).take s.payloadSize.toNat

/-- The invariant of a session that sends. -/
structure Sends (own : UInt8) (s : Session) : Prop where
  localAddress : s.localAddress = own
  peerAddress : s.peerAddress ≠ own
  sessionId : ∃ u, u < 8 ∧
    s.sessionId.toNat = 2 * u + if own > s.peerAddress then 1 else 0
  full : s.payloadSize = s.payloadCapacity
  offset_le : s.payloadOffset ≤ s.payloadSize
  mode_iff : s.mode = .withoutAck ↔ s.state = .txWithoutAck
  broadcast : s.peerAddress = deviceIdAll → s.state = .txWithoutAck
  waitStartAck : s.state = .txWaitStartAck → s.payloadOffset = 0
  waitDataAck : s.state = .txWaitDataAck → 1 ≤ s.lastDataLength.toNat ∧
    s.lastDataLength.toNat ≤ 8 ∧
    s.payloadOffset.toNat + s.lastDataLength.toNat ≤ s.payloadSize.toNat

/-- The invariant of a session of the device `own`, whose messages are no longer than
`limit`. -/
structure Ok (own : UInt8) (limit : UInt16) (s : Session) : Prop where
  free : s.state = .free → s = { addressMask := s.addressMask }
  accepts : s.state ≠ .free → sessionAccepts s s.peerAddress = true
  peerAddress : s.peerAddress.toNat < 32
  sessionId : s.sessionId.toNat < 16
  buffer : (s.payload.getD []).length = s.payloadCapacity.toNat
  size_le : s.payloadSize ≤ s.payloadCapacity
  capacity_le : s.payloadCapacity ≤ limit
  rx : s.state = .rx → s.localAddress = own ∨ s.localAddress = deviceIdAll
  tx : sessionIsTx s = true → s.Sends own

/-- A session that waits. -/
theorem ok_free (own : UInt8) (limit : UInt16) (mask : UInt32) :
    Ok own limit { addressMask := mask } where
  free _ := rfl
  accepts h := absurd rfl h
  peerAddress := show 0 < 32 by decide
  sessionId := show 0 < 16 by decide
  buffer := rfl
  size_le := UInt16.le_refl 0
  capacity_le := by
    rw [UInt16.le_iff_toNat_le]
    exact Nat.zero_le _
  rx h := absurd h (by simp)
  tx h := absurd h (by simp [sessionIsTx])

variable {own : UInt8} {limit : UInt16} {s : Session}

theorem ok_release : Ok own limit (sessionRelease s) := ok_free own limit s.addressMask

theorem Ok.length_data (h : s.Ok own limit) : s.data.length = s.payloadSize.toNat := by
  have hle := UInt16.le_iff_toNat_le.mp h.size_le
  rw [data, List.length_take, h.buffer]
  omega

theorem isTx_iff : sessionIsTx s = true ↔ s.state ≠ .free ∧ s.state ≠ .rx := by
  unfold sessionIsTx
  cases s.state <;> simp

theorem Sends.offset_le' (h : s.Sends own) : s.payloadOffset.toNat ≤ s.payloadSize.toNat :=
  UInt16.le_iff_toNat_le.mp h.offset_le

/-- The payload of a session that sends is all of its data. -/
theorem Ok.data_eq (h : s.Ok own limit) (hs : s.Sends own) : s.data = s.payload.getD [] := by
  rw [data, List.take_of_length_le]
  rw [h.buffer, hs.full]

/-- Some bytes of data that fit a frame. -/
theorem Ok.length_readAt (h : s.Ok own limit) {offset length : ℕ}
    (hle : offset + length ≤ s.payloadSize.toNat) : (readAt s.data offset length).length = length :=
  UniCan.length_readAt (by rw [h.length_data]; exact hle)

end Session

/-! ### Reactions -/

/-- A session of the device `own` that becomes `s'`, and answers its peer with a
command. -/
structure Reacts (own : UInt8) (s : Session) (r : Session × Output) (s' : Session)
    (reply : Option (Cmd × List UInt8)) (kind : Event) (received : Option Msg) : Prop where
  session : r.1 = s'
  frame : r.2.frame =
    reply.map fun p => frameTo own s.peerAddress s.sessionId p.1 p.2
  event : r.2.event = kind
  message : r.2.receivedMessage = received
  peer : kind ≠ .none → r.2.peerAddress = s.peerAddress ∧ r.2.sessionId = s.sessionId
  safe : r.2.Safe

/-- The offset of the next frame of a session whose last one is acknowledged. -/
inductive Session.Acked (s : Session) (offset : UInt16) : Prop
  | start (h : s.state = .txWaitStartAck) (hoffset : offset = s.payloadOffset)
  | data (h : s.state = .txWaitDataAck)
      (hoffset : offset.toNat = s.payloadOffset.toNat + s.lastDataLength.toNat)

/-- What a command does to a session that sends. -/
inductive TxCase (s : Session) (nowMs : UInt32) :
    Cmd → Session → Option (Cmd × List UInt8) → Event → Prop
  /-- The transfer is given up. -/
  | aborted {command : Cmd} (h : command = .abortWa ∨
      command = .nack ∧ s.state ≠ .txWaitStartAck ∧ s.state ≠ .txWaitDataAck) :
      TxCase s nowMs command (sessionRelease s) none .txAborted
  /-- The command is none that a sender gets. -/
  | refused {command : Cmd} (hack : command ≠ .ack) (hnack : command ≠ .nack)
      (habort : command ≠ .abortWa) :
      TxCase s nowMs command (sessionRelease s) (some (.abortWa, [])) .txAborted
  /-- The last frame is sent again. -/
  | resentStart (h : s.state = .txWaitStartAck) :
      TxCase s nowMs .nack { s with lastActivityMs := nowMs } (some (.start, [])) .none
  | resentData (h : s.state = .txWaitDataAck) :
      TxCase s nowMs .nack { s with lastActivityMs := nowMs }
        (some (.data, readAt s.data s.payloadOffset.toNat s.lastDataLength.toNat)) .none
  /-- The next frame is sent. -/
  | data {offset : UInt16} {length : UInt8} (h : s.Acked offset) (hpos : 1 ≤ length.toNat)
      (hle : length.toNat ≤ 8) (hin : offset.toNat + length.toNat ≤ s.payloadSize.toNat) :
      TxCase s nowMs .ack
        { s with
          payloadOffset := offset
          lastDataLength := length
          state := .txWaitDataAck
          lastActivityMs := nowMs }
        (some (.data, readAt s.data offset.toNat length.toNat)) .none
  | end_ (h : s.Acked s.payloadSize) :
      TxCase s nowMs .ack
        { s with
          payloadOffset := s.payloadSize
          state := .txWaitEndAck
          lastActivityMs := nowMs }
        (some (.end_, [])) .none
  /-- The transfer is complete. -/
  | finished (h : s.state = .txWaitEndAck) :
      TxCase s nowMs .ack (sessionRelease s) none .txFinished
  /-- The transfer needs no acknowledgement. -/
  | ignored (h : s.state = .txWithoutAck) : TxCase s nowMs .ack s none .none

/-- The next frame of a transfer that is not acknowledged. -/
inductive EmitCase (s : Session) : Session → Cmd × List UInt8 → Event → Prop
  | data {offset : UInt16} {length : ℕ} (hpos : 1 ≤ length) (hle : length ≤ 8)
      (hoffset : offset.toNat = s.payloadOffset.toNat + length)
      (hin : offset.toNat ≤ s.payloadSize.toNat) :
      EmitCase s { s with payloadOffset := offset }
        (.dataWa, readAt s.data s.payloadOffset.toNat length) .none
  | end_ (h : s.payloadOffset = s.payloadSize) :
      EmitCase s (sessionRelease s) (.endWa, []) .txFinished

/-- The message a session has received. -/
def Session.msg (s : Session) : Msg where
  mode := if s.localAddress = deviceIdAll then .withoutAck else s.mode
  addressFrom := s.peerAddress
  addressTo := s.localAddress
  sessionId := s.sessionId
  length := s.payloadSize
  data := if s.payloadSize > 0 then some s.data else none

/-- What a command with some bytes of data does to a session that receives. -/
inductive RxCase (ctx : Ctx) (s : Session) (bytes : List UInt8) (nowMs : UInt32) :
    Cmd → Session → Option (Cmd × List UInt8) → Event → Option Msg → Prop
  /-- The transfer is given up. -/
  | aborted : RxCase ctx s bytes nowMs .abortWa (sessionRelease s) none .rxAborted none
  /-- The command is none that a receiver gets. -/
  | refused {command : Cmd} (h : command = .ack ∨ command = .nack) :
      RxCase ctx s bytes nowMs command (sessionRelease s) (some (.abortWa, [])) .rxAborted none
  /-- The transfer starts from the beginning. -/
  | started {command : Cmd} (h : command = .start ∨ command = .startWa) :
      RxCase ctx s bytes nowMs command
        { s with
          payload := none
          payloadSize := 0
          payloadCapacity := 0
          payloadOffset := 0
          mode := startMode command
          lastActivityMs := nowMs }
        (if command = .start ∧ s.localAddress ≠ deviceIdAll then some (.ack, []) else none)
        .none none
  /-- The bytes are kept. -/
  | appended {command : Cmd} {payload : Option (List UInt8)} {size capacity : UInt16}
      (h : command = .data ∨ command = .dataWa)
      (hbuffer : (payload.getD []).length = capacity.toNat) (hsize : size ≤ capacity)
      (hcapacity : capacity ≤ ctx.maxMessageSize)
      (hdata : (payload.getD []).take size.toNat = s.data ++ bytes) :
      RxCase ctx s bytes nowMs command
        { s with
          payload := payload
          payloadSize := size
          payloadCapacity := capacity
          lastActivityMs := nowMs }
        (if command = .data then some (.ack, []) else none) .none none
  /-- There is no room for them. -/
  | dropped {command : Cmd} (h : command = .data ∨ command = .dataWa) :
      RxCase ctx s bytes nowMs command (sessionRelease s)
        (if command = .data then some (.abortWa, []) else none) .rxAborted none
  /-- The validator does not like the message. -/
  | rejected {command : Cmd} (h : command = .end_ ∨ command = .endWa)
      (hvalidator : ctx.messageValidator = true) :
      RxCase ctx s bytes nowMs command (sessionRelease s)
        (if command = .end_ then some (.nack, []) else none) .rxAborted none
  /-- There is no memory for the message. -/
  | uncreated {command : Cmd} (h : command = .end_ ∨ command = .endWa) :
      RxCase ctx s bytes nowMs command (sessionRelease s)
        (if command = .end_ then some (.abortWa, []) else none) .rxAborted none
  /-- The message is complete. -/
  | finished {command : Cmd} (h : command = .end_ ∨ command = .endWa) :
      RxCase ctx s bytes nowMs command (sessionRelease s)
        (if command = .end_ then some (.ack, []) else none) .rxFinished (some s.msg)

/-- What a receiver may answer: it acknowledges, gives up, or rejects a message. -/
theorem RxCase.reply_cases {ctx : Ctx} {s s' : Session} {bytes : List UInt8} {nowMs : UInt32}
    {command : Cmd} {reply : Option (Cmd × List UInt8)} {kind : Event} {received : Option Msg}
    (h : RxCase ctx s bytes nowMs command s' reply kind received) :
    ∀ p ∈ reply, p = (.ack, []) ∨ p = (.abortWa, []) ∨
      p = (.nack, []) ∧ ctx.messageValidator = true := by
  intro p hp
  cases h with
  | aborted => exact absurd hp (by simp)
  | refused => exact .inr (.inl (Option.some.inj hp).symm)
  | started | appended | finished =>
    rw [Option.mem_ite_none_right] at hp
    exact .inl (Option.some.inj hp.2).symm
  | dropped | uncreated =>
    rw [Option.mem_ite_none_right] at hp
    exact .inr (.inl (Option.some.inj hp.2).symm)
  | rejected _ hvalidator =>
    rw [Option.mem_ite_none_right] at hp
    exact .inr (.inr ⟨(Option.some.inj hp.2).symm, hvalidator⟩)

/-! ### The code and the cases -/

section Output

variable {ctx : Ctx} {output : Output} {session : Session} {command : Cmd}

theorem setFrame_frame {addressTo sessionId : UInt8} {data : List UInt8} {length : UInt8}
    (h : length.toNat ≤ data.length) :
    (setFrame ctx output addressTo sessionId command data length).frame =
      some (frameTo ctx.ownAddress addressTo sessionId command (data.take length.toNat)) := by
  have hlen : UInt16.ofNat (data.take length.toNat).length = length.toUInt16 := by
    have hlt := length.toNat_lt
    rw [← UInt16.toNat_inj, UInt16.toNat_ofNat', List.length_take, Nat.min_eq_left h,
      UInt8.toNat_toUInt16]
    exact Nat.mod_eq_of_lt (by omega)
  rw [setFrame, frameTo, hlen]

/-- A command without data. -/
theorem answer_frame (ctx : Ctx) (output : Output) (session : Session) (command : Cmd) :
    (answer ctx output session command).frame =
    some (frameTo ctx.ownAddress session.peerAddress session.sessionId command []) :=
  setFrame_frame (Nat.zero_le _)

theorem answer_safe (ctx : Ctx) (session : Session) (command : Cmd) (h : output.Safe) :
    (answer ctx output session command).Safe :=
  ⟨h.copies, h.words⟩

/-- A command with data. -/
theorem answerData_frame {own : UInt8} {limit : UInt16} {length : UInt8} (ctx : Ctx)
    (output : Output) (command : Cmd) (h : session.Ok own limit) (hs : session.Sends own)
    (hle : session.payloadOffset.toNat + length.toNat ≤ session.payloadSize.toNat) :
    (answerData ctx output session command length).frame =
      some (frameTo ctx.ownAddress session.peerAddress session.sessionId command
        (readAt session.data session.payloadOffset.toNat length.toNat)) := by
  have hlen := h.length_data
  rw [h.data_eq hs] at hlen ⊢
  rw [answerData, setFrame_frame (by rw [List.length_drop]; omega), readAt]

theorem answerData_safe {own : UInt8} {limit : UInt16} {length : UInt8} (ctx : Ctx)
    (command : Cmd) (hout : output.Safe) (h : session.Ok own limit) (hs : session.Sends own)
    (hle : session.payloadOffset.toNat + length.toNat ≤ session.payloadSize.toNat) :
    (answerData ctx output session command length).Safe where
  copies c hc := by
    have hc' : c ∈ output.copies ++
        [⟨(session.payload.getD []).length, session.payloadOffset.toNat, length.toNat⟩] := hc
    rcases List.mem_append.mp hc' with hold | hnew
    · exact hout.copies c hold
    · rw [List.mem_singleton.mp hnew]
      show _ ≤ (session.payload.getD []).length
      rw [← h.data_eq hs, h.length_data]
      exact hle
  words w hw := hout.words w hw

theorem Output.Safe.word (h : output.Safe) {w : ℕ} (hw : w < 2 ^ 16) :
    Output.Safe { output with words := output.words ++ [w] } where
  copies := h.copies
  words w' hw' := by
    rcases List.mem_append.mp hw' with hold | hnew
    · exact h.words w' hold
    · rw [List.mem_singleton.mp hnew]
      exact hw

theorem Output.Safe.copy (h : output.Safe) {c : Copy} (hc : c.Inside) :
    Output.Safe { output with copies := output.copies ++ [c] } where
  copies c' hc' := by
    rcases List.mem_append.mp hc' with hold | hnew
    · exact h.copies c' hold
    · rw [List.mem_singleton.mp hnew]
      exact hc
  words := h.words

end Output

/-- The length of the next frame. -/
theorem nextLength_spec (session : Session) (h : session.payloadOffset < session.payloadSize) :
    1 ≤ (nextLength session).toNat ∧ (nextLength session).toNat ≤ 8 ∧
      session.payloadOffset.toNat + (nextLength session).toNat ≤ session.payloadSize.toNat := by
  have hlt := UInt16.lt_iff_toNat_lt.mp h
  have hsize := session.payloadSize.toNat_lt
  have hleft : (session.payloadSize - session.payloadOffset).toNat =
      session.payloadSize.toNat - session.payloadOffset.toNat :=
    UInt16.toNat_sub_of_le _ _ (UInt16.le_of_lt h)
  have h8 : maxLen = 8 := rfl
  unfold nextLength
  simp only [hleft]
  split_ifs with hlong
  · show 1 ≤ 8 ∧ 8 ≤ 8 ∧ session.payloadOffset.toNat + 8 ≤ _
    omega
  · rw [UInt16.toNat_toUInt8, hleft]
    omega

/-! ### Sessions that send -/

section Tx

variable {own : UInt8} {limit : UInt16} {s s' : Session} {nowMs : UInt32} {command : Cmd}
  {reply : Option (Cmd × List UInt8)} {kind : Event}

theorem Session.Acked.waits {offset : UInt16} (h : s.Acked offset) :
    s.state ≠ .txWithoutAck ∧ sessionIsTx s = true := by
  rw [Session.isTx_iff]
  cases h with
  | start h => simp [h]
  | data h => simp [h]

/-- A session that waits for its peer keeps the invariant as long as its offset is in
range. -/
theorem Session.Ok.wait (h : s.Ok own limit) (hs : s.Sends own) (hne : s.state ≠ .txWithoutAck)
    {state : SessionState} {offset : UInt16} {length : UInt8} (htx : state ≠ .rx)
    (hack : state ≠ .txWithoutAck) (hfree : state ≠ .free) (hlive : s.state ≠ .free)
    (hle : offset ≤ s.payloadSize) (hstart : state = .txWaitStartAck → offset = 0)
    (hdata : state = .txWaitDataAck → 1 ≤ length.toNat ∧ length.toNat ≤ 8 ∧
      offset.toNat + length.toNat ≤ s.payloadSize.toNat) :
    Session.Ok own limit { s with
      payloadOffset := offset, lastDataLength := length, state := state, lastActivityMs := nowMs }
    where
  free h := absurd h hfree
  accepts _ := h.accepts hlive
  peerAddress := h.peerAddress
  sessionId := h.sessionId
  buffer := h.buffer
  size_le := h.size_le
  capacity_le := h.capacity_le
  rx h := absurd h htx
  tx _ := {
    localAddress := hs.localAddress
    peerAddress := hs.peerAddress
    sessionId := hs.sessionId
    full := hs.full
    offset_le := hle
    mode_iff := ⟨fun hm => absurd (hs.mode_iff.mp hm) hne, fun h => absurd h hack⟩
    broadcast := fun hb => absurd (hs.broadcast hb) hne
    waitStartAck := hstart
    waitDataAck := hdata }

/-- What a command does to a session that sends keeps the invariant. -/
theorem TxCase.ok (hc : TxCase s nowMs command s' reply kind) (h : s.Ok own limit)
    (htx : sessionIsTx s = true) : s'.Ok own limit := by
  have hs := h.tx htx
  have hlive := (Session.isTx_iff.mp htx).1
  cases hc with
  | aborted | refused | finished => exact Session.ok_release
  | resentStart hstate =>
    exact h.wait hs (by simp [hstate]) (by simp [hstate]) (by simp [hstate]) hlive hlive
      hs.offset_le hs.waitStartAck hs.waitDataAck
  | resentData hstate =>
    exact h.wait hs (by simp [hstate]) (by simp [hstate]) (by simp [hstate]) hlive hlive
      hs.offset_le hs.waitStartAck hs.waitDataAck
  | data hacked hpos hle hin =>
    refine h.wait hs hacked.waits.1 (by simp) (by simp) (by simp) hlive ?_ (fun h => by simp at h)
      fun _ => ⟨hpos, hle, hin⟩
    rw [UInt16.le_iff_toNat_le]
    omega
  | end_ hacked =>
    exact h.wait hs hacked.waits.1 (by simp) (by simp) (by simp) hlive (UInt16.le_refl _)
      (fun h => by simp at h) fun h => by simp at h
  | ignored => exact h

/-- A session that ends is released, with an event. -/
theorem Reacts.ended {output : Output} {received : Option Msg}
    (hframe : output.frame = reply.map fun p => frameTo own s.peerAddress s.sessionId p.1 p.2)
    (hmessage : output.receivedMessage = received) (hsafe : output.Safe) :
    Reacts own s (sessionRelease s, setEvent output kind s) (sessionRelease s) reply kind
      received where
  session := rfl
  frame := hframe
  event := rfl
  message := hmessage
  peer _ := ⟨rfl, rfl⟩
  safe := ⟨hsafe.copies, hsafe.words⟩

/-- The next frame of a session, once the offset is that of the bytes that were
acknowledged. -/
theorem emitNextAckedFrame_spec {ctx : Ctx} {output : Output} {offset : UInt16} (nowMs : UInt32)
    (h : s.Ok ctx.ownAddress ctx.maxMessageSize) (hacked : s.Acked offset)
    (hevent : output.event = .none) (hmessage : output.receivedMessage = none)
    (hsafe : output.Safe) :
    ∃ s' reply, TxCase s nowMs .ack s' reply .none ∧
      Reacts ctx.ownAddress s
        (emitNextAckedFrame ctx { s with payloadOffset := offset } nowMs output) s' reply .none
        none := by
  have htx := hacked.waits.2
  have hs := h.tx htx
  have hle : offset.toNat ≤ s.payloadSize.toNat := by
    cases hacked with
    | start _ hoffset => rw [hoffset]; exact hs.offset_le'
    | data hstate hoffset => rw [hoffset]; exact (hs.waitDataAck hstate).2.2
  by_cases hlt : offset < s.payloadSize
  · have hnext := nextLength_spec { s with payloadOffset := offset } hlt
    set length := nextLength { s with payloadOffset := offset }
    have hcase : TxCase s nowMs .ack _ _ _ := .data hacked hnext.1 hnext.2.1 hnext.2.2
    have hok := hcase.ok h htx
    have hs' := hok.tx (by simp [sessionIsTx])
    refine ⟨_, _, hcase, ?_⟩
    rw [emitNextAckedFrame, if_pos hlt]
    exact ⟨rfl, answerData_frame _ _ _ hok hs' hnext.2.2, hevent, hmessage, fun h => absurd rfl h,
      answerData_safe _ _ hsafe hok hs' hnext.2.2⟩
  · have heq : offset = s.payloadSize := by
      rw [← UInt16.toNat_inj]
      rw [UInt16.lt_iff_toNat_lt] at hlt
      omega
    subst heq
    refine ⟨_, _, TxCase.end_ hacked, ?_⟩
    rw [emitNextAckedFrame, if_neg hlt]
    exact ⟨rfl, answer_frame _ _ _ _, hevent, hmessage, fun h => absurd rfl h,
      answer_safe _ _ _ hsafe⟩

/-- **A session that sends does what the cases say.** -/
theorem handleTxFrame_spec {ctx : Ctx} (h : s.Ok ctx.ownAddress ctx.maxMessageSize)
    (htx : sessionIsTx s = true) (command : Cmd) (nowMs : UInt32) :
    ∃ s' reply kind, TxCase s nowMs command s' reply kind ∧
      Reacts ctx.ownAddress s
        ((handleTxFrame ctx s command nowMs {}).1, (handleTxFrame ctx s command nowMs {}).2.1) s'
        reply kind none := by
  have hs := h.tx htx
  have hrefused : ∀ command : Cmd, command ≠ .ack → command ≠ .nack → command ≠ .abortWa →
      ∃ s' reply kind, TxCase s nowMs command s' reply kind ∧
        Reacts ctx.ownAddress s (sessionRelease s,
          setEvent (emitAbort ctx {} s.peerAddress s.sessionId) .txAborted s) s' reply kind none :=
    fun command hack hnack habort => ⟨_, _, _, .refused hack hnack habort,
      Reacts.ended (answer_frame _ _ _ _) rfl (answer_safe _ _ _ Output.safe_empty)⟩
  cases command with
  | abortWa => exact ⟨_, _, _, .aborted (.inl rfl), Reacts.ended rfl rfl Output.safe_empty⟩
  | nack =>
    unfold handleTxFrame
    cases hstate : s.state with
    | txWaitStartAck =>
      simp only [resendAckedFrame, hstate]
      rw [← hstate]
      exact ⟨_, _, _, .resentStart hstate, rfl, answer_frame _ _ _ _, rfl, rfl,
        fun h => absurd rfl h,
        answer_safe _ _ _ Output.safe_empty⟩
    | txWaitDataAck =>
      obtain ⟨-, -, hin⟩ := hs.waitDataAck hstate
      have hcase : TxCase s nowMs .nack _ _ _ := .resentData hstate
      have hok := hcase.ok h htx
      have hs' := hok.tx htx
      simp only [resendAckedFrame, hstate]
      rw [← hstate]
      exact ⟨_, _, _, hcase, rfl, answerData_frame _ _ _ hok hs' hin, rfl, rfl,
        fun h => absurd rfl h,
        answerData_safe _ _ Output.safe_empty hok hs' hin⟩
    | free | rx => exact absurd htx (by simp [sessionIsTx, hstate])
    | txWithoutAck | txWaitEndAck =>
      exact ⟨_, _, _, .aborted (.inr ⟨rfl, by simp [hstate], by simp [hstate]⟩),
        Reacts.ended rfl rfl Output.safe_empty⟩
  | ack =>
    unfold handleTxFrame
    cases hstate : s.state with
    | txWaitStartAck =>
      obtain ⟨s', reply, hcase, hreacts⟩ := emitNextAckedFrame_spec nowMs h
        (.start hstate rfl) rfl rfl Output.safe_empty
      exact ⟨s', reply, _, hcase, hreacts⟩
    | txWaitDataAck =>
      obtain ⟨-, -, hin⟩ := hs.waitDataAck hstate
      have hword : s.payloadOffset.toNat + s.lastDataLength.toNat < 2 ^ 16 :=
        Nat.lt_of_le_of_lt hin s.payloadSize.toNat_lt
      obtain ⟨s', reply, hcase, hreacts⟩ := emitNextAckedFrame_spec nowMs h
        (.data hstate (UInt16.toNat_ofNat_of_lt' hword)) rfl rfl
        (Output.safe_empty.word hword)
      exact ⟨s', reply, _, hcase, hreacts⟩
    | txWaitEndAck =>
      exact ⟨_, _, _, .finished hstate, Reacts.ended rfl rfl Output.safe_empty⟩
    | free | rx => exact absurd htx (by simp [sessionIsTx, hstate])
    | txWithoutAck =>
      exact ⟨_, _, _, .ignored hstate, rfl, rfl, rfl, rfl, fun h => absurd rfl h,
        Output.safe_empty⟩
  | start => exact hrefused .start (by simp) (by simp) (by simp)
  | startWa => exact hrefused .startWa (by simp) (by simp) (by simp)
  | data => exact hrefused .data (by simp) (by simp) (by simp)
  | dataWa => exact hrefused .dataWa (by simp) (by simp) (by simp)
  | end_ => exact hrefused .end_ (by simp) (by simp) (by simp)
  | endWa => exact hrefused .endWa (by simp) (by simp) (by simp)

/-- A transfer without acknowledgement keeps the invariant. -/
theorem EmitCase.ok {frame : Cmd × List UInt8} (hc : EmitCase s s' frame kind) (h : s.Ok own limit)
    (hstate : s.state = .txWithoutAck) : s'.Ok own limit := by
  have hs := h.tx (by simp [sessionIsTx, hstate])
  cases hc with
  | end_ => exact Session.ok_release
  | data hpos hle hoffset hin =>
    exact {
      free := fun h => absurd (hstate.symm.trans h) (by simp)
      accepts := h.accepts
      peerAddress := h.peerAddress
      sessionId := h.sessionId
      buffer := h.buffer
      size_le := h.size_le
      capacity_le := h.capacity_le
      rx := h.rx
      tx := fun _ => {
        localAddress := hs.localAddress
        peerAddress := hs.peerAddress
        sessionId := hs.sessionId
        full := hs.full
        offset_le := UInt16.le_iff_toNat_le.mpr hin
        mode_iff := hs.mode_iff
        broadcast := hs.broadcast
        waitStartAck := fun h => absurd (hstate.symm.trans h) (by simp)
        waitDataAck := fun h => absurd (hstate.symm.trans h) (by simp) } }

/-- **A transfer without acknowledgement does what the cases say.** -/
theorem processSession_spec {ctx : Ctx} (h : s.Ok ctx.ownAddress ctx.maxMessageSize)
    (hstate : s.state = .txWithoutAck) :
    ∃ s' frame kind, EmitCase s s' frame kind ∧
      Reacts ctx.ownAddress s (processSession ctx s) s' (some frame) kind none := by
  have hs := h.tx (by simp [sessionIsTx, hstate])
  unfold processSession
  by_cases hlt : s.payloadOffset < s.payloadSize
  · obtain ⟨hpos, hle, hin⟩ := nextLength_spec s hlt
    have hword : s.payloadOffset.toNat + (nextLength s).toNat < 2 ^ 16 :=
      Nat.lt_of_le_of_lt hin s.payloadSize.toNat_lt
    have hoffset : (UInt16.ofNat (s.payloadOffset.toNat + (nextLength s).toNat)).toNat =
        s.payloadOffset.toNat + (nextLength s).toNat :=
      UInt16.toNat_ofNat_of_lt' hword
    rw [if_pos hlt]
    have hframe := answerData_frame ctx {} .dataWa h hs hin
    have hsafe := answerData_safe ctx .dataWa Output.safe_empty h hs hin
    exact ⟨_, _, _, .data hpos hle hoffset (by rw [hoffset]; exact hin), rfl, hframe, rfl, rfl,
      fun h => absurd rfl h, (hsafe.word hword).copies, (hsafe.word hword).words⟩
  · rw [if_neg hlt]
    have heq : s.payloadOffset = s.payloadSize := by
      have hle := hs.offset_le'
      rw [← UInt16.toNat_inj]
      rw [UInt16.lt_iff_toNat_lt] at hlt
      omega
    exact ⟨_, _, _, .end_ heq,
      Reacts.ended (answer_frame _ _ _ _) rfl (answer_safe _ _ _ Output.safe_empty)⟩

end Tx

/-! ### Sessions that receive -/

section Append

variable {ctx : Ctx} {env : Env} {s : Session} {output : Output} {data : List UInt8}
  {length : UInt16}

/-- The capacity that is asked for has room for the bytes, and is within the limit. -/
theorem appendCapacity_spec (s : Session) {required : ℕ} (h : required ≤ ctx.maxMessageSize.toNat) :
    required ≤ appendCapacity ctx s required ∧
      appendCapacity ctx s required ≤ ctx.maxMessageSize.toNat := by
  unfold appendCapacity
  simp only
  generalize (if s.payloadCapacity ≠ 0 then s.payloadCapacity.toNat * 2 else 32) = capacity
  split_ifs <;> omega

theorem length_reallocTo {payload : List UInt8} {fresh : ℕ → UInt8} {capacity : ℕ}
    (h : payload.length ≤ capacity) : (reallocTo payload fresh capacity).length = capacity := by
  rw [reallocTo, List.length_append, List.length_take, List.length_map, List.length_range]
  omega

theorem take_reallocTo {payload : List UInt8} {fresh : ℕ → UInt8} {capacity n : ℕ}
    (h : payload.length ≤ capacity) (hn : n ≤ payload.length) :
    (reallocTo payload fresh capacity).take n = payload.take n := by
  rw [reallocTo, List.take_of_length_le h, List.take_append_of_le_length hn]

/-- Bytes that there is room for are put behind the others. -/
theorem appendBytes_spec (s : Session)
    (hbuffer : (s.payload.getD []).length = s.payloadCapacity.toNat)
    (hdata : length.toNat ≤ data.length)
    (hroom : s.payloadSize.toNat + length.toNat ≤ s.payloadCapacity.toNat) (hsafe : output.Safe) :
    ∃ payload size, (appendBytes s output data length).1 =
        { s with payload := payload, payloadSize := size } ∧
      (payload.getD []).length = s.payloadCapacity.toNat ∧ size ≤ s.payloadCapacity ∧
      (payload.getD []).take size.toNat = s.data ++ data.take length.toNat ∧
      (appendBytes s output data length).2.2 = .ok ∧
      (appendBytes s output data length).2.1.Safe := by
  have hlt := s.payloadCapacity.toNat_lt
  have hsize : (UInt16.ofNat (s.payloadSize.toNat + length.toNat)).toNat =
      s.payloadSize.toNat + length.toNat :=
    UInt16.toNat_ofNat_of_lt' (Nat.lt_of_le_of_lt hroom hlt)
  have hlen : (data.take length.toNat).length = length.toNat := by
    rw [List.length_take]
    omega
  refine ⟨_, _, rfl, ?_, ?_, ?_, rfl, ?_⟩
  · rw [Option.getD_some, length_writeAt (by rw [hlen, hbuffer]; exact hroom), hbuffer]
  · rw [UInt16.le_iff_toNat_le, hsize]
    exact hroom
  · have hin : 0 + s.payloadSize.toNat + (data.take length.toNat).length ≤
        (s.payload.getD []).length := by
      rw [hlen, hbuffer, Nat.zero_add]
      exact hroom
    have hwrite := readAt_writeAt_append hin
    rw [hlen, Nat.zero_add] at hwrite
    rw [hsize, Option.getD_some]
    exact hwrite
  · exact (hsafe.copy (by rw [Copy.Inside, hbuffer]; exact hroom)).word (by omega)

/-- **Appending** either keeps the bytes behind those that are there, or changes
nothing. -/
theorem sessionAppend_spec {own : UInt8} (env : Env) (h : s.Ok own ctx.maxMessageSize)
    (hdata : length.toNat ≤ data.length) (hsafe : output.Safe) :
    (sessionAppend ctx env s output data length).2.1.Safe ∧
      ((sessionAppend ctx env s output data length).2.2 ≠ .ok ∧
          (sessionAppend ctx env s output data length).1 = s ∨
        (sessionAppend ctx env s output data length).2.2 = .ok ∧
          ∃ payload size capacity, (sessionAppend ctx env s output data length).1 =
              { s with payload := payload, payloadSize := size, payloadCapacity := capacity } ∧
            (payload.getD []).length = capacity.toNat ∧ size ≤ capacity ∧
            capacity ≤ ctx.maxMessageSize ∧
            (payload.getD []).take size.toNat = s.data ++ data.take length.toNat) := by
  have hsize := UInt16.le_iff_toNat_le.mp h.size_le
  have hcap := UInt16.le_iff_toNat_le.mp h.capacity_le
  have hmax := ctx.maxMessageSize.toNat_lt
  unfold sessionAppend
  simp only
  by_cases hlarge : s.payloadSize.toNat + length.toNat > ctx.maxMessageSize.toNat
  · rw [if_pos hlarge]
    exact ⟨hsafe, .inl ⟨by simp, rfl⟩⟩
  rw [if_neg hlarge]
  by_cases hzero : length = 0
  · subst hzero
    rw [if_pos rfl]
    exact ⟨hsafe, .inr ⟨rfl, s.payload, s.payloadSize, s.payloadCapacity, rfl, h.buffer, h.size_le,
      h.capacity_le, (List.append_nil _).symm⟩⟩
  rw [if_neg hzero]
  by_cases hgrow : s.payloadSize.toNat + length.toNat > s.payloadCapacity.toNat
  · rw [if_pos hgrow]
    cases hpayload : env.payload with
    | none => exact ⟨hsafe, .inl ⟨by simp, rfl⟩⟩
    | some fresh =>
      -- the block grows, and keeps its contents
      simp only
      set required := s.payloadSize.toNat + length.toNat
      obtain ⟨hroom, hlimit⟩ := appendCapacity_spec s (Nat.le_of_not_lt hlarge)
      set capacity := appendCapacity ctx s required
      have hcapacity : (UInt16.ofNat capacity).toNat = capacity :=
        UInt16.toNat_ofNat_of_lt' (Nat.lt_of_le_of_lt hlimit hmax)
      have hword : Output.Safe { output with words := output.words ++ [capacity] } :=
        hsafe.word (by omega)
      have hold : (s.payload.getD []).length ≤ capacity := by
        rw [h.buffer]
        omega
      obtain ⟨payload, size, heq, hbuffer, hle, hbytes, hok, hsafe'⟩ :=
        appendBytes_spec { s with
            payload := some (reallocTo (s.payload.getD []) fresh capacity)
            payloadCapacity := UInt16.ofNat capacity }
          (by rw [Option.getD_some, length_reallocTo hold, hcapacity]) hdata
          (by rw [hcapacity]; exact hroom) hword
      refine ⟨hsafe', .inr ⟨hok, payload, size, UInt16.ofNat capacity, heq, hbuffer, hle, ?_, ?_⟩⟩
      · rw [UInt16.le_iff_toNat_le, hcapacity]
        exact hlimit
      · rw [hbytes, Session.data, Session.data, Option.getD_some,
          take_reallocTo hold (by rw [h.buffer]; exact hsize)]
  · rw [if_neg hgrow]
    obtain ⟨payload, size, heq, hbuffer, hle, hbytes, hok, hsafe'⟩ :=
      appendBytes_spec s h.buffer hdata (Nat.le_of_not_lt hgrow) hsafe
    exact ⟨hsafe', .inr ⟨hok, payload, size, s.payloadCapacity, heq, hbuffer, hle, h.capacity_le,
      hbytes⟩⟩

/-- Appending says nothing. -/
theorem sessionAppend_output (ctx : Ctx) (env : Env) (s : Session) (output : Output)
    (data : List UInt8) (length : UInt16) :
    (sessionAppend ctx env s output data length).2.1.frame = output.frame ∧
      (sessionAppend ctx env s output data length).2.1.receivedMessage = output.receivedMessage ∧
      (sessionAppend ctx env s output data length).2.1.event = output.event := by
  unfold sessionAppend appendBytes
  simp only
  split_ifs
  · exact ⟨rfl, rfl, rfl⟩
  · exact ⟨rfl, rfl, rfl⟩
  · cases env.payload <;> exact ⟨rfl, rfl, rfl⟩
  · exact ⟨rfl, rfl, rfl⟩

end Append

section Rx

variable {ctx : Ctx} {s s' : Session} {bytes : List UInt8} {nowMs : UInt32} {command : Cmd}
  {reply : Option (Cmd × List UInt8)} {kind : Event} {received : Option Msg}

/-- What a command does to a session that receives keeps the invariant. -/
theorem RxCase.ok (hc : RxCase ctx s bytes nowMs command s' reply kind received)
    (h : s.Ok ctx.ownAddress ctx.maxMessageSize) (hrx : s.state = .rx) :
    s'.Ok ctx.ownAddress ctx.maxMessageSize := by
  have hlive : s.state ≠ .free := by simp [hrx]
  have hnotx : ¬ sessionIsTx s = true := by simp [sessionIsTx, hrx]
  cases hc with
  | aborted | refused | dropped | rejected | uncreated | finished => exact Session.ok_release
  | started =>
    exact {
      free := fun h => absurd h hlive
      accepts := fun _ => h.accepts hlive
      peerAddress := h.peerAddress
      sessionId := h.sessionId
      buffer := rfl
      size_le := UInt16.le_refl 0
      capacity_le := by
        rw [UInt16.le_iff_toNat_le]
        exact Nat.zero_le _
      rx := h.rx
      tx := fun htx => absurd htx hnotx }
  | appended _ hbuffer hsize hcapacity =>
    exact {
      free := fun h => absurd h hlive
      accepts := fun _ => h.accepts hlive
      peerAddress := h.peerAddress
      sessionId := h.sessionId
      buffer := hbuffer
      size_le := hsize
      capacity_le := hcapacity
      rx := h.rx
      tx := fun htx => absurd htx hnotx }

/-- The message that is made of a session. -/
theorem msgCreate_session {env : Env} {msg : Msg}
    (h : msgCreate env s.mode s.peerAddress s.localAddress s.payload s.payloadSize = some msg) :
    { msg with sessionId := s.sessionId } = s.msg := by
  unfold msgCreate at h
  split_ifs at h <;> obtain rfl := Option.some.inj h <;> simp_all [Session.msg, Session.data]

/-- An answer that depends on the command. -/
theorem answer_ite (ctx : Ctx) (s : Session) {output : Output} (hframe : output.frame = none)
    (hsafe : output.Safe)
    (c : Prop) [Decidable c] (command : Cmd) :
    (if c then answer ctx output s command else output).frame =
        (if c then some (command, ([] : List UInt8)) else none).map (fun p =>
          frameTo ctx.ownAddress s.peerAddress s.sessionId p.1 p.2) ∧
      (if c then answer ctx output s command else output).receivedMessage =
        output.receivedMessage ∧
      (if c then answer ctx output s command else output).event = output.event ∧
      (if c then answer ctx output s command else output).Safe := by
  by_cases hc : c
  · simp only [if_pos hc]
    exact ⟨answer_frame _ _ _ _, rfl, rfl, answer_safe _ _ _ hsafe⟩
  · simp only [if_neg hc]
    exact ⟨hframe, trivial, trivial, hsafe⟩

/-- **Finishing a transfer.** -/
theorem finishRx_spec (h : s.Ok ctx.ownAddress ctx.maxMessageSize) (env : Env)
    (hend : command = .end_ ∨ command = .endWa) :
    ∃ s' reply kind received, RxCase ctx s bytes nowMs command s' reply kind received ∧
      Reacts ctx.ownAddress s
        ((finishRx ctx env s command {}).1, (finishRx ctx env s command {}).2.1) s' reply kind
        received := by
  have hanswer := fun answerCommand => answer_ite ctx s rfl Output.safe_empty
    (command = .end_) answerCommand
  unfold finishRx
  simp only
  by_cases hvalid : (ctx.messageValidator && !env.validates ⟨s.mode, s.peerAddress,
      s.localAddress, s.sessionId, s.payloadSize, s.payload⟩) = true
  · rw [if_pos hvalid]
    rw [Bool.and_eq_true] at hvalid
    obtain ⟨hframe, hmessage, -, hsafe⟩ := hanswer .nack
    exact ⟨_, _, _, _, .rejected hend hvalid.1, Reacts.ended hframe hmessage hsafe⟩
  · rw [if_neg hvalid]
    cases hcreate : msgCreate env s.mode s.peerAddress s.localAddress s.payload s.payloadSize with
    | none =>
      obtain ⟨hframe, hmessage, -, hsafe⟩ := hanswer .abortWa
      exact ⟨_, _, _, _, .uncreated hend, Reacts.ended hframe hmessage hsafe⟩
    | some message =>
      obtain ⟨hframe, -, -, hsafe⟩ := hanswer .ack
      have hcopy : Copy.Inside ⟨(s.payload.getD []).length, 0, s.payloadSize.toNat⟩ := by
        rw [Copy.Inside, h.buffer, Nat.zero_add]
        exact UInt16.le_iff_toNat_le.mp h.size_le
      refine ⟨_, _, _, _, .finished hend, Reacts.ended hframe ?_
        ⟨(hsafe.copy hcopy).copies, (hsafe.copy hcopy).words⟩⟩
      exact congrArg some (msgCreate_session hcreate)

/-- Starting from the beginning. -/
theorem handleRxFrame_start {frame : CanMessage} (env : Env)
    (hcommand : command = .start ∨ command = .startWa) :
    ∃ s' reply kind received, RxCase ctx s frame.bytes nowMs command s' reply kind received ∧
      Reacts ctx.ownAddress s
        ((handleRxFrame ctx env s frame command nowMs {}).1,
          (handleRxFrame ctx env s frame command nowMs {}).2.1) s' reply kind received := by
  obtain ⟨hframe, hmessage, hevent, hsafe⟩ := answer_ite ctx s rfl Output.safe_empty
    (command = .start ∧ s.localAddress ≠ deviceIdAll) .ack
  have heq : (handleRxFrame ctx env s frame command nowMs {}).2.1 =
      if command = .start ∧ s.localAddress ≠ deviceIdAll then answer ctx {} s .ack else {} := by
    rcases hcommand with rfl | rfl <;> simp [handleRxFrame, answer]
  refine ⟨_, _, _, _, .started hcommand, ?_, ?_, ?_, ?_, fun h => absurd rfl h, ?_⟩
  · rcases hcommand with rfl | rfl <;> rfl
  · exact (congrArg Output.frame heq).trans hframe
  · exact (congrArg Output.event heq).trans hevent
  · exact (congrArg Output.receivedMessage heq).trans hmessage
  · simp only [heq]
    exact hsafe

/-- Getting some bytes. -/
theorem handleRxFrame_data (h : s.Ok ctx.ownAddress ctx.maxMessageSize) {frame : CanMessage}
    (hlen : frame.len.toNat ≤ maxLen) (env : Env)
    (hcommand : command = .data ∨ command = .dataWa) :
    ∃ s' reply kind received, RxCase ctx s frame.bytes nowMs command s' reply kind received ∧
      Reacts ctx.ownAddress s
        ((handleRxFrame ctx env s frame command nowMs {}).1,
          (handleRxFrame ctx env s frame command nowMs {}).2.1) s' reply kind received := by
  have hroom : frame.len.toNat ≤ frame.data.toList.length := by
    rw [Vector.length_toList]
    exact hlen
  obtain ⟨hsafe, hcases⟩ := sessionAppend_spec env h hroom Output.safe_empty
  obtain ⟨hframe, hmessage, hevent⟩ := sessionAppend_output ctx env s {} frame.data.toList
    frame.len
  have heq : handleRxFrame ctx env s frame command nowMs {} =
      (let r := sessionAppend ctx env s {} frame.data.toList frame.len
       if r.2.2 ≠ .ok then
          let output :=
            if command = .data then emitAbort ctx r.2.1 r.1.peerAddress r.1.sessionId else r.2.1
          (sessionRelease r.1, setEvent output .rxAborted r.1, r.2.2)
        else
          let session := { r.1 with lastActivityMs := nowMs }
          (session, if command = .data then answer ctx r.2.1 session .ack else r.2.1, .ok)) := by
    rcases hcommand with rfl | rfl <;> rfl
  rw [heq]
  simp only
  have hanswer := fun answerCommand =>
    answer_ite ctx s hframe hsafe (command = .data) answerCommand
  rcases hcases with ⟨hres, hsame⟩ | ⟨hres, payload, size, capacity, hnew, hbuffer, hsize,
    hcapacity, hbytes⟩
  · rw [if_pos hres, hsame]
    obtain ⟨hframe', hmessage', -, hsafe'⟩ := hanswer .abortWa
    exact ⟨_, _, _, _, .dropped hcommand, Reacts.ended hframe' (hmessage'.trans hmessage) hsafe'⟩
  · rw [if_neg (not_not.mpr hres), hnew]
    obtain ⟨hframe', hmessage', hevent', hsafe'⟩ := hanswer .ack
    exact ⟨_, _, _, _, .appended hcommand hbuffer hsize hcapacity hbytes, rfl, hframe',
      hevent'.trans hevent, hmessage'.trans hmessage, fun h => absurd rfl h, hsafe'⟩

/-- **A session that receives does what the cases say.** -/
theorem handleRxFrame_spec (h : s.Ok ctx.ownAddress ctx.maxMessageSize)
    {frame : CanMessage} (hlen : frame.len.toNat ≤ maxLen) (env : Env) (command : Cmd)
    (nowMs : UInt32) :
    ∃ s' reply kind received, RxCase ctx s frame.bytes nowMs command s' reply kind received ∧
      Reacts ctx.ownAddress s
        ((handleRxFrame ctx env s frame command nowMs {}).1,
          (handleRxFrame ctx env s frame command nowMs {}).2.1) s' reply kind received := by
  have hrefused : ∀ command : Cmd, command = .ack ∨ command = .nack →
      ∃ s' reply kind received, RxCase ctx s frame.bytes nowMs command s' reply kind received ∧
        Reacts ctx.ownAddress s (sessionRelease s,
          setEvent (emitAbort ctx {} s.peerAddress s.sessionId) .rxAborted s) s' reply kind
          received :=
    fun command hcommand => ⟨_, _, _, _, .refused hcommand,
      Reacts.ended (answer_frame _ _ _ _) rfl (answer_safe _ _ _ Output.safe_empty)⟩
  cases command with
  | abortWa => exact ⟨_, _, _, _, .aborted, Reacts.ended rfl rfl Output.safe_empty⟩
  | start => exact handleRxFrame_start env (.inl rfl)
  | startWa => exact handleRxFrame_start env (.inr rfl)
  | data => exact handleRxFrame_data h hlen env (.inl rfl)
  | dataWa => exact handleRxFrame_data h hlen env (.inr rfl)
  | end_ => exact finishRx_spec h env (.inl rfl)
  | endWa => exact finishRx_spec h env (.inr rfl)
  | ack => exact hrefused .ack (.inl rfl)
  | nack => exact hrefused .nack (.inr rfl)

end Rx

end Imp
end UniCan
