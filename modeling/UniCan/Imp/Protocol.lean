import UniCan.Foundation.Machine
import UniCan.Foundation.Memory
import UniCan.Imp.CanId

/-!
# IMP

The intermodule protocol sends a message to one device, which acknowledges every
frame, or to one or all devices without acknowledgement.  A context keeps its
transfers, in both directions, in a table of sessions.

The allocator and the validator of the application are what the calls get from
them.  The history of an output records the copies out of and into the payloads of
sessions, and the numbers that are stored in 16 bits.

## Main definitions

* `Session`, `Ctx`, `Output` — the state of a transfer, of a device, and what a call
  puts out.
* `init` — setting up a context.
* `startSend`, `addFrame`, `process` — the calls.
* `Call`, `device` — the calls as inputs of a machine.
-/

namespace UniCan
namespace Imp

/-! ### State -/

/-- `uni_can_imp_msg_mode_t`; `other` is any other value of the enumeration. -/
inductive MsgMode
  | withAck
  | withoutAck
  | other
  deriving DecidableEq, Repr

/-- `uni_can_imp_result_t`. -/
inductive Result
  | ok
  | failure
  | invalidArgument
  | wrongAddress
  | invalidFrame
  | noFreeSession
  | cantAllocate
  | messageTooLarge
  | unexpectedCommand
  | messageRejected
  deriving DecidableEq, Repr

/-- `uni_can_imp_event_t`. -/
inductive Event
  | none
  | txFinished
  | txTimeout
  | txAborted
  | rxFinished
  | rxTimeout
  | rxAborted
  deriving DecidableEq, Repr

/-- `uni_can_imp_session_state_t`. -/
inductive SessionState
  | free
  | rx
  | txWithoutAck
  | txWaitStartAck
  | txWaitDataAck
  | txWaitEndAck
  deriving DecidableEq, Repr

/-- `uni_can_imp_msg_t`; `none` is a null pointer. -/
structure Msg where
  mode : MsgMode
  addressFrom : UInt8
  addressTo : UInt8
  sessionId : UInt8
  length : UInt16
  data : Option (List UInt8)
  deriving DecidableEq

/-- The data of a message. -/
def Msg.bytes (msg : Msg) : List UInt8 := (msg.data.getD []).take msg.length.toNat

/-- `uni_can_imp_session_t`; the payload is null or a block on the heap. -/
structure Session where
  addressMask : UInt32 := 0
  state : SessionState := .free
  mode : MsgMode := .withAck
  peerAddress : UInt8 := 0
  localAddress : UInt8 := 0
  sessionId : UInt8 := 0
  lastDataLength : UInt8 := 0
  payload : Option (List UInt8) := none
  payloadSize : UInt16 := 0
  payloadCapacity : UInt16 := 0
  payloadOffset : UInt16 := 0
  lastActivityMs : UInt32 := 0
  deriving DecidableEq

/-- `uni_can_imp_config_t`. -/
structure Config where
  ownAddress : UInt8
  maxSessions : UInt16
  maxMessageSize : UInt16
  sessionTimeoutMs : UInt32
  sessionAddressMasks : Option (List UInt32)
  /-- There is a `message_validator`. -/
  messageValidator : Bool

/-- `uni_can_imp_ctx_t`, once it is initialized; the table has `maxSessions`
sessions. -/
structure Ctx where
  ownAddress : UInt8
  maxSessions : UInt16
  maxMessageSize : UInt16
  sessionTimeoutMs : UInt32
  messageValidator : Bool
  sessions : List Session

/-- `uni_can_imp_output_t`; there is a frame if `frame_ready` is set. -/
structure Output where
  frame : Option CanMessage := none
  receivedMessage : Option Msg := none
  event : Event := .none
  peerAddress : UInt8 := 0
  sessionId : UInt8 := 0
  /-- History: the copies out of and into the payloads of sessions. -/
  copies : List Copy := []
  /-- History: the numbers that are stored in 16 bits. -/
  words : List ℕ := []

/-- What a call gets from outside: whether the allocator gives memory for the payload
of a session (and what it holds at first), for a message, and for its data; and what
the validator thinks of a message. -/
structure Env where
  payload : Option (ℕ → UInt8)
  calloc : Bool
  malloc : Bool
  validates : Msg → Bool

/-- Memory for everything, and a validator that lets everything pass. -/
def Env.ample : Env := ⟨some fun _ => 0, true, true, fun _ => true⟩

/-! ### Sessions -/

/-- `uni_can_imp_session_release`. -/
def sessionRelease (session : Session) : Session := { addressMask := session.addressMask }

/-- `uni_can_imp_session_accepts`. -/
def sessionAccepts (session : Session) (peerAddress : UInt8) : Bool :=
  session.addressMask &&& ((1 : UInt32) <<< peerAddress.toUInt32) != 0

/-- `uni_can_imp_session_is_tx`. -/
def sessionIsTx (session : Session) : Bool :=
  match session.state with
  | .free | .rx => false
  | _ => true

/-- The session with an index. -/
def Ctx.session (ctx : Ctx) (i : ℕ) : Session := ctx.sessions.getD i {}

/-- The context with another session in a place of the table. -/
def Ctx.setSession (ctx : Ctx) (i : ℕ) (session : Session) : Ctx :=
  { ctx with sessions := ctx.sessions.set i session }

/-- `uni_can_imp_find_session`. -/
def findSession (ctx : Ctx) (peerAddress localAddress sessionId : UInt8) : Option ℕ :=
  ctx.sessions.findIdx? fun session =>
    session.state != .free && session.peerAddress == peerAddress &&
      session.localAddress == localAddress && session.sessionId == sessionId

/-- `uni_can_imp_find_free_session`. -/
def findFreeSession (ctx : Ctx) (peerAddress : UInt8) : Option ℕ :=
  ctx.sessions.findIdx? fun session =>
    session.state == .free && sessionAccepts session peerAddress

/-! ### Output -/

/-- `uni_can_imp_set_event`. -/
def setEvent (output : Output) (event : Event) (session : Session) : Output :=
  { output with
    event := event
    peerAddress := session.peerAddress
    sessionId := session.sessionId }

/-- `uni_can_imp_set_frame`, of `length` bytes at `data`. -/
def setFrame (ctx : Ctx) (output : Output) (addressTo sessionId : UInt8) (command : Cmd)
    (data : List UInt8) (length : UInt8) : Output :=
  { output with
    frame := some {
      id := canidCreate ctx.ownAddress addressTo sessionId command
      flags := flagExtId
      len := length.toUInt16
      data := CanData.ofBytes (data.take length.toNat) } }

/-- A frame to the peer of a session, without data. -/
def answer (ctx : Ctx) (output : Output) (session : Session) (command : Cmd) : Output :=
  setFrame ctx output session.peerAddress session.sessionId command [] 0

/-- A frame to the peer of a session, with `length` bytes of its payload. -/
def answerData (ctx : Ctx) (output : Output) (session : Session) (command : Cmd)
    (length : UInt8) : Output :=
  let payload := session.payload.getD []
  setFrame ctx
    { output with
      copies := output.copies ++ [⟨payload.length, session.payloadOffset.toNat, length.toNat⟩] }
    session.peerAddress session.sessionId command
    (payload.drop session.payloadOffset.toNat) length

/-- `uni_can_imp_emit_abort`. -/
def emitAbort (ctx : Ctx) (output : Output) (peerAddress sessionId : UInt8) : Output :=
  setFrame ctx output peerAddress sessionId .abortWa [] 0

/-! ### Payloads -/

/-- `uni_can_imp_session_copy_payload`. -/
def sessionCopyPayload (env : Env) (session : Session) (output : Output) (data : List UInt8)
    (length : UInt16) : Session × Output × Result :=
  if length = 0 then (session, output, .ok)
  else
    match env.payload with
    | none => (session, output, .cantAllocate)
    | some fresh =>
        let payload := (List.range length.toNat).map fresh
        ({ session with
            payload := some (writeAt payload 0 (data.take length.toNat))
            payloadSize := length
            payloadCapacity := length },
          { output with copies := output.copies ++ [⟨payload.length, 0, length.toNat⟩] }, .ok)

/-- The capacity `uni_can_imp_session_append` asks for. -/
def appendCapacity (ctx : Ctx) (session : Session) (required : ℕ) : ℕ :=
  let capacity :=
    if session.payloadCapacity ≠ 0 then session.payloadCapacity.toNat * 2 else 32
  let capacity := if capacity < required then required else capacity
  if capacity > ctx.maxMessageSize.toNat then ctx.maxMessageSize.toNat else capacity

/-- A block after `realloc` to a size it does not have yet. -/
def reallocTo (payload : List UInt8) (fresh : ℕ → UInt8) (capacity : ℕ) : List UInt8 :=
  payload.take capacity ++ (List.range (capacity - payload.length)).map fresh

/-- The end of `uni_can_imp_session_append`: the bytes are copied behind those that
are there. -/
def appendBytes (session : Session) (output : Output) (data : List UInt8) (length : UInt16) :
    Session × Output × Result :=
  let payload := session.payload.getD []
  let required := session.payloadSize.toNat + length.toNat
  ({ session with
      payload := some (writeAt payload session.payloadSize.toNat (data.take length.toNat))
      payloadSize := UInt16.ofNat required },
    { output with
      copies := output.copies ++ [⟨payload.length, session.payloadSize.toNat, length.toNat⟩]
      words := output.words ++ [required] }, .ok)

/-- `uni_can_imp_session_append`. -/
def sessionAppend (ctx : Ctx) (env : Env) (session : Session) (output : Output)
    (data : List UInt8) (length : UInt16) : Session × Output × Result :=
  let required := session.payloadSize.toNat + length.toNat
  if required > ctx.maxMessageSize.toNat then (session, output, .messageTooLarge)
  -- a frame without data needs no buffer
  else if length = 0 then (session, output, .ok)
  else if required > session.payloadCapacity.toNat then
    match env.payload with
    | none => (session, output, .cantAllocate)
    | some fresh =>
        let capacity := appendCapacity ctx session required
        appendBytes
          { session with
            payload := some (reallocTo (session.payload.getD []) fresh capacity)
            payloadCapacity := UInt16.ofNat capacity }
          { output with words := output.words ++ [capacity] } data length
  else appendBytes session output data length

/-! ### Messages -/

/-- `uni_can_imp_msg_create`. -/
def msgCreate (env : Env) (mode : MsgMode) (addressFrom addressTo : UInt8)
    (data : Option (List UInt8)) (length : UInt16) : Option Msg :=
  if mode = .other || !sourceAddressValid addressFrom || !addressValid addressTo ||
      (length > 0 && data.isNone) then none
  else if !env.calloc then none
  else if length > 0 && !env.malloc then none
  else some {
    -- nothing that goes to all devices is acknowledged
    mode := if addressTo = deviceIdAll then .withoutAck else mode
    addressFrom := addressFrom
    addressTo := addressTo
    sessionId := 0
    length := length
    data := if length > 0 then some ((data.getD []).take length.toNat) else none }

/-! ### Frames of a transfer -/

/-- The bytes of payload that the next frame of a session takes. -/
def nextLength (session : Session) : UInt8 :=
  let bytesLeft := session.payloadSize - session.payloadOffset
  if bytesLeft.toNat > maxLen then UInt8.ofNat maxLen else bytesLeft.toUInt8

/-- `uni_can_imp_emit_next_acked_frame`. -/
def emitNextAckedFrame (ctx : Ctx) (session : Session) (nowMs : UInt32) (output : Output) :
    Session × Output :=
  if session.payloadOffset < session.payloadSize then
    let length := nextLength session
    let session := { session with
      lastDataLength := length
      state := .txWaitDataAck
      lastActivityMs := nowMs }
    (session, answerData ctx output session .data length)
  else
    let session := { session with
      state := .txWaitEndAck
      lastActivityMs := nowMs }
    (session, answer ctx output session .end_)

/-- `uni_can_imp_resend_acked_frame`. -/
def resendAckedFrame (ctx : Ctx) (session : Session) (nowMs : UInt32) (output : Output) :
    Session × Output :=
  let session := { session with lastActivityMs := nowMs }
  match session.state with
  | .txWaitStartAck => (session, answer ctx output session .start)
  | .txWaitDataAck => (session, answerData ctx output session .data session.lastDataLength)
  | _ => (session, output)

/-- `uni_can_imp_handle_tx_frame`. -/
def handleTxFrame (ctx : Ctx) (session : Session) (command : Cmd) (nowMs : UInt32)
    (output : Output) : Session × Output × Result :=
  match command with
  | .abortWa => (sessionRelease session, setEvent output .txAborted session, .ok)
  | .nack =>
      match session.state with
      | .txWaitStartAck | .txWaitDataAck =>
          let r := resendAckedFrame ctx session nowMs output
          (r.1, r.2, .ok)
      | _ => (sessionRelease session, setEvent output .txAborted session, .messageRejected)
  | .ack =>
      match session.state with
      | .txWaitStartAck =>
          let r := emitNextAckedFrame ctx session nowMs output
          (r.1, r.2, .ok)
      | .txWaitDataAck =>
          let offset := session.payloadOffset.toNat + session.lastDataLength.toNat
          let r := emitNextAckedFrame ctx
            { session with payloadOffset := UInt16.ofNat offset } nowMs
            { output with words := output.words ++ [offset] }
          (r.1, r.2, .ok)
      | .txWaitEndAck => (sessionRelease session, setEvent output .txFinished session, .ok)
      | _ => (session, output, .unexpectedCommand)
  -- a command that only a sender sends
  | _ =>
      (sessionRelease session,
        setEvent (emitAbort ctx output session.peerAddress session.sessionId) .txAborted session,
        .unexpectedCommand)

/-- `uni_can_imp_finish_rx`. -/
def finishRx (ctx : Ctx) (env : Env) (session : Session) (command : Cmd) (output : Output) :
    Session × Output × Result :=
  let candidate : Msg := {
    mode := session.mode
    addressFrom := session.peerAddress
    addressTo := session.localAddress
    sessionId := session.sessionId
    length := session.payloadSize
    data := session.payload }
  if ctx.messageValidator && !env.validates candidate then
    let output := if command = .end_ then answer ctx output session .nack else output
    (sessionRelease session, setEvent output .rxAborted session, .messageRejected)
  else
    match msgCreate env candidate.mode candidate.addressFrom candidate.addressTo candidate.data
        candidate.length with
    | none =>
        let output :=
          if command = .end_ then emitAbort ctx output session.peerAddress session.sessionId
          else output
        (sessionRelease session, setEvent output .rxAborted session, .cantAllocate)
    | some message =>
        let output := if command = .end_ then answer ctx output session .ack else output
        let output := { output with
          receivedMessage := some { message with sessionId := candidate.sessionId }
          copies := output.copies ++
            [⟨(session.payload.getD []).length, 0, session.payloadSize.toNat⟩] }
        (sessionRelease session, setEvent output .rxFinished session, .ok)

/-- The mode of a transfer that a command starts. -/
def startMode (command : Cmd) : MsgMode := if command = .start then .withAck else .withoutAck

/-- `uni_can_imp_handle_rx_frame`. -/
def handleRxFrame (ctx : Ctx) (env : Env) (session : Session) (frame : CanMessage) (command : Cmd)
    (nowMs : UInt32) (output : Output) : Session × Output × Result :=
  match command with
  | .abortWa => (sessionRelease session, setEvent output .rxAborted session, .ok)
  -- a START again: what has arrived so far is dropped
  | .start | .startWa =>
      let session := { session with
        payload := none
        payloadSize := 0
        payloadCapacity := 0
        payloadOffset := 0
        mode := startMode command
        lastActivityMs := nowMs }
      (session,
        if command = .start && session.localAddress != deviceIdAll then
          answer ctx output session .ack
        else output, .ok)
  | .data | .dataWa =>
      let r := sessionAppend ctx env session output frame.data.toList frame.len
      if r.2.2 ≠ .ok then
        let output :=
          if command = .data then emitAbort ctx r.2.1 r.1.peerAddress r.1.sessionId else r.2.1
        (sessionRelease r.1, setEvent output .rxAborted r.1, r.2.2)
      else
        let session := { r.1 with lastActivityMs := nowMs }
        (session, if command = .data then answer ctx r.2.1 session .ack else r.2.1, .ok)
  | .end_ | .endWa => finishRx ctx env session command output
  | .ack | .nack =>
      (sessionRelease session,
        setEvent (emitAbort ctx output session.peerAddress session.sessionId) .rxAborted session,
        .unexpectedCommand)

/-! ### The calls -/

/-- `uni_can_imp_init`, when `calloc` gives memory or not. -/
def init (calloc : Bool) (cfg : Config) : Option Ctx :=
  if !sourceAddressValid cfg.ownAddress then none
  else if !calloc then none
  else
    let maxSessions := if cfg.maxSessions ≠ 0 then cfg.maxSessions else 8
    some {
      ownAddress := cfg.ownAddress
      maxSessions := maxSessions
      maxMessageSize := if cfg.maxMessageSize ≠ 0 then cfg.maxMessageSize else 200
      sessionTimeoutMs := if cfg.sessionTimeoutMs ≠ 0 then cfg.sessionTimeoutMs else 1000
      messageValidator := cfg.messageValidator
      sessions := (List.range maxSessions.toNat).map fun i =>
        { addressMask := (cfg.sessionAddressMasks.getD []).getD i 0xFFFFFFFF } }

/-- The ids in use for transfers to an address, halved. -/
def reservedIds (ctx : Ctx) (addressTo : UInt8) (uniqueId : ℕ) : Bool :=
  ctx.sessions.any fun session =>
    sessionIsTx session && session.peerAddress == addressTo &&
      (session.sessionId >>> 1).toNat == uniqueId

/-- The session id `uni_can_imp_start_send` gives a transfer with this `unique_id`. -/
def startSessionId (ctx : Ctx) (addressTo : UInt8) (uniqueId : ℕ) : UInt8 :=
  (UInt8.ofNat uniqueId <<< 1) ||| (if ctx.ownAddress > addressTo then 1 else 0)

/-- The end of `uni_can_imp_start_send`: the transfer in a session that is free. -/
def startSession (ctx : Ctx) (env : Env) (session : Session) (sessionId : UInt8) (msg : Msg)
    (nowMs : UInt32) (output : Output) : Session × Output × Result :=
  let session : Session := {
    addressMask := session.addressMask
    peerAddress := msg.addressTo
    localAddress := ctx.ownAddress
    sessionId := sessionId
    mode := if msg.addressTo = deviceIdAll then .withoutAck else msg.mode
    lastActivityMs := nowMs }
  let r := sessionCopyPayload env session output (msg.data.getD []) msg.length
  -- without memory the slot is free again, with its mask
  if r.2.2 ≠ .ok then (sessionRelease r.1, r.2.1, r.2.2)
  else
    let withoutAck := r.1.mode = .withoutAck
    let session := { r.1 with state := if withoutAck then .txWithoutAck else .txWaitStartAck }
    let output := answer ctx r.2.1 session (if withoutAck then .startWa else .start)
    (session,
      { output with
        peerAddress := session.peerAddress
        sessionId := session.sessionId }, .ok)

/-- `uni_can_imp_start_send`. -/
def startSend (ctx : Ctx) (env : Env) (msg : Msg) (nowMs : UInt32) : Ctx × Output × Result :=
  if msg.mode = .other then (ctx, {}, .invalidArgument)
  else if msg.addressFrom != ctx.ownAddress || !addressValid msg.addressTo ||
      msg.addressTo == ctx.ownAddress || msg.length > ctx.maxMessageSize ||
      (msg.length > 0 && msg.data.isNone) then
    (ctx, {}, if msg.length > ctx.maxMessageSize then .messageTooLarge else .wrongAddress)
  else
    match findFreeSession ctx msg.addressTo with
    | none => (ctx, {}, .noFreeSession)
    | some i =>
        match (List.range 8).find? fun uniqueId => !reservedIds ctx msg.addressTo uniqueId with
        | none => (ctx, {}, .noFreeSession)
        | some uniqueId =>
            let r := startSession ctx env (ctx.session i)
              (startSessionId ctx msg.addressTo uniqueId) msg nowMs {}
            (ctx.setSession i r.1, r.2.1, r.2.2)

/-- The session a START opens. -/
def openSession (session : Session) (addressFrom addressTo sessionId : UInt8) (command : Cmd)
    (nowMs : UInt32) : Session where
  addressMask := session.addressMask
  state := .rx
  mode := startMode command
  peerAddress := addressFrom
  localAddress := addressTo
  sessionId := sessionId
  lastActivityMs := nowMs

/-- The session a frame is for, with its index: the one with its id, or a free one if
the frame opens a session. -/
def frameSession (ctx : Ctx) (addressFrom addressTo sessionId : UInt8) (command : Cmd)
    (nowMs : UInt32) : Option (ℕ × Session) :=
  match findSession ctx addressFrom addressTo sessionId with
  | some i => some (i, ctx.session i)
  | none =>
      if command = .start || command = .startWa then
        (findFreeSession ctx addressFrom).map fun i =>
          (i, openSession (ctx.session i) addressFrom addressTo sessionId command nowMs)
      else none

/-- What `uni_can_imp_add_frame` does with a frame whose identifier is fine. -/
def addCommand (ctx : Ctx) (env : Env) (frame : CanMessage)
    (addressFrom addressTo sessionId : UInt8) (command : Cmd) (nowMs : UInt32) :
    Ctx × Output × Result :=
  match frameSession ctx addressFrom addressTo sessionId command nowMs with
  | none =>
      (ctx, if command.withoutAck then {} else emitAbort ctx {} addressFrom sessionId,
        .noFreeSession)
  | some (i, session) =>
      let r :=
        if sessionIsTx session then handleTxFrame ctx session command nowMs {}
        else handleRxFrame ctx env session frame command nowMs {}
      (ctx.setSession i r.1, r.2.1, r.2.2)

/-- `uni_can_imp_add_frame`. -/
def addFrame (ctx : Ctx) (env : Env) (frame : CanMessage) (nowMs : UInt32) :
    Ctx × Output × Result :=
  if frame.len.toNat > maxLen then (ctx, {}, .invalidFrame)
  else
    let addressTo := canidGetTo frame.id
    let addressFrom := canidGetFrom frame.id
    if (addressTo != ctx.ownAddress && addressTo != deviceIdAll) ||
        !sourceAddressValid addressFrom then (ctx, {}, .wrongAddress)
    else
      match Cmd.ofCode? (canidGetCommand frame.id) with
      | none => (ctx, {}, .invalidFrame)
      | some command =>
          -- a frame to all devices must not ask for an acknowledgement
          if addressTo == deviceIdAll && !command.withoutAck then (ctx, {}, .invalidFrame)
          else addCommand ctx env frame addressFrom addressTo (canidGetSessionId frame.id) command
            nowMs

/-- The session has waited too long. -/
def timedOut (ctx : Ctx) (nowMs : UInt32) (session : Session) : Bool :=
  match session.state with
  | .rx | .txWaitStartAck | .txWaitDataAck | .txWaitEndAck =>
      nowMs - session.lastActivityMs > ctx.sessionTimeoutMs
  | _ => false

/-- The next frame of a transfer without acknowledgement. -/
def processSession (ctx : Ctx) (session : Session) : Session × Output :=
  if session.payloadOffset < session.payloadSize then
    let length := nextLength session
    let offset := session.payloadOffset.toNat + length.toNat
    let output := answerData ctx {} session .dataWa length
    ({ session with payloadOffset := UInt16.ofNat offset },
      { output with
        peerAddress := session.peerAddress
        sessionId := session.sessionId
        words := output.words ++ [offset] })
  else (sessionRelease session, setEvent (answer ctx {} session .endWa) .txFinished session)

/-- `uni_can_imp_process`. -/
def process (ctx : Ctx) (nowMs : UInt32) : Ctx × Output × Result :=
  -- a timeout is reported before any frame is made
  match ctx.sessions.findIdx? (timedOut ctx nowMs) with
  | some i =>
      let session := ctx.session i
      (ctx.setSession i (sessionRelease session),
        setEvent {} (if session.state = .rx then .rxTimeout else .txTimeout) session, .ok)
  | none =>
      match ctx.sessions.findIdx? fun session => session.state == .txWithoutAck with
      | none => (ctx, {}, .ok)
      | some i =>
          let r := processSession ctx (ctx.session i)
          (ctx.setSession i r.1, r.2, .ok)

/-! ### A device -/

/-- The data of a message that is given to be sent: if there is any, all of it can
be read. -/
def Msg.Readable (msg : Msg) : Prop := ∀ data, msg.data = some data → msg.length.toNat ≤ data.length

/-- A call, with what it gets from outside. -/
inductive Call
  /-- `uni_can_imp_start_send`. -/
  | startSend (msg : Msg) (readable : msg.Readable) (nowMs : UInt32) (env : Env)
  /-- `uni_can_imp_add_frame`. -/
  | addFrame (frame : CanMessage) (nowMs : UInt32) (env : Env)
  /-- `uni_can_imp_process`. -/
  | process (nowMs : UInt32)

/-- A context as a machine. -/
def device : Machine Ctx Call (Output × Result) where
  step ctx
    | .startSend msg _ nowMs env => startSend ctx env msg nowMs
    | .addFrame frame nowMs env => addFrame ctx env frame nowMs
    | .process nowMs => process ctx nowMs

/-- A context that was just set up. -/
def Ctx.Initial (ctx : Ctx) : Prop := ∃ calloc cfg, init calloc cfg = some ctx

/-- A context after some calls. -/
def Ctx.Reachable (ctx : Ctx) : Prop := ∃ ctx₀ : Ctx, ctx₀.Initial ∧ device.Reachable ctx₀ ctx

end Imp
end UniCan
