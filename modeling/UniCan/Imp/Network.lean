import UniCan.Foundation.Stream
import UniCan.Imp.Lookup

/-!
# Two devices on a wire

Two devices send each other messages, in both directions at once and several at a
time.  Every frame that a device has ready goes on the wire to the other one, which
gets the frames in their order, at any time; and either device may be processed at any
time, with any clock.

What is told about a run is kept as history: the frames that have arrived, the messages
that were started, and those that were reported.  A report is of the transfer whose
START was the last one to arrive with its address and its id, and the transfers of a
device are numbered in the order in which it started them.

## Main definitions

* `frameMark`, `marks` — the frames of a device as a stream of transfers.
* `Node` — a device with its history.
* `Net`, `NetAction`, `network` — two devices, what may happen to them, and the machine
  that this makes.
* `Wired` — a frame that one of the two sends.

## Main results

* `frameMark_frameTo`, `heading_frameTo` — what a frame that is sent stands for, and
  that it gets past the checks of the other device.
* `Wired.addFrame_cases` — **what becomes of a frame of the other device**.
* `Wired.keeps` — the two keep to the bits of their ids.
-/

namespace UniCan
namespace Imp

/-! ### Sides -/

@[simp] theorem Side.other_other (side : Side) : side.other.other = side := by
  cases side <;> rfl

@[simp] theorem Side.other_ne (side : Side) : side.other ≠ side := by
  cases side <;> simp [Side.other]

theorem Side.eq_or_other (side x : Side) : x = side ∨ x = side.other := by
  cases side <;> cases x <;> simp [Side.other]

/-! ### Transfers -/

/-- What a command with some bytes of data means for its transfer, if it comes from the
sender. -/
def Cmd.mark (bytes : List UInt8) : Cmd → Option (Mark MsgMode UInt8)
  | .start => some (.start .withAck)
  | .startWa => some (.start .withoutAck)
  | .data | .dataWa => some (.data bytes)
  | .end_ | .endWa => some .stop
  | .ack | .nack | .abortWa => none

/-- What a frame means for its transfer. -/
def frameMark (frame : CanMessage) : Option ((UInt8 × UInt8) × Mark MsgMode UInt8) :=
  (Cmd.ofCode? (canidGetCommand frame.id)).bind fun command =>
    (command.mark frame.bytes).map fun mark =>
      ((canidGetTo frame.id, canidGetSessionId frame.id), mark)

/-- The frames of a device as a stream of transfers. -/
def marks (frames : List CanMessage) : List ((UInt8 × UInt8) × Mark MsgMode UInt8) :=
  frames.filterMap frameMark

@[simp] theorem marks_append (frames frames' : List CanMessage) :
    marks (frames ++ frames') = marks frames ++ marks frames' :=
  List.filterMap_append

/-! ### Frames on the wire -/

section Frames

variable {own peer addressTo sessionId : UInt8} {command : Cmd} {bytes : List UInt8}

/-- What a frame that is sent means. -/
theorem frameMark_frameTo (own : UInt8) (command : Cmd) (hto : addressTo.toNat < 32)
    (hid : sessionId.toNat < 16) (hlen : bytes.length ≤ maxLen) :
    frameMark (frameTo own addressTo sessionId command bytes) =
      (command.mark bytes).map fun mark => ((addressTo, sessionId), mark) := by
  rw [frameMark, bytes_frameTo hlen, frameTo, canidGetCommand_canidCreate, Cmd.ofCode?_code,
    Option.bind_some, canidGetTo_canidCreate _ _ _ _ hto, canidGetSessionId_canidCreate _ _ _ _ hid]

/-- A frame that one of two devices sends: it is for the other one, or it is for all and
needs no acknowledgement; and a START to the other one has an id with the bit of its
sender. -/
inductive Wired (own peer : UInt8) : CanMessage → Prop
  | intro {addressTo sessionId : UInt8} {command : Cmd} {bytes : List UInt8}
      (hto : addressTo = peer ∨ addressTo = deviceIdAll ∧ command.withoutAck = true)
      (hid : sessionId.toNat < 16) (hlen : bytes.length ≤ maxLen)
      (hstart : command = .start ∨ command = .startWa → addressTo = peer →
        sessionId.toNat % 2 = idBit own peer) :
      Wired own peer (frameTo own addressTo sessionId command bytes)

/-- The frame gets past the checks of the other device. -/
theorem heading_frameTo (hown : own.toNat < 31)
    (hto : addressTo = peer ∨ addressTo = deviceIdAll ∧ command.withoutAck = true)
    (hpeer : peer.toNat < 31) (hid : sessionId.toNat < 16) (hlen : bytes.length ≤ maxLen) :
    heading peer (frameTo own addressTo sessionId command bytes) =
      some ⟨own, addressTo, sessionId, command⟩ := by
  have hlt : addressTo.toNat < 32 := by
    rcases hto with rfl | ⟨rfl, -⟩
    · exact Nat.lt_succ_of_lt hpeer
    · decide
  have hsource : sourceAddressValid own = true := (sourceAddressValid_iff own).mpr hown
  have hnotall := ne_deviceIdAll hpeer
  rw [heading, len_frameTo hlen, if_neg (Nat.not_lt.mpr hlen), frameTo,
    canidGetTo_canidCreate _ _ _ _ hlt, canidGetFrom_canidCreate _ _ _ _ (Nat.lt_succ_of_lt hown),
    canidGetSessionId_canidCreate _ _ _ _ hid, canidGetCommand_canidCreate, Cmd.ofCode?_code,
    hsource]
  rcases hto with rfl | ⟨rfl, hack⟩
  · simp [hnotall]
  · simp [hack]

/-- **A frame of the other device** is turned away, or one session handles it. -/
theorem Wired.addFrame_cases {frame : CanMessage} (h : Wired peer own frame) {ctx : Ctx}
    (hctx : ctx.Ok) (hown : ctx.ownAddress = own) (hpeer : peer.toNat < 31) (nowMs : UInt32)
    (env : Env) :
    ∃ addressTo sessionId command bytes,
      frame = frameTo peer addressTo sessionId command bytes ∧
      (addressTo = own ∨ addressTo = deviceIdAll ∧ command.withoutAck = true) ∧
      addressTo.toNat < 32 ∧ sessionId.toNat < 16 ∧ bytes.length ≤ maxLen ∧
      ∃ r, addFrame ctx env frame nowMs = r ∧
        (frameSession ctx peer addressTo sessionId command nowMs = none ∧
            r.1 = ctx ∧ r.2.1.Quiet ∧ r.2.1.frame =
              (if command.withoutAck = true then none else
                some (frameTo own peer sessionId .abortWa [])) ∨
          ∃ i s s' reply kind received,
            Handles ctx ⟨peer, addressTo, sessionId, command⟩ bytes nowMs i s s' reply kind
                received ∧
              FrameSession ctx ⟨peer, addressTo, sessionId, command⟩ nowMs i s ∧
              s.Ok own ctx.maxMessageSize ∧ s'.Ok own ctx.maxMessageSize ∧
              r.1 = ctx.setSession i s' ∧
              Reacts own s (s', r.2.1) s' reply kind received) := by
  subst hown
  obtain ⟨r, hr, hcase⟩ := addFrame_spec hctx frame nowMs env
  obtain ⟨hto, hid, hlen, -⟩ := h
  rename_i addressTo sessionId command bytes
  have hlt : addressTo.toNat < 32 := by
    rcases hto with rfl | ⟨rfl, -⟩
    · exact Nat.lt_succ_of_lt hctx.ownAddress
    · decide
  refine ⟨addressTo, sessionId, command, bytes, rfl, hto, hlt, hid, hlen, r, hr, ?_⟩
  -- the frame gets past the checks, so it has a heading
  rw [heading_frameTo hpeer hto hctx.ownAddress hid hlen, bytes_frameTo hlen] at hcase
  rcases hcase with ⟨hnone, -⟩ | ⟨hd, hhd, hcase⟩
  · exact absurd hnone (by simp)
  obtain rfl := Option.some.inj hhd
  refine hcase.imp_right ?_
  rintro ⟨i, s, s', reply, kind, received, hhandles, hok, hset, hreacts⟩
  have hsession := frameSession_eq_some hhandles.found
  exact ⟨i, s, s', reply, kind, received, hhandles, hsession,
    hsession.ok hctx hpeer hid (hto.imp_right And.left), hok, hset, hreacts⟩

/-- The answer to a frame that is turned away means nothing for any transfer. -/
theorem marks_abort (hto : peer.toNat < 32) (hid : sessionId.toNat < 16) :
    marks (if command.withoutAck = true then none else
      some (frameTo own peer sessionId .abortWa [])).toList = [] := by
  split_ifs
  · rfl
  · rw [Option.toList_some, marks, List.filterMap_cons,
      frameMark_frameTo own .abortWa hto hid (Nat.zero_le _)]
    rfl

/-- A frame of the other device keeps to its bit. -/
theorem Wired.keeps {frame : CanMessage} (h : Wired peer own frame) (hown : own.toNat < 31)
    (hpeer : peer.toNat < 31) {hd : Heading} (hhd : hd ∈ heading own frame) : hd.Keeps own := by
  obtain ⟨hto, hid, hlen, hstart⟩ := h
  rw [heading_frameTo hpeer hto hown hid hlen] at hhd
  obtain rfl := Option.some.inj hhd
  exact fun hcommand hself _ => hstart hcommand hself

end Frames

/-! ### One of the two -/

/-- A device with its history. -/
structure Node where
  ctx : Ctx
  /-- The frames that it has sent. -/
  sent : List CanMessage := []
  /-- The messages that it has started to send, with their session ids. -/
  started : List (Msg × UInt8) := []
  /-- The frames that it has got. -/
  got : List CanMessage := []
  /-- The messages that it has reported, with the numbers of their transfers. -/
  reported : List (Msg × ℕ) := []

namespace Node

variable (node : Node)

/-- A call of the device: the frame that it has ready is sent. -/
def call (call : Call) : Node × Output × Result :=
  let r := device.step node.ctx call
  ({ node with
      ctx := r.1
      sent := node.sent ++ r.2.1.frame.toList }, r.2)

/-- The number of the transfer that a message has come with. -/
def arrived (msg : Msg) : ℕ :=
  ((scan (marks node.got)).current (msg.addressTo, msg.sessionId)).elim 0 Reading.number

/-- The message that a call reports, if it does. -/
def report (output : Output) : List (Msg × ℕ) :=
  if output.event = .rxFinished then
    output.receivedMessage.toList.map fun msg => (msg, node.arrived msg)
  else []

/-- The device gets a message to send. -/
def startSend (msg : Msg) (readable : msg.Readable) (nowMs : UInt32) (env : Env) :
    Node × Output × Result :=
  let r := node.call (.startSend msg readable nowMs env)
  ({ r.1 with
      started := node.started ++ if r.2.2 = .ok then [(msg, r.2.1.sessionId)] else [] }, r.2)

/-- The device gets a frame. -/
def addFrame (frame : CanMessage) (nowMs : UInt32) (env : Env) : Node × Output × Result :=
  let r := node.call (.addFrame frame nowMs env)
  ({ r.1 with
      got := node.got ++ [frame]
      reported := node.reported ++ node.report r.2.1 }, r.2)

/-- Time has passed. -/
def process (nowMs : UInt32) : Node × Output × Result := node.call (.process nowMs)

end Node

/-! ### Both of them -/

/-- Two devices, and the frames that are on their way from each of them to the other
one. -/
structure Net where
  node : Side → Node
  link : Side → List CanMessage

namespace Net

/-- Two devices with nothing on the wire. -/
def initial (ctx : Side → Ctx) : Net where
  node side := { ctx := ctx side }
  link _ := []

/-- The frame of a call goes on the wire. -/
def after (net : Net) (side : Side) (r : Node × Output × Result) : Net where
  node := Function.update net.node side r.1
  link := Function.update net.link side (net.link side ++ r.2.1.frame.toList)

/-- A frame leaves the wire. -/
def drop (net : Net) (side : Side) : Net :=
  { net with link := Function.update net.link side (net.link side).tail }

end Net

/-- What may happen: a device gets a message to send, or the next frame that is on its
way to it, or time has passed. -/
inductive NetAction
  | startSend (side : Side) (msg : Msg) (readable : msg.Readable) (nowMs : UInt32) (env : Env)
  | deliver (side : Side) (nowMs : UInt32) (env : Env)
  | process (side : Side) (nowMs : UInt32)

/-- Two devices as a machine; nothing is put out if there is no frame to deliver. -/
def network : Machine Net NetAction (Option (Output × Result)) where
  step net
    | .startSend side msg readable nowMs env =>
        let r := (net.node side).startSend msg readable nowMs env
        (net.after side r, some r.2)
    | .deliver side nowMs env =>
        match net.link side.other with
        | [] => (net, none)
        | frame :: _ =>
            let r := (net.node side).addFrame frame nowMs env
            ((net.drop side.other).after side r, some r.2)
    | .process side nowMs =>
        let r := (net.node side).process nowMs
        (net.after side r, some r.2)

/-- A message is for the other device or for all. -/
def NetAction.Between (address : Side → UInt8) : NetAction → Prop
  | .startSend side msg _ _ _ =>
      msg.addressTo = address side.other ∨ msg.addressTo = deviceIdAll
  | _ => True

end Imp
end UniCan
