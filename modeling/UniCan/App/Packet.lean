import UniCan.Protoplexer.Fragment

/-!
# Packets

The application receives and sends packets: CAN messages as they are, and ProtoPlexer
messages.  The manager cuts the latter into chunks to transmit them, and publishes those it
has decoded, `can_types.h` and `can_mgr.cpp`.

## Main definitions

* `ProtoPlexerMessage`, `RxPacket`, `TxPacket` — messages and packets.
* `TxPacket.frames` — what the manager transmits for a packet.
* `ProtoPlexerMessage.toMsg`, `ProtoPlexerMessage.ofMsg` — the message that is cut, and the
  message that is published.

## Main results

* `TxPacket.frames_eq` — **a packet is transmitted whole or not at all.**
* `ProtoPlexerMessage.ofMsg_of_content` — **a message is published as it was sent.**
-/

namespace UniCan
namespace App

open Protoplexer

/-- `ParseBackend`. -/
inductive ParseBackend
  | rawCan
  | protoPlexer
  deriving DecidableEq, Repr

/-- A received message, `ProtoPlexerMessage`. -/
structure ProtoPlexerMessage where
  messageId : UInt16 := 0
  addressFrom : UInt16 := 0
  addressTo : UInt16 := 0
  priorityInverted : UInt8 := 0x07
  data : List UInt8 := []
  deriving DecidableEq

/-- What the manager hands over, `RxPacket`. -/
inductive RxPacket where
  | raw (msg : CanMessage)
  | proto (msg : ProtoPlexerMessage)
  deriving DecidableEq

/-- What the manager is asked to transmit, the same type as in the source. -/
abbrev TxPacket := RxPacket

/-- The message the thread publishes for a decoded one. -/
def ProtoPlexerMessage.ofMsg (msg : Msg) : ProtoPlexerMessage where
  messageId := msg.messageId
  addressFrom := msg.addressFrom
  addressTo := msg.addressTo
  priorityInverted := msg.priorityInverted
  data := msg.bytes

/-- What the allocator answers while a packet is transmitted. -/
structure TxEnv where
  /-- For the message. -/
  msg : Alloc
  /-- For the array of its chunks. -/
  chunks : Bool

/-- An allocator that never fails. -/
def TxEnv.ample : TxEnv := ⟨.ample, true⟩

/-- The frames the thread transmits for a packet. -/
def TxPacket.frames (backend : ParseBackend) (maxChunkLength : UInt16) (env : TxEnv) :
    TxPacket → List CanMessage
  | .raw msg => [msg]
  | .proto pm =>
    if backend ≠ .protoPlexer then []
    else
      match msgCreate env.msg pm.messageId pm.addressFrom pm.addressTo pm.priorityInverted pm.data
          (UInt16.ofNat pm.data.length) with
      | none => []
      | some msg =>
          match buildChunks env.chunks msg maxChunkLength with
          | .ok chunks => chunks
          | .error _ => []

/-- The message `uni_can_protoplexer_msg_create` makes; its length is cut to 16 bits. -/
def ProtoPlexerMessage.toMsg (pm : ProtoPlexerMessage) : Msg where
  messageId := pm.messageId
  addressFrom := pm.addressFrom
  addressTo := pm.addressTo
  priorityInverted := pm.priorityInverted
  length := UInt16.ofNat pm.data.length
  data := if UInt16.ofNat pm.data.length > 0
    then some (pm.data.take (UInt16.ofNat pm.data.length).toNat) else none

/-- The message with this content, as it is published. -/
def ProtoPlexerMessage.ofContent (content : Content) : ProtoPlexerMessage where
  messageId := content.messageId
  addressFrom := content.addressFrom
  addressTo := content.addressTo
  priorityInverted := content.priorityInverted
  data := content.bytes

/-- The decoded messages among some packets. -/
def decodedOf (packets : List RxPacket) : List ProtoPlexerMessage :=
  packets.filterMap fun
    | .raw _ => none
    | .proto msg => some msg

theorem map_proto_injective : Function.Injective (List.map RxPacket.proto) :=
  List.map_injective_iff.mpr fun _ _ h => RxPacket.proto.inj h

/-- The received messages among some packets. -/
def rawOf (packets : List RxPacket) : List CanMessage :=
  packets.filterMap fun
    | .raw msg => some msg
    | .proto _ => none

/-! ### Packets that are transmitted -/

/-- A message can be made as with memory without end, or not at all. -/
theorem msgCreate_eq (alloc : Alloc) (messageId addressFrom addressTo : UInt16)
    (priorityInverted : UInt8) (data : List UInt8) (length : UInt16) :
    msgCreate alloc messageId addressFrom addressTo priorityInverted data length = none ∨
      msgCreate alloc messageId addressFrom addressTo priorityInverted data length =
        msgCreate .ample messageId addressFrom addressTo priorityInverted data length := by
  obtain ⟨rxAlloc, calloc, malloc⟩ := alloc
  cases calloc with
  | false => exact Or.inl rfl
  | true =>
    cases malloc with
    | true => exact Or.inr rfl
    | false =>
      -- the second block is asked for only if there is data
      by_cases hpos : length > 0
      · exact Or.inl (by simp [msgCreate, hpos])
      · exact Or.inr (by simp [msgCreate, hpos, Alloc.ample])

/-- Without memory for the array there are no chunks. -/
theorem buildChunks_false (msg : Msg) (maxChunkLength : UInt16) :
    ∃ e, buildChunks false msg maxChunkLength = .error e := by
  by_cases hzero : chunksCount msg.length maxChunkLength = 0
  · exact ⟨.sendMsgHwCantSendHeader, by simp [buildChunks, hzero]⟩
  · exact ⟨.sendMsgCantAddMessageChunks, by simp [buildChunks, hzero]⟩

/-- **Whole or not at all.** -/
theorem TxPacket.frames_eq (backend : ParseBackend) (maxChunkLength : UInt16) (env : TxEnv)
    (packet : TxPacket) : packet.frames backend maxChunkLength env = [] ∨
      packet.frames backend maxChunkLength env = packet.frames backend maxChunkLength .ample := by
  cases packet with
  | raw msg => exact Or.inr rfl
  | proto pm =>
    simp only [TxPacket.frames]
    split_ifs with hbackend
    · exact Or.inl rfl
    rcases msgCreate_eq env.msg pm.messageId pm.addressFrom pm.addressTo pm.priorityInverted
        pm.data (UInt16.ofNat pm.data.length) with hnone | hsome
    · rw [hnone]
      exact Or.inl rfl
    rw [hsome]
    cases hmsg : msgCreate Alloc.ample pm.messageId pm.addressFrom pm.addressTo
        pm.priorityInverted pm.data (UInt16.ofNat pm.data.length) with
    | none =>
      left
      simp
    | some msg =>
      simp only [TxEnv.ample, hmsg]
      cases env.chunks with
      | true => exact Or.inr rfl
      | false =>
        obtain ⟨e, he⟩ := buildChunks_false msg maxChunkLength
        rw [he]
        exact Or.inl rfl

/-! ### Messages on their way -/

section Message

variable {pm : ProtoPlexerMessage}

/-- **The frames of a message** are its chunks. -/
theorem frames_protoPlexer (pm : ProtoPlexerMessage) (m : UInt16) :
    TxPacket.frames .protoPlexer m .ample (.proto pm) = chunksOf pm.toMsg m := by
  have hcreate : msgCreate Alloc.ample pm.messageId pm.addressFrom pm.addressTo
      pm.priorityInverted pm.data (UInt16.ofNat pm.data.length) = some pm.toMsg := by
    by_cases hpos : UInt16.ofNat pm.data.length > 0
    · simp [msgCreate, Alloc.ample, ProtoPlexerMessage.toMsg, hpos]
    · simp [msgCreate, Alloc.ample, ProtoPlexerMessage.toMsg, hpos]
  simp only [TxPacket.frames, ne_eq, not_true_eq_false, if_false, TxEnv.ample, hcreate]
  rfl

theorem ProtoPlexerMessage.bytes_toMsg (h : pm.data.length < 2 ^ 16) :
    pm.toMsg.bytes = pm.data := by
  have hlen : (UInt16.ofNat pm.data.length).toNat = pm.data.length :=
    UInt16.toNat_ofNat_of_lt' h
  unfold Msg.bytes ProtoPlexerMessage.toMsg
  simp only
  by_cases hpos : UInt16.ofNat pm.data.length > 0
  · simp [hpos, hlen]
  · have hzero : pm.data.length = 0 := by
      rw [gt_iff_lt, UInt16.lt_iff_toNat_lt, hlen] at hpos
      exact Nat.eq_zero_of_not_pos hpos
    rw [if_neg hpos, hlen, List.eq_nil_of_length_eq_zero hzero]
    rfl

/-- A message is published as it was sent. -/
theorem ProtoPlexerMessage.ofMsg_of_content (h : pm.data.length < 2 ^ 16) {msg : Msg}
    (hmsg : msg.content = pm.toMsg.content) : ProtoPlexerMessage.ofMsg msg = pm := by
  have hbytes : msg.bytes = pm.data :=
    (congrArg Content.bytes hmsg).trans (ProtoPlexerMessage.bytes_toMsg h)
  have hid : msg.messageId = pm.messageId := congrArg Content.messageId hmsg
  have hfrom : msg.addressFrom = pm.addressFrom := congrArg Content.addressFrom hmsg
  have hto : msg.addressTo = pm.addressTo := congrArg Content.addressTo hmsg
  have hprio : msg.priorityInverted = pm.priorityInverted := congrArg Content.priorityInverted hmsg
  rw [ProtoPlexerMessage.ofMsg, hid, hfrom, hto, hprio, hbytes]

end Message

/-- The messages that were queued are what was queued, if nothing else was. -/
theorem map_decodedOf {packets : List RxPacket}
    (h : ∀ p ∈ packets, ∃ pm : ProtoPlexerMessage, p = .proto pm) :
    (decodedOf packets).map RxPacket.proto = packets := by
  induction packets with
  | nil => rfl
  | cons p packets ih =>
    obtain ⟨pm, rfl⟩ := h p List.mem_cons_self
    have hrest := ih fun q hq => h q (List.mem_cons_of_mem _ hq)
    exact congrArg (RxPacket.proto pm :: ·) hrest

end App
end UniCan
