import UniCan.Foundation.Ring
import UniCan.Protoplexer.Receive

/-!
# ProtoPlexer with queues

The protocol with an outbox for the chunks that wait to be sent and an inbox for
the messages that were received.  Both are rings in the memory of the application;
every cell of the inbox has its own part of the payload memory.  The heap is not
used.

A `size_t` counts the elements of an array that exists, so it is a natural number
here; the callbacks of the network are what the calls get from them.

## Main definitions

* `Storage`, `QueueConfig`, `Queue` — the memory, the configuration and the state.
* `queueInit` — setting up a queue.
* `queueSend`, `queueAddChunk`, `queuePollRx`, `queuePollTx`, `queuePollNew` — the
  calls.
-/

namespace UniCan
namespace Protoplexer

/-! ### State -/

/-- What became of a chunk that was handed to the network,
`uni_can_protoplexer_hw_result_t`; `other` is any other value of the enumeration. -/
inductive HwResult
  | ok
  | errorResendRequired
  | errorNonRecoverable
  | other
  deriving DecidableEq, Repr

/-- An element of the inbox: a message whose data is null, or points to a byte of
the payload memory. -/
structure InboxEntry where
  messageId : UInt16 := 0
  addressFrom : UInt16 := 0
  addressTo : UInt16 := 0
  priorityInverted : UInt8 := 0
  length : UInt16 := 0
  dataAt : Option ℕ := none
  deriving DecidableEq, Repr

/-- `uni_can_protoplexer_queue_storage_t`; `none` is a null pointer. -/
structure Storage where
  /-- There is an array of `maxChannels` reassemblies. -/
  rxBuffers : Bool
  /-- The memory for their data. -/
  rxPayload : Option (List UInt8)
  /-- Reassemblies in progress. -/
  maxChannels : UInt16
  /-- The longest message data, sent or received. -/
  maxPayload : UInt16
  /-- The completed messages that wait for `queuePollNew`. -/
  inbox : Option (List InboxEntry)
  /-- The memory for their data. -/
  inboxPayload : Option (List UInt8)
  inboxSize : ℕ
  /-- The chunks that wait for `queuePollTx`. -/
  outbox : Option (List CanMessage)
  outboxSize : ℕ
  /-- The arrays have the sizes that the comments of the source give. -/
  rxPayload_length : ∀ mem, rxPayload = some mem →
    maxChannels.toNat * maxPayload.toNat ≤ mem.length
  inbox_length : ∀ mem, inbox = some mem → mem.length = inboxSize
  inboxPayload_length : ∀ mem, inboxPayload = some mem →
    inboxSize * maxPayload.toNat ≤ mem.length
  outbox_length : ∀ mem, outbox = some mem → mem.length = outboxSize

/-- `uni_can_protoplexer_queue_config_t`. -/
structure QueueConfig where
  ownAddress : UInt16
  maxChunkLength : UInt16
  monitoring : Bool
  /-- Times in a row the network may ask for the same chunk again. -/
  sendAttempts : UInt32
  storage : Option Storage
  /-- The callbacks that are not null. -/
  sendChunk : Bool
  receiveChunk : Bool
  rxEvent : Bool

/-- `uni_can_protoplexer_queue_t`, once it is initialized, with the memory of its
storage. -/
structure Queue where
  config : QueueConfig
  storage : Storage
  protocol : Ctx
  inbox : List InboxEntry
  inboxPayload : List UInt8
  inboxHead : ℕ
  inboxCount : ℕ
  outbox : List CanMessage
  outboxHead : ℕ
  outboxCount : ℕ
  sendAttempts : UInt32

/-! ### Setting up -/

/-- The configuration of the protocol in a queue. -/
def protocolConfig (cfg : QueueConfig) (storage : Storage) : Config where
  ownAddress := cfg.ownAddress
  maxChunkLength := cfg.maxChunkLength
  maxChannels := storage.maxChannels
  monitoring := cfg.monitoring
  maxPayload := storage.maxPayload
  rxBuffers := storage.rxBuffers
  rxPayload := storage.rxPayload
  rxPayload_length := storage.rxPayload_length

/-- `uni_can_protoplexer_queue_init`. -/
def queueInit (cfg : QueueConfig) : Option Queue :=
  match cfg.storage with
  | none => none
  | some storage =>
      match storage.inbox, storage.outbox with
      | some inbox, some outbox =>
          if !storage.rxBuffers || storage.inboxSize == 0 || storage.outboxSize == 0 then none
          else if storage.maxPayload != 0 &&
              (storage.rxPayload.isNone || storage.inboxPayload.isNone) then none
          else
            match initStatic (protocolConfig cfg storage) with
            | none => none
            | some protocol => some {
                config := cfg
                storage := storage
                protocol := protocol
                inbox := inbox
                inboxPayload := storage.inboxPayload.getD []
                inboxHead := 0
                inboxCount := 0
                outbox := outbox
                outboxHead := 0
                outboxCount := 0
                sendAttempts := 0 }
      | _, _ => none

/-! ### The boxes -/

/-- `uni_can_protoplexer_queue_inbox_push`; `none` is a full inbox. -/
def inboxPush (queue : Queue) (msg : Msg) : Option Queue :=
  if queue.inboxCount ≥ queue.storage.inboxSize then none
  else
    let tail := (queue.inboxHead + queue.inboxCount) % queue.storage.inboxSize
    let offset := tail * queue.storage.maxPayload.toNat
    let entry : InboxEntry := {
      messageId := msg.messageId
      addressFrom := msg.addressFrom
      addressTo := msg.addressTo
      priorityInverted := msg.priorityInverted
      length := msg.length
      dataAt := if msg.length > 0 then some offset else none }
    some { queue with
      inbox := queue.inbox.set tail entry
      inboxPayload :=
        if msg.length > 0 then
          writeAt queue.inboxPayload offset ((msg.data.getD []).take msg.length.toNat)
        else queue.inboxPayload
      inboxCount := queue.inboxCount + 1 }

/-- The message an element of the inbox stands for. -/
def InboxEntry.msg (entry : InboxEntry) (payload : List UInt8) : Msg where
  messageId := entry.messageId
  addressFrom := entry.addressFrom
  addressTo := entry.addressTo
  priorityInverted := entry.priorityInverted
  length := entry.length
  data := entry.dataAt.map fun offset => readAt payload offset entry.length.toNat

/-- The message in a cell of the inbox. -/
def Queue.inboxMsg (queue : Queue) (i : ℕ) : Msg :=
  (queue.inbox.getD i {}).msg queue.inboxPayload

/-- `uni_can_protoplexer_queue_outbox_pop`. -/
def outboxPop (queue : Queue) : Queue :=
  { queue with
    outboxHead := (queue.outboxHead + 1) % queue.storage.outboxSize
    outboxCount := queue.outboxCount - 1 }

/-! ### The calls -/

/-- The loop of `uni_can_protoplexer_queue_send` from index `idx` on, with `n`
chunks to go. -/
def queueSendFrom (queue : Queue) (msg : Msg) (idx : ℕ) : ℕ → Queue × Result
  | 0 => (queue, .ok)
  | n + 1 =>
      let tail := (queue.outboxHead + queue.outboxCount) % queue.storage.outboxSize
      match buildChunk msg queue.protocol.maxChunkLength idx with
      | .error res => ({ queue with outboxCount := queue.outboxCount - idx }, res)
      | .ok chunk =>
          queueSendFrom { queue with
            outbox := queue.outbox.set tail chunk
            outboxCount := queue.outboxCount + 1 } msg (idx + 1) n

/-- `uni_can_protoplexer_queue_send`, whose arguments are the fields of `msg`. -/
def queueSend (queue : Queue) (msg : Msg) : Queue × Result :=
  if msg.length > queue.storage.maxPayload || (msg.length > 0 && msg.data.isNone) then
    (queue, .sendMsgInvalidSize)
  else
    let count := chunksCount msg.length queue.protocol.maxChunkLength
    if count = 0 then (queue, .sendMsgHwCantSendHeader)
    else if queue.outboxCount + count > queue.storage.outboxSize then
      (queue, .sendMsgCantAddMessageChunks)
    else queueSendFrom queue msg 0 count

/-- What `uni_can_protoplexer_queue_add_chunk` makes of the answer of the protocol: a
message that is complete goes to the inbox. -/
def queueTakeReply (queue : Queue) (protocol : Ctx) (reply : Reply) : Queue × Result :=
  let queue := { queue with protocol := protocol }
  match reply.message with
  | none => (queue, reply.result)
  | some msg =>
      match inboxPush queue msg with
      | none => (queue, .addingChunkCantSaveMessage)
      | some queue => (queue, reply.result)

/-- `uni_can_protoplexer_queue_add_chunk`. -/
def queueAddChunk (queue : Queue) (chunk : CanMessage) : Queue × Result :=
  let answer := addChunkView .heapless queue.protocol chunk true true
  queueTakeReply queue answer.1 answer.2

/-- `uni_can_protoplexer_queue_poll_rx`; `frame` is the chunk `receive_chunk` gives. -/
def queuePollRx (queue : Queue) (frame : Option CanMessage) : Queue × Result :=
  if !queue.config.receiveChunk then (queue, .pollingRxHwRxEmpty)
  else
    match frame with
    | none => (queue, .pollingRxHwRxEmpty)
    | some chunk => queueAddChunk queue chunk

/-- The chunk `uni_can_protoplexer_queue_poll_tx` hands to the network. -/
def Queue.outboxFront (queue : Queue) : Option CanMessage :=
  if queue.outboxCount = 0 then none else queue.outbox[queue.outboxHead]?

/-- `uni_can_protoplexer_queue_poll_tx`; `hw` is what `send_chunk` answers. -/
def queuePollTx (queue : Queue) (hw : HwResult) : Queue × Result :=
  if queue.outboxCount = 0 then (queue, .pollingTxBufferEmpty)
  else
    match if queue.config.sendChunk then hw else .errorNonRecoverable with
    | .errorResendRequired =>
        let attempts := queue.sendAttempts + 1
        if attempts > queue.config.sendAttempts then
          ({ queue with sendAttempts := 0 }, .hwSendTooManyAttempts)
        else ({ queue with sendAttempts := attempts }, .ok)
    | .ok => ({ outboxPop queue with sendAttempts := 0 }, .ok)
    | .errorNonRecoverable => ({ outboxPop queue with sendAttempts := 0 }, .hwSendNonRecoverable)
    | .other => (queue, .failure)

/-- The end of `uni_can_protoplexer_queue_poll_new`, after `rx_event`. -/
def inboxPop (queue : Queue) : Queue :=
  { queue with
    inboxHead := (queue.inboxHead + 1) % queue.storage.inboxSize
    inboxCount := queue.inboxCount - 1 }

/-- `uni_can_protoplexer_queue_poll_new`, with the message it passes to `rx_event`. -/
def queuePollNew (queue : Queue) : Queue × Result × Option Msg :=
  if queue.inboxCount = 0 then (queue, .pollingNewNoNewMessages, none)
  else
    (inboxPop queue, .ok,
      if queue.config.rxEvent then some (queue.inboxMsg queue.inboxHead) else none)

end Protoplexer
end UniCan
