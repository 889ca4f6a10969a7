import UniCan.Foundation.Machine
import UniCan.Foundation.Memory
import UniCan.Protoplexer.Fragment

/-!
# Receiving ProtoPlexer chunks

The receiving half of the protocol: a context holds a fixed table of
reassemblies, one for each pair (from, to) with a message in progress, and each
chunk is added to the reassembly of its pair.  The data of a reassembly lies in a
block of the heap, or in the part of the application's memory that belongs to the
slot of the reassembly.

## Main definitions

* `RxBuffer`, `Ctx` — a reassembly, and the context.
* `init`, `initStatic` — setting up a context.
* `rxAddChunk` — adding a chunk to its reassembly, through `rxFirstChunk`,
  `rxDataChunk` and `rxFinish`.
* `addChunk`, `addChunkView` — the two ways to receive: with a copy of the
  message, and with a view of it that stays until the next chunk.
* `receiver` — the context as a machine whose inputs are calls.
-/

namespace UniCan
namespace Protoplexer

/-! ### Reassemblies and contexts -/

/-- Where the `payload` of a reassembly points: nowhere, to a block of the heap,
or into the memory of the application. -/
inductive Payload
  /-- A null pointer. -/
  | null
  /-- A block of the heap; only this reassembly points to it. -/
  | heap (block : List UInt8)
  /-- The byte of `rx_payload` with this index. -/
  | app (offset : ℕ)
  deriving DecidableEq, Repr

/-- `uni_can_protoplexer_rx_buffer_t`: the reassembly of one message. -/
structure RxBuffer where
  /-- The reassembly belongs to a pair. -/
  inUse : Bool := false
  /-- The pair, see `channelSig`. -/
  channelSignature : UInt32 := 0
  /-- The length the header announced. -/
  expectedLength : UInt16 := 0
  /-- The checksum the header announced. -/
  expectedCrc : UInt16 := 0
  /-- The message id of the header, or `errorId` as long as there was none. -/
  messageId : UInt16 := 0
  /-- The sender. -/
  addressFrom : UInt16 := 0
  /-- The receiver. -/
  addressTo : UInt16 := 0
  /-- The priority. -/
  priorityInverted : UInt8 := 0
  /-- The data that arrived. -/
  payload : Payload := .null
  /-- Bytes of it. -/
  payloadSize : UInt16 := 0
  deriving DecidableEq, Repr

/-- `uni_can_protoplexer_config_t`. -/
structure Config where
  /-- The address messages are received for. -/
  ownAddress : UInt16
  /-- The longest chunk that is sent. -/
  maxChunkLength : UInt16
  /-- Reassemblies in the table. -/
  maxChannels : UInt16
  /-- Receive the messages for other addresses as well. -/
  monitoring : Bool
  /-- Longest message data that is received; zero is no limit, with the heap only. -/
  maxPayload : UInt16
  /-- The application gives the memory: `rx_buffers` is an array of `maxChannels`
  elements.  Their contents do not matter, since they are zeroed. -/
  rxBuffers : Bool
  /-- The bytes of the application for the data, or null. -/
  rxPayload : Option (List UInt8)
  /-- The application's memory is as large as the configuration says. -/
  rxPayload_length : ∀ mem, rxPayload = some mem →
    maxChannels.toNat * maxPayload.toNat ≤ mem.length

/-- `uni_can_protoplexer_ctx_t`.  The table is never null: a context that could
not be set up is no context. -/
structure Ctx where
  /-- The address messages are received for. -/
  ownAddress : UInt16
  /-- The longest chunk that is sent. -/
  maxChunkLength : UInt16
  /-- Receive the messages for other addresses as well. -/
  monitoring : Bool
  /-- Reassemblies in the table. -/
  maxChannels : UInt16
  /-- The table. -/
  rx : List RxBuffer
  /-- Longest message data that is received. -/
  maxPayload : UInt16
  /-- The application's memory for the data. -/
  rxPayload : List UInt8
  /-- The memory is the application's, not the heap's. -/
  rxStatic : Bool
  /-- The reassembly whose message the last `addChunkView` gave out. -/
  rxView : Option ℕ
  /-- Blocks the context took from the heap so far, and blocks it gave back.  The
  source has no such counters; they stand for the state of its allocator. -/
  heapAllocs : ℕ
  heapFrees : ℕ

/-- `uni_can_protoplexer_init_common`: what does not depend on where the memory
comes from. -/
def initCommon (cfg : Config) : Option Ctx :=
  if cfg.maxChunkLength.toNat < headerSize || cfg.maxChunkLength.toNat > maxLen then none
  else some {
    ownAddress := cfg.ownAddress &&& 0x0FFF
    maxChunkLength := cfg.maxChunkLength
    monitoring := cfg.monitoring
    maxChannels := cfg.maxChannels
    rx := []
    maxPayload := cfg.maxPayload
    rxPayload := []
    rxStatic := false
    rxView := none
    heapAllocs := 0
    heapFrees := 0 }

/-- `uni_can_protoplexer_init_static`. -/
def initStatic (cfg : Config) : Option Ctx :=
  match initCommon cfg with
  | none => none
  | some ctx =>
      if !cfg.rxBuffers || ctx.maxChannels = 0 ||
          (ctx.maxPayload != 0 && cfg.rxPayload.isNone) then none
      else some { ctx with
        rx := List.replicate ctx.maxChannels.toNat {}
        rxPayload := cfg.rxPayload.getD []
        rxStatic := true }

/-- `uni_can_protoplexer_init`; `calloc` says whether there is memory for the table. -/
def init (calloc : Bool) (cfg : Config) : Option Ctx :=
  if cfg.rxBuffers then initStatic cfg
  else
    match initCommon cfg with
    | none => none
    | some ctx =>
        let maxChannels := if ctx.maxChannels = 0 then 16 else ctx.maxChannels
        if !calloc then none
        else some { ctx with
          maxChannels := maxChannels
          rx := List.replicate maxChannels.toNat {} }

/-! ### Slots of the table -/

namespace Ctx

/-- The reassembly in slot `i`. -/
def buffer (ctx : Ctx) (i : ℕ) : RxBuffer := ctx.rx.getD i {}

/-- The context with another reassembly in slot `i`. -/
def setBuffer (ctx : Ctx) (i : ℕ) (b : RxBuffer) : Ctx := { ctx with rx := ctx.rx.set i b }

/-- The first `len` bytes of the data of slot `i`. -/
def payloadRead (ctx : Ctx) (i len : ℕ) : List UInt8 :=
  match (ctx.buffer i).payload with
  | .null => []
  | .heap block => readAt block 0 len
  | .app offset => readAt ctx.rxPayload offset len

/-- `memcpy` of `bytes` into the data of slot `i`, from byte `off` on. -/
def payloadWrite (ctx : Ctx) (i off : ℕ) (bytes : List UInt8) : Ctx :=
  match (ctx.buffer i).payload with
  | .null => ctx
  | .heap block =>
      ctx.setBuffer i { ctx.buffer i with payload := .heap (writeAt block off bytes) }
  | .app offset => { ctx with rxPayload := writeAt ctx.rxPayload (offset + off) bytes }

/-- The record of a copy of `len` bytes at byte `off` of the data of slot `i`.  A
slot of the application's memory may use its own part of it, no more. -/
def payloadCopy (ctx : Ctx) (i off len : ℕ) : Copy :=
  match (ctx.buffer i).payload with
  | .null => ⟨0, off, len⟩
  | .heap block => ⟨block.length, off, len⟩
  | .app _ => ⟨ctx.maxPayload.toNat, off, len⟩

end Ctx

/-- `uni_can_protoplexer_rx_find`. -/
def rxFind (ctx : Ctx) (sig : UInt32) : Option ℕ :=
  ctx.rx.findIdx? fun b => b.inUse && b.channelSignature == sig

/-- `uni_can_protoplexer_rx_get_or_alloc`. -/
def rxGetOrAlloc (ctx : Ctx) (sig : UInt32) : Option (Ctx × ℕ) :=
  match rxFind ctx sig with
  | some i => some (ctx, i)
  | none =>
      match ctx.rx.findIdx? fun b => !b.inUse with
      | some i =>
          some (ctx.setBuffer i
            { inUse := true, channelSignature := sig, messageId := errorId }, i)
      | none => none

/-- `uni_can_protoplexer_rx_payload_alloc`. -/
def rxPayloadAlloc (alloc : Alloc) (ctx : Ctx) (i : ℕ) (length : UInt16) : Ctx × Bool :=
  if (ctx.maxPayload != 0 || ctx.rxStatic) && length > ctx.maxPayload then (ctx, false)
  else if length = 0 then (ctx, true)
  else if ctx.rxStatic then
    (ctx.setBuffer i
      { ctx.buffer i with payload := .app (i * ctx.maxPayload.toNat) }, true)
  else
    match alloc.rxAlloc with
    | none => (ctx.setBuffer i { ctx.buffer i with payload := .null }, false)
    | some fill =>
        ({ ctx.setBuffer i { ctx.buffer i with
              payload := .heap ((List.range length.toNat).map fill) } with
            heapAllocs := ctx.heapAllocs + 1 }, true)

/-- `uni_can_protoplexer_rx_payload_free`. -/
def rxPayloadFree (ctx : Ctx) (i : ℕ) : Ctx :=
  let freed :=
    match ctx.rxStatic, (ctx.buffer i).payload with
    | false, .heap _ => 1
    | _, _ => 0
  { ctx.setBuffer i { ctx.buffer i with payload := .null, payloadSize := 0 } with
    heapFrees := ctx.heapFrees + freed }

/-- `uni_can_protoplexer_rx_reset`. -/
def rxReset (ctx : Ctx) (i : ℕ) : Ctx :=
  let ctx := rxPayloadFree ctx i
  ctx.setBuffer i { ctx.buffer i with
    expectedLength := 0
    expectedCrc := 0
    messageId := errorId
    addressFrom := 0
    addressTo := 0
    priorityInverted := priorityMinimal }

/-- `uni_can_protoplexer_rx_release`. -/
def rxRelease (ctx : Ctx) (i : ℕ) : Ctx :=
  let ctx := rxReset ctx i
  ctx.setBuffer i { ctx.buffer i with inUse := false, channelSignature := 0 }

/-! ### Adding a chunk -/

/-- What adding a chunk to its reassembly leads to: the context, the result, the
reassembly that holds a complete message, and the copies that were made. -/
structure RxOutcome where
  ctx : Ctx
  result : Result
  done : Option ℕ
  copies : List Copy

/-- The little-endian word of a header at byte `off`. -/
def headerWord (chunk : CanMessage) (off : ℕ) : UInt16 :=
  (chunk.u8 off).toUInt16 ||| ((chunk.u8 (off + 1)).toUInt16 <<< 8)

/-- The end of `uni_can_protoplexer_rx_add_chunk`: a message with all of its bytes
is complete if its checksum is right.  On a wrong one the reassembly stays. -/
def rxFinish (ctx : Ctx) (i : ℕ) (copies : List Copy) : RxOutcome :=
  let b := ctx.buffer i
  if b.payloadSize = b.expectedLength then
    let copies := copies ++ [ctx.payloadCopy i 0 b.expectedLength.toNat]
    if crc16 (ctx.payloadRead i b.expectedLength.toNat) b.expectedLength.toNat ≠ b.expectedCrc
    then ⟨ctx, .addingChunkWrongCrc, none, copies⟩
    else ⟨ctx, .ok, some i, copies⟩
  else ⟨ctx, .ok, none, copies⟩

/-- The part of `uni_can_protoplexer_rx_add_chunk` for a first chunk. -/
def rxFirstChunk (alloc : Alloc) (ctx : Ctx) (i : ℕ) (chunk : CanMessage) : RxOutcome :=
  let addrTo := canidGetTo chunk.id
  let addrFrom := canidGetFrom chunk.id
  let prio := canidGetPriorityInverted chunk.id
  if chunk.len.toNat < headerSize then
    ⟨rxRelease ctx i, .addingChunkFirstAndTooShort, none, []⟩
  else if !addressValid addrTo || !addressValid addrFrom then
    ⟨rxRelease ctx i, .wrongAddress, none, []⟩
  else if prio > priorityMinimal then
    ⟨rxRelease ctx i, .wrongPriority, none, []⟩
  else
    let expectedLength := headerWord chunk 2
    let ctx := ctx.setBuffer i { ctx.buffer i with
      addressTo := addrTo
      addressFrom := addrFrom
      priorityInverted := prio
      expectedLength := expectedLength
      expectedCrc := headerWord chunk 4 }
    let embedded := chunk.len.toNat - headerSize
    if embedded > expectedLength.toNat then
      ⟨rxRelease ctx i, .addingChunkHeaderDataOverflow, none, []⟩
    else
      match rxPayloadAlloc alloc (rxPayloadFree ctx i) i expectedLength with
      | (ctx, false) => ⟨rxRelease ctx i, .addingChunkCantAllocateData, none, []⟩
      | (ctx, true) =>
          let copies := if embedded > 0 then [ctx.payloadCopy i 0 embedded] else []
          let ctx :=
            if embedded > 0 then
              let ctx := ctx.payloadWrite i 0 (readAt chunk.data.toList headerSize embedded)
              ctx.setBuffer i { ctx.buffer i with payloadSize := UInt16.ofNat embedded }
            else ctx
          let ctx := ctx.setBuffer i { ctx.buffer i with messageId := headerWord chunk 0 }
          if (ctx.buffer i).messageId = errorId then
            ⟨rxRelease ctx i, .addingChunkReceivedErrorId, none, copies⟩
          else rxFinish ctx i copies

/-- The part of `uni_can_protoplexer_rx_add_chunk` for the other chunks. -/
def rxDataChunk (ctx : Ctx) (i : ℕ) (chunk : CanMessage) : RxOutcome :=
  let b := ctx.buffer i
  if b.messageId = errorId then
    ⟨rxRelease ctx i, .addingChunkDataWithoutHeader, none, []⟩
  else if b.payloadSize.toNat + chunk.len.toNat > b.expectedLength.toNat then
    ⟨rxRelease ctx i, .addingChunkDataOverflow, none, []⟩
  else if chunk.len > 0 then
    let copies := [ctx.payloadCopy i b.payloadSize.toNat chunk.len.toNat]
    let ctx := ctx.payloadWrite i b.payloadSize.toNat (readAt chunk.data.toList 0 chunk.len.toNat)
    let ctx := ctx.setBuffer i { ctx.buffer i with
      payloadSize := UInt16.ofNat (b.payloadSize.toNat + chunk.len.toNat) }
    rxFinish ctx i copies
  else rxFinish ctx i []

/-- The message that was given out as a view is gone with the next chunk. -/
def rxViewRelease (ctx : Ctx) : Ctx :=
  match ctx.rxView with
  | none => ctx
  | some v => { rxRelease ctx v with rxView := none }

/-- `uni_can_protoplexer_rx_add_chunk`. -/
def rxAddChunk (alloc : Alloc) (ctx : Ctx) (chunk : CanMessage) : RxOutcome :=
  if chunk.len.toNat > maxLen then ⟨ctx, .addingChunkInvalidChunk, none, []⟩
  else
    let ctx := rxViewRelease ctx
    let addrTo := canidGetTo chunk.id
    let isFirst := canidGetIsFirst chunk.id
    if addrTo != ctx.ownAddress && !ctx.monitoring then
      ⟨ctx, .addingChunkUnrelatedAddressTo, none, []⟩
    else
      match rxGetOrAlloc ctx (channelSig chunk.id) with
      | none => ⟨ctx, .addingChunkCantAllocateNewMsg, none, []⟩
      | some (ctx, i) =>
          let ctx :=
            if isFirst && (ctx.buffer i).messageId != errorId then rxReset ctx i else ctx
          if isFirst then rxFirstChunk alloc ctx i chunk else rxDataChunk ctx i chunk

/-! ### The calls -/

/-- What a call answers: its result, the message it delivers, and the copies it
made. -/
structure Reply where
  result : Result
  message : Option Msg
  copies : List Copy

/-- `uni_can_protoplexer_add_chunk`; `outMsg` says whether the caller wants the
message. -/
def addChunk (alloc : Alloc) (ctx : Ctx) (chunk : CanMessage) (outMsg : Bool) : Ctx × Reply :=
  let r := rxAddChunk alloc ctx chunk
  match r.done with
  | none => (r.ctx, ⟨r.result, none, r.copies⟩)
  | some i =>
      if outMsg then
        let b := r.ctx.buffer i
        let copies := r.copies ++ [r.ctx.payloadCopy i 0 b.expectedLength.toNat]
        match msgCreate alloc b.messageId b.addressFrom b.addressTo b.priorityInverted
            (r.ctx.payloadRead i b.expectedLength.toNat) b.expectedLength with
        | none => (rxRelease r.ctx i, ⟨.addingChunkCantSaveMessage, none, r.copies⟩)
        | some m => (rxRelease r.ctx i, ⟨r.result, some m, copies⟩)
      else (rxRelease r.ctx i, ⟨r.result, none, r.copies⟩)

/-- `uni_can_protoplexer_add_chunk_view`; the message it gives out is read at once,
before the context takes the next chunk. -/
def addChunkView (alloc : Alloc) (ctx : Ctx) (chunk : CanMessage) (outMsg outComplete : Bool) :
    Ctx × Reply :=
  let r := rxAddChunk alloc ctx chunk
  match r.done with
  | none => (r.ctx, ⟨r.result, none, r.copies⟩)
  | some i =>
      if outMsg && outComplete then
        let b := r.ctx.buffer i
        let data :=
          match b.payload with
          | .null => none
          | _ => some (r.ctx.payloadRead i b.expectedLength.toNat)
        ({ r.ctx with rxView := some i },
          ⟨r.result, some ⟨b.messageId, b.addressFrom, b.addressTo, b.priorityInverted,
            b.expectedLength, data⟩, r.copies⟩)
      else (rxRelease r.ctx i, ⟨r.result, none, r.copies⟩)

/-- The ways to receive a chunk, with the output pointers that are not null. -/
inductive Api
  /-- `uni_can_protoplexer_add_chunk`. -/
  | addChunk (outMsg : Bool)
  /-- `uni_can_protoplexer_add_chunk_view`. -/
  | addChunkView (outMsg outComplete : Bool)
  deriving DecidableEq, Repr

/-- The caller takes the messages that are completed. -/
def Api.wantsMessage : Api → Bool
  | .addChunk outMsg => outMsg
  | .addChunkView outMsg outComplete => outMsg && outComplete

/-- Every allocation that a call of this kind can make succeeds. -/
def Alloc.Serves (alloc : Alloc) (rxStatic : Bool) (api : Api) : Prop :=
  (rxStatic = false → alloc.rxAlloc.isSome = true) ∧
    ∀ outMsg, api = .addChunk outMsg → alloc.calloc = true ∧ alloc.malloc = true

/-- One call. -/
structure Call where
  api : Api
  chunk : CanMessage
  alloc : Alloc

/-- A context as a machine. -/
def receiver : Machine Ctx Call Reply where
  step ctx call :=
    match call.api with
    | .addChunk outMsg => addChunk call.alloc ctx call.chunk outMsg
    | .addChunkView outMsg outComplete =>
        addChunkView call.alloc ctx call.chunk outMsg outComplete

end Protoplexer
end UniCan
