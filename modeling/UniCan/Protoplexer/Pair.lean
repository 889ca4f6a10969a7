import UniCan.Protoplexer.Receive

/-!
# One pair of addresses

What the receiver is for, seen from one pair (from, to): a message is announced by
a header, its bytes come one chunk after the other, and when all are there and the
checksum is right the message is delivered.  Nothing of the table of reassemblies
is left here, neither slots nor memory nor views: the state is the message in
progress, if there is one.

## Main definitions

* `Reassembly` — a message in progress.
* `Pair.first`, `Pair.next`, `Pair.finish` — what a chunk makes of it.
* `Pair.step`, `Pair.machine` — one call as the pair sees it, and all of them.
-/

namespace UniCan
namespace Protoplexer

/-- A message in progress: what its header announced, and the data so far. -/
structure Reassembly where
  messageId : UInt16
  addressFrom : UInt16
  addressTo : UInt16
  priorityInverted : UInt8
  expectedLength : UInt16
  expectedCrc : UInt16
  data : List UInt8
  deriving DecidableEq

/-- The message of a reassembly that is complete. -/
def Reassembly.msg (r : Reassembly) : Msg where
  messageId := r.messageId
  addressFrom := r.addressFrom
  addressTo := r.addressTo
  priorityInverted := r.priorityInverted
  length := r.expectedLength
  data := if r.expectedLength = 0 then none else some r.data

/-- What a context is set up with, as far as a pair can tell. -/
structure Setup where
  ownAddress : UInt16
  monitoring : Bool
  maxPayload : UInt16
  rxStatic : Bool
  deriving DecidableEq

/-- The setup of a context. -/
def Ctx.setup (ctx : Ctx) : Setup :=
  ⟨ctx.ownAddress, ctx.monitoring, ctx.maxPayload, ctx.rxStatic⟩

/-- There is a limit on the length of messages. -/
def Setup.Limited (s : Setup) : Prop := s.maxPayload ≠ 0 ∨ s.rxStatic = true

instance (s : Setup) : Decidable s.Limited := inferInstanceAs (Decidable (_ ∨ _))

/-- Messages of this length are refused, or there is no memory for one. -/
def Setup.refuses (s : Setup) (alloc : Alloc) (length : UInt16) : Bool :=
  ((s.maxPayload != 0 || s.rxStatic) && length > s.maxPayload) ||
    (length != 0 && !s.rxStatic && alloc.rxAlloc.isNone)

/-- The context takes chunks with this identifier. -/
def Setup.accepts (s : Setup) (canId : UInt32) : Bool :=
  canidGetTo canId == s.ownAddress || s.monitoring

namespace Pair

/-- What a chunk makes of a reassembly. -/
inductive Progress
  /-- There is no message in progress any more. -/
  | refused (result : Result)
  /-- The message stays in progress. -/
  | kept (r : Reassembly) (result : Result)
  /-- The message is complete. -/
  | complete (r : Reassembly)

/-- A message with all of its bytes is complete if its checksum is right; with a
wrong one it stays where it is. -/
def finish (r : Reassembly) : Progress :=
  if r.data.length = r.expectedLength.toNat then
    if crc16 r.data r.expectedLength.toNat ≠ r.expectedCrc then .kept r .addingChunkWrongCrc
    else .complete r
  else .kept r .ok

/-- The reassembly a header starts. -/
def header (chunk : CanMessage) : Reassembly where
  messageId := headerWord chunk 0
  addressFrom := canidGetFrom chunk.id
  addressTo := canidGetTo chunk.id
  priorityInverted := canidGetPriorityInverted chunk.id
  expectedLength := headerWord chunk 2
  expectedCrc := headerWord chunk 4
  data := chunk.bytes.drop headerSize

/-- A first chunk, whatever was in progress before. -/
def first (setup : Setup) (alloc : Alloc) (chunk : CanMessage) : Progress :=
  if chunk.len.toNat < headerSize then .refused .addingChunkFirstAndTooShort
  else if !addressValid (canidGetTo chunk.id) || !addressValid (canidGetFrom chunk.id) then
    .refused .wrongAddress
  else if chunk.len.toNat - headerSize > (headerWord chunk 2).toNat then
    .refused .addingChunkHeaderDataOverflow
  else if setup.refuses alloc (headerWord chunk 2) then .refused .addingChunkCantAllocateData
  else if headerWord chunk 0 = errorId then .refused .addingChunkReceivedErrorId
  else finish (header chunk)

/-- A chunk that is not the first. -/
def next (r : Option Reassembly) (chunk : CanMessage) : Progress :=
  match r with
  | none => .refused .addingChunkDataWithoutHeader
  | some r =>
      if r.data.length + chunk.len.toNat > r.expectedLength.toNat then
        .refused .addingChunkDataOverflow
      else finish { r with data := r.data ++ chunk.bytes }

/-- A chunk the pair has room for. -/
def advance (setup : Setup) (alloc : Alloc) (r : Option Reassembly) (chunk : CanMessage) :
    Progress :=
  if canidGetIsFirst chunk.id then first setup alloc chunk else next r chunk

/-- How a call hands over a complete message. -/
def deliver (call : Call) (r : Reassembly) : Result × Option Msg :=
  match call.api with
  | .addChunk true =>
      if call.alloc.calloc && (r.expectedLength = 0 || call.alloc.malloc) then (.ok, some r.msg)
      else (.addingChunkCantSaveMessage, none)
  | .addChunk false => (.ok, none)
  | .addChunkView outMsg outComplete =>
      if outMsg && outComplete then (.ok, some r.msg) else (.ok, none)

/-- One call as the pair of its chunk sees it: the message in progress after the
call, the result, and the message that is delivered.  `room` says that the table
has a slot for the pair. -/
def step (setup : Setup) (room : Bool) (r : Option Reassembly) (call : Call) :
    Option Reassembly × Result × Option Msg :=
  if call.chunk.len.toNat > maxLen then (r, .addingChunkInvalidChunk, none)
  else if !setup.accepts call.chunk.id then (r, .addingChunkUnrelatedAddressTo, none)
  else if !room then (r, .addingChunkCantAllocateNewMsg, none)
  else
    match advance setup call.alloc r call.chunk with
    | .refused result => (none, result, none)
    | .kept r result => (some r, result, none)
    | .complete r => (none, deliver call r)

/-- A chunk that is taken, when there is room, advances the message in progress. -/
theorem step_of_accepts {setup : Setup} {r : Option Reassembly} {call : Call}
    (hlen : call.chunk.len.toNat ≤ maxLen) (haccept : setup.accepts call.chunk.id = true) :
    step setup true r call =
      match advance setup call.alloc r call.chunk with
      | .refused result => (none, result, none)
      | .kept r result => (some r, result, none)
      | .complete r => (none, deliver call r) := by
  rw [step, if_neg (Nat.not_lt.mpr hlen), haccept]
  rfl

/-- A pair the table always has a slot for, as a machine. -/
def machine (setup : Setup) : Machine (Option Reassembly) Call (Result × Option Msg) where
  step := step setup true

end Pair

end Protoplexer
end UniCan
