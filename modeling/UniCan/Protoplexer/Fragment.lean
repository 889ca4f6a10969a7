import UniCan.Foundation.Pieces
import UniCan.Protoplexer.CanId
import UniCan.Protoplexer.Crc

/-!
# Cutting a ProtoPlexer message into chunks

A message is sent as a stream of bytes: a header of six bytes, which holds the
message id, the length and the checksum of the data, and then the data.  The
stream is cut into chunks of at most `maxChunkLength` bytes, one CAN message for
each; chunk `i` is built from the message alone, so that a sender needs no memory
for the others.

## Main definitions

* `Msg` — a message; `Msg.content` is what a receiver can tell of it.
* `chunksCount`, `buildChunk`, `buildChunks` — the fragmentation functions.
* `stream` — the header and the data as one list of bytes.

## Main results

* `buildChunk_eq_ok` — a chunk exists for every index below the count, and
  carries its piece of the stream.
-/

namespace UniCan
namespace Protoplexer

/-- `uni_can_protoplexer_result_t`. -/
inductive Result
  | ok
  | failure
  | wrongAddress
  | wrongPriority
  | addingChunkCantAllocateNewMsg
  | addingChunkFirstAndTooShort
  | addingChunkUnrelatedAddressTo
  | addingChunkHeaderDataOverflow
  | addingChunkCantAllocateData
  | addingChunkReceivedErrorId
  | addingChunkDataWithoutHeader
  | addingChunkDataOverflow
  | addingChunkCantSaveData
  | addingChunkCantSaveMessage
  | addingChunkInvalidChunk
  | addingChunkWrongCrc
  | sendMsgHwCantSendHeader
  | sendMsgCantAddMessageChunks
  | sendMsgCantWriteHeader
  | sendMsgInvalidSize
  | pollingTxBufferEmpty
  | pollingNewNoNewMessages
  | pollingRxHwRxEmpty
  | hwSendTooManyAttempts
  | hwSendNonRecoverable
  deriving DecidableEq, Repr

/-! ### Messages -/

/-- `uni_can_protoplexer_msg_t`; `none` is a null `data`. -/
structure Msg where
  /-- What the message is about. -/
  messageId : UInt16
  /-- The sender. -/
  addressFrom : UInt16
  /-- The receiver. -/
  addressTo : UInt16
  /-- The priority, where zero is the highest. -/
  priorityInverted : UInt8
  /-- Bytes of data. -/
  length : UInt16
  /-- The data. -/
  data : Option (List UInt8)
  deriving DecidableEq, Repr

/-- What a receiver can tell of a message: its fields and its bytes. -/
structure Content where
  messageId : UInt16
  addressFrom : UInt16
  addressTo : UInt16
  priorityInverted : UInt8
  length : UInt16
  bytes : List UInt8
  deriving DecidableEq, Repr

namespace Msg

/-- The data of a message, `length` bytes of it. -/
def bytes (m : Msg) : List UInt8 := (m.data.getD []).take m.length.toNat

/-- The data a message announces is there. -/
def HasData (m : Msg) : Prop := m.length.toNat ≤ (m.data.getD []).length

instance (m : Msg) : Decidable m.HasData := inferInstanceAs (Decidable (_ ≤ _))

/-- All there is to a message: its fields, and its data as bytes. -/
def content (m : Msg) : Content :=
  ⟨m.messageId, m.addressFrom, m.addressTo, m.priorityInverted, m.length, m.bytes⟩

theorem length_bytes {m : Msg} (h : m.HasData) : m.bytes.length = m.length.toNat := by
  rw [bytes, List.length_take]
  exact Nat.min_eq_left h

end Msg

/-- A message of two bytes from address 1 to address 2. -/
def smallMsg (messageId : UInt16) : Msg where
  messageId := messageId
  addressFrom := 1
  addressTo := 2
  priorityInverted := 7
  length := 2
  data := some [0xAB, 0xCD]

/-- A message of ten bytes to address 2, which takes several chunks. -/
def longMsg (addressFrom messageId : UInt16) : Msg where
  messageId := messageId
  addressFrom := addressFrom
  addressTo := 2
  priorityInverted := 7
  length := 10
  data := some [1, 2, 3, 4, 5, 6, 7, 8, 9, 10]

/-- What the allocator answers during one call: whether it gives the memory for a
message's data (and what that memory holds at first), for a message, and for the
copy of its data. -/
structure Alloc where
  /-- `rx_alloc`: the first contents of the block, or nothing. -/
  rxAlloc : Option (ℕ → UInt8)
  /-- `calloc` of a message or of an array of chunks. -/
  calloc : Bool
  /-- `malloc` of the data of a message. -/
  malloc : Bool

/-- An allocator without memory. -/
def Alloc.heapless : Alloc := ⟨none, false, false⟩

/-- An allocator that never fails, and gives zeroed memory. -/
def Alloc.ample : Alloc := ⟨some fun _ => 0, true, true⟩

/-- `uni_can_protoplexer_msg_create`. -/
def msgCreate (alloc : Alloc) (messageId addressFrom addressTo : UInt16)
    (priorityInverted : UInt8) (data : List UInt8) (length : UInt16) : Option Msg :=
  if !alloc.calloc then none
  else if length > 0 then
    if !alloc.malloc then none
    else some ⟨messageId, addressFrom, addressTo, priorityInverted, length,
      some (data.take length.toNat)⟩
  else some ⟨messageId, addressFrom, addressTo, priorityInverted, length, none⟩

/-! ### Chunks -/

/-- `uni_can_protoplexer_chunks_count`. -/
def chunksCount (length maxChunkLength : UInt16) : ℕ :=
  if maxChunkLength.toNat < headerSize || maxChunkLength.toNat > maxLen then 0
  else (headerSize + length.toNat + (maxChunkLength.toNat - 1)) / maxChunkLength.toNat

/-- The header bytes `uni_can_protoplexer_build_chunk` prepares for the first chunk. -/
def headerBytes (msg : Msg) : List UInt8 :=
  let crc := crc16 (msg.data.getD []) msg.length.toNat
  [(msg.messageId &&& 0x00FF).toUInt8, (msg.messageId >>> 8).toUInt8,
    (msg.length &&& 0x00FF).toUInt8, (msg.length >>> 8).toUInt8,
    (crc &&& 0x00FF).toUInt8, (crc >>> 8).toUInt8]

/-- `uni_can_protoplexer_build_chunk`; an error leaves the chunk alone. -/
def buildChunk (msg : Msg) (maxChunkLength : UInt16) (chunkIndex : ℕ) :
    Except Result CanMessage :=
  let count := chunksCount msg.length maxChunkLength
  if count = 0 then .error .sendMsgHwCantSendHeader
  else if chunkIndex ≥ count then .error .failure
  else if msg.length > 0 && msg.data.isNone then .error .sendMsgInvalidSize
  else
    let total := headerSize + msg.length.toNat
    let cursor := chunkIndex * maxChunkLength.toNat
    let left := total - cursor
    let chunkSize := if left < maxChunkLength.toNat then left else maxChunkLength.toNat
    let isFirst := chunkIndex == 0
    let header := if isFirst then headerBytes msg else List.replicate headerSize 0
    .ok {
      id := canidCreate msg.addressFrom msg.addressTo msg.priorityInverted isFirst
      flags := flagExtId
      len := UInt16.ofNat chunkSize
      data := CanData.ofBytes <| (List.range chunkSize).map fun i =>
        if cursor + i < headerSize then header.getD (cursor + i) 0
        else (msg.data.getD []).getD (cursor + i - headerSize) 0 }

/-- The loop of `uni_can_protoplexer_build_chunks` from index `idx` on, with `n`
chunks to go. -/
def buildChunksFrom (msg : Msg) (maxChunkLength : UInt16) (idx : ℕ) :
    ℕ → Except Result (List CanMessage)
  | 0 => .ok []
  | n + 1 =>
      match buildChunk msg maxChunkLength idx with
      | .error e => .error e
      | .ok chunk =>
          match buildChunksFrom msg maxChunkLength (idx + 1) n with
          | .error e => .error e
          | .ok chunks => .ok (chunk :: chunks)

/-- `uni_can_protoplexer_build_chunks`; `calloc` says whether there is memory for
the array. -/
def buildChunks (calloc : Bool) (msg : Msg) (maxChunkLength : UInt16) :
    Except Result (List CanMessage) :=
  let count := chunksCount msg.length maxChunkLength
  if count = 0 then .error .sendMsgHwCantSendHeader
  else if !calloc then .error .sendMsgCantAddMessageChunks
  else buildChunksFrom msg maxChunkLength 0 count

/-- The chunks of a message, if it can be cut. -/
def chunksOf (msg : Msg) (maxChunkLength : UInt16) : List CanMessage :=
  match buildChunks true msg maxChunkLength with
  | .ok chunks => chunks
  | .error _ => []

/-! ### What a chunk carries -/

/-- A chunk length the protocol accepts: a chunk holds the header, and fits a CAN
message. -/
def ChunkLengthOk (maxChunkLength : UInt16) : Prop :=
  headerSize ≤ maxChunkLength.toNat ∧ maxChunkLength.toNat ≤ maxLen

instance (m : UInt16) : Decidable (ChunkLengthOk m) := inferInstanceAs (Decidable (_ ∧ _))

/-- The bytes a message is sent as. -/
def stream (msg : Msg) : List UInt8 := headerBytes msg ++ msg.bytes

@[simp] theorem length_headerBytes (msg : Msg) : (headerBytes msg).length = headerSize := rfl

theorem length_stream {msg : Msg} (h : msg.HasData) :
    (stream msg).length = headerSize + msg.length.toNat := by
  rw [stream, List.length_append, length_headerBytes, Msg.length_bytes h]

theorem chunksCount_eq {m : UInt16} (hm : ChunkLengthOk m) (length : UInt16) :
    chunksCount length m = pieceCount (headerSize + length.toNat) m.toNat := by
  obtain ⟨h6, h8⟩ := hm
  have hguard : (decide (m.toNat < headerSize) || decide (m.toNat > maxLen)) = false := by
    simp only [Bool.or_eq_false_iff, decide_eq_false_iff_not]
    omega
  simp only [chunksCount, hguard, Bool.false_eq_true, if_false, pieceCount]

theorem chunksCount_of_not_ok {m : UInt16} (hm : ¬ ChunkLengthOk m) (length : UInt16) :
    chunksCount length m = 0 := by
  have hguard : (decide (m.toNat < headerSize) || decide (m.toNat > maxLen)) = true := by
    simp only [Bool.or_eq_true, decide_eq_true_eq]
    by_contra h
    exact hm ⟨by omega, by omega⟩
  simp only [chunksCount, hguard, if_true]

/-- A message has at least one chunk: the one with the header. -/
theorem chunksCount_pos {m : UInt16} (hm : ChunkLengthOk m) (length : UInt16) :
    0 < chunksCount length m := by
  have h6 : 6 ≤ m.toNat := hm.1
  rw [chunksCount_eq hm, lt_pieceCount_iff (by omega), headerSize]
  omega

/-- The chunk `buildChunk` builds when it builds one: its piece of the stream, under
the identifier of the message. -/
def chunkAt (msg : Msg) (m : UInt16) (i : ℕ) : CanMessage where
  id := canidCreate msg.addressFrom msg.addressTo msg.priorityInverted (i == 0)
  flags := flagExtId
  len := UInt16.ofNat (piece (stream msg) m.toNat i).length
  data := CanData.ofBytes (piece (stream msg) m.toNat i)

/-- **The specification of `buildChunk`**: it succeeds for the indices below the
count, and the chunk carries its piece of the stream. -/
theorem buildChunk_eq_ok {msg : Msg} {m : UInt16} {i : ℕ} (hm : ChunkLengthOk m)
    (hdata : msg.HasData) (hi : i < chunksCount msg.length m) :
    buildChunk msg m i = .ok (chunkAt msg m i) := by
  have h6 : 6 ≤ m.toNat := hm.1
  have hcount : chunksCount msg.length m ≠ 0 := by omega
  have hcursor : i * m.toNat < headerSize + msg.length.toNat := by
    rw [chunksCount_eq hm] at hi
    exact (lt_pieceCount_iff (by omega)).mp hi
  have hsome : (decide (msg.length > 0) && msg.data.isNone) = false := by
    rw [Bool.and_eq_false_iff, decide_eq_false_iff_not, gt_iff_lt, UInt16.lt_iff_toNat_lt]
    cases hd : msg.data with
    | some l => exact Or.inr rfl
    | none =>
      have hlen : msg.length.toNat ≤ 0 := by simpa [Msg.HasData, hd] using hdata
      exact Or.inl (by simp only [UInt16.toNat_zero]; omega)
  -- the size of the chunk is the size of its piece
  have hsize : (piece (stream msg) m.toNat i).length =
      if headerSize + msg.length.toNat - i * m.toNat < m.toNat
      then headerSize + msg.length.toNat - i * m.toNat else m.toNat := by
    rw [length_piece, length_stream hdata]
    split <;> omega
  -- and its bytes are those of the piece
  have hbytes : (List.range (piece (stream msg) m.toNat i).length).map (fun k =>
      if i * m.toNat + k < headerSize
      then (if i == 0 then headerBytes msg else List.replicate headerSize 0).getD
        (i * m.toNat + k) 0
      else (msg.data.getD []).getD (i * m.toNat + k - headerSize) 0) =
      piece (stream msg) m.toNat i := by
    apply List.ext_getElem
    · simp
    · intro k hk hk'
      have hkm : k < m.toNat := by rw [length_piece] at hk'; omega
      have hkl : i * m.toNat + k < headerSize + msg.length.toNat := by
        rw [length_piece, length_stream hdata] at hk'
        omega
      simp only [List.getElem_map, List.getElem_range, piece, List.getElem_take,
        List.getElem_drop]
      by_cases hhead : i * m.toNat + k < headerSize
      · -- a byte of the header: this is the first chunk
        have hi0 : i = 0 := by
          rcases Nat.eq_zero_or_pos i with h | h
          · exact h
          · have hle : m.toNat ≤ i * m.toNat := Nat.le_mul_of_pos_left _ h
            have : headerSize = 6 := rfl
            omega
        subst hi0
        simp only [Nat.zero_mul, Nat.zero_add] at hhead ⊢
        rw [if_pos hhead]
        simp only [stream, beq_self_eq_true, if_true]
        rw [List.getElem_append_left (by rw [length_headerBytes]; exact hhead),
          List.getD_eq_getElem _ _ (by rw [length_headerBytes]; exact hhead)]
      · rw [if_neg hhead]
        have hd : i * m.toNat + k - headerSize < (msg.data.getD []).length := by
          have : msg.length.toNat ≤ (msg.data.getD []).length := hdata
          omega
        simp only [stream]
        rw [List.getElem_append_right (by rw [length_headerBytes]; omega),
          List.getD_eq_getElem _ _ hd]
        simp only [length_headerBytes, Msg.bytes, List.getElem_take]
  unfold buildChunk
  simp only [hcount, if_false, ge_iff_le, Nat.not_le.mpr hi, hsome, Bool.false_eq_true]
  rw [← hsize, hbytes]
  rfl

/-- `buildChunks` makes all of them, in order. -/
theorem buildChunks_eq_ok {msg : Msg} {m : UInt16} (hm : ChunkLengthOk m)
    (hdata : msg.HasData) :
    buildChunks true msg m =
      .ok ((List.range (chunksCount msg.length m)).map (chunkAt msg m)) := by
  have hloop : ∀ n idx, idx + n ≤ chunksCount msg.length m →
      buildChunksFrom msg m idx n = .ok ((List.range' idx n).map (chunkAt msg m)) := by
    intro n
    induction n with
    | zero => intro idx _; rfl
    | succ n ih =>
      intro idx hidx
      rw [buildChunksFrom, buildChunk_eq_ok hm hdata (by omega), ih (idx + 1) (by omega)]
      rfl
  have hpos := chunksCount_pos hm msg.length
  simp only [buildChunks, Nat.ne_of_gt hpos, if_false, Bool.not_true, Bool.false_eq_true]
  rw [hloop _ 0 (by omega), List.range_eq_range']

theorem chunksOf_eq {msg : Msg} {m : UInt16} (hm : ChunkLengthOk m) (hdata : msg.HasData) :
    chunksOf msg m = (List.range (chunksCount msg.length m)).map (chunkAt msg m) := by
  rw [chunksOf, buildChunks_eq_ok hm hdata]

theorem length_chunksOf {msg : Msg} {m : UInt16} (hm : ChunkLengthOk m) (hdata : msg.HasData) :
    (chunksOf msg m).length = chunksCount msg.length m := by
  rw [chunksOf_eq hm hdata, List.length_map, List.length_range]

end Protoplexer
end UniCan
