import UniCan.Protoplexer.Isolation

/-!
# Messages arrive

A receiver that has a slot for a pair delivers the messages of the pair all of
whose chunks arrive, and no others: a message with a lost chunk leaves its
reassembly behind, short of some bytes, and the first chunk of the next message
clears it away.

## Main definitions

* `Transfer` — a message of a pair on its way: its chunks, which of them arrive,
  and how they are received.
* `Transfer.calls`, `Transfer.answers` — the calls that feed it to a receiver, and
  the answers they should get.

## Main results

* `headerWord_chunkAt` — the header is read as it was written.
* `Pair.machine_outputs_transfer` — a pair answers the calls of a transfer as it
  should, whatever was in progress before.
* `receiver_delivers` — **delivery under loss.**
-/

namespace UniCan
namespace Protoplexer

/-! ### The header of a chunk -/

/-- A word is its two bytes. -/
theorem word_of_bytes (x : UInt16) :
    (x &&& 0x00FF).toUInt8.toUInt16 ||| ((x >>> 8).toUInt8.toUInt16 <<< 8) = x := by
  have hlt := x.toNat_lt
  have hlow : (x &&& 0x00FF).toUInt8.toUInt16.toNat = x.toNat % 256 := by
    rw [UInt8.toNat_toUInt16, UInt16.toNat_toUInt8, UInt16.toNat_and]
    have : (0x00FF : UInt16).toNat = 2 ^ 8 - 1 := rfl
    rw [this, Nat.and_two_pow_sub_one_eq_mod]
    omega
  have hhigh : ((x >>> 8).toUInt8.toUInt16 <<< 8).toNat = x.toNat / 256 * 256 := by
    rw [UInt16.toNat_shiftLeft, UInt8.toNat_toUInt16, UInt16.toNat_toUInt8,
      UInt16.toNat_shiftRight]
    have : (8 : UInt16).toNat % 16 = 8 := rfl
    rw [this, Nat.shiftLeft_eq, Nat.shiftRight_eq_div_pow]
    omega
  rw [← UInt16.toNat_inj, UInt16.or_comm, UInt16.toNat_or, hlow, hhigh,
    or_eq_add (i := 8) (a := x.toNat / 256 * 256) (Dvd.intro_left _ rfl) (by omega)]
  omega

section Header

variable {msg : Msg} {m : UInt16}

/-- The bytes of a chunk are its piece of the stream. -/
theorem bytes_chunkAt (hm : ChunkLengthOk m) (i : ℕ) :
    (chunkAt msg m i).bytes = piece (stream msg) m.toNat i := by
  have hle : (piece (stream msg) m.toNat i).length ≤ maxLen := by
    rw [length_piece]
    exact le_trans (Nat.min_le_left _ _) hm.2
  have hlen : (UInt16.ofNat (piece (stream msg) m.toNat i).length).toNat =
      (piece (stream msg) m.toNat i).length :=
    UInt16.toNat_ofNat_of_lt' (Nat.lt_of_le_of_lt hle (by decide))
  rw [CanMessage.bytes, chunkAt]
  simp only
  rw [hlen, CanData.take_toList_ofBytes hle]

theorem toNat_len_chunkAt (hm : ChunkLengthOk m) (i : ℕ) :
    (chunkAt msg m i).len.toNat = min m.toNat ((stream msg).length - i * m.toNat) := by
  have h8 : m.toNat ≤ 8 := hm.2
  rw [chunkAt, UInt16.toNat_ofNat', length_piece]
  exact Nat.mod_eq_of_lt (by omega)

/-- A byte of the header, in the first chunk. -/
theorem u8_chunkAt_zero (hm : ChunkLengthOk m) {k : ℕ} (hk : k < headerSize) :
    (chunkAt msg m 0).u8 k = (headerBytes msg).getD k 0 := by
  have h6 : k < 6 := hk
  have hm6 : 6 ≤ m.toNat := hm.1
  have hl : k < (headerBytes msg).length := hk
  have hpiece : (piece (stream msg) m.toNat 0).getD k 0 = (headerBytes msg).getD k 0 := by
    rw [piece, Nat.zero_mul, List.drop_zero, stream, List.getD_eq_getElem?_getD,
      List.getElem?_take_of_lt (by omega), List.getElem?_append_left hl,
      ← List.getD_eq_getElem?_getD]
  rw [CanMessage.u8, chunkAt, ← hpiece]
  simp only [CanData.ofBytes]
  rw [List.getD_eq_getElem _ _ (by simp; omega)]
  simp

/-- **The header is read as it was written.** -/
theorem headerWord_chunkAt (msg : Msg) (hm : ChunkLengthOk m) :
    headerWord (chunkAt msg m 0) 0 = msg.messageId ∧
      headerWord (chunkAt msg m 0) 2 = msg.length ∧
      headerWord (chunkAt msg m 0) 4 = crc16 (msg.data.getD []) msg.length.toNat := by
  have hu8 : ∀ k, k < headerSize → (chunkAt msg m 0).u8 k = (headerBytes msg).getD k 0 :=
    fun k hk => u8_chunkAt_zero hm hk
  refine ⟨?_, ?_, ?_⟩ <;> rw [headerWord, hu8 _ (by decide), hu8 _ (by decide)] <;>
    exact word_of_bytes _

end Header

/-! ### Transfers -/

/-- What a caller sees of an answer. -/
def seen (a : Result × Option Msg) : Result × Option Content := (a.1, a.2.map Msg.content)

/-- A message from `f` to `t` on its way to a receiver that can take it: how it is
cut, which of its chunks arrive, and how each of them is received. -/
structure Transfer (setup : Setup) (f t : UInt16) where
  msg : Msg
  maxChunkLength : UInt16
  /-- The chunk with this index arrives.  The first one always does. -/
  arrives : ℕ → Bool
  /-- The call that takes the chunk. -/
  api : ℕ → Api
  /-- What the allocator answers during that call. -/
  alloc : ℕ → Alloc
  addressFrom : msg.addressFrom = f
  addressTo : msg.addressTo = t
  messageId : msg.messageId ≠ errorId
  priority : msg.priorityInverted ≤ priorityMinimal
  hasData : msg.HasData
  chunkLength : ChunkLengthOk maxChunkLength
  fits : setup.Limited → msg.length ≤ setup.maxPayload
  serves : ∀ i, (alloc i).Serves setup.rxStatic (api i)

namespace Transfer

variable {setup : Setup} {f t : UInt16} (x : Transfer setup f t)

/-- The chunks of the message. -/
def chunks : List CanMessage := chunksOf x.msg x.maxChunkLength

/-- The chunk with this index is received. -/
def received (i : ℕ) : Bool := i == 0 || x.arrives i

/-- The calls that take the chunks that arrive. -/
def calls : List Call :=
  (x.chunks.zipIdx.filter fun p => x.received p.2).map fun p => ⟨x.api p.2, p.1, x.alloc p.2⟩

/-- All chunks arrive. -/
def complete : Bool := (List.range x.chunks.length).all x.received

/-- The answer to chunk `i`: it is fine, and the last one delivers the message if
all chunks are there, and if the caller wants it. -/
def answer (all : Bool) (i : ℕ) : Result × Option Content :=
  (.ok, if all && i + 1 == x.chunks.length && (x.api i).wantsMessage
    then some x.msg.content else none)

/-- The answers of a receiver. -/
def answers : List (Result × Option Content) :=
  ((List.range x.chunks.length).filter x.received).map (x.answer x.complete)

/-- How many chunks there are. -/
def count : ℕ := chunksCount x.msg.length x.maxChunkLength

/-- The call that takes chunk `i`. -/
def call (i : ℕ) : Call := ⟨x.api i, chunkAt x.msg x.maxChunkLength i, x.alloc i⟩

/-- The bytes of data in the chunks before chunk `i`. -/
def offset (i : ℕ) : ℕ := i * x.maxChunkLength.toNat - headerSize

theorem chunks_eq : x.chunks = (List.range x.count).map (chunkAt x.msg x.maxChunkLength) :=
  chunksOf_eq x.chunkLength x.hasData

@[simp] theorem length_chunks : x.chunks.length = x.count := by simp [chunks_eq]

theorem calls_eq : x.calls = ((List.range x.count).filter x.received).map x.call := by
  have hzip : x.chunks.zipIdx =
      (List.range x.count).map fun i => (chunkAt x.msg x.maxChunkLength i, i) := by
    apply List.ext_getElem
    · simp
    · intro i hi hi'
      simp [chunks_eq]
  rw [calls, hzip, List.filter_map, List.map_map]
  rfl

/-- The chunks before chunk `i` hold less than all of the data, unless `i` is the
number of chunks. -/
theorem lt_count_iff (i : ℕ) :
    i < x.count ↔ i * x.maxChunkLength.toNat < headerSize + x.msg.length.toNat := by
  have h6 : 6 ≤ x.maxChunkLength.toNat := x.chunkLength.1
  rw [count, chunksCount_eq x.chunkLength, lt_pieceCount_iff (by omega)]

theorem headerSize_le_mul {i : ℕ} (hi : 0 < i) : headerSize ≤ i * x.maxChunkLength.toNat :=
  le_trans x.chunkLength.1 (Nat.le_mul_of_pos_left _ hi)

theorem length_bytes : x.msg.bytes.length = x.msg.length.toNat := Msg.length_bytes x.hasData

/-- The bytes of a chunk behind the header are the next ones of the data. -/
theorem take_offset_succ (i : ℕ) : x.msg.bytes.take (x.offset (i + 1)) =
    x.msg.bytes.take (x.offset i) ++
      (x.call i).chunk.bytes.drop (if i = 0 then headerSize else 0) := by
  have h6 : headerSize ≤ x.maxChunkLength.toNat := x.chunkLength.1
  rw [call, bytes_chunkAt x.chunkLength, piece, stream]
  by_cases hi : i = 0
  · subst hi
    simp only [offset, Nat.zero_mul, Nat.zero_sub, List.take_zero, List.nil_append, Nat.zero_add,
      Nat.one_mul, List.drop_zero, if_true]
    rw [List.drop_take, List.drop_left' (length_headerBytes x.msg)]
  · have hle := x.headerSize_le_mul (Nat.pos_of_ne_zero hi)
    have hoff : x.offset (i + 1) = x.offset i + x.maxChunkLength.toNat := by
      rw [offset, offset, Nat.succ_mul]
      omega
    have hdrop : (headerBytes x.msg ++ x.msg.bytes).drop (i * x.maxChunkLength.toNat) =
        x.msg.bytes.drop (x.offset i) := by
      rw [List.drop_append, List.drop_eq_nil_of_le (by rw [length_headerBytes]; exact hle),
        List.nil_append, length_headerBytes, offset]
    rw [hoff, List.take_add, if_neg hi, List.drop_zero, hdrop]

theorem offset_lt_succ {i : ℕ} (hi : i < x.count) :
    min (x.offset i) x.msg.length.toNat ≤ min (x.offset (i + 1)) x.msg.length.toNat ∧
      (0 < i → min (x.offset i) x.msg.length.toNat <
        min (x.offset (i + 1)) x.msg.length.toNat) := by
  have h6 : 6 ≤ x.maxChunkLength.toNat := x.chunkLength.1
  have hlt := (x.lt_count_iff i).mp hi
  have h6' : headerSize = 6 := rfl
  have hsucc := Nat.succ_mul i x.maxChunkLength.toNat
  simp only [Nat.succ_eq_add_one] at hsucc
  unfold offset
  refine ⟨by omega, fun hpos => ?_⟩
  have hle := x.headerSize_le_mul hpos
  omega

/-- All of the data is there with the last chunk, and not before. -/
theorem length_le_offset_iff {i : ℕ} (hi : 0 < i) :
    x.msg.length.toNat ≤ x.offset i ↔ x.count ≤ i := by
  have hle := x.headerSize_le_mul hi
  have hiff := x.lt_count_iff i
  unfold offset
  omega

end Transfer

/-! ### One pair and one transfer -/

section Run

variable {setup : Setup} {f t : UInt16} (x : Transfer setup f t)

/-- The reassembly of a transfer before chunk `i`: it holds all of the data so far,
or less than that when a chunk was lost. -/
structure Transfer.Partial (i : ℕ) (whole : Bool) (r : Reassembly) : Prop where
  messageId : r.messageId = x.msg.messageId
  addressFrom : r.addressFrom = f
  addressTo : r.addressTo = t
  priorityInverted : r.priorityInverted = x.msg.priorityInverted
  expectedLength : r.expectedLength = x.msg.length
  expectedCrc : r.expectedCrc = crc16 (x.msg.data.getD []) x.msg.length.toNat
  data : if whole then r.data = x.msg.bytes.take (x.offset i)
    else r.data.length < min (x.offset i) x.msg.length.toNat

variable {x}

/-- A complete reassembly is the message. -/
theorem Transfer.Partial.content {i : ℕ} {r : Reassembly} (h : x.Partial i true r)
    (hlen : x.msg.length.toNat ≤ x.offset i) : r.msg.content = x.msg.content := by
  have hdata : r.data = x.msg.bytes := by
    have hd := h.data
    rw [if_pos rfl, List.take_of_length_le (by rw [x.length_bytes]; exact hlen)] at hd
    exact hd
  have hbytes : r.msg.bytes = x.msg.bytes := by
    unfold Msg.bytes Reassembly.msg
    rw [h.expectedLength]
    by_cases h0 : x.msg.length = 0
    · simp [h0]
    · simp only [h0, if_false, Option.getD_some]
      rw [hdata, ← Msg.bytes, List.take_of_length_le (Nat.le_of_eq x.length_bytes)]
  unfold Msg.content
  rw [hbytes]
  simp only [Reassembly.msg, h.messageId, h.addressFrom, h.addressTo, h.priorityInverted,
    h.expectedLength, x.addressFrom, x.addressTo]

/-- What becomes of a reassembly that got chunk `i - 1`. -/
theorem Transfer.Partial.finish {i : ℕ} {whole : Bool} {r : Reassembly} (h : x.Partial i whole r)
    (hi : 0 < i) : Pair.finish r =
      if whole = true ∧ x.count ≤ i then .complete r else .kept r .ok := by
  have hd := h.data
  unfold Pair.finish
  rw [h.expectedLength, h.expectedCrc]
  cases whole with
  | false =>
    -- some bytes are missing for good
    rw [if_neg (by simp)] at hd
    rw [if_neg (by omega), if_neg (by simp)]
  | true =>
    rw [if_pos rfl] at hd
    have hlen : r.data.length = min (x.offset i) x.msg.length.toNat := by
      rw [hd, List.length_take, x.length_bytes]
    by_cases hcount : x.count ≤ i
    · have hle := (x.length_le_offset_iff hi).mpr hcount
      have hbytes : r.data = x.msg.bytes := by
        rw [hd, List.take_of_length_le (by rw [x.length_bytes]; exact hle)]
      have hcrc : crc16 r.data x.msg.length.toNat =
          crc16 (x.msg.data.getD []) x.msg.length.toNat := by
        rw [hbytes, crc16, crc16, Msg.bytes, List.take_take, Nat.min_self]
      rw [if_pos (by omega), if_neg (not_not.mpr hcrc), if_pos ⟨rfl, hcount⟩]
    · have hlt : x.offset i < x.msg.length.toNat :=
        Nat.lt_of_not_le fun hle => hcount ((x.length_le_offset_iff hi).mp hle)
      rw [if_neg (by omega), if_neg (fun hc => hcount hc.2)]

/-- The answer to the last chunk. -/
theorem Transfer.deliver {r : Reassembly} {i : ℕ} (hcontent : r.msg.content = x.msg.content) :
    seen (Pair.deliver (x.call i) r) =
      (.ok, if (x.api i).wantsMessage then some x.msg.content else none) := by
  unfold seen Pair.deliver
  simp only [Transfer.call]
  cases hapi : x.api i with
  | addChunk outMsg =>
    obtain ⟨hcalloc, hmalloc⟩ := (x.serves i).2 outMsg hapi
    cases outMsg <;> simp [hcalloc, hmalloc, Api.wantsMessage, hcontent]
  | addChunkView outMsg outComplete =>
    cases outMsg <;> cases outComplete <;> simp [Api.wantsMessage, hcontent]

variable (x)

/-- A message that fits and that there is memory for is not refused. -/
theorem Setup.refuses_eq_false {setup : Setup} {alloc : Alloc} {length : UInt16}
    (hfits : setup.Limited → length ≤ setup.maxPayload)
    (hmem : setup.rxStatic = false → alloc.rxAlloc.isSome = true) :
    setup.refuses alloc length = false := by
  have hmem' : (!setup.rxStatic && alloc.rxAlloc.isNone) = false := by
    cases hstatic : setup.rxStatic with
    | true => rfl
    | false => rw [← Option.not_isSome, hmem hstatic]; rfl
  unfold Setup.refuses
  rw [Bool.and_assoc, hmem', Bool.and_false, Bool.or_false, Bool.and_eq_false_iff,
    decide_eq_false_iff_not]
  by_cases hlim : setup.Limited
  · exact Or.inr (UInt16.not_lt.mpr (hfits hlim))
  · left
    unfold Setup.Limited at hlim
    simpa [not_or] using hlim

/-- A context takes what is sent to it, and everything if it monitors. -/
theorem Setup.takes_of_own {setup : Setup} {t : UInt16} {chunk : CanMessage}
    (hlen : chunk.len.toNat ≤ maxLen) (hto : canidGetTo chunk.id = t)
    (hown : setup.monitoring = true ∨ setup.ownAddress = t) : setup.takes chunk = true := by
  rw [Setup.takes, Bool.and_eq_true, decide_eq_true_eq, Setup.accepts, hto]
  refine ⟨hlen, ?_⟩
  rcases hown with hmon | hown
  · rw [hmon, Bool.or_true]
  · rw [hown, beq_self_eq_true, Bool.true_or]

/-- Valid addresses are read from an identifier as they were written. -/
theorem canidGet_canidCreate {f t : UInt16} (hf : addressValid f = true)
    (ht : addressValid t = true) (priorityInverted : UInt8) (isFirst : Bool) :
    canidGetFrom (canidCreate f t priorityInverted isFirst) = f ∧
      canidGetTo (canidCreate f t priorityInverted isFirst) = t := by
  rw [addressValid_iff] at hf ht
  constructor <;> rw [← UInt16.toNat_inj]
  · rw [toNat_canidGetFrom_canidCreate]
    exact Nat.mod_eq_of_lt (by omega)
  · rw [toNat_canidGetTo_canidCreate]
    exact Nat.mod_eq_of_lt (by omega)

theorem Transfer.pair_call (hf : addressValid f = true) (ht : addressValid t = true) (i : ℕ) :
    canidGetFrom (x.call i).chunk.id = f ∧ canidGetTo (x.call i).chunk.id = t := by
  rw [Transfer.call, chunkAt, x.addressFrom, x.addressTo]
  exact canidGet_canidCreate hf ht _ _

theorem Transfer.isFirst_call (i : ℕ) : canidGetIsFirst (x.call i).chunk.id = (i == 0) := by
  rw [Transfer.call, chunkAt]
  exact canidGetIsFirst_canidCreate _ _ _ _

theorem Transfer.priority_call (i : ℕ) :
    canidGetPriorityInverted (x.call i).chunk.id = x.msg.priorityInverted := by
  have hle := x.priority
  rw [UInt8.le_iff_toNat_le] at hle
  have h15 : priorityMinimal.toNat = 15 := rfl
  rw [← UInt8.toNat_inj, Transfer.call, chunkAt, toNat_canidGetPriorityInverted_canidCreate]
  exact Nat.mod_eq_of_lt (by omega)

theorem Transfer.len_call (i : ℕ) : (x.call i).chunk.len.toNat =
    min x.maxChunkLength.toNat (headerSize + x.msg.length.toNat - i * x.maxChunkLength.toNat) := by
  rw [Transfer.call, toNat_len_chunkAt x.chunkLength, length_stream x.hasData]

theorem Transfer.len_call_le (i : ℕ) : (x.call i).chunk.len.toNat ≤ maxLen := by
  rw [x.len_call]
  exact le_trans (Nat.min_le_left _ _) x.chunkLength.2

/-- The first chunk starts the reassembly of its message, whatever was there. -/
theorem Transfer.advance_first (hf : addressValid f = true) (ht : addressValid t = true)
    (r : Option Reassembly) : ∃ r', x.Partial 1 true r' ∧
      Pair.advance setup (x.alloc 0) r (x.call 0).chunk = Pair.finish r' := by
  have h6 : headerSize = 6 := rfl
  have hm6 : headerSize ≤ x.maxChunkLength.toNat := x.chunkLength.1
  obtain ⟨hfrom, hto⟩ := x.pair_call hf ht 0
  obtain ⟨hid, hlength, hcrc⟩ := headerWord_chunkAt x.msg x.chunkLength
  have hlen := x.len_call 0
  rw [Nat.zero_mul, Nat.sub_zero] at hlen
  have hrefuse : setup.refuses (x.alloc 0) x.msg.length = false :=
    Setup.refuses_eq_false x.fits (x.serves 0).1
  refine ⟨Pair.header (x.call 0).chunk, ⟨hid, hfrom, hto, x.priority_call 0, hlength, hcrc, ?_⟩, ?_⟩
  · rw [if_pos rfl, ← Nat.zero_add 1, x.take_offset_succ 0]
    simp [Transfer.offset, Pair.header]
  · rw [Pair.advance, x.isFirst_call 0, beq_self_eq_true, if_pos rfl, Pair.first, hfrom, hto, hf,
      ht]
    have hword : ∀ k,
        headerWord (x.call 0).chunk k = headerWord (chunkAt x.msg x.maxChunkLength 0) k :=
      fun _ => rfl
    rw [hword, hword, hid, hlength, hrefuse, if_neg (by omega), if_neg (by simp),
      if_neg (by omega), if_neg (by simp), if_neg x.messageId]

/-- A chunk that follows extends it. -/
theorem Transfer.Partial.advance {x : Transfer setup f t} {i : ℕ} {whole : Bool} {r : Reassembly}
    (h : x.Partial i whole r) (hi : 0 < i) (hcount : i < x.count) :
    ∃ r', x.Partial (i + 1) whole r' ∧
      Pair.advance setup (x.alloc i) (some r) (x.call i).chunk = Pair.finish r' := by
  have hne : (i == 0) = false := by simp; omega
  have hlen := CanMessage.length_bytes (x.len_call_le i)
  have htake := x.take_offset_succ i
  rw [if_neg (by omega), List.drop_zero] at htake
  have hsum := congrArg List.length htake
  rw [List.length_append, List.length_take, List.length_take, x.length_bytes, hlen] at hsum
  have hmin := x.offset_lt_succ hcount
  have hd := h.data
  have hfit : r.data.length + (x.call i).chunk.len.toNat ≤
      min (x.offset (i + 1)) x.msg.length.toNat := by
    cases whole with
    | true =>
      rw [if_pos rfl] at hd
      rw [hd, List.length_take, x.length_bytes]
      omega
    | false =>
      rw [if_neg (by simp)] at hd
      omega
  refine ⟨{ r with data := r.data ++ (x.call i).chunk.bytes }, ⟨h.messageId, h.addressFrom,
    h.addressTo, h.priorityInverted, h.expectedLength, h.expectedCrc, ?_⟩, ?_⟩
  · cases whole with
    | true =>
      rw [if_pos rfl] at hd ⊢
      rw [htake, hd]
    | false =>
      rw [if_neg (by simp)] at hd ⊢
      rw [List.length_append, hlen]
      omega
  · rw [Pair.advance, x.isFirst_call i, hne, if_neg (by simp), Pair.next, h.expectedLength,
      if_neg (by omega)]

/-- A lost chunk leaves the reassembly short of some bytes. -/
theorem Transfer.Partial.lost {x : Transfer setup f t} {i : ℕ} {whole : Bool} {r : Reassembly}
    (h : x.Partial i whole r) (hi : 0 < i) (hcount : i < x.count) : x.Partial (i + 1) false r := by
  have hlt := (x.offset_lt_succ hcount).2 hi
  have hd := h.data
  refine ⟨h.messageId, h.addressFrom, h.addressTo, h.priorityInverted, h.expectedLength,
    h.expectedCrc, ?_⟩
  rw [if_neg (by simp)]
  cases whole with
  | true =>
    rw [if_pos rfl] at hd
    rw [hd, List.length_take, x.length_bytes]
    exact hlt
  | false =>
    rw [if_neg (by simp)] at hd
    omega

section Outputs

variable (hf : addressValid f = true) (ht : addressValid t = true)
  (hown : setup.monitoring = true ∨ setup.ownAddress = t)

include hf ht hown

theorem Transfer.takes (i : ℕ) : setup.takes (x.call i).chunk = true :=
  Setup.takes_of_own (x.len_call_le i) (x.pair_call hf ht i).2 hown

theorem Transfer.machine_step (i : ℕ) (r : Option Reassembly) :
    (Pair.machine setup).step r (x.call i) =
      match Pair.advance setup (x.alloc i) r (x.call i).chunk with
      | .refused result => (none, result, none)
      | .kept r result => (some r, result, none)
      | .complete r => (none, Pair.deliver (x.call i) r) := by
  have htakes := x.takes hf ht hown i
  rw [Setup.takes, Bool.and_eq_true, decide_eq_true_eq] at htakes
  have hlen : ¬ (x.call i).chunk.len.toNat > maxLen := Nat.not_lt.mpr htakes.1
  simp only [Pair.machine, Pair.step, if_neg hlen, htakes.2, Bool.not_true, Bool.false_eq_true,
    if_false]
  rfl

/-- The answer to chunk `i - 1` when it extends the reassembly to `r`, and the
state it leaves. -/
theorem Transfer.Partial.machine_step {x : Transfer setup f t} {i : ℕ} {whole : Bool}
    {r : Reassembly} {s : Option Reassembly} (h : x.Partial (i + 1) whole r)
    (hi : i < x.count)
    (hadvance : Pair.advance setup (x.alloc i) s (x.call i).chunk = Pair.finish r) :
    seen ((Pair.machine setup).step s (x.call i)).2 = x.answer (whole && i + 1 == x.count) i ∧
      (i + 1 < x.count → ((Pair.machine setup).step s (x.call i)).1 = some r) ∧
      (whole = true → i + 1 = x.count → ((Pair.machine setup).step s (x.call i)).1 = none) := by
  rw [x.machine_step hf ht hown, hadvance, h.finish (Nat.succ_pos i)]
  unfold Transfer.answer
  rw [x.length_chunks]
  by_cases hlast : whole = true ∧ x.count ≤ i + 1
  · obtain ⟨rfl, hcount⟩ := hlast
    have heq : (i + 1 == x.count) = true := by simp; omega
    have hcontent := h.content ((x.length_le_offset_iff (Nat.succ_pos i)).mpr hcount)
    rw [if_pos ⟨rfl, hcount⟩, heq]
    exact ⟨Transfer.deliver hcontent, fun hlt => by omega, fun _ _ => rfl⟩
  · have hno : (whole && i + 1 == x.count) = false := by
      cases whole with
      | false => rfl
      | true =>
        have : ¬ x.count ≤ i + 1 := fun hc => hlast ⟨rfl, hc⟩
        simp
        omega
    rw [if_neg hlast, hno]
    exact ⟨rfl, fun _ => rfl, fun hw heq => absurd ⟨hw, Nat.le_of_eq heq.symm⟩ hlast⟩

/-- The rest of a transfer, from chunk `i` on. -/
theorem Transfer.Partial.outputs {x : Transfer setup f t} (n : ℕ) {i : ℕ} {whole : Bool}
    {r : Reassembly} (h : x.Partial i whole r) (hi : 0 < i) (hn : i + n = x.count) :
    ((Pair.machine setup).outputs (some r)
        (((List.range' i n).filter x.received).map x.call)).map seen =
      ((List.range' i n).filter x.received).map
        (x.answer (whole && (List.range' i n).all x.received)) := by
  induction n generalizing i whole r with
  | zero => rfl
  | succ n ih =>
    rw [List.range'_succ, List.all_cons]
    cases hrec : x.received i with
    | true =>
      obtain ⟨r', hpart, hadvance⟩ := h.advance hi (by omega)
      obtain ⟨hanswer, hstate, -⟩ := hpart.machine_step hf ht hown (by omega) hadvance
      rw [List.filter_cons_of_pos hrec, List.map_cons, List.map_cons, Machine.outputs_cons,
        List.map_cons, hanswer, Bool.true_and]
      by_cases hlast : i + 1 = x.count
      · -- the last chunk
        obtain rfl : n = 0 := by omega
        simp [hlast]
      · rw [hstate (by omega), ih hpart (Nat.succ_pos i) (by omega)]
        have hne : (i + 1 == x.count) = false := by simpa using hlast
        unfold Transfer.answer
        simp [hne]
    | false =>
      rw [List.filter_cons_of_neg (by simp [hrec]), Bool.false_and, Bool.and_false]
      rw [ih (h.lost hi (by omega)) (Nat.succ_pos i) (by omega), Bool.false_and]

/-- **A pair answers the calls of a transfer as it should**, whatever message was in
progress before. -/
theorem Pair.machine_outputs_transfer (s : Option Reassembly) :
    ((Pair.machine setup).outputs s x.calls).map seen = x.answers := by
  have hpos : 0 < x.count := chunksCount_pos x.chunkLength x.msg.length
  obtain ⟨n, hn⟩ : ∃ n, x.count = 1 + n := ⟨x.count - 1, by omega⟩
  have hrange : List.range x.count = 0 :: List.range' 1 n := by
    rw [hn, Nat.add_comm, List.range_eq_range', List.range'_succ]
  have hrec : x.received 0 = true := rfl
  obtain ⟨r', hpart, hadvance⟩ := x.advance_first hf ht s
  obtain ⟨hanswer, hstate, -⟩ := hpart.machine_step hf ht hown hpos hadvance
  rw [Transfer.answers, Transfer.complete, x.length_chunks, x.calls_eq, hrange,
    List.filter_cons_of_pos hrec, List.map_cons, List.map_cons, Machine.outputs_cons,
    List.map_cons, hanswer, List.all_cons, hrec, Bool.true_and]
  by_cases hone : 0 + 1 = x.count
  · obtain rfl : n = 0 := by omega
    simp [hone]
  · rw [hstate (by omega), hpart.outputs hf ht hown n Nat.one_pos hn.symm]
    have hne : (0 + 1 == x.count) = false := by simpa using hone
    unfold Transfer.answer
    simp [hne]

/-- And so it answers one transfer after the other. -/
theorem Pair.machine_outputs_transfers (xs : List (Transfer setup f t)) (s : Option Reassembly) :
    ((Pair.machine setup).outputs s (xs.flatMap Transfer.calls)).map seen =
      xs.flatMap Transfer.answers := by
  induction xs generalizing s with
  | nil => rfl
  | cons x xs ih =>
    rw [List.flatMap_cons, List.flatMap_cons, Machine.outputs_append, List.map_append, ih,
      Pair.machine_outputs_transfer x hf ht hown]

end Outputs

end Run

/-! ### A receiver and many transfers -/

/-- A slot for a pair stays a slot for it. -/
theorem Ctx.Room.step {ctx : Ctx} (h : Inv ctx) {call : Call}
    (hroom : ctx.Room (channelSig call.chunk.id)) :
    (receiver.step ctx call).1.Room (channelSig call.chunk.id) := by
  have hspec := receiver_step_spec h call
  obtain ⟨i, hi, hf⟩ := hroom
  exact ⟨i, by rw [hspec.length_rx]; exact hi, fun hf' => hf (hspec.taken i hf')⟩

/-- The messages among the answers to a transfer. -/
theorem Transfer.filterMap_answers {setup : Setup} {f t : UInt16} (x : Transfer setup f t)
    (hwants : ∀ i, (x.api i).wantsMessage = true) :
    x.answers.filterMap Prod.snd = if x.complete then [x.msg.content] else [] := by
  have hpos : 0 < x.count := chunksCount_pos x.chunkLength x.msg.length
  obtain ⟨n, hn⟩ : ∃ n, x.count = n + 1 := ⟨x.count - 1, by omega⟩
  have hanswer : ∀ all i, (x.answer all i).2 =
      if all && i + 1 == x.count then some x.msg.content else none := by
    intro all i
    simp only [Transfer.answer, x.length_chunks, hwants i, Bool.and_true]
  rw [Transfer.answers, x.length_chunks, List.filterMap_map]
  cases hcomplete : x.complete with
  | false =>
    have hnone : ∀ i ∈ (List.range x.count).filter x.received,
        (Prod.snd ∘ x.answer false) i = none := fun i _ => hanswer false i
    rw [List.filterMap_eq_nil_iff.mpr hnone]
    rfl
  | true =>
    have hall : (List.range x.count).filter x.received = List.range x.count := by
      rw [Transfer.complete, x.length_chunks, List.all_eq_true] at hcomplete
      exact List.filter_eq_self.mpr hcomplete
    have hinit : (List.range n).filterMap (Prod.snd ∘ x.answer true) = [] := by
      refine List.filterMap_eq_nil_iff.mpr fun i hi => ?_
      have hlt : i < n := List.mem_range.mp hi
      have hne : (i + 1 == x.count) = false := by simp; omega
      rw [Function.comp_apply, hanswer, hne, Bool.and_false]
      rfl
    have hlast : (x.answer true n).2 = some x.msg.content := by
      rw [hanswer, hn]
      simp
    rw [hall, hn, List.range_succ, List.filterMap_append, hinit]
    simp [hlast]

/-- **A receiver answers the calls of transfers as it should**, if it takes the
messages of their pair and has a slot for it. -/
theorem receiver_answers {ctx : Ctx} (h : Inv ctx) {f t : UInt16}
    (hf : addressValid f = true) (ht : addressValid t = true)
    (hown : ctx.monitoring = true ∨ ctx.ownAddress = t) (hroom : ctx.Room (pairSig f t))
    (xs : List (Transfer ctx.setup f t)) :
    (receiver.outputs ctx (xs.flatMap Transfer.calls)).map (fun r => seen r.answer) =
      xs.flatMap Transfer.answers := by
  have hsplits := receiver_splits ctx.setup (fun c => c.Room (pairSig f t))
    (fun call => channelSig call.chunk.id = pairSig f t)
    (fun c call hinv _ hR hJ => by rw [← hJ] at hR ⊢; exact hR.step hinv)
    (fun c call _ _ hR hJ _ => by rw [hJ]; exact hR)
  have hsig : ∀ call ∈ xs.flatMap Transfer.calls, channelSig call.chunk.id = pairSig f t := by
    intro call hcall
    obtain ⟨x, -, hx⟩ := List.mem_flatMap.mp hcall
    rw [x.calls_eq] at hx
    obtain ⟨i, -, rfl⟩ := List.mem_map.mp hx
    obtain ⟨hfrom, hto⟩ := x.pair_call hf ht i
    rw [channelSig, hfrom, hto, pairSig]
  have houtputs := hsplits.outputs_of_forall (s := ctx) ⟨h, rfl, hroom⟩ hsig hsig
  have hmap := congrArg (List.map seen) houtputs
  rw [List.map_map, Pair.machine_outputs_transfers hf ht hown] at hmap
  exact hmap

/-- **Delivery under loss.**  A receiver that takes the messages of a pair and has a
slot for it answers each chunk of their transfers with success, and delivers, with
the last chunk, each message all of whose chunks arrive, as it was sent; so if the
callers want the messages, those are delivered, in order, and no others. -/
theorem receiver_delivers {ctx : Ctx} (h : ctx.Reachable) {f t : UInt16}
    (hf : addressValid f = true) (ht : addressValid t = true)
    (hown : ctx.monitoring = true ∨ ctx.ownAddress = t) (hroom : ctx.Room (pairSig f t))
    (xs : List (Transfer ctx.setup f t)) :
    (receiver.outputs ctx (xs.flatMap Transfer.calls)).map (fun r => seen r.answer) =
        xs.flatMap Transfer.answers ∧
      ((∀ x ∈ xs, ∀ i, (x.api i).wantsMessage = true) →
        ((receiver.outputs ctx (xs.flatMap Transfer.calls)).filterMap Reply.message).map
            Msg.content =
          (xs.filter Transfer.complete).map fun x => x.msg.content) := by
  have hanswers := receiver_answers h.inv hf ht hown hroom xs
  refine ⟨hanswers, fun hwants => ?_⟩
  have hmessages : ((receiver.outputs ctx (xs.flatMap Transfer.calls)).filterMap
      Reply.message).map Msg.content = (xs.flatMap Transfer.answers).filterMap Prod.snd := by
    rw [← hanswers, List.filterMap_map, List.map_filterMap]
    rfl
  rw [hmessages]
  clear hanswers hmessages
  induction xs with
  | nil => rfl
  | cons x xs ih =>
    rw [List.flatMap_cons, List.filterMap_append,
      ih fun y hy => hwants y (List.mem_cons_of_mem x hy),
      x.filterMap_answers (hwants x List.mem_cons_self)]
    cases hcomplete : x.complete <;> simp [hcomplete]

/-- A transfer of the message in chunks of six bytes to a context without a limit. -/
def smallTransfer (messageId : UInt16) (h : messageId ≠ errorId) (arrives : ℕ → Bool) :
    Transfer Ctx.monitor.setup 1 2 where
  msg := smallMsg messageId
  maxChunkLength := 6
  arrives := arrives
  api := fun _ => .addChunkView true true
  alloc := fun _ => .ample
  addressFrom := rfl
  addressTo := rfl
  messageId := h
  priority := show (7 : UInt8) ≤ priorityMinimal by decide
  hasData := Nat.le_refl 2
  chunkLength := by decide
  fits := fun h => absurd h (by decide)
  serves := fun _ => ⟨fun _ => rfl, fun _ h => absurd h (by simp)⟩

/-- Of two messages, the one with a lost chunk is not delivered. -/
theorem receiver_delivers_monitor :
    ((receiver.outputs Ctx.monitor
        ([smallTransfer 5 (by decide) (fun _ => false),
          smallTransfer 6 (by decide) (fun _ => true)].flatMap Transfer.calls)).filterMap
        Reply.message).map Msg.content = [(smallMsg 6).content] :=
  ((receiver_delivers Ctx.monitor_initial.reachable (by decide) (by decide) (Or.inl rfl) (by decide)
    _).2 fun x hx i => by
      rcases List.mem_cons.mp hx with rfl | hx
      · rfl
      · rw [List.mem_singleton.mp hx]
        rfl).trans (by decide)

end Protoplexer
end UniCan
