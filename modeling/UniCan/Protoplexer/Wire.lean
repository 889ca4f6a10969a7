import Mathlib.Algebra.Order.Floor.Div
import UniCan.Protoplexer.Delivery

/-!
# The ProtoPlexer wire format

What the chunks of a message look like on the bus, said without the functions that
build them: which there are, how long each one is, what its identifier is, and
which bytes they carry together.

## Main definitions

* `leBytes` — a word as two bytes, the low one first.
* `frames` — what `buildChunk` builds for a message, in order.

## Main results

* `leBytes_eq` — how the code splits a word.
* `wire_format` — **the wire format.**
-/

namespace UniCan
namespace Protoplexer

/-- A word as two bytes, the low one first. -/
def leBytes (x : UInt16) : List UInt8 := [UInt8.ofNat (x.toNat % 256), UInt8.ofNat (x.toNat / 256)]

/-- The chunks `buildChunk` builds for a message, in order. -/
def frames (msg : Msg) (m : UInt16) : List CanMessage :=
  (List.range (chunksCount msg.length m)).filterMap fun i => (buildChunk msg m i).toOption

/-- How the code splits a word. -/
theorem leBytes_eq (x : UInt16) :
    leBytes x = [(x &&& 0x00FF).toUInt8, (x >>> 8).toUInt8] := by
  have hlow : (x &&& 0x00FF).toUInt8 = UInt8.ofNat (x.toNat % 256) := by
    have hmask : (0x00FF : UInt16).toNat = 2 ^ 8 - 1 := rfl
    rw [← UInt8.toNat_inj, UInt16.toNat_toUInt8, UInt16.toNat_and, hmask,
      Nat.and_two_pow_sub_one_eq_mod, UInt8.toNat_ofNat']
  have hhigh : (x >>> 8).toUInt8 = UInt8.ofNat (x.toNat / 256) := by
    have hshift : (8 : UInt16).toNat % 16 = 8 := rfl
    rw [← UInt8.toNat_inj, UInt16.toNat_toUInt8, UInt16.toNat_shiftRight, hshift,
      Nat.shiftRight_eq_div_pow, UInt8.toNat_ofNat']
  rw [leBytes, hlow, hhigh]

/-- The stream of a message, in terms of its parts. -/
theorem stream_eq_leBytes (msg : Msg) : stream msg = leBytes msg.messageId ++
    leBytes msg.length ++ leBytes (crc16 (msg.data.getD []) msg.length.toNat) ++ msg.bytes := by
  rw [leBytes_eq, leBytes_eq, leBytes_eq]
  rfl

theorem chunksCount_eq_ceilDiv {m : UInt16} (hm : ChunkLengthOk m) (length : UInt16) :
    chunksCount length m = (headerSize + length.toNat) ⌈/⌉ m.toNat := by
  have h6 : 6 ≤ m.toNat := hm.1
  rw [chunksCount_eq hm, Nat.ceilDiv_eq_add_pred_div, pieceCount]
  congr 1
  omega

/-- Nothing is built for an index that is too large, nor with a chunk length the
protocol does not accept. -/
theorem buildChunk_ne_ok {msg : Msg} {m : UInt16} {i : ℕ} (hi : chunksCount msg.length m ≤ i)
    (chunk : CanMessage) : buildChunk msg m i ≠ .ok chunk := by
  intro h
  unfold buildChunk at h
  by_cases hzero : chunksCount msg.length m = 0
  · simp [hzero] at h
  · simp [hzero, hi] at h

/-- The identifier of a chunk: the one of its message, with a bit for the first. -/
theorem id_chunkAt (msg : Msg) (m : UInt16) (i : ℕ) :
    (chunkAt msg m i).id =
      canidCreate msg.addressFrom msg.addressTo msg.priorityInverted false |||
        (if i = 0 then (1 : UInt32) <<< 24 else 0) := by
  -- the bit may be set before or after the addresses
  have hlast : ∀ a b c d : UInt32, a ||| b ||| c ||| d = a ||| c ||| d ||| b := by
    intro a b c d
    ac_rfl
  rw [chunkAt]
  by_cases hi : i = 0
  · simp only [hi, beq_self_eq_true, if_true, canidCreate, Bool.false_eq_true, if_false]
    exact hlast _ _ _ _
  · have hne : (i == 0) = false := by simpa using hi
    simp only [hne, if_neg hi, UInt32.or_zero]

/-- Behind the bytes in use a chunk is zero. -/
theorem u8_chunkAt_of_le {msg : Msg} {m : UInt16} (hm : ChunkLengthOk m) {i k : ℕ}
    (hk : (chunkAt msg m i).len.toNat ≤ k) : (chunkAt msg m i).u8 k = 0 := by
  rw [toNat_len_chunkAt hm, ← length_piece] at hk
  rw [CanMessage.u8, chunkAt]
  simp only [CanData.ofBytes, Vector.toList_ofFn]
  rw [List.getD_eq_getElem?_getD, List.getElem?_ofFn]
  split
  · simp [List.getElem?_eq_none hk]
  · rfl

theorem frames_eq {msg : Msg} {m : UInt16} (hm : ChunkLengthOk m) (hdata : msg.HasData) :
    frames msg m = (List.range (chunksCount msg.length m)).map (chunkAt msg m) := by
  have hbuild : ∀ i ∈ List.range (chunksCount msg.length m),
      (buildChunk msg m i).toOption = some (chunkAt msg m i) := by
    intro i hi
    rw [buildChunk_eq_ok hm hdata (List.mem_range.mp hi)]
    rfl
  rw [frames, List.filterMap_congr hbuild, List.filterMap_eq_map']

/-- The chunks together carry the stream. -/
theorem flatMap_bytes_frames {msg : Msg} {m : UInt16} (hm : ChunkLengthOk m)
    (hdata : msg.HasData) : (frames msg m).flatMap CanMessage.bytes = stream msg := by
  have h6 : 6 ≤ m.toNat := hm.1
  have hpiece : (fun i => (chunkAt msg m i).bytes) = piece (stream msg) m.toNat :=
    funext fun i => bytes_chunkAt hm i
  rw [frames_eq hm hdata, List.flatMap_map, hpiece, chunksCount_eq hm, ← length_stream hdata,
    flatMap_piece_pieceCount _ (by omega)]

/-- **The wire format.**  For a chunk length of six to eight bytes a message is cut
into `⌈(6 + length) / m⌉` chunks, at least one; `buildChunk` builds exactly those.
All of them but the last are full, and the last is not empty; together they carry the
id, the length and the checksum of the message, low bytes first, and then its data.
Their identifiers differ only in bit 24, which the first one alone has set, and the
bytes a frame does not use are zero.  With any other chunk length nothing is built. -/
theorem wire_format (msg : Msg) (m : UInt16) (hdata : msg.HasData) :
    (∀ i, (∃ chunk, buildChunk msg m i = .ok chunk) ↔
      ChunkLengthOk m ∧ i < chunksCount msg.length m) ∧
    (ChunkLengthOk m →
      chunksCount msg.length m = (6 + msg.length.toNat) ⌈/⌉ m.toNat ∧
      1 ≤ chunksCount msg.length m ∧
      (∀ i chunk, buildChunk msg m i = .ok chunk →
        (i + 1 < chunksCount msg.length m → chunk.len = m) ∧
        (i + 1 = chunksCount msg.length m → 1 ≤ chunk.len ∧ chunk.len ≤ m) ∧
        (∀ k, chunk.len.toNat ≤ k → chunk.u8 k = 0)) ∧
      (∃ id : UInt32, id.toNat.testBit 24 = false ∧ ∀ i chunk, buildChunk msg m i = .ok chunk →
        chunk.id = id ||| (if i = 0 then (1 : UInt32) <<< 24 else 0)) ∧
      (frames msg m).flatMap CanMessage.bytes = leBytes msg.messageId ++ leBytes msg.length ++
        leBytes (crc16 (msg.data.getD []) msg.length.toNat) ++ msg.bytes) := by
  have hnot : ∀ {i chunk}, buildChunk msg m i = .ok chunk → i < chunksCount msg.length m :=
    fun h => Nat.lt_of_not_le fun hle => buildChunk_ne_ok hle _ h
  refine ⟨fun i => ⟨?_, ?_⟩, fun hm => ?_⟩
  · rintro ⟨chunk, h⟩
    refine ⟨?_, hnot h⟩
    by_contra hm
    have hlt := hnot h
    rw [chunksCount_of_not_ok hm] at hlt
    omega
  · rintro ⟨hm, hi⟩
    exact ⟨_, buildChunk_eq_ok hm hdata hi⟩
  have h6 : 6 ≤ m.toNat := hm.1
  have heq : ∀ {i chunk}, buildChunk msg m i = .ok chunk → chunk = chunkAt msg m i := by
    intro i chunk h
    rw [buildChunk_eq_ok hm hdata (hnot h)] at h
    exact (Except.ok.inj h).symm
  refine ⟨chunksCount_eq_ceilDiv hm _, chunksCount_pos hm _, ?_, ?_, ?_⟩
  · intro i chunk h
    have hlen : (chunkAt msg m i).len.toNat = _ := toNat_len_chunkAt hm i
    have hlt := hnot h
    rw [length_stream hdata] at hlen
    rw [chunksCount_eq hm] at hlt ⊢
    have hi := (lt_pieceCount_iff (by omega)).mp hlt
    rw [heq h]
    refine ⟨fun hnext => ?_, fun _ => ?_, fun k hk => u8_chunkAt_of_le hm hk⟩
    · -- another chunk follows, so this one is full
      have hi' := (lt_pieceCount_iff (by omega)).mp hnext
      rw [Nat.succ_mul] at hi'
      rw [← UInt16.toNat_inj, hlen]
      omega
    · rw [UInt16.le_iff_toNat_le, UInt16.le_iff_toNat_le, hlen]
      have hone : (1 : UInt16).toNat = 1 := rfl
      omega
  · refine ⟨canidCreate msg.addressFrom msg.addressTo msg.priorityInverted false, ?_, ?_⟩
    · rw [toNat_canidCreate, Nat.testBit_eq_decide_div_mod_eq]
      simp only [Bool.false_eq_true, if_false, decide_eq_false_iff_not]
      omega
    · intro i chunk h
      rw [heq h, id_chunkAt]
  · rw [flatMap_bytes_frames hm hdata, stream_eq_leBytes]

/-- A message of ten bytes in frames of six: a header, six bytes of data and the other four. -/
theorem wire_format_longMsg :
    chunksCount (longMsg 1 5).length 6 = 3 ∧
      (∀ i, (∃ chunk, buildChunk (longMsg 1 5) 6 i = .ok chunk) ↔ i < 3) ∧
      (∃ id : UInt32, id.toNat.testBit 24 = false ∧
        ∀ i chunk, buildChunk (longMsg 1 5) 6 i = .ok chunk →
          chunk.id = id ||| (if i = 0 then (1 : UInt32) <<< 24 else 0)) ∧
      (frames (longMsg 1 5) 6).map CanMessage.bytes =
        [[0x05, 0x00, 0x0A, 0x00] ++ leBytes (crc16 [1, 2, 3, 4, 5, 6, 7, 8, 9, 10] 10),
          [1, 2, 3, 4, 5, 6], [7, 8, 9, 10]] := by
  obtain ⟨hbuild, hformat⟩ := wire_format (longMsg 1 5) 6 (by decide)
  obtain ⟨-, -, -, hid, -⟩ := hformat (by decide)
  have hcount : chunksCount (longMsg 1 5).length 6 = 3 := by decide
  refine ⟨hcount, fun i => (hbuild i).trans ?_, hid, by decide⟩
  rw [hcount]
  exact and_iff_right (by decide)

end Protoplexer
end UniCan
