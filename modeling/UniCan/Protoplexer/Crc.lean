import UniCan.Foundation.Lfsr
import UniCan.Foundation.Remainder
import UniCan.Message

/-!
# The ProtoPlexer checksum

A message carries a 16-bit CRC of its data, computed a byte at a time with a
table of 256 words.

## Main definitions

* `crc16tab` — the table.
* `crc16` — the checksum of a buffer.
* `bitsOf` — the bits of a buffer, the most significant one of each byte first.

## Main results

* `crc16_eq_run` — the table does what a check register does bit by bit.
* `crc16_eq_remainder` — **the checksum is a remainder** modulo `X¹⁶ + X¹² + X⁵ + 1`.
* `crc16_ne_of_burst` — **a burst of at most 16 bits is noticed.**
-/

namespace UniCan
namespace Protoplexer

open Polynomial

/-- `uni_can_protoplexer_crc16tab`. -/
def crc16tab : List UInt16 :=
  [0x0000, 0x1021, 0x2042, 0x3063, 0x4084, 0x50a5, 0x60c6, 0x70e7,
   0x8108, 0x9129, 0xa14a, 0xb16b, 0xc18c, 0xd1ad, 0xe1ce, 0xf1ef,
   0x1231, 0x0210, 0x3273, 0x2252, 0x52b5, 0x4294, 0x72f7, 0x62d6,
   0x9339, 0x8318, 0xb37b, 0xa35a, 0xd3bd, 0xc39c, 0xf3ff, 0xe3de,
   0x2462, 0x3443, 0x0420, 0x1401, 0x64e6, 0x74c7, 0x44a4, 0x5485,
   0xa56a, 0xb54b, 0x8528, 0x9509, 0xe5ee, 0xf5cf, 0xc5ac, 0xd58d,
   0x3653, 0x2672, 0x1611, 0x0630, 0x76d7, 0x66f6, 0x5695, 0x46b4,
   0xb75b, 0xa77a, 0x9719, 0x8738, 0xf7df, 0xe7fe, 0xd79d, 0xc7bc,
   0x48c4, 0x58e5, 0x6886, 0x78a7, 0x0840, 0x1861, 0x2802, 0x3823,
   0xc9cc, 0xd9ed, 0xe98e, 0xf9af, 0x8948, 0x9969, 0xa90a, 0xb92b,
   0x5af5, 0x4ad4, 0x7ab7, 0x6a96, 0x1a71, 0x0a50, 0x3a33, 0x2a12,
   0xdbfd, 0xcbdc, 0xfbbf, 0xeb9e, 0x9b79, 0x8b58, 0xbb3b, 0xab1a,
   0x6ca6, 0x7c87, 0x4ce4, 0x5cc5, 0x2c22, 0x3c03, 0x0c60, 0x1c41,
   0xedae, 0xfd8f, 0xcdec, 0xddcd, 0xad2a, 0xbd0b, 0x8d68, 0x9d49,
   0x7e97, 0x6eb6, 0x5ed5, 0x4ef4, 0x3e13, 0x2e32, 0x1e51, 0x0e70,
   0xff9f, 0xefbe, 0xdfdd, 0xcffc, 0xbf1b, 0xaf3a, 0x9f59, 0x8f78,
   0x9188, 0x81a9, 0xb1ca, 0xa1eb, 0xd10c, 0xc12d, 0xf14e, 0xe16f,
   0x1080, 0x00a1, 0x30c2, 0x20e3, 0x5004, 0x4025, 0x7046, 0x6067,
   0x83b9, 0x9398, 0xa3fb, 0xb3da, 0xc33d, 0xd31c, 0xe37f, 0xf35e,
   0x02b1, 0x1290, 0x22f3, 0x32d2, 0x4235, 0x5214, 0x6277, 0x7256,
   0xb5ea, 0xa5cb, 0x95a8, 0x8589, 0xf56e, 0xe54f, 0xd52c, 0xc50d,
   0x34e2, 0x24c3, 0x14a0, 0x0481, 0x7466, 0x6447, 0x5424, 0x4405,
   0xa7db, 0xb7fa, 0x8799, 0x97b8, 0xe75f, 0xf77e, 0xc71d, 0xd73c,
   0x26d3, 0x36f2, 0x0691, 0x16b0, 0x6657, 0x7676, 0x4615, 0x5634,
   0xd94c, 0xc96d, 0xf90e, 0xe92f, 0x99c8, 0x89e9, 0xb98a, 0xa9ab,
   0x5844, 0x4865, 0x7806, 0x6827, 0x18c0, 0x08e1, 0x3882, 0x28a3,
   0xcb7d, 0xdb5c, 0xeb3f, 0xfb1e, 0x8bf9, 0x9bd8, 0xabbb, 0xbb9a,
   0x4a75, 0x5a54, 0x6a37, 0x7a16, 0x0af1, 0x1ad0, 0x2ab3, 0x3a92,
   0xfd2e, 0xed0f, 0xdd6c, 0xcd4d, 0xbdaa, 0xad8b, 0x9de8, 0x8dc9,
   0x7c26, 0x6c07, 0x5c64, 0x4c45, 0x3ca2, 0x2c83, 0x1ce0, 0x0cc1,
   0xef1f, 0xff3e, 0xcf5d, 0xdf7c, 0xaf9b, 0xbfba, 0x8fd9, 0x9ff8,
   0x6e17, 0x7e36, 0x4e55, 0x5e74, 0x2e93, 0x3eb2, 0x0ed1, 0x1ef0]

/-- One round of the loop of `uni_can_protoplexer_crc16`. -/
def crc16Step (retval : UInt16) (byte : UInt8) : UInt16 :=
  ((retval <<< 8) &&& (0xFFFF : UInt16)) ^^^
    crc16tab.getD (((retval >>> 8) ^^^ byte.toUInt16) &&& (0x00FF : UInt16)).toNat 0

/-- `uni_can_protoplexer_crc16`, of the first `len` bytes of a buffer. -/
def crc16 (buf : List UInt8) (len : ℕ) : UInt16 := (buf.take len).foldl crc16Step 0

example : crc16 [0x31, 0x32, 0x33, 0x34, 0x35, 0x36, 0x37, 0x38, 0x39] 9 = 0x31C3 := by decide

/-! ### The table and the register -/

/-- The polynomial of the checksum, without its leading term. -/
def crcPoly : BitVec 16 := 0x1021#16

/-- The bits of a byte, the most significant one first. -/
def byteBits (byte : UInt8) : List Bool := Lfsr.topBits byte.toBitVec 8

/-- The bits of a buffer. -/
def bitsOf (buf : List UInt8) : List Bool := buf.flatMap byteBits

@[simp] theorem length_byteBits (byte : UInt8) : (byteBits byte).length = 8 := by
  simp [byteBits, Lfsr.topBits]

@[simp] theorem length_bitsOf (buf : List UInt8) : (bitsOf buf).length = 8 * buf.length := by
  simp [bitsOf, List.length_flatMap, Nat.mul_comm]

@[simp] theorem bitsOf_cons (byte : UInt8) (buf : List UInt8) :
    bitsOf (byte :: buf) = byteBits byte ++ bitsOf buf := rfl

/-- The entries of the table are eight shifts of their indices. -/
theorem crc16tab_eq : ∀ n < 256, (crc16tab.getD n 0).toBitVec =
    Lfsr.run crcPoly 0#16 (Lfsr.topBits (BitVec.ofNat 8 n) 8) := by
  decide +kernel

theorem crc16tab_getD (byte : UInt8) : (crc16tab.getD byte.toNat 0).toBitVec =
    Lfsr.run crcPoly 0#16 (byteBits byte) := by
  rw [crc16tab_eq byte.toNat byte.toNat_lt, byteBits, ← UInt8.toNat_toBitVec, BitVec.ofNat_toNat,
    BitVec.setWidth_eq]

/-- The index into the table: the byte that falls out of the register, and the byte of
the message. -/
theorem byteBits_index (retval : UInt16) (byte : UInt8) :
    byteBits ((retval >>> 8).toUInt8 ^^^ byte) =
      List.zipWith xor (Lfsr.topBits retval.toBitVec 8) (byteBits byte) := by
  have hshift : (8 : UInt16).toBitVec % 16 = 8 := rfl
  apply List.ext_getElem
  · simp [Lfsr.topBits]
  · intro i hi hi'
    have hlt : i < 8 := by simpa using hi
    have hwide : i < 16 := by omega
    have hlow : 8 - 1 - i < 8 := by omega
    have hsum : 8 + (8 - 1 - i) = 16 - 1 - i := by omega
    simp only [byteBits, Lfsr.topBits, List.getElem_zipWith, List.getElem_map,
      List.getElem_range, UInt8.toBitVec_xor, UInt16.toBitVec_toUInt8, BitVec.getMsbD_xor,
      UInt16.toBitVec_shiftRight, hshift]
    congr 1
    simp [BitVec.getMsbD, hlt, hwide, hlow, hsum]

/-- One round of the loop is eight shifts of the register. -/
theorem crc16Step_eq_run (retval : UInt16) (byte : UInt8) :
    (crc16Step retval byte).toBitVec = Lfsr.run crcPoly retval.toBitVec (byteBits byte) := by
  have hindex : ((retval >>> 8) ^^^ byte.toUInt16) &&& (0x00FF : UInt16) =
      ((retval >>> 8).toUInt8 ^^^ byte).toUInt16 := by
    have hmask : (0x00FF : UInt16).toNat = 2 ^ 8 - 1 := rfl
    rw [← UInt16.toNat_inj, UInt16.toNat_and, hmask, Nat.and_two_pow_sub_one_eq_mod,
      UInt16.toNat_xor, UInt8.toNat_toUInt16, UInt8.toNat_toUInt16, UInt8.toNat_xor,
      UInt16.toNat_toUInt8, Nat.xor_mod_two_pow, Nat.mod_eq_of_lt byte.toNat_lt]
  have hmask : (retval <<< 8) &&& (0xFFFF : UInt16) = retval <<< 8 := UInt16.and_neg_one
  have hshift : (retval <<< 8).toBitVec = retval.toBitVec <<< 8 := rfl
  rw [crc16Step, hindex, hmask, UInt8.toNat_toUInt16, UInt16.toBitVec_xor, crc16tab_getD,
    byteBits_index, hshift, Lfsr.run_eq_table crcPoly (by decide) retval.toBitVec,
    length_byteBits]

/-- **The table does what the register does** bit by bit. -/
theorem crc16_eq_run (buf : List UInt8) (len : ℕ) :
    (crc16 buf len).toBitVec = Lfsr.run crcPoly 0#16 (bitsOf (buf.take len)) := by
  have hloop : ∀ (bytes : List UInt8) (retval : UInt16),
      (bytes.foldl crc16Step retval).toBitVec =
        Lfsr.run crcPoly retval.toBitVec (bitsOf bytes) := by
    intro bytes
    induction bytes with
    | nil => intro retval; rfl
    | cons byte bytes ih =>
      intro retval
      rw [List.foldl_cons, ih, bitsOf_cons, Lfsr.run_append, crc16Step_eq_run]
  exact hloop _ 0

/-! ### The remainder -/

theorem contents_crcPoly : Lfsr.contents crcPoly = (X ^ 12 + X ^ 5 + 1 : (ZMod 2)[X]) := by
  have hbits : ∀ i < 16, Lfsr.bit (crcPoly.getLsbD i) =
      ((if i = 12 then 1 else 0) + if i = 5 then 1 else 0) + if i = 0 then 1 else 0 := by
    decide
  ext i
  rw [Lfsr.coeff_contents, coeff_add, coeff_add, coeff_X_pow, coeff_X_pow, coeff_one]
  by_cases hi : i < 16
  · exact hbits i hi
  · have hlow : crcPoly.getLsbD i = false := BitVec.getLsbD_of_ge crcPoly i (by omega)
    rw [hlow, if_neg (by omega), if_neg (by omega), if_neg (by omega)]
    rfl

theorem generator_crcPoly :
    Lfsr.generator crcPoly = (X ^ 16 + X ^ 12 + X ^ 5 + 1 : (ZMod 2)[X]) := by
  rw [Lfsr.generator, contents_crcPoly, ← add_assoc, ← add_assoc]

/-- **The checksum is what it claims to be**: the register that starts at 0 and takes the
bits of the buffer one by one, and with it the remainder of the buffer's polynomial,
moved up by 16 places. -/
theorem crc16_eq_remainder (buf : List UInt8) (len : ℕ) :
    (crc16 buf len).toBitVec = Lfsr.run 0x1021#16 0#16 (bitsOf (buf.take len)) ∧
      Lfsr.contents (crc16 buf len).toBitVec =
        (Lfsr.messagePoly (bitsOf (buf.take len)) * X ^ 16) %ₘ
          (X ^ 16 + X ^ 12 + X ^ 5 + 1) := by
  have hrun := crc16_eq_run buf len
  refine ⟨hrun, ?_⟩
  rw [hrun, Lfsr.contents_run (by omega), generator_crcPoly, Lfsr.contents_zero, mul_zero,
    zero_add]

/-! ### Bursts -/

/-- **A burst of at most 16 bits is noticed.** -/
theorem crc16_ne_of_burst {buf buf' : List UInt8} {len : ℕ}
    (h : Burst 16 (bitsOf (buf.take len)) (bitsOf (buf'.take len))) :
    crc16 buf len ≠ crc16 buf' len := by
  intro heq
  have hrun := congrArg UInt16.toBitVec heq
  rw [crc16_eq_run, crc16_eq_run] at hrun
  exact Lfsr.run_ne_of_burst (by decide) 0#16 h hrun

end Protoplexer
end UniCan
