import UniCan.Foundation.Bits
import UniCan.Message

/-!
# J1939 identifiers

A J1939 frame says in its 29-bit identifier how urgent it is, what it is about (its
parameter group number), and who sends it.  If the format byte of the number is below
240 the frame has a destination, in the byte that belongs to the number otherwise.

## Main definitions

* `pgnGetPriority`, `pgnGetPgnnumber`, … , `pgnCreate` — the codec of the identifier.
* `pgnCreateFromArray`, `pgnCreateToArray` — the codec of a number in a payload.
* `pgnReplaceAddr`, `pgnReplaceDstaddr` — changing one address of an identifier.
* `Agrees` — what the codecs should have in common.

## Main results

* `toNat_pgnCreate` — the identifier as a sum of its fields.
* `pgn_codecs_agree_iff` — **the codecs agree exactly on the numbers of 17 bits**; the
  arrays keep 18.
-/

namespace UniCan
namespace J1939

/-! ### Constants -/

/-- `UNI_CAN_J1939_MASK_PRIORITY`. -/
def maskPriority : UInt32 := 0x1C000000

/-- `UNI_CAN_J1939_MASK_DATAPAGE`. -/
def maskDatapage : UInt32 := 0x01000000

/-- `UNI_CAN_J1939_MASK_PDU_FORMAT`. -/
def maskPduFormat : UInt32 := 0x00FF0000

/-- `UNI_CAN_J1939_MASK_PDU_SPECIFIC`. -/
def maskPduSpecific : UInt32 := 0x0000FF00

/-- `UNI_CAN_J1939_MASK_ADDR_SRC`. -/
def maskAddrSrc : UInt32 := 0x000000FF

/-- `UNI_CAN_J1939_POS_PRIORITY`. -/
def posPriority : UInt32 := 26

/-- `UNI_CAN_J1939_POS_DATAPAGE`. -/
def posDatapage : UInt32 := 24

/-- `UNI_CAN_J1939_POS_PDU_FORMAT`. -/
def posPduFormat : UInt32 := 16

/-- `UNI_CAN_J1939_POS_PDU_SPECIFIC`. -/
def posPduSpecific : UInt32 := 8

/-- `UNI_CAN_J1939_POS_PGN_NUMBER`. -/
def posPgnNumber : UInt32 := 8

/-- `UNI_CAN_J1939_POS_ADDR_SRC`. -/
def posAddrSrc : UInt32 := 0

/-- `EXT_PDU_FORMAT`. -/
def extPduFormat : UInt8 := 240

/-! ### The codec of the identifier -/

/-- `uni_can_j1939_pgn_get_priority`. -/
def pgnGetPriority (canId : UInt32) : UInt8 := ((canId &&& maskPriority) >>> posPriority).toUInt8

/-- `uni_can_j1939_pgn_get_datapage`. -/
def pgnGetDatapage (canId : UInt32) : UInt8 := ((canId &&& maskDatapage) >>> posDatapage).toUInt8

/-- `uni_can_j1939_pgn_get_pduformat`. -/
def pgnGetPduformat (canId : UInt32) : UInt8 :=
  ((canId &&& maskPduFormat) >>> posPduFormat).toUInt8

/-- `uni_can_j1939_pgn_get_pduspecific`. -/
def pgnGetPduspecific (canId : UInt32) : UInt8 :=
  ((canId &&& maskPduSpecific) >>> posPduSpecific).toUInt8

/-- `uni_can_j1939_pgn_get_sourceaddr`. -/
def pgnGetSourceaddr (canId : UInt32) : UInt8 := ((canId &&& maskAddrSrc) >>> posAddrSrc).toUInt8

/-- `uni_can_j1939_pgn_contains_dstaddr`. -/
def pgnContainsDstaddr (canId : UInt32) : Bool := pgnGetPduformat canId < extPduFormat

/-- `uni_can_j1939_pgn_get_pgnnumber_mask`. -/
def pgnGetPgnnumberMask (canId : UInt32) : UInt32 :=
  if pgnContainsDstaddr canId then maskDatapage ||| maskPduFormat
  else maskDatapage ||| maskPduFormat ||| maskPduSpecific

/-- `uni_can_j1939_pgn_get_pgnnumber`. -/
def pgnGetPgnnumber (canId : UInt32) : UInt32 :=
  (canId &&& pgnGetPgnnumberMask canId) >>> posPgnNumber

/-- `uni_can_j1939_pgn_create_3`. -/
def pgnCreate3 (pgnNumber : UInt32) : UInt32 :=
  (pgnNumber <<< posPgnNumber) &&& pgnGetPgnnumberMask (pgnNumber <<< posPgnNumber)

/-- `uni_can_j1939_pgn_create_2`. -/
def pgnCreate2 (pgnNumber pduSpecific : UInt32) : UInt32 :=
  let result := pgnCreate3 pgnNumber
  if pgnContainsDstaddr result then result ||| ((pduSpecific &&& 0xFF) <<< posPduSpecific)
  else result

/-- `uni_can_j1939_pgn_create`. -/
def pgnCreate (priority : UInt8) (pgnNumber : UInt32) (pduSpecific sourceAddr : UInt8) : UInt32 :=
  let result : UInt32 := 0
  let result := result ||| ((priority.toUInt32 <<< posPriority) &&& maskPriority)
  let result := result ||| pgnCreate2 pgnNumber pduSpecific.toUInt32
  result ||| ((sourceAddr.toUInt32 <<< posAddrSrc) &&& maskAddrSrc)

/-- `uni_can_j1939_pgn_replace_addr`. -/
def pgnReplaceAddr (canId : UInt32) (srcAddr : UInt8) : UInt32 :=
  (canId &&& ~~~maskAddrSrc) ||| (srcAddr.toUInt32 &&& maskAddrSrc)

/-- `uni_can_j1939_pgn_replace_dstaddr`. -/
def pgnReplaceDstaddr (canId : UInt32) (dstAddr : UInt8) : UInt32 :=
  if pgnContainsDstaddr canId then
    (canId &&& ~~~maskPduSpecific) |||
      ((dstAddr.toUInt32 <<< posPduSpecific) &&& maskPduSpecific)
  else canId

/-! ### The codec of a number in a payload -/

/-- `uni_can_j1939_pgn_create_from_array`; `none` is a null pointer. -/
def pgnCreateFromArray (data : Option (Vector UInt8 3)) : UInt32 :=
  match data with
  | none => 0
  | some data =>
      let pgn : UInt32 := 0
      let pgn := pgn ||| (data[0].toUInt32 <<< 0)
      let pgn := pgn ||| (data[1].toUInt32 <<< 8)
      pgn ||| (data[2].toUInt32 <<< 16)

/-- `uni_can_j1939_pgn_create_to_array`: what the array holds after the call. -/
def pgnCreateToArray (pgn : UInt32) (data : Option (Vector UInt8 3)) : Option (Vector UInt8 3) :=
  data.map fun data =>
    let data := data.set 0 ((pgn >>> 0) &&& 0xFF).toUInt8
    let data := data.set 1 ((pgn >>> 8) &&& 0xFF).toUInt8
    data.set 2 ((pgn >>> 16) &&& 0x03).toUInt8

/-! ### The fields as numbers -/

theorem toNat_pgnGetPriority (canId : UInt32) :
    (pgnGetPriority canId).toNat = canId.toNat / 2 ^ 26 % 2 ^ 3 := by
  rw [pgnGetPriority, UInt32.toNat_toUInt8, toNat_field_down 26 3 rfl rfl (by decide)]
  exact Nat.mod_eq_of_lt (by omega)

theorem toNat_pgnGetDatapage (canId : UInt32) :
    (pgnGetDatapage canId).toNat = canId.toNat / 2 ^ 24 % 2 ^ 1 := by
  rw [pgnGetDatapage, UInt32.toNat_toUInt8, toNat_field_down 24 1 rfl rfl (by decide)]
  exact Nat.mod_eq_of_lt (by omega)

theorem toNat_pgnGetPduformat (canId : UInt32) :
    (pgnGetPduformat canId).toNat = canId.toNat / 2 ^ 16 % 2 ^ 8 := by
  rw [pgnGetPduformat, UInt32.toNat_toUInt8, toNat_field_down 16 8 rfl rfl (by decide)]
  exact Nat.mod_eq_of_lt (by omega)

theorem toNat_pgnGetPduspecific (canId : UInt32) :
    (pgnGetPduspecific canId).toNat = canId.toNat / 2 ^ 8 % 2 ^ 8 := by
  rw [pgnGetPduspecific, UInt32.toNat_toUInt8, toNat_field_down 8 8 rfl rfl (by decide)]
  exact Nat.mod_eq_of_lt (by omega)

theorem toNat_pgnGetSourceaddr (canId : UInt32) :
    (pgnGetSourceaddr canId).toNat = canId.toNat % 2 ^ 8 := by
  rw [pgnGetSourceaddr, UInt32.toNat_toUInt8, toNat_field_down 0 8 rfl rfl (by decide),
    Nat.pow_zero, Nat.div_one]
  exact Nat.mod_eq_of_lt (by omega)

theorem pgnContainsDstaddr_iff (canId : UInt32) :
    pgnContainsDstaddr canId = true ↔ canId.toNat / 2 ^ 16 % 2 ^ 8 < 240 := by
  rw [pgnContainsDstaddr, decide_eq_true_eq, UInt8.lt_iff_toNat_lt, toNat_pgnGetPduformat]
  rfl

/-- The bits of a word that belong to the number. -/
theorem toNat_and_pgnnumberMask (canId : UInt32) :
    (canId &&& pgnGetPgnnumberMask canId).toNat =
      if canId.toNat / 2 ^ 16 % 2 ^ 8 < 240 then canId.toNat / 2 ^ 16 % 2 ^ 9 * 2 ^ 16
      else canId.toNat / 2 ^ 8 % 2 ^ 17 * 2 ^ 8 := by
  rw [pgnGetPgnnumberMask]
  by_cases hdst : canId.toNat / 2 ^ 16 % 2 ^ 8 < 240
  · rw [if_pos ((pgnContainsDstaddr_iff canId).mpr hdst), if_pos hdst]
    exact toNat_and_field 16 9 rfl
  · rw [if_neg fun h => hdst ((pgnContainsDstaddr_iff canId).mp h), if_neg hdst]
    exact toNat_and_field 8 17 rfl

theorem toNat_pgnGetPgnnumber (canId : UInt32) :
    (pgnGetPgnnumber canId).toNat =
      if canId.toNat / 2 ^ 16 % 2 ^ 8 < 240 then canId.toNat / 2 ^ 16 % 2 ^ 9 * 2 ^ 8
      else canId.toNat / 2 ^ 8 % 2 ^ 17 := by
  have hpos : posPgnNumber.toNat % 32 = 8 := rfl
  rw [pgnGetPgnnumber, UInt32.toNat_shiftRight, hpos, toNat_and_pgnnumberMask,
    Nat.shiftRight_eq_div_pow]
  split_ifs <;> omega

/-- The number, at its place in an identifier; its lowest byte gives way to the
destination if there is one. -/
theorem toNat_pgnCreate3 (pgnNumber : UInt32) :
    (pgnCreate3 pgnNumber).toNat =
      if pgnNumber.toNat / 2 ^ 8 % 2 ^ 8 < 240 then pgnNumber.toNat / 2 ^ 8 % 2 ^ 9 * 2 ^ 16
      else pgnNumber.toNat % 2 ^ 17 * 2 ^ 8 := by
  have hpos : posPgnNumber.toNat % 32 = 8 := rfl
  have hshift : (pgnNumber <<< posPgnNumber).toNat = pgnNumber.toNat * 2 ^ 8 % 2 ^ 32 := by
    rw [UInt32.toNat_shiftLeft, hpos, Nat.shiftLeft_eq]
  have hformat : pgnNumber.toNat * 2 ^ 8 % 2 ^ 32 / 2 ^ 16 % 2 ^ 8 =
      pgnNumber.toNat / 2 ^ 8 % 2 ^ 8 := by omega
  rw [pgnCreate3, toNat_and_pgnnumberMask, hshift, hformat]
  split_ifs <;> omega

theorem toNat_pgnCreate2 (pgnNumber : UInt32) (pduSpecific : UInt8) :
    (pgnCreate2 pgnNumber pduSpecific.toUInt32).toNat =
      if pgnNumber.toNat / 2 ^ 8 % 2 ^ 8 < 240
      then pgnNumber.toNat / 2 ^ 8 % 2 ^ 9 * 2 ^ 16 + pduSpecific.toNat * 2 ^ 8
      else pgnNumber.toNat % 2 ^ 17 * 2 ^ 8 := by
  have hps := pduSpecific.toNat_lt
  have hmask : (pduSpecific.toUInt32 &&& 0xFF).toNat = pduSpecific.toNat := by
    rw [toNat_and_mask 8 rfl, UInt8.toNat_toUInt32, Nat.mod_eq_of_lt hps]
  have hspecific : ((pduSpecific.toUInt32 &&& 0xFF) <<< posPduSpecific).toNat =
      pduSpecific.toNat * 2 ^ 8 := by
    rw [toNat_shiftLeft_of_lt 8 rfl (by decide) (by omega), hmask]
  have hthree := toNat_pgnCreate3 pgnNumber
  simp only [pgnCreate2]
  by_cases hdst : pgnNumber.toNat / 2 ^ 8 % 2 ^ 8 < 240
  · rw [if_pos hdst] at hthree ⊢
    rw [if_pos ((pgnContainsDstaddr_iff _).mpr (by rw [hthree]; omega)),
      toNat_or_of_disjoint 16 (by omega) (by omega), hthree, hspecific]
  · rw [if_neg hdst] at hthree ⊢
    rw [if_neg fun h => absurd ((pgnContainsDstaddr_iff _).mp h) (by rw [hthree]; omega), hthree]

/-- **The identifier as a sum of its fields.** -/
theorem toNat_pgnCreate (priority : UInt8) (pgnNumber : UInt32) (pduSpecific sourceAddr : UInt8) :
    (pgnCreate priority pgnNumber pduSpecific sourceAddr).toNat =
      priority.toNat % 2 ^ 3 * 2 ^ 26 +
        (if pgnNumber.toNat / 2 ^ 8 % 2 ^ 8 < 240
          then pgnNumber.toNat / 2 ^ 8 % 2 ^ 9 * 2 ^ 16 + pduSpecific.toNat * 2 ^ 8
          else pgnNumber.toNat % 2 ^ 17 * 2 ^ 8) + sourceAddr.toNat := by
  have hps := pduSpecific.toNat_lt
  have hsa := sourceAddr.toNat_lt
  have hpr := priority.toNat_lt
  have htwo := toNat_pgnCreate2 pgnNumber pduSpecific
  have hpos : posPriority.toNat % 32 = 26 := rfl
  have hprio : ((priority.toUInt32 <<< posPriority) &&& maskPriority).toNat =
      priority.toNat % 2 ^ 3 * 2 ^ 26 := by
    rw [toNat_and_field 26 3 rfl, UInt32.toNat_shiftLeft, hpos, UInt8.toNat_toUInt32,
      Nat.shiftLeft_eq]
    omega
  have hsrc : ((sourceAddr.toUInt32 <<< posAddrSrc) &&& maskAddrSrc).toNat =
      sourceAddr.toNat := by
    rw [toNat_and_mask 8 rfl, toNat_shiftLeft_of_lt 0 rfl (by decide) (by simp; omega),
      UInt8.toNat_toUInt32]
    omega
  have hlt : (pgnCreate2 pgnNumber pduSpecific.toUInt32).toNat < 2 ^ 26 := by
    rw [htwo]
    split_ifs <;> omega
  have hdvd : 2 ^ 8 ∣ (pgnCreate2 pgnNumber pduSpecific.toUInt32).toNat := by
    rw [htwo]
    split_ifs <;> omega
  have hhigh := toNat_or_of_disjoint (x := (priority.toUInt32 <<< posPriority) &&& maskPriority)
    (y := pgnCreate2 pgnNumber pduSpecific.toUInt32) 26 (by omega) hlt
  simp only [pgnCreate, UInt32.zero_or]
  rw [toNat_or_of_disjoint 8 (by omega) (by omega), hhigh, hprio, hsrc, htwo]

/-! ### Changing an address -/

theorem toNat_pgnReplaceAddr (canId : UInt32) (srcAddr : UInt8) :
    (pgnReplaceAddr canId srcAddr).toNat = canId.toNat / 2 ^ 8 * 2 ^ 8 + srcAddr.toNat := by
  have hid := canId.toNat_lt
  have hsa := srcAddr.toNat_lt
  have hkeep : (canId &&& ~~~maskAddrSrc).toNat = canId.toNat / 2 ^ 8 * 2 ^ 8 := by
    rw [toNat_and_field 8 24 rfl]
    omega
  have hsrc : (srcAddr.toUInt32 &&& maskAddrSrc).toNat = srcAddr.toNat := by
    rw [toNat_and_mask 8 rfl, UInt8.toNat_toUInt32, Nat.mod_eq_of_lt hsa]
  rw [pgnReplaceAddr, toNat_or_of_disjoint 8 (by omega) (by omega), hkeep, hsrc]

theorem toNat_pgnReplaceDstaddr {canId : UInt32} (hdst : pgnContainsDstaddr canId = true)
    (dstAddr : UInt8) : (pgnReplaceDstaddr canId dstAddr).toNat =
      canId.toNat / 2 ^ 16 * 2 ^ 16 + dstAddr.toNat * 2 ^ 8 + canId.toNat % 2 ^ 8 := by
  have hid := canId.toNat_lt
  have hda := dstAddr.toNat_lt
  -- what is kept lies on both sides of the destination
  have hmask : ~~~maskPduSpecific = (0xFFFF0000 : UInt32) ||| 0xFF := rfl
  have hsplit : canId &&& ((0xFFFF0000 : UInt32) ||| 0xFF) =
      (canId &&& 0xFFFF0000) ||| (canId &&& 0xFF) := by
    rw [← UInt32.toNat_inj, UInt32.toNat_and, UInt32.toNat_or, Nat.and_or_distrib_left,
      UInt32.toNat_or, UInt32.toNat_and, UInt32.toNat_and]
  have hhigh : (canId &&& 0xFFFF0000).toNat = canId.toNat / 2 ^ 16 * 2 ^ 16 := by
    rw [toNat_and_field 16 16 rfl]
    omega
  have hlow : (canId &&& 0xFF).toNat = canId.toNat % 2 ^ 8 := toNat_and_mask 8 rfl
  have hspecific : ((dstAddr.toUInt32 <<< posPduSpecific) &&& maskPduSpecific).toNat =
      dstAddr.toNat * 2 ^ 8 := by
    rw [toNat_and_field 8 8 rfl, toNat_shiftLeft_of_lt 8 rfl (by decide) (by simp; omega),
      UInt8.toNat_toUInt32]
    omega
  have hmid := toNat_or_of_disjoint (x := canId &&& 0xFFFF0000)
    (y := (dstAddr.toUInt32 <<< posPduSpecific) &&& maskPduSpecific) 16 (by omega) (by omega)
  rw [pgnReplaceDstaddr, if_pos hdst, hmask, hsplit, UInt32.or_assoc,
    UInt32.or_comm (canId &&& 0xFF), ← UInt32.or_assoc,
    toNat_or_of_disjoint 8 (by omega) (by omega), hmid, hhigh, hspecific, hlow]

/-! ### The codecs together -/

/-- What an identifier says. -/
structure Decoded where
  priority : UInt8
  datapage : UInt8
  pduFormat : UInt8
  pduSpecific : UInt8
  sourceAddr : UInt8
  pgnNumber : UInt32
  deriving DecidableEq

/-- All fields of an identifier, as the functions of the library read them. -/
def decode (canId : UInt32) : Decoded where
  priority := pgnGetPriority canId
  datapage := pgnGetDatapage canId
  pduFormat := pgnGetPduformat canId
  pduSpecific := pgnGetPduspecific canId
  sourceAddr := pgnGetSourceaddr canId
  pgnNumber := pgnGetPgnnumber canId

/-- The codecs agree on an identifier made of these fields: it is decoded to what it was
made of, it is the identifier its decoded fields make, and replacing an address changes
nothing else. -/
structure Agrees (priority : UInt8) (pgnNumber : UInt32) (pduSpecific sourceAddr : UInt8)
    (canId : UInt32) : Prop where
  getPriority : pgnGetPriority canId = priority
  getPgnnumber : pgnGetPgnnumber canId = pgnNumber
  getSourceaddr : pgnGetSourceaddr canId = sourceAddr
  getPduspecific : pgnNumber.toNat / 2 ^ 8 % 2 ^ 8 < 240 → pgnGetPduspecific canId = pduSpecific
  recreate : pgnCreate (pgnGetPriority canId) (pgnGetPgnnumber canId) (pgnGetPduspecific canId)
    (pgnGetSourceaddr canId) = canId
  replaceAddr : ∀ a, decode (pgnReplaceAddr canId a) = { decode canId with sourceAddr := a }
  replaceDstaddr : ∀ a, decode (pgnReplaceDstaddr canId a) =
    if pgnContainsDstaddr canId then { decode canId with pduSpecific := a } else decode canId

/-- Replacing the source address changes nothing else, in any identifier. -/
theorem decode_pgnReplaceAddr (canId : UInt32) (a : UInt8) :
    decode (pgnReplaceAddr canId a) = { decode canId with sourceAddr := a } := by
  have ha := a.toNat_lt
  have hid := toNat_pgnReplaceAddr canId a
  simp only [decode, Decoded.mk.injEq, ← UInt8.toNat_inj, ← UInt32.toNat_inj,
    toNat_pgnGetPriority, toNat_pgnGetDatapage, toNat_pgnGetPduformat, toNat_pgnGetPduspecific,
    toNat_pgnGetSourceaddr, toNat_pgnGetPgnnumber, hid]
  refine ⟨by omega, by omega, by omega, by omega, by omega, ?_⟩
  split_ifs <;> omega

/-- Replacing the destination changes nothing else, and nothing at all where there is
none. -/
theorem decode_pgnReplaceDstaddr (canId : UInt32) (a : UInt8) :
    decode (pgnReplaceDstaddr canId a) =
      if pgnContainsDstaddr canId then { decode canId with pduSpecific := a }
      else decode canId := by
  by_cases hdst : pgnContainsDstaddr canId = true
  · have ha := a.toNat_lt
    have hid := toNat_pgnReplaceDstaddr hdst a
    have hformat := (pgnContainsDstaddr_iff canId).mp hdst
    rw [if_pos hdst]
    simp only [decode, Decoded.mk.injEq, ← UInt8.toNat_inj, ← UInt32.toNat_inj,
      toNat_pgnGetPriority, toNat_pgnGetDatapage, toNat_pgnGetPduformat, toNat_pgnGetPduspecific,
      toNat_pgnGetSourceaddr, toNat_pgnGetPgnnumber, hid]
    refine ⟨by omega, by omega, by omega, by omega, by omega, ?_⟩
    split_ifs <;> omega
  · rw [if_neg hdst, pgnReplaceDstaddr, if_neg hdst]

/-- The arrays keep 18 bits of a number. -/
theorem pgnCreateFromArray_pgnCreateToArray (pgnNumber : UInt32) (data : Vector UInt8 3) :
    (pgnCreateFromArray (pgnCreateToArray pgnNumber (some data))).toNat =
      pgnNumber.toNat % 2 ^ 18 := by
  have h0 := toNat_byte_back (x := pgnNumber) (k := 0) (m := 0xFF) 0 8 rfl rfl (by decide)
    (by decide) (by decide)
  have h8 := toNat_byte_back (x := pgnNumber) (k := 8) (m := 0xFF) 8 8 rfl rfl (by decide)
    (by decide) (by decide)
  have h16 := toNat_byte_back (x := pgnNumber) (k := 16) (m := 0x03) 16 2 rfl rfl (by decide)
    (by decide) (by decide)
  have hmid := toNat_or_of_disjoint (x := ((pgnNumber >>> 8) &&& 0xFF).toUInt8.toUInt32 <<< 8)
    (y := ((pgnNumber >>> 0) &&& 0xFF).toUInt8.toUInt32 <<< 0) 8 (by omega) (by omega)
  -- the highest byte first, so that each byte is joined to those above it
  have hread : pgnCreateFromArray (pgnCreateToArray pgnNumber (some data)) =
      (((pgnNumber >>> 16) &&& 0x03).toUInt8.toUInt32 <<< 16) |||
        ((((pgnNumber >>> 8) &&& 0xFF).toUInt8.toUInt32 <<< 8) |||
          (((pgnNumber >>> 0) &&& 0xFF).toUInt8.toUInt32 <<< 0)) := by
    rw [UInt32.or_comm, UInt32.or_comm (((pgnNumber >>> 8) &&& 0xFF).toUInt8.toUInt32 <<< 8)]
    simp only [pgnCreateToArray, Option.map_some, pgnCreateFromArray, UInt32.zero_or]
    rw [Vector.getElem_set_self, Vector.getElem_set_ne _ _ (by decide),
      Vector.getElem_set_ne _ _ (by decide), Vector.getElem_set_self,
      Vector.getElem_set_ne _ _ (by decide), Vector.getElem_set_self]
  rw [hread, toNat_or_of_disjoint 16 (by omega) (by omega), hmid, h0, h8, h16]
  omega

/-- **The codecs agree exactly on the numbers of 17 bits.**  For a number the arrays
reproduce, whose lowest byte is zero where the format leaves room for a destination, they
agree if and only if it is below `2 ^ 17`: the identifier has no place for bit 17. -/
theorem pgn_codecs_agree_iff (priority : UInt8) (pgnNumber : UInt32)
    (pduSpecific sourceAddr : UInt8) (data : Vector UInt8 3) (hpriority : priority ≤ 7)
    (harray : pgnCreateFromArray (pgnCreateToArray pgnNumber (some data)) = pgnNumber)
    (hlow : pgnNumber.toNat / 2 ^ 8 % 2 ^ 8 < 240 → pgnNumber.toNat % 2 ^ 8 = 0) :
    Agrees priority pgnNumber pduSpecific sourceAddr
        (pgnCreate priority pgnNumber pduSpecific sourceAddr) ↔
      pgnNumber.toNat < 2 ^ 17 := by
  have h18 := pgnCreateFromArray_pgnCreateToArray pgnNumber data
  rw [harray] at h18
  have h7 : priority.toNat ≤ 7 := UInt8.le_iff_toNat_le.mp hpriority
  have hps := pduSpecific.toNat_lt
  have hsa := sourceAddr.toNat_lt
  have hid := toNat_pgnCreate priority pgnNumber pduSpecific sourceAddr
  set canId := pgnCreate priority pgnNumber pduSpecific sourceAddr
  have hnumber : (pgnGetPgnnumber canId).toNat = pgnNumber.toNat % 2 ^ 17 := by
    rw [toNat_pgnGetPgnnumber, hid]
    split_ifs <;> omega
  constructor
  · intro h
    rw [h.getPgnnumber] at hnumber
    omega
  · intro h17
    have hnum : pgnGetPgnnumber canId = pgnNumber := by
      rw [← UInt32.toNat_inj, hnumber, Nat.mod_eq_of_lt h17]
    have hprio : pgnGetPriority canId = priority := by
      rw [← UInt8.toNat_inj, toNat_pgnGetPriority, hid]
      split_ifs <;> omega
    have hsrc : pgnGetSourceaddr canId = sourceAddr := by
      rw [← UInt8.toNat_inj, toNat_pgnGetSourceaddr, hid]
      split_ifs <;> omega
    have hspec : pgnNumber.toNat / 2 ^ 8 % 2 ^ 8 < 240 →
        pgnGetPduspecific canId = pduSpecific := by
      intro hdst
      rw [← UInt8.toNat_inj, toNat_pgnGetPduspecific, hid, if_pos hdst]
      omega
    refine ⟨hprio, hnum, hsrc, hspec, ?_, decode_pgnReplaceAddr canId,
      decode_pgnReplaceDstaddr canId⟩
    rw [hprio, hnum, hsrc, ← UInt32.toNat_inj, hid, toNat_pgnCreate]
    split_ifs with hdst
    · rw [hspec hdst]
    · rfl

/-- A number of 17 bits, with a destination. -/
theorem pgn_codecs_agree_request :
    Agrees 6 0x0EA00 0x21 0x42 (pgnCreate 6 0x0EA00 0x21 0x42) :=
  (pgn_codecs_agree_iff 6 0x0EA00 0x21 0x42 #v[0, 0, 0] (by decide) (by decide) (by decide)).mpr
    (by decide)

/-- A number the arrays reproduce, and the identifier loses. -/
theorem pgn_codecs_differ :
    ¬ ∀ (priority : UInt8) (pgnNumber : UInt32) (pduSpecific sourceAddr : UInt8)
      (data : Vector UInt8 3), priority ≤ 7 →
      pgnCreateFromArray (pgnCreateToArray pgnNumber (some data)) = pgnNumber →
      (pgnNumber.toNat / 2 ^ 8 % 2 ^ 8 < 240 → pgnNumber.toNat % 2 ^ 8 = 0) →
      Agrees priority pgnNumber pduSpecific sourceAddr
        (pgnCreate priority pgnNumber pduSpecific sourceAddr) := by
  intro h
  have hagrees := h 6 0x20000 0 0 #v[0, 0, 0] (by decide) (by decide) (by decide)
  exact absurd hagrees.getPgnnumber (by decide)

end J1939
end UniCan
