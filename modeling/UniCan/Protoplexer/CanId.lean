import UniCan.Foundation.Bits
import UniCan.Message

/-!
# ProtoPlexer identifiers

A ProtoPlexer chunk says in its 29-bit identifier who sends to whom, how urgent
the message is, and whether the chunk is the first of its message.

* `canidCreate`, `canidGetFrom`, `canidGetTo`, `canidGetPriorityInverted`,
  `canidGetIsFirst` — the codec of the identifier.
* `pairOf`, `channelSig` — the pair (from, to) a chunk belongs to, and its number;
  `pairSig` is the number of a given pair.
* `toNat_canidCreate` — the identifier as a sum of its fields.
-/

namespace UniCan
namespace Protoplexer

/-! ### Constants -/

/-- `UNI_CAN_PROTOPLEXER_PRIORITY_MINIMAL`. -/
def priorityMinimal : UInt8 := 0x0F

/-- `UNI_CAN_PROTOPLEXER_PRIORITY_MASK`. -/
def priorityMask : UInt32 := 0x0F

/-- `UNI_CAN_PROTOPLEXER_ADDRESS_MAX`. -/
def addressMax : UInt16 := 0x0FFF

/-- `UNI_CAN_PROTOPLEXER_ADDRESS_MIN`. -/
def addressMin : UInt16 := 0x0001

/-- `UNI_CAN_PROTOPLEXER_ADDRESS_MASK`. -/
def addressMask : UInt32 := 0x0FFF

/-- `UNI_CAN_PROTOPLEXER_ERROR_ID`. -/
def errorId : UInt16 := 0x0000

/-- `UNI_CAN_PROTOPLEXER_HEADER_SIZE`; also the least length of a first chunk and
the offset of the data in it. -/
def headerSize : ℕ := 6

/-! ### The codec -/

/-- `uni_can_protoplexer_canid_create`. -/
def canidCreate (addressFrom addressTo : UInt16) (priorityInverted : UInt8) (isFirst : Bool) :
    UInt32 :=
  let canId : UInt32 := (priorityInverted.toUInt32 &&& 0x0F) <<< 25
  let canId : UInt32 := if isFirst then canId ||| ((1 : UInt32) <<< 24) else canId
  let canId := canId ||| ((addressFrom.toUInt32 &&& 0x0FFF) <<< 12)
  canId ||| (addressTo.toUInt32 &&& 0x0FFF)

/-- `uni_can_protoplexer_canid_get_from`. -/
def canidGetFrom (canId : UInt32) : UInt16 := ((canId >>> 12) &&& addressMask).toUInt16

/-- `uni_can_protoplexer_canid_get_to`. -/
def canidGetTo (canId : UInt32) : UInt16 := (canId &&& addressMask).toUInt16

/-- `uni_can_protoplexer_canid_get_priority_inverted`. -/
def canidGetPriorityInverted (canId : UInt32) : UInt8 :=
  ((canId >>> 25) &&& priorityMask).toUInt8

/-- `uni_can_protoplexer_canid_get_is_first`. -/
def canidGetIsFirst (canId : UInt32) : Bool := ((canId >>> 24) &&& 0x01) == 0x01

/-- `uni_can_protoplexer_address_valid`. -/
def addressValid (address : UInt16) : Bool := address ≥ addressMin && address ≤ addressMax

/-- The pair a chunk belongs to, which its channel signature stands for. -/
def pairOf (canId : UInt32) : UInt16 × UInt16 := (canidGetFrom canId, canidGetTo canId)

/-- The channel signature `uni_can_protoplexer_rx_add_chunk` computes from the
identifier. -/
def channelSig (canId : UInt32) : UInt32 :=
  (canidGetTo canId).toUInt32 ||| ((canidGetFrom canId).toUInt32 <<< 12)

/-- The channel signature of a pair. -/
def pairSig (addressFrom addressTo : UInt16) : UInt32 :=
  addressTo.toUInt32 ||| (addressFrom.toUInt32 <<< 12)

/-! ### The fields as numbers -/

theorem toNat_canidGetFrom (canId : UInt32) :
    (canidGetFrom canId).toNat = canId.toNat / 2 ^ 12 % 2 ^ 12 := by
  rw [canidGetFrom, UInt32.toNat_toUInt16, addressMask,
    toNat_field 12 12 rfl (by decide) rfl]
  exact Nat.mod_eq_of_lt (by omega)

theorem toNat_canidGetTo (canId : UInt32) : (canidGetTo canId).toNat = canId.toNat % 2 ^ 12 := by
  rw [canidGetTo, UInt32.toNat_toUInt16, addressMask, toNat_and_mask 12 rfl]
  exact Nat.mod_eq_of_lt (by omega)

theorem toNat_canidGetPriorityInverted (canId : UInt32) :
    (canidGetPriorityInverted canId).toNat = canId.toNat / 2 ^ 25 % 2 ^ 4 := by
  rw [canidGetPriorityInverted, UInt32.toNat_toUInt8, priorityMask,
    toNat_field 25 4 rfl (by decide) rfl]
  exact Nat.mod_eq_of_lt (by omega)

theorem canidGetIsFirst_iff (canId : UInt32) :
    canidGetIsFirst canId = true ↔ canId.toNat / 2 ^ 24 % 2 ^ 1 = 1 := by
  rw [canidGetIsFirst, beq_iff_eq, ← UInt32.toNat_inj, toNat_field 24 1 rfl (by decide) rfl]
  rfl

/-- The priority a chunk carries is never out of range. -/
theorem canidGetPriorityInverted_le (canId : UInt32) :
    canidGetPriorityInverted canId ≤ priorityMinimal := by
  rw [UInt8.le_iff_toNat_le, toNat_canidGetPriorityInverted]
  show _ ≤ 15
  omega

theorem addressValid_iff (address : UInt16) :
    addressValid address = true ↔ 1 ≤ address.toNat ∧ address.toNat ≤ 4095 := by
  rw [addressValid, Bool.and_eq_true, decide_eq_true_eq, decide_eq_true_eq, ge_iff_le,
    UInt16.le_iff_toNat_le, UInt16.le_iff_toNat_le]
  rfl

/-- The identifier as a sum of its fields. -/
theorem toNat_canidCreate (addressFrom addressTo : UInt16) (priorityInverted : UInt8)
    (isFirst : Bool) :
    (canidCreate addressFrom addressTo priorityInverted isFirst).toNat =
      priorityInverted.toNat % 16 * 2 ^ 25 + (if isFirst then 2 ^ 24 else 0) +
        addressFrom.toNat % 4096 * 2 ^ 12 + addressTo.toNat % 4096 := by
  have hprio : (priorityInverted.toUInt32 &&& 0x0F).toNat = priorityInverted.toNat % 16 :=
    toNat_and_mask 4 rfl
  have hfrom : (addressFrom.toUInt32 &&& 0x0FFF).toNat = addressFrom.toNat % 4096 :=
    toNat_and_mask 12 rfl
  have hto : (addressTo.toUInt32 &&& 0x0FFF).toNat = addressTo.toNat % 4096 :=
    toNat_and_mask 12 rfl
  have h25 : ((priorityInverted.toUInt32 &&& 0x0F) <<< 25).toNat =
      priorityInverted.toNat % 16 * 2 ^ 25 := by
    rw [toNat_shiftLeft_of_lt 25 rfl (by decide) (by omega), hprio]
  have h12 : ((addressFrom.toUInt32 &&& 0x0FFF) <<< 12).toNat =
      addressFrom.toNat % 4096 * 2 ^ 12 := by
    rw [toNat_shiftLeft_of_lt 12 rfl (by decide) (by omega), hfrom]
  have h24 : ((1 : UInt32) <<< 24).toNat = 2 ^ 24 := rfl
  unfold canidCreate
  cases isFirst with
  | false =>
    have hhigh := toNat_or_of_disjoint (x := (priorityInverted.toUInt32 &&& 0x0F) <<< 25)
      (y := (addressFrom.toUInt32 &&& 0x0FFF) <<< 12) 25 (by omega) (by omega)
    simp only [Bool.false_eq_true, if_false, Nat.add_zero]
    rw [toNat_or_of_disjoint 12 (by omega) (by omega), hhigh, h25, h12, hto]
  | true =>
    have hbit := toNat_or_of_disjoint (x := (priorityInverted.toUInt32 &&& 0x0F) <<< 25)
      (y := (1 : UInt32) <<< 24) 25 (by omega) (by omega)
    have hhigh := toNat_or_of_disjoint
      (x := (priorityInverted.toUInt32 &&& 0x0F) <<< 25 ||| (1 : UInt32) <<< 24)
      (y := (addressFrom.toUInt32 &&& 0x0FFF) <<< 12) 24 (by omega) (by omega)
    simp only [if_true]
    rw [toNat_or_of_disjoint 12 (by omega) (by omega), hhigh, hbit, h25, h24, h12, hto]

/-! ### Reading back what was packed -/

theorem toNat_canidGetFrom_canidCreate (addressFrom addressTo : UInt16) (priorityInverted : UInt8)
    (isFirst : Bool) :
    (canidGetFrom (canidCreate addressFrom addressTo priorityInverted isFirst)).toNat =
      addressFrom.toNat % 4096 := by
  rw [toNat_canidGetFrom, toNat_canidCreate]
  cases isFirst <;> simp <;> omega

theorem toNat_canidGetTo_canidCreate (addressFrom addressTo : UInt16) (priorityInverted : UInt8)
    (isFirst : Bool) :
    (canidGetTo (canidCreate addressFrom addressTo priorityInverted isFirst)).toNat =
      addressTo.toNat % 4096 := by
  rw [toNat_canidGetTo, toNat_canidCreate]
  cases isFirst <;> simp <;> omega

theorem toNat_canidGetPriorityInverted_canidCreate (addressFrom addressTo : UInt16)
    (priorityInverted : UInt8) (isFirst : Bool) :
    (canidGetPriorityInverted
      (canidCreate addressFrom addressTo priorityInverted isFirst)).toNat =
      priorityInverted.toNat % 16 := by
  rw [toNat_canidGetPriorityInverted, toNat_canidCreate]
  cases isFirst <;> simp <;> omega

@[simp] theorem canidGetIsFirst_canidCreate (addressFrom addressTo : UInt16)
    (priorityInverted : UInt8) (isFirst : Bool) :
    canidGetIsFirst (canidCreate addressFrom addressTo priorityInverted isFirst) = isFirst := by
  rw [Bool.eq_iff_iff, canidGetIsFirst_iff, toNat_canidCreate]
  cases isFirst <;> simp <;> omega

/-- The signature as a number: the receiver in the low twelve bits, the sender
above them. -/
theorem toNat_channelSig (canId : UInt32) :
    (channelSig canId).toNat = (canidGetTo canId).toNat + (canidGetFrom canId).toNat * 4096 := by
  have hto : (canidGetTo canId).toNat < 2 ^ 12 := by rw [toNat_canidGetTo]; omega
  have hfrom : (canidGetFrom canId).toNat < 2 ^ 12 := by rw [toNat_canidGetFrom]; omega
  have hshift : ((canidGetFrom canId).toUInt32 <<< 12).toNat =
      (canidGetFrom canId).toNat * 2 ^ 12 := by
    rw [toNat_shiftLeft_of_lt 12 rfl (by decide)] <;>
      rw [UInt16.toNat_toUInt32]
    omega
  rw [channelSig, UInt32.or_comm, toNat_or_of_disjoint 12 (by omega)
    (by rw [UInt16.toNat_toUInt32]; exact hto), hshift, UInt16.toNat_toUInt32]
  omega

/-- The signature names the pair. -/
theorem channelSig_eq_iff (a b : UInt32) : channelSig a = channelSig b ↔ pairOf a = pairOf b := by
  have hta : (canidGetTo a).toNat < 4096 := by rw [toNat_canidGetTo]; omega
  have htb : (canidGetTo b).toNat < 4096 := by rw [toNat_canidGetTo]; omega
  rw [← UInt32.toNat_inj, toNat_channelSig, toNat_channelSig, pairOf, pairOf, Prod.mk.injEq,
    ← UInt16.toNat_inj, ← UInt16.toNat_inj]
  omega

/-- The number of a pair of addresses of twelve bits. -/
theorem toNat_pairSig {f t : UInt16} (hf : f.toNat < 4096) (ht : t.toNat < 4096) :
    (pairSig f t).toNat = t.toNat + f.toNat * 4096 := by
  have hshift : (f.toUInt32 <<< 12).toNat = f.toNat * 2 ^ 12 := by
    rw [toNat_shiftLeft_of_lt 12 rfl (by decide)] <;> rw [UInt16.toNat_toUInt32]
    omega
  rw [pairSig, UInt32.or_comm, toNat_or_of_disjoint 12 (by omega)
    (by rw [UInt16.toNat_toUInt32]; exact ht), hshift, UInt16.toNat_toUInt32]
  omega

/-- Different senders make different pairs. -/
theorem pairSig_left_inj {f f' t : UInt16} (hf : f.toNat < 4096) (hf' : f'.toNat < 4096)
    (ht : t.toNat < 4096) : pairSig f t = pairSig f' t ↔ f = f' := by
  rw [← UInt32.toNat_inj, toNat_pairSig hf ht, toNat_pairSig hf' ht, ← UInt16.toNat_inj]
  omega

end Protoplexer
end UniCan
