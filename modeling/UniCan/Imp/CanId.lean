import UniCan.Foundation.Bits
import UniCan.Message

/-!
# IMP identifiers

An IMP frame says in its 29-bit identifier which device sends it to which, the
session it belongs to, and the command it stands for; the data of a frame is a part
of the message of the session.

* `Cmd`, `Cmd.code`, `Cmd.ofCode?` — the commands and their numbers.
* `canidCreate`, `canidGetFrom`, `canidGetTo`, `canidGetSessionId`,
  `canidGetCommand` — the codec of the identifier.
* `canidGetFrom_canidCreate` and its siblings — **what was put in comes out again.**
-/

namespace UniCan
namespace Imp

/-! ### Constants -/

/-- `UNI_CAN_IMP_DEVICE_ID_ALL`. -/
def deviceIdAll : UInt8 := 31

/-- `UNI_CAN_IMP_DEVICE_ID_MAX`. -/
def deviceIdMax : UInt8 := 31

/-! ### Commands -/

/-- `uni_can_imp_cmd_t`. -/
inductive Cmd
  | start
  | startWa
  | ack
  | nack
  | data
  | dataWa
  | end_
  | endWa
  | abortWa
  deriving DecidableEq, Repr

/-- The number of a command. -/
def Cmd.code : Cmd → UInt32
  | .start => 0
  | .startWa => 1
  | .ack => 2
  | .nack => 3
  | .data => 4
  | .dataWa => 5
  | .end_ => 6
  | .endWa => 7
  | .abortWa => 8

/-- The command with a number; `none` is a number above `UNI_CAN_IMP_CMD_ABORT_WA`. -/
def Cmd.ofCode? (code : UInt32) : Option Cmd :=
  if code = 0 then some .start
  else if code = 1 then some .startWa
  else if code = 2 then some .ack
  else if code = 3 then some .nack
  else if code = 4 then some .data
  else if code = 5 then some .dataWa
  else if code = 6 then some .end_
  else if code = 7 then some .endWa
  else if code = 8 then some .abortWa
  else none

/-- `uni_can_imp_command_without_ack`. -/
def Cmd.withoutAck : Cmd → Bool
  | .startWa | .dataWa | .endWa | .abortWa => true
  | _ => false

@[simp] theorem Cmd.ofCode?_code (command : Cmd) : Cmd.ofCode? command.code = some command := by
  cases command <;> rfl

theorem Cmd.ofCode?_eq_some {code : UInt32} {command : Cmd} (h : Cmd.ofCode? code = some command) :
    code = command.code := by
  unfold Cmd.ofCode? at h
  split_ifs at h <;> obtain rfl := Option.some.inj h <;> assumption

theorem Cmd.code_lt (command : Cmd) : command.code.toNat < 2 ^ 5 := by
  cases command <;> decide

/-! ### The codec -/

/-- `uni_can_imp_canid_create`. -/
def canidCreate (addressFrom addressTo sessionId : UInt8) (command : Cmd) : UInt32 :=
  ((addressTo.toUInt32 &&& 0x1F) <<< 24) ||| ((addressFrom.toUInt32 &&& 0x1F) <<< 19) |||
    ((sessionId.toUInt32 &&& 0x0F) <<< 15) ||| ((command.code &&& 0x1F) <<< 10)

/-- `uni_can_imp_canid_get_from`. -/
def canidGetFrom (canId : UInt32) : UInt8 := ((canId >>> 19) &&& 0x1F).toUInt8

/-- `uni_can_imp_canid_get_to`. -/
def canidGetTo (canId : UInt32) : UInt8 := ((canId >>> 24) &&& 0x1F).toUInt8

/-- `uni_can_imp_canid_get_session_id`. -/
def canidGetSessionId (canId : UInt32) : UInt8 := ((canId >>> 15) &&& 0x0F).toUInt8

/-- `uni_can_imp_canid_get_command`, as a number. -/
def canidGetCommand (canId : UInt32) : UInt32 := (canId >>> 10) &&& 0x1F

/-- `uni_can_imp_address_valid`. -/
def addressValid (address : UInt8) : Bool := address ≤ deviceIdMax

/-- `uni_can_imp_source_address_valid`. -/
def sourceAddressValid (address : UInt8) : Bool := addressValid address && address != deviceIdAll

/-! ### The fields as numbers -/

theorem addressValid_iff (address : UInt8) : addressValid address = true ↔ address.toNat < 32 := by
  rw [addressValid, decide_eq_true_eq, UInt8.le_iff_toNat_le]
  exact Nat.lt_succ_iff.symm

theorem sourceAddressValid_iff (address : UInt8) :
    sourceAddressValid address = true ↔ address.toNat < 31 := by
  have hne : address ≠ deviceIdAll ↔ address.toNat ≠ 31 := by
    rw [Ne, ← UInt8.toNat_inj]
    rfl
  rw [sourceAddressValid, Bool.and_eq_true, addressValid_iff, bne_iff_ne, hne]
  omega

/-- A device has another address than all of them. -/
theorem ne_deviceIdAll {address : UInt8} (h : address.toNat < 31) : address ≠ deviceIdAll := by
  rintro rfl
  exact absurd h (by decide)

theorem toNat_canidGetFrom (canId : UInt32) :
    (canidGetFrom canId).toNat = canId.toNat / 2 ^ 19 % 2 ^ 5 := by
  rw [canidGetFrom, UInt32.toNat_toUInt8, toNat_field 19 5 rfl (by decide) rfl]
  exact Nat.mod_eq_of_lt (by omega)

theorem toNat_canidGetTo (canId : UInt32) :
    (canidGetTo canId).toNat = canId.toNat / 2 ^ 24 % 2 ^ 5 := by
  rw [canidGetTo, UInt32.toNat_toUInt8, toNat_field 24 5 rfl (by decide) rfl]
  exact Nat.mod_eq_of_lt (by omega)

theorem toNat_canidGetSessionId (canId : UInt32) :
    (canidGetSessionId canId).toNat = canId.toNat / 2 ^ 15 % 2 ^ 4 := by
  rw [canidGetSessionId, UInt32.toNat_toUInt8, toNat_field 15 4 rfl (by decide) rfl]
  exact Nat.mod_eq_of_lt (by omega)

theorem toNat_canidGetCommand (canId : UInt32) :
    (canidGetCommand canId).toNat = canId.toNat / 2 ^ 10 % 2 ^ 5 := by
  rw [canidGetCommand, toNat_field 10 5 rfl (by decide) rfl]

/-- The identifier as a sum of its fields. -/
theorem toNat_canidCreate (addressFrom addressTo sessionId : UInt8) (command : Cmd) :
    (canidCreate addressFrom addressTo sessionId command).toNat =
      addressTo.toNat % 32 * 2 ^ 24 + addressFrom.toNat % 32 * 2 ^ 19 +
        sessionId.toNat % 16 * 2 ^ 15 + command.code.toNat * 2 ^ 10 := by
  have hmask : ∀ x : UInt8, (x.toUInt32 &&& 0x1F).toNat = x.toNat % 32 := fun x =>
    toNat_and_mask 5 rfl
  have hmask' : (sessionId.toUInt32 &&& 0x0F).toNat = sessionId.toNat % 16 := toNat_and_mask 4 rfl
  have hcode : (command.code &&& 0x1F).toNat = command.code.toNat := by
    rw [toNat_and_mask 5 rfl]
    exact Nat.mod_eq_of_lt command.code_lt
  have hlt := command.code_lt
  have hto : ((addressTo.toUInt32 &&& 0x1F) <<< 24).toNat = addressTo.toNat % 32 * 2 ^ 24 := by
    rw [toNat_shiftLeft_of_lt 24 rfl (by decide) (by rw [hmask]; omega), hmask]
  have hfrom :
      ((addressFrom.toUInt32 &&& 0x1F) <<< 19).toNat = addressFrom.toNat % 32 * 2 ^ 19 := by
    rw [toNat_shiftLeft_of_lt 19 rfl (by decide) (by rw [hmask]; omega), hmask]
  have hid : ((sessionId.toUInt32 &&& 0x0F) <<< 15).toNat = sessionId.toNat % 16 * 2 ^ 15 := by
    rw [toNat_shiftLeft_of_lt 15 rfl (by decide) (by rw [hmask']; omega), hmask']
  have hcmd : ((command.code &&& 0x1F) <<< 10).toNat = command.code.toNat * 2 ^ 10 := by
    rw [toNat_shiftLeft_of_lt 10 rfl (by decide) (by rw [hcode]; omega), hcode]
  -- the fields are joined from the highest to the lowest
  have h1 := toNat_or_of_disjoint (x := (addressTo.toUInt32 &&& 0x1F) <<< 24)
    (y := (addressFrom.toUInt32 &&& 0x1F) <<< 19) 24 (by rw [hto]; omega) (by rw [hfrom]; omega)
  have h2 := toNat_or_of_disjoint (y := (sessionId.toUInt32 &&& 0x0F) <<< 15) 19
    (by rw [h1, hto, hfrom]; omega) (by rw [hid]; omega)
  have h3 := toNat_or_of_disjoint (y := (command.code &&& 0x1F) <<< 10) 15
    (by rw [h2, h1, hto, hfrom, hid]; omega) (by rw [hcmd]; omega)
  rw [canidCreate, h3, h2, h1, hto, hfrom, hid, hcmd]

section RoundTrip

variable (addressFrom addressTo sessionId : UInt8) (command : Cmd)

theorem canidGetFrom_canidCreate (h : addressFrom.toNat < 32) :
    canidGetFrom (canidCreate addressFrom addressTo sessionId command) = addressFrom := by
  have hlt := command.code_lt
  rw [← UInt8.toNat_inj, toNat_canidGetFrom, toNat_canidCreate]
  omega

theorem canidGetTo_canidCreate (h : addressTo.toNat < 32) :
    canidGetTo (canidCreate addressFrom addressTo sessionId command) = addressTo := by
  have hlt := command.code_lt
  rw [← UInt8.toNat_inj, toNat_canidGetTo, toNat_canidCreate]
  omega

theorem canidGetSessionId_canidCreate (h : sessionId.toNat < 16) :
    canidGetSessionId (canidCreate addressFrom addressTo sessionId command) = sessionId := by
  have hlt := command.code_lt
  rw [← UInt8.toNat_inj, toNat_canidGetSessionId, toNat_canidCreate]
  omega

theorem canidGetCommand_canidCreate :
    canidGetCommand (canidCreate addressFrom addressTo sessionId command) = command.code := by
  have hlt := command.code_lt
  rw [← UInt32.toNat_inj, toNat_canidGetCommand, toNat_canidCreate]
  omega

end RoundTrip

end Imp
end UniCan
