import Mathlib.Data.List.Basic

/-!
# CAN messages

The frame every protocol of the library reads and writes: the identifier, the
flags, the length field and the eight data bytes of `uni_can_message_t`.  The
length field is wider than a classic frame needs, so a frame may announce more
than the `maxLen` bytes it can hold; the protocols refuse such frames.

## Main definitions

* `CanMessage` — `uni_can_message_t`, with `data.u8` as its data.
* `CanMessage.bytes` — the bytes in use.
* `CanData.ofBytes` — a zeroed data area with some bytes copied into it.
-/

namespace UniCan

/-- `UNI_CAN_MESSAGE_MAXLEN`. -/
def maxLen : ℕ := 8

/-- The data area of a message, seen as bytes. -/
abbrev CanData := Vector UInt8 8

/-- A zeroed data area with `bytes` copied to its start. -/
def CanData.ofBytes (bytes : List UInt8) : CanData := Vector.ofFn fun i => bytes.getD i 0

/-- `UNI_CAN_MSG_FLAG_STD_ID`. -/
def flagStdId : UInt32 := 1

/-- `UNI_CAN_MSG_FLAG_EXT_ID`. -/
def flagExtId : UInt32 := 2

/-- A CAN message. -/
structure CanMessage where
  /-- When the message was received, in microseconds. -/
  timeUs : UInt64 := 0
  /-- The identifier. -/
  id : UInt32 := 0
  /-- The kind of the identifier. -/
  flags : UInt32 := 0
  /-- The data area. -/
  data : CanData := CanData.ofBytes []
  /-- Bytes in use. -/
  len : UInt16 := 0
  deriving DecidableEq

/-- The message, with the time at which it was received. -/
def CanMessage.stamped (m : CanMessage) (timeUs : UInt64) : CanMessage := { m with timeUs }

/-- The byte of a message with this index. -/
def CanMessage.u8 (m : CanMessage) (i : ℕ) : UInt8 := m.data.toList.getD i 0

/-- The bytes of a message that are in use. -/
def CanMessage.bytes (m : CanMessage) : List UInt8 := m.data.toList.take m.len.toNat

@[simp] theorem CanMessage.stamped_stamped (m : CanMessage) (timeUs timeUs' : UInt64) :
    (m.stamped timeUs).stamped timeUs' = m.stamped timeUs' := rfl

theorem CanMessage.length_bytes {m : CanMessage} (h : m.len.toNat ≤ maxLen) :
    m.bytes.length = m.len.toNat := by
  have h8 : m.len.toNat ≤ 8 := h
  simp [bytes, h8]

theorem CanData.take_toList_ofBytes {bytes : List UInt8} (h : bytes.length ≤ maxLen) :
    (CanData.ofBytes bytes).toList.take bytes.length = bytes := by
  have h8 : bytes.length ≤ 8 := h
  apply List.ext_getElem
  · simp [h8]
  · intro i hi hi'
    simp [CanData.ofBytes, hi']

end UniCan
