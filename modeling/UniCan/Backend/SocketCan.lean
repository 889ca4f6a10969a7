import UniCan.Foundation.Bits
import UniCan.Message

/-!
# The SocketCAN backend

The kernel marks an extended frame with a bit of its identifier; a message has one flag
for each kind.  A channel turns messages into frames to send them and frames into
messages when it receives them.

## Main definitions

* `CanFrame` — `struct can_frame`.
* `transmitMessage`, `threadProcReceive` — the two directions.
* `Forwards`, `Returns` — a frame, or a message, comes back from a way through both.

## Main results

* `socketcan_inverse_iff` — **which frames and which messages come back**: extended ones,
  and the standard frame with identifier 0.
-/

namespace UniCan
namespace SocketCan

/-- `CAN_EFF_FLAG`: the frame is extended. -/
def canEffFlag : UInt32 := 0x80000000

/-- `CAN_RTR_FLAG`: the frame is a request. -/
def canRtrFlag : UInt32 := 0x40000000

/-- `CAN_ERR_FLAG`: the frame is an error message. -/
def canErrFlag : UInt32 := 0x20000000

/-- `CAN_SFF_MASK`. -/
def canSffMask : UInt32 := 0x000007FF

/-- `CAN_EFF_MASK`. -/
def canEffMask : UInt32 := 0x1FFFFFFF

/-- `struct can_frame`. -/
structure CanFrame where
  /-- The identifier, and three flags. -/
  canId : UInt32 := 0
  /-- Bytes in use. -/
  canDlc : UInt8 := 0
  /-- The data area. -/
  data : CanData := CanData.ofBytes []
  deriving DecidableEq

/-- `CanChannelSocketcan::TransmitMessage`: the result, and the frame that is handed to
`write`; `write` says whether it is taken. -/
def transmitMessage (fd : ℤ) (write : CanFrame → Bool) (msg : CanMessage) :
    Bool × Option CanFrame :=
  if fd < 0 then (false, none)
  else
    let canId : UInt32 :=
      if msg.flags &&& flagExtId ≠ 0 then (msg.id &&& canEffMask) ||| canEffFlag
      else if msg.flags &&& flagStdId ≠ 0 then msg.id &&& canSffMask
      else 0
    let frame : CanFrame := { canId := canId, canDlc := msg.len.toUInt8, data := msg.data }
    if write frame then (true, some frame) else (false, some frame)

/-- What a call of `threadProcReceive` leaves behind. -/
structure Received where
  result : Bool
  /-- `m_receive_queue`. -/
  queue : List CanMessage
  /-- `m_receive_func` was called. -/
  notified : Bool

/-- `CanChannelSocketcan::threadProcReceive`: `read` is the frame that is read, if a whole
one is; `create` says whether there is memory for a message, `timeUs` is the time since
the channel was opened, and `func` says whether somebody wants to be told. -/
def threadProcReceive (read : Option CanFrame) (create : Bool) (timeUs : UInt64) (func : Bool)
    (queue : List CanMessage) : Received :=
  match read with
  | none => ⟨false, queue, false⟩
  | some frame =>
      if frame.canId &&& canErrFlag ≠ 0 then ⟨true, queue, false⟩
      else if !create then ⟨true, queue, false⟩
      else
        let msg : CanMessage := {}
        let (canId, flags) :=
          if frame.canId &&& canEffFlag ≠ 0 then
            (frame.canId &&& canEffMask, msg.flags ||| flagExtId)
          else (frame.canId &&& canSffMask, msg.flags)
        let msg := { msg with
          flags := flags, id := canId, len := frame.canDlc.toUInt16, timeUs := timeUs,
          data := frame.data }
        ⟨true, queue ++ [msg], func⟩

/-! ### The frames and messages on the bus -/

/-- The frame is extended. -/
def CanFrame.isExtended (frame : CanFrame) : Bool := frame.canId.toNat.testBit 31

/-- The identifier of a frame: 29 bits, or 11. -/
def CanFrame.identifier (frame : CanFrame) : ℕ :=
  frame.canId.toNat % 2 ^ (if frame.isExtended then 29 else 11)

/-- A data frame: no error, no request, at most eight bytes, and an identifier as long as
its kind allows. -/
structure CanFrame.Regular (frame : CanFrame) : Prop where
  noError : frame.canId &&& canErrFlag = 0
  noRequest : frame.canId &&& canRtrFlag = 0
  dlc : frame.canDlc.toNat ≤ maxLen
  standard : frame.isExtended = false → frame.canId ≤ canSffMask

/-- A message of at most eight bytes whose identifier is as long as its kind allows. -/
def Sendable (msg : CanMessage) : Prop :=
  msg.len.toNat ≤ maxLen ∧
    (msg.flags &&& flagStdId ≠ 0 ∧ msg.id.toNat < 2 ^ 11 ∨
      msg.flags &&& flagExtId ≠ 0 ∧ msg.id.toNat < 2 ^ 29)

/-- A frame that is received as a message and sent again is the same frame: identifier,
kind, length and data. -/
def Forwards (frame : CanFrame) : Prop :=
  ∀ fd write timeUs func queue, 0 ≤ fd → (∀ f, write f = true) →
    ∃ msg frame', threadProcReceive (some frame) true timeUs func queue =
        ⟨true, queue ++ [msg], func⟩ ∧
      transmitMessage fd write msg = (true, some frame') ∧
      frame'.identifier = frame.identifier ∧ frame'.isExtended = frame.isExtended ∧
      frame'.canDlc = frame.canDlc ∧ frame'.data = frame.data

/-- A message that is sent and received again is the same message: identifier, flags,
length and data. -/
def Returns (msg : CanMessage) : Prop :=
  ∀ fd write timeUs func queue, 0 ≤ fd → (∀ f, write f = true) →
    ∃ frame msg', transmitMessage fd write msg = (true, some frame) ∧
      threadProcReceive (some frame) true timeUs func queue =
        ⟨true, queue ++ [msg'], func⟩ ∧
      msg'.id = msg.id ∧ msg'.flags = msg.flags ∧ msg'.len = msg.len ∧ msg'.data = msg.data

/-! ### One way -/

/-- The message a frame is received as. -/
def messageOf (timeUs : UInt64) (frame : CanFrame) : CanMessage where
  timeUs := timeUs
  id := frame.canId &&& (if frame.isExtended then canEffMask else canSffMask)
  flags := if frame.isExtended then flagExtId else 0
  data := frame.data
  len := frame.canDlc.toUInt16

/-- The frame a message is sent as. -/
def frameOf (msg : CanMessage) : CanFrame where
  canId := if msg.flags &&& flagExtId ≠ 0 then (msg.id &&& canEffMask) ||| canEffFlag
    else if msg.flags &&& flagStdId ≠ 0 then msg.id &&& canSffMask else 0
  canDlc := msg.len.toUInt8
  data := msg.data

theorem CanFrame.isExtended_iff (frame : CanFrame) :
    frame.isExtended = true ↔ frame.canId &&& canEffFlag ≠ 0 := by
  rw [ne_eq, ← UInt32.toNat_inj, toNat_and_field 31 1 rfl, CanFrame.isExtended,
    Nat.testBit_eq_decide_div_mod_eq, decide_eq_true_eq, UInt32.toNat_zero]
  omega

theorem CanFrame.isExtended_eq_false_iff (frame : CanFrame) :
    frame.isExtended = false ↔ frame.canId.toNat < 2 ^ 31 := by
  have hlt := frame.canId.toNat_lt
  rw [CanFrame.isExtended, Nat.testBit_eq_decide_div_mod_eq, decide_eq_false_iff_not]
  omega

/-- A frame that is no error is received as its message. -/
theorem threadProcReceive_eq {frame : CanFrame} (h : frame.canId &&& canErrFlag = 0)
    (timeUs : UInt64) (func : Bool) (queue : List CanMessage) :
    threadProcReceive (some frame) true timeUs func queue =
      ⟨true, queue ++ [messageOf timeUs frame], func⟩ := by
  simp only [threadProcReceive, h, ne_eq, not_true_eq_false, if_false, Bool.not_true,
    Bool.false_eq_true, messageOf]
  by_cases hext : frame.canId &&& canEffFlag = 0
  · have hno : frame.isExtended = false := by
      rw [Bool.eq_false_iff, ne_eq, CanFrame.isExtended_iff]
      exact fun hne => hne hext
    simp [hext, hno]
  · have hyes : frame.isExtended = true := (CanFrame.isExtended_iff frame).mpr hext
    simp [hext, hyes]

/-- An open channel sends a message as its frame. -/
theorem transmitMessage_eq {fd : ℤ} (hfd : 0 ≤ fd) {write : CanFrame → Bool}
    (hwrite : ∀ f, write f = true) (msg : CanMessage) :
    transmitMessage fd write msg = (true, some (frameOf msg)) := by
  simp only [transmitMessage, hwrite, if_neg (Int.not_lt.mpr hfd), if_true]
  rfl

/-- Whether the kernel takes the frame or not, it is handed over. -/
theorem transmitMessage_frameOf {fd : ℤ} (hfd : 0 ≤ fd) (write : CanFrame → Bool)
    (msg : CanMessage) :
    transmitMessage fd write msg = (write (frameOf msg), some (frameOf msg)) := by
  have hframe : transmitMessage fd write msg =
      if write (frameOf msg) then (true, some (frameOf msg)) else (false, some (frameOf msg)) := by
    rw [transmitMessage, if_neg (Int.not_lt.mpr hfd)]
    rfl
  rw [hframe]
  cases write (frameOf msg) <;> rfl

/-- What a message sent as an extended frame looks like. -/
theorem toNat_extended (id : UInt32) :
    ((id &&& canEffMask) ||| canEffFlag).toNat = id.toNat % 2 ^ 29 + 2 ^ 31 := by
  have hmask : (id &&& canEffMask).toNat = id.toNat % 2 ^ 29 := toNat_and_mask 29 rfl
  have hflag : canEffFlag.toNat = 2 ^ 31 := rfl
  rw [UInt32.or_comm, toNat_or_of_disjoint 31 (by omega) (by omega), hmask, hflag, Nat.add_comm]

/-- The kernel's kind of the frame of a message. -/
theorem isExtended_frameOf (msg : CanMessage) :
    (frameOf msg).isExtended = decide (msg.flags &&& flagExtId ≠ 0) := by
  by_cases hext : msg.flags &&& flagExtId = 0
  · have hlt : (frameOf msg).canId.toNat < 2 ^ 31 := by
      have hmask : (msg.id &&& canSffMask).toNat = msg.id.toNat % 2 ^ 11 := toNat_and_mask 11 rfl
      simp only [frameOf, hext, ne_eq, not_true_eq_false, if_false]
      split_ifs
      · rw [UInt32.toNat_zero]; omega
      · omega
    rw [(CanFrame.isExtended_eq_false_iff _).mpr hlt]
    simp [hext]
  · have hge : ¬ (frameOf msg).canId.toNat < 2 ^ 31 := by
      simp only [frameOf, ne_eq, hext, not_false_eq_true, if_true, toNat_extended]
      omega
    rw [← CanFrame.isExtended_eq_false_iff, Bool.not_eq_false] at hge
    rw [hge]
    simp [hext]

/-! ### Both ways -/

/-- An extended frame keeps its identifier and its kind. -/
theorem frameOf_messageOf_extended {frame : CanFrame} (hext : frame.isExtended = true)
    (timeUs : UInt64) : (frameOf (messageOf timeUs frame)).isExtended = true ∧
      (frameOf (messageOf timeUs frame)).identifier = frame.identifier := by
  have hflags : (messageOf timeUs frame).flags &&& flagExtId ≠ 0 := by
    simp only [messageOf, hext, if_true]
    decide
  have hkind : (frameOf (messageOf timeUs frame)).isExtended = true := by
    rw [isExtended_frameOf, decide_eq_true hflags]
  have hmask : (frame.canId &&& canEffMask).toNat = frame.canId.toNat % 2 ^ 29 :=
    toNat_and_mask 29 rfl
  have hid : (frameOf (messageOf timeUs frame)).canId.toNat =
      frame.canId.toNat % 2 ^ 29 + 2 ^ 31 := by
    rw [frameOf, if_pos hflags, toNat_extended]
    simp only [messageOf, hext, if_true, hmask]
    omega
  refine ⟨hkind, ?_⟩
  rw [CanFrame.identifier, CanFrame.identifier, hkind, hext, hid, if_pos rfl]
  omega

/-- A standard frame keeps its kind, and gets identifier 0. -/
theorem frameOf_messageOf_standard {frame : CanFrame} (hext : frame.isExtended = false)
    (timeUs : UInt64) : (frameOf (messageOf timeUs frame)).isExtended = false ∧
      (frameOf (messageOf timeUs frame)).identifier = 0 := by
  have hzero : (frameOf (messageOf timeUs frame)).canId = 0 := by
    simp only [frameOf, messageOf, hext, Bool.false_eq_true, if_false]
    rfl
  constructor
  · rw [CanFrame.isExtended_eq_false_iff, hzero, UInt32.toNat_zero]
    exact Nat.two_pow_pos 31
  · rw [CanFrame.identifier, hzero]
    exact Nat.zero_mod _

/-- What becomes of a message flagged extended. -/
theorem messageOf_frameOf_extended {msg : CanMessage} (hext : msg.flags &&& flagExtId ≠ 0)
    (hid : msg.id.toNat < 2 ^ 29) (timeUs : UInt64) :
    (messageOf timeUs (frameOf msg)).id = msg.id ∧
      (messageOf timeUs (frameOf msg)).flags = flagExtId := by
  have hkind : (frameOf msg).isExtended = true := by
    rw [isExtended_frameOf, decide_eq_true hext]
  simp only [messageOf, hkind, if_true, and_true]
  rw [← UInt32.toNat_inj, toNat_and_mask 29 rfl, frameOf, if_pos hext, toNat_extended]
  omega

/-- What becomes of one that is not: it has no flag. -/
theorem flags_messageOf_frameOf_standard {msg : CanMessage} (hext : msg.flags &&& flagExtId = 0)
    (timeUs : UInt64) : (messageOf timeUs (frameOf msg)).flags = 0 := by
  have hkind : (frameOf msg).isExtended = false := by
    rw [isExtended_frameOf]
    simp [hext]
  simp only [messageOf, hkind, Bool.false_eq_true, if_false]

/-- The frame of a message with an identifier in range is no error. -/
theorem frameOf_noError (msg : CanMessage) : (frameOf msg).canId &&& canErrFlag = 0 := by
  have hmask : (msg.id &&& canSffMask).toNat = msg.id.toNat % 2 ^ 11 := toNat_and_mask 11 rfl
  rw [← UInt32.toNat_inj, toNat_and_field 29 1 rfl, UInt32.toNat_zero]
  by_cases hext : msg.flags &&& flagExtId ≠ 0
  · rw [frameOf, if_pos hext, toNat_extended]
    omega
  · by_cases hstd : msg.flags &&& flagStdId ≠ 0
    · rw [frameOf, if_neg hext, if_pos hstd, hmask]
      omega
    · have hzero : (frameOf msg).canId.toNat = 0 := by
        rw [frameOf, if_neg hext, if_neg hstd]
        rfl
      rw [hzero, Nat.zero_div, Nat.zero_mod, Nat.zero_mul]

/-- A frame comes back if the frame of its message is the same. -/
theorem forwards_iff {frame : CanFrame} (h : frame.Regular) :
    Forwards frame ↔ ∀ timeUs,
      (frameOf (messageOf timeUs frame)).identifier = frame.identifier ∧
      (frameOf (messageOf timeUs frame)).isExtended = frame.isExtended := by
  constructor
  · intro hf timeUs
    obtain ⟨msg, frame', hreceive, htransmit, hid, hext, -, -⟩ :=
      hf 0 (fun _ => true) timeUs false [] (Int.le_refl 0) fun _ => rfl
    rw [threadProcReceive_eq h.noError] at hreceive
    rw [transmitMessage_eq (Int.le_refl 0) fun _ => rfl] at htransmit
    obtain rfl : messageOf timeUs frame = msg := by simpa using hreceive
    obtain rfl : frameOf (messageOf timeUs frame) = frame' := by simpa using htransmit
    exact ⟨hid, hext⟩
  · intro hsame fd write timeUs func queue hfd hwrite
    refine ⟨_, _, threadProcReceive_eq h.noError timeUs func queue,
      transmitMessage_eq hfd hwrite _, (hsame timeUs).1, (hsame timeUs).2, ?_, rfl⟩
    simp only [frameOf, messageOf]
    exact UInt8.toUInt8_toUInt16 _

/-- A message comes back if the message of its frame is the same. -/
theorem returns_iff {msg : CanMessage} (h : (frameOf msg).canId &&& canErrFlag = 0)
    (hlen : msg.len.toNat ≤ maxLen) :
    Returns msg ↔ ∀ timeUs, (messageOf timeUs (frameOf msg)).id = msg.id ∧
      (messageOf timeUs (frameOf msg)).flags = msg.flags := by
  have h8 : maxLen = 8 := rfl
  constructor
  · intro hr timeUs
    obtain ⟨frame, msg', htransmit, hreceive, hid, hflags, -, -⟩ :=
      hr 0 (fun _ => true) timeUs false [] (Int.le_refl 0) fun _ => rfl
    rw [transmitMessage_eq (Int.le_refl 0) fun _ => rfl] at htransmit
    obtain rfl : frameOf msg = frame := by simpa using htransmit
    rw [threadProcReceive_eq h] at hreceive
    obtain rfl : messageOf timeUs (frameOf msg) = msg' := by simpa using hreceive
    exact ⟨hid, hflags⟩
  · intro hsame fd write timeUs func queue hfd hwrite
    refine ⟨_, _, transmitMessage_eq hfd hwrite _, threadProcReceive_eq h timeUs func queue,
      (hsame timeUs).1, (hsame timeUs).2, ?_, rfl⟩
    simp only [frameOf, messageOf]
    rw [← UInt16.toNat_inj, UInt8.toNat_toUInt16, UInt16.toNat_toUInt8]
    exact Nat.mod_eq_of_lt (by omega)

/-- **Which frames and which messages come back.**  A data frame that is received and sent
again is the same if and only if it is extended or has identifier 0: the message of a
standard frame lacks the flag that says so, and `TransmitMessage` sends it with identifier
0.  A message that is sent and received again is the same if and only if its only flag is
the one of an extended identifier. -/
theorem socketcan_inverse_iff (frame : CanFrame) (msg : CanMessage) :
    (frame.Regular → (Forwards frame ↔ frame.isExtended = true ∨ frame.canId = 0)) ∧
      (Sendable msg → (Returns msg ↔ msg.flags = flagExtId)) := by
  refine ⟨fun h => ?_, fun ⟨hlen, hkind⟩ => ?_⟩
  · rw [forwards_iff h]
    cases hext : frame.isExtended with
    | true =>
      exact iff_of_true (fun timeUs => (frameOf_messageOf_extended hext timeUs).symm) (Or.inl rfl)
    | false =>
      -- the identifier is lost
      have hle := UInt32.le_iff_toNat_le.mp (h.standard hext)
      have h11 : canSffMask.toNat = 2 ^ 11 - 1 := rfl
      have hown : frame.identifier = frame.canId.toNat := by
        rw [CanFrame.identifier, hext, if_neg (by simp)]
        exact Nat.mod_eq_of_lt (by omega)
      rw [← UInt32.toNat_inj, UInt32.toNat_zero, ← hown]
      constructor
      · intro hall
        exact Or.inr ((hall 0).1.symm.trans (frameOf_messageOf_standard hext 0).2)
      · rintro (hyes | hzero) timeUs
        · exact absurd hyes (by simp)
        · obtain ⟨hno, hid⟩ := frameOf_messageOf_standard hext timeUs
          exact ⟨hid.trans hzero.symm, hno⟩
  · rw [returns_iff (frameOf_noError msg) hlen]
    by_cases hext : msg.flags &&& flagExtId = 0
    · -- a standard message has a flag, and comes back without one
      refine iff_of_false (fun hall => ?_) fun hflags => ?_
      · have hflags := (hall 0).2
        rw [flags_messageOf_frameOf_standard hext 0] at hflags
        rcases hkind with ⟨hstd, -⟩ | ⟨hext', -⟩
        · rw [← hflags] at hstd
          exact absurd rfl hstd
        · exact hext' hext
      · rw [hflags] at hext
        exact absurd hext (by decide)
    · have hid : msg.id.toNat < 2 ^ 29 := by
        rcases hkind with ⟨-, hid⟩ | ⟨-, hid⟩ <;> omega
      constructor
      · intro hall
        exact (hall 0).2.symm.trans (messageOf_frameOf_extended hext hid 0).2
      · intro hflags timeUs
        obtain ⟨hsame, hout⟩ := messageOf_frameOf_extended hext hid timeUs
        exact ⟨hsame, hout.trans hflags.symm⟩

/-- The standard frame with identifier 0x123 and no data. -/
def smallFrame : CanFrame where
  canId := 0x123

/-- An extended message of three bytes. -/
def smallExtended : CanMessage where
  id := 0x1234567
  flags := flagExtId
  len := 3

/-- An extended frame and an extended message come back. -/
theorem socketcan_inverse_extended :
    Forwards { smallFrame with canId := 0x80000123 } ∧ Returns smallExtended :=
  have hboth := socketcan_inverse_iff { smallFrame with canId := 0x80000123 } smallExtended
  ⟨(hboth.1 ⟨by decide, by decide, by decide, by decide⟩).mpr (Or.inl (by decide)),
    (hboth.2 ⟨by decide, Or.inr ⟨by decide, by decide⟩⟩).mpr rfl⟩

/-- A standard frame does not, nor does a standard message. -/
theorem socketcan_not_inverse :
    ¬ (∀ frame : CanFrame, frame.Regular → Forwards frame) ∧
      ¬ ∀ msg : CanMessage, Sendable msg → Returns msg := by
  constructor
  · intro h
    have hregular : smallFrame.Regular := ⟨by decide, by decide, by decide, by decide⟩
    have hsame := (forwards_iff hregular).mp (h smallFrame hregular) 0
    exact absurd hsame.1 (by decide)
  · intro h
    have hsend : Sendable { id := 0x123, flags := flagStdId } :=
      ⟨by decide, Or.inl ⟨by decide, by decide⟩⟩
    have hsame := (returns_iff (frameOf_noError _) (by decide)).mp (h _ hsend) 0
    exact absurd hsame.2 (by decide)

end SocketCan
end UniCan
