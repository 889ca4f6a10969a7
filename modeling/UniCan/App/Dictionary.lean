import Mathlib.Algebra.Order.BigOperators.Group.List
import Mathlib.Data.String.Basic
import Mathlib.Tactic.SplitIfs
import UniCan.Foundation.Bits
import UniCan.Foundation.Fields
import UniCan.Foundation.Memory

/-!
# The transmit form and the receive summary

The dictionary describes the fields of a message's payload.  The transmit form builds a
payload from the values entered for the fields, `window_can_tx.cpp`; the summary of a
received message prints the fields of its payload, `protoplexer_dictionary.cpp`.  Each side
has its own switch over the types: the form encodes a field of type `u16le`, the summary
does not know that type.

## Main definitions

* `ProtoPlexerField`, `ProtoPlexerMessageDef`, `ProtoPlexerDictionary` — the dictionary.
* `updatePayloadFromFields` — the form's payload.
* `formatPayloadSummary` — the summary.
* `ProtoPlexerMessageDef.Layout` — the definitions both sides are made for.
* `ProtoPlexerField.text` — what the summary of a field has to be.

## Main results

* `updateField_acts` — **a field of the form writes its own bits and no others.**
* `readField_payload` — a field comes back as it was entered, unless it is a `u16le`.
* `formatPayloadSummary_eq` — the summary is the list of the fields that are read.
* `summary_of_form_iff` — **the summary decodes what the form encodes exactly if no field
  is a `u16le`.**
-/

namespace UniCan.App

/-! ### The dictionary -/

/-- A field of a payload, `ProtoPlexerField`. -/
structure ProtoPlexerField where
  /-- Its name, under which its value is entered and shown. -/
  name : String
  /-- Its type, as the dictionary's file spells it. -/
  type : String
  /-- Its first byte. -/
  offset : UInt32 := 0
  /-- For the type `bit`: which bit of that byte. -/
  bit : ℤ := -1
  deriving DecidableEq, Repr

/-- A message of the dictionary, `ProtoPlexerMessageDef`. -/
structure ProtoPlexerMessageDef where
  fields : List ProtoPlexerField
  deriving DecidableEq, Repr

/-- The dictionary: its messages by their identifiers. -/
structure ProtoPlexerDictionary where
  messages : UInt16 → Option ProtoPlexerMessageDef

/-- What the form holds for a field, `ProtoPlexerFieldState`. -/
structure ProtoPlexerFieldState where
  value : UInt64 := 0
  boolValue : Bool := false
  bytesHex : String := ""
  deriving DecidableEq, Repr

/-! ### The form -/

/-- `std::isxdigit`. -/
def isxdigit (c : Char) : Bool :=
  ('0' ≤ c && c ≤ '9') || ('a' ≤ c && c ≤ 'f') || ('A' ≤ c && c ≤ 'F')

/-- The value of a hexadecimal digit. -/
def xdigit (c : Char) : ℕ :=
  if c ≤ '9' then c.toNat - 48 else if c ≤ 'F' then c.toNat - 55 else c.toNat - 87

/-- The bytes of a text of digits; a half byte at the end is ignored. -/
def hexPairs : List Char → List UInt8
  | high :: low :: rest => UInt8.ofNat (16 * xdigit high + xdigit low) :: hexPairs rest
  | _ => []

/-- The bytes a text spells, whatever stands between the digits. -/
def parseHexBytes (s : String) : List UInt8 := hexPairs (s.toList.filter isxdigit)

/-- A payload filled up with zeros to at least `size` bytes. -/
def ensureSize (data : List UInt8) (size : ℕ) : List UInt8 :=
  if data.length < size then data ++ List.replicate (size - data.length) 0 else data

/-- Bytes written into a payload, which grows as far as it has to. -/
def writeBytes (data : List UInt8) (off : ℕ) (bytes : List UInt8) : List UInt8 :=
  writeAt (ensureSize data (off + bytes.length)) off bytes

def writeU8 (data : List UInt8) (off : ℕ) (v : UInt8) : List UInt8 := writeBytes data off [v]

def writeU16le (data : List UInt8) (off : ℕ) (v : UInt16) : List UInt8 :=
  writeBytes data off [(v &&& 0xFF).toUInt8, ((v >>> 8) &&& 0xFF).toUInt8]

def writeU32le (data : List UInt8) (off : ℕ) (v : UInt32) : List UInt8 :=
  writeBytes data off [(v &&& 0xFF).toUInt8, ((v >>> 8) &&& 0xFF).toUInt8,
    ((v >>> 16) &&& 0xFF).toUInt8, ((v >>> 24) &&& 0xFF).toUInt8]

def writeU32be (data : List UInt8) (off : ℕ) (v : UInt32) : List UInt8 :=
  writeBytes data off [((v >>> 24) &&& 0xFF).toUInt8, ((v >>> 16) &&& 0xFF).toUInt8,
    ((v >>> 8) &&& 0xFF).toUInt8, (v &&& 0xFF).toUInt8]

/-- A bit written into a payload; an index that is no bit of a byte writes nothing. -/
def writeBit (data : List UInt8) (off : ℕ) (bit : ℤ) (v : Bool) : List UInt8 :=
  if bit < 0 ∨ 7 < bit then data
  else
    let grown := ensureSize data (off + 1)
    let mask : UInt8 := UInt8.ofNat (1 <<< bit.toNat)
    let byte := grown.getD off 0
    grown.set off (if v then byte ||| mask else byte &&& ~~~mask)

/-- What the form does for one field. -/
def updateField (state : String → ProtoPlexerFieldState) (data : List UInt8)
    (f : ProtoPlexerField) : List UInt8 :=
  let st := state f.name
  if f.type = "u8" then writeU8 data f.offset.toNat (st.value &&& 0xFF).toUInt8
  else if f.type = "u16le" then writeU16le data f.offset.toNat (st.value &&& 0xFFFF).toUInt16
  else if f.type = "u32le" then writeU32le data f.offset.toNat (st.value &&& 0xFFFFFFFF).toUInt32
  else if f.type = "u32be" then writeU32be data f.offset.toNat (st.value &&& 0xFFFFFFFF).toUInt32
  else if f.type = "bit" then writeBit data f.offset.toNat f.bit st.boolValue
  else if f.type = "bytes" then
    let bytes := parseHexBytes st.bytesHex
    if bytes.isEmpty then data else writeBytes data f.offset.toNat bytes
  else data

/-- **The form's payload.**  The values are looked up by name, and a name the form has no
value for has the default one. -/
def updatePayloadFromFields (d : Option ProtoPlexerMessageDef)
    (state : String → ProtoPlexerFieldState) : List UInt8 :=
  match d with
  | none => []
  | some d => d.fields.foldl (updateField state) []

/-! ### The summary -/

def readU8At (data : List UInt8) (off : ℕ) : Option UInt8 :=
  if off + 1 > data.length then none else some (data.getD off 0)

def readU32leAt (data : List UInt8) (off : ℕ) : Option UInt32 :=
  if off + 4 > data.length then none
  else some ((data.getD off 0).toUInt32 ||| ((data.getD (off + 1) 0).toUInt32 <<< 8) |||
    ((data.getD (off + 2) 0).toUInt32 <<< 16) ||| ((data.getD (off + 3) 0).toUInt32 <<< 24))

def readU32beAt (data : List UInt8) (off : ℕ) : Option UInt32 :=
  if off + 4 > data.length then none
  else some (((data.getD off 0).toUInt32 <<< 24) ||| ((data.getD (off + 1) 0).toUInt32 <<< 16) |||
    ((data.getD (off + 2) 0).toUInt32 <<< 8) ||| (data.getD (off + 3) 0).toUInt32)

/-- A field as the summary shows it, if it does. -/
def readField (data : List UInt8) (f : ProtoPlexerField) : Option String :=
  if f.type = "u8" then (readU8At data f.offset.toNat).map fun v => toString v.toNat
  else if f.type = "u32le" then (readU32leAt data f.offset.toNat).map fun v => toString v.toNat
  else if f.type = "u32be" then (readU32beAt data f.offset.toNat).map fun v => toString v.toNat
  else if f.type = "bit" then
    match readU8At data f.offset.toNat with
    | none => none
    | some b =>
      if f.bit < 0 ∨ 7 < f.bit then none
      else some (toString ((b >>> UInt8.ofNat f.bit.toNat) &&& 0x01).toNat)
  else none

/-- A name and a value added to the summary, and that it is no longer empty. -/
def appendKv (out : String × Bool) (k v : String) : String × Bool :=
  ((if out.2 then out.1 else out.1 ++ " ") ++ k ++ "=" ++ v, false)

/-- The summary of a payload. -/
def formatPayloadSummary (dict : ProtoPlexerDictionary) (id : UInt16) (data : List UInt8) :
    String :=
  match dict.messages id with
  | none => ""
  | some d =>
    if d.fields.isEmpty then ""
    else
      (d.fields.foldl (fun out f =>
        match readField data f with
        | none => out
        | some v => appendKv out f.name v) ("", true)).1

/-! ### What the summary has to be -/

/-- The bytes of a type of numbers. -/
def typeWidth (type : String) : ℕ :=
  if type = "u8" then 1
  else if type = "u16le" then 2
  else if type = "u32le" ∨ type = "u32be" then 4
  else 0

namespace ProtoPlexerField

/-- The bytes of the payload a field is read from. -/
def span (f : ProtoPlexerField) : ℕ := if f.type = "bit" then 1 else typeWidth f.type

/-- Bit `c.2` of byte `c.1` of the payload belongs to the field. -/
def Occupies (f : ProtoPlexerField) (c : ℕ × ℕ) : Prop :=
  if f.type = "bit" then c.1 = f.offset.toNat ∧ (c.2 : ℤ) = f.bit
  else f.offset.toNat ≤ c.1 ∧ c.1 < f.offset.toNat + typeWidth f.type

instance (f : ProtoPlexerField) (c : ℕ × ℕ) : Decidable (f.Occupies c) :=
  inferInstanceAs (Decidable (ite _ _ _))

/-- The value entered for the field, cut to its type. -/
def entered (f : ProtoPlexerField) (st : ProtoPlexerFieldState) : ℕ :=
  if f.type = "bit" then st.boolValue.toNat else st.value.toNat % 2 ^ (8 * typeWidth f.type)

/-- The field as the summary has to show it. -/
def text (state : String → ProtoPlexerFieldState) (f : ProtoPlexerField) : String :=
  f.name ++ "=" ++ toString (f.entered (state f.name))

end ProtoPlexerField

/-- **A definition both sides are made for**: its types are those of the form other than
`bytes`, its bits are bits of a byte, and no bit of the payload belongs to two fields. -/
structure ProtoPlexerMessageDef.Layout (d : ProtoPlexerMessageDef) : Prop where
  types : ∀ f ∈ d.fields, f.type ∈ ["u8", "u16le", "u32le", "u32be", "bit"]
  bits : ∀ f ∈ d.fields, f.type = "bit" → 0 ≤ f.bit ∧ f.bit ≤ 7
  disjoint : d.fields.Pairwise fun f g => ∀ c, f.Occupies c → ¬ g.Occupies c

/-! ### Payloads byte by byte -/

theorem length_ensureSize (data : List UInt8) (size : ℕ) :
    (ensureSize data size).length = max data.length size := by
  unfold ensureSize
  split_ifs with h
  · rw [List.length_append, List.length_replicate]
    omega
  · omega

/-- Filling up changes no byte. -/
theorem getD_ensureSize (data : List UInt8) (size i : ℕ) :
    (ensureSize data size).getD i 0 = data.getD i 0 := by
  unfold ensureSize
  split_ifs with h
  · by_cases hi : i < data.length
    · rw [List.getD_append _ _ _ _ hi]
    · rw [List.getD_append_right _ _ _ _ (by omega), List.getD_eq_default data 0 (by omega),
        List.getD_eq_getElem?_getD, List.getElem?_replicate]
      split_ifs <;> rfl
  · rfl

theorem length_writeBytes (data : List UInt8) (off : ℕ) (bytes : List UInt8) :
    (writeBytes data off bytes).length = max data.length (off + bytes.length) := by
  have hlen := length_ensureSize data (off + bytes.length)
  rw [writeBytes, length_writeAt (by omega), hlen]

/-- A payload's bytes after a write. -/
theorem getD_writeBytes (data : List UInt8) (off : ℕ) (bytes : List UInt8) (i : ℕ) :
    (writeBytes data off bytes).getD i 0 =
      if off ≤ i ∧ i < off + bytes.length then bytes.getD (i - off) 0 else data.getD i 0 := by
  have hlen := length_ensureSize data (off + bytes.length)
  rw [writeBytes, List.getD_eq_getElem?_getD, getElem?_writeAt (by omega),
    ← getD_ensureSize data (off + bytes.length), List.getD_eq_getElem?_getD,
    List.getD_eq_getElem?_getD]
  split_ifs with h1 h2 h3 <;> first | rfl | omega

/-- A bit of a byte with one bit overwritten. -/
theorem testBit_setBit (byte : UInt8) {b : ℕ} (hb : b ≤ 7) (v : Bool) (k : ℕ) :
    (if v then byte ||| UInt8.ofNat (1 <<< b)
      else byte &&& ~~~UInt8.ofNat (1 <<< b)).toNat.testBit k =
      if k = b then v else byte.toNat.testBit k := by
  have hpow : 2 ^ b < 2 ^ 8 := Nat.pow_lt_pow_right (by omega) (by omega)
  have hmask : (UInt8.ofNat (1 <<< b)).toNat = 2 ^ b := by
    rw [Nat.one_shiftLeft, UInt8.toNat_ofNat', Nat.mod_eq_of_lt hpow]
  cases v with
  | true =>
    rw [if_pos rfl, UInt8.toNat_or, Nat.testBit_or, hmask, Nat.testBit_two_pow]
    split_ifs with h
    · rw [h, decide_eq_true rfl, Bool.or_true]
    · rw [decide_eq_false (Ne.symm h), Bool.or_false]
  | false =>
    have hnot : (~~~UInt8.ofNat (1 <<< b)).toNat = 2 ^ 8 - (2 ^ b + 1) := by
      rw [UInt8.toNat_not, hmask, show UInt8.size = 2 ^ 8 from rfl]
      omega
    rw [if_neg Bool.false_ne_true, UInt8.toNat_and, Nat.testBit_and, hnot,
      Nat.testBit_two_pow_sub_succ hpow, Nat.testBit_two_pow]
    split_ifs with h
    · rw [h, decide_eq_true rfl, Bool.not_true, Bool.and_false, Bool.and_false]
    · rw [decide_eq_false (Ne.symm h), Bool.not_false, Bool.and_true]
      by_cases hk : k < 8
      · rw [decide_eq_true hk, Bool.and_true]
      · -- a byte has no such bit
        rw [testBit_eq_false_of_le byte.toNat_lt (by omega : 8 ≤ k), Bool.false_and]

theorem length_writeBit {data : List UInt8} {off : ℕ} {bit : ℤ} (h0 : 0 ≤ bit) (h7 : bit ≤ 7)
    (v : Bool) : (writeBit data off bit v).length = max data.length (off + 1) := by
  rw [writeBit, if_neg (by omega)]
  exact (List.length_set ..).trans (length_ensureSize ..)

/-- A payload's bytes after a bit of one of them is written. -/
theorem getD_writeBit {data : List UInt8} {off : ℕ} {bit : ℤ} (h0 : 0 ≤ bit) (h7 : bit ≤ 7)
    (v : Bool) (i : ℕ) :
    (writeBit data off bit v).getD i 0 =
      if i = off then
        if v then data.getD off 0 ||| UInt8.ofNat (1 <<< bit.toNat)
        else data.getD off 0 &&& ~~~UInt8.ofNat (1 <<< bit.toNat)
      else data.getD i 0 := by
  have hlen := length_ensureSize data (off + 1)
  rw [writeBit, if_neg (by omega)]
  simp only [getD_ensureSize]
  rw [List.getD_eq_getElem?_getD, List.getElem?_set]
  by_cases h : i = off
  · rw [if_pos h, if_pos h.symm, if_pos (by omega)]
    rfl
  · rw [if_neg h, if_neg (Ne.symm h), ← List.getD_eq_getElem?_getD, getD_ensureSize]

/-! ### Numbers byte by byte -/

/-- The lowest `w` bytes of a number, the lowest one first. -/
def leBytes (w n : ℕ) : List UInt8 := (List.range w).map fun j => UInt8.ofNat (n / 256 ^ j)

@[simp] theorem length_leBytes (w n : ℕ) : (leBytes w n).length = w := by simp [leBytes]

/-- The bytes of a number in the order of its type. -/
def numberBytes (type : String) (n : ℕ) : List UInt8 :=
  if type = "u32be" then (leBytes (typeWidth type) n).reverse else leBytes (typeWidth type) n

theorem length_numberBytes (type : String) (n : ℕ) :
    (numberBytes type n).length = typeWidth type := by
  unfold numberBytes
  split_ifs <;> simp

/-- The masks of the types are remainders. -/
theorem and_u8 (x : ℕ) : x &&& 255 = x % 256 := Nat.and_two_pow_sub_one_eq_mod x 8

theorem and_u16 (x : ℕ) : x &&& 65535 = x % 65536 := Nat.and_two_pow_sub_one_eq_mod x 16

theorem and_u32 (x : ℕ) : x &&& 4294967295 = x % 4294967296 :=
  Nat.and_two_pow_sub_one_eq_mod x 32

theorem bytes_u8 (v : UInt64) : [(v &&& 0xFF).toUInt8] = leBytes 1 v.toNat := by
  simp [leBytes, ← UInt8.toNat_inj, and_u8]

theorem bytes_u16le (v : UInt64) :
    [((v &&& 0xFFFF).toUInt16 &&& 0xFF).toUInt8,
      (((v &&& 0xFFFF).toUInt16 >>> 8) &&& 0xFF).toUInt8] = leBytes 2 v.toNat := by
  simp [leBytes, List.range_succ, ← UInt8.toNat_inj, and_u8, and_u16, Nat.shiftRight_eq_div_pow]
  omega

theorem bytes_u32le (v : UInt64) :
    [((v &&& 0xFFFFFFFF).toUInt32 &&& 0xFF).toUInt8,
      (((v &&& 0xFFFFFFFF).toUInt32 >>> 8) &&& 0xFF).toUInt8,
      (((v &&& 0xFFFFFFFF).toUInt32 >>> 16) &&& 0xFF).toUInt8,
      (((v &&& 0xFFFFFFFF).toUInt32 >>> 24) &&& 0xFF).toUInt8] = leBytes 4 v.toNat := by
  simp [leBytes, List.range_succ, ← UInt8.toNat_inj, and_u8, and_u32, Nat.shiftRight_eq_div_pow]
  omega

/-- **A number is written as the bytes of its type.** -/
theorem updateField_number {f : ProtoPlexerField} (hf : f.type ∈ ["u8", "u16le", "u32le", "u32be"])
    (state : String → ProtoPlexerFieldState) (data : List UInt8) :
    updateField state data f =
      writeBytes data f.offset.toNat (numberBytes f.type (state f.name).value.toNat) := by
  simp only [List.mem_cons, List.not_mem_nil, or_false] at hf
  rcases hf with h | h | h | h
  all_goals simp only [updateField, h, String.reduceEq, reduceIte, numberBytes, typeWidth,
    or_false, or_true]
  · rw [writeU8, bytes_u8]
  · rw [writeU16le, bytes_u16le]
  · rw [writeU32le, bytes_u32le]
  · rw [writeU32be, ← bytes_u32le]
    rfl

/-- Four bytes of a number joined again. -/
theorem toNat_word_leBytes (n : ℕ) :
    ((((leBytes 4 n).getD 3 0).toUInt32 <<< 24) ||| (((leBytes 4 n).getD 2 0).toUInt32 <<< 16) |||
      (((leBytes 4 n).getD 1 0).toUInt32 <<< 8) ||| ((leBytes 4 n).getD 0 0).toUInt32).toNat =
      n % 2 ^ 32 := by
  rw [toNat_word]
  simp [leBytes, List.range_succ]
  omega

/-- A payload holds some bytes from `off` on. -/
def Holds (data : List UInt8) (off : ℕ) (bytes : List UInt8) : Prop :=
  off + bytes.length ≤ data.length ∧
    ∀ j < bytes.length, data.getD (off + j) 0 = bytes.getD j 0

theorem readU8At_of_holds {data : List UInt8} {off n : ℕ} (h : Holds data off (leBytes 1 n)) :
    ∃ v, readU8At data off = some v ∧ v.toNat = n % 2 ^ 8 := by
  obtain ⟨hlen, hbytes⟩ := h
  rw [length_leBytes] at hlen hbytes
  have h0 : data.getD off 0 = (leBytes 1 n).getD 0 0 := hbytes 0 (by omega)
  refine ⟨(leBytes 1 n).getD 0 0, ?_, by simp [leBytes]⟩
  rw [readU8At, if_neg (by omega), h0]

theorem readU32leAt_of_holds {data : List UInt8} {off n : ℕ} (h : Holds data off (leBytes 4 n)) :
    ∃ v, readU32leAt data off = some v ∧ v.toNat = n % 2 ^ 32 := by
  obtain ⟨hlen, hbytes⟩ := h
  rw [length_leBytes] at hlen hbytes
  have h0 : data.getD off 0 = (leBytes 4 n).getD 0 0 := hbytes 0 (by omega)
  -- the source joins the bytes from the lowest one on
  have hcomm : ∀ a b c d : UInt32, a ||| b ||| c ||| d = d ||| c ||| b ||| a := by
    intro a b c d
    ac_rfl
  refine ⟨_, ?_, toNat_word_leBytes n⟩
  rw [readU32leAt, if_neg (by omega), h0, hbytes 1 (by omega), hbytes 2 (by omega),
    hbytes 3 (by omega), hcomm]

theorem readU32beAt_of_holds {data : List UInt8} {off n : ℕ}
    (h : Holds data off (leBytes 4 n).reverse) :
    ∃ v, readU32beAt data off = some v ∧ v.toNat = n % 2 ^ 32 := by
  obtain ⟨hlen, hbytes⟩ := h
  rw [List.length_reverse, length_leBytes] at hlen hbytes
  have h0 : data.getD off 0 = (leBytes 4 n).reverse.getD 0 0 := hbytes 0 (by omega)
  refine ⟨_, ?_, toNat_word_leBytes n⟩
  rw [readU32beAt, if_neg (by omega), h0, hbytes 1 (by omega), hbytes 2 (by omega),
    hbytes 3 (by omega)]
  rfl

/-! ### The fields of a payload -/

/-- Bit `c.2` of byte `c.1` of a payload. -/
def bitAt (data : List UInt8) (c : ℕ × ℕ) : Bool := (data.getD c.1 0).toNat.testBit c.2

/-- **What a field of the form writes**: its bits. -/
def fieldWriter (state : String → ProtoPlexerFieldState) (f : ProtoPlexerField) :
    Writer (ℕ × ℕ) Bool where
  owns := f.Occupies
  value c :=
    if f.type = "bit" then (state f.name).boolValue
    else bitAt (numberBytes f.type (state f.name).value.toNat) (c.1 - f.offset.toNat, c.2)

section Form

variable {d : ProtoPlexerMessageDef} (state : String → ProtoPlexerFieldState)
  {f : ProtoPlexerField}

/-- A type that is not `bit` is a type of numbers. -/
theorem ProtoPlexerMessageDef.Layout.number (hd : d.Layout) (hf : f ∈ d.fields)
    (hbit : f.type ≠ "bit") : f.type ∈ ["u8", "u16le", "u32le", "u32be"] := by
  have htype := hd.types f hf
  simp only [List.mem_cons, List.not_mem_nil, or_false] at htype ⊢
  tauto

/-- What the form does for a bit. -/
theorem updateField_bit (hbit : f.type = "bit") (data : List UInt8) :
    updateField state data f = writeBit data f.offset.toNat f.bit (state f.name).boolValue := by
  simp only [updateField, hbit, String.reduceEq, reduceIte]

/-- A bit of the payload after the form has dealt with a field. -/
theorem bitAt_updateField (hd : d.Layout) (hf : f ∈ d.fields) (data : List UInt8) (c : ℕ × ℕ) :
    bitAt (updateField state data f) c =
      if f.Occupies c then (fieldWriter state f).value c else bitAt data c := by
  by_cases hbit : f.type = "bit"
  · obtain ⟨h0, h7⟩ := hd.bits f hf hbit
    have howns : f.Occupies c ↔ c.1 = f.offset.toNat ∧ (c.2 : ℤ) = f.bit := by
      rw [ProtoPlexerField.Occupies, if_pos hbit]
    simp only [bitAt, updateField_bit state hbit, getD_writeBit h0 h7, fieldWriter, if_pos hbit,
      howns]
    by_cases hc : c.1 = f.offset.toNat
    · rw [if_pos hc, testBit_setBit _ (by omega), hc]
      by_cases hk : c.2 = f.bit.toNat
      · rw [if_pos hk, if_pos ⟨rfl, by omega⟩]
      · rw [if_neg hk, if_neg fun h => hk (by omega)]
    · rw [if_neg hc, if_neg fun h => hc h.1]
  · have howns : f.Occupies c ↔
        f.offset.toNat ≤ c.1 ∧ c.1 < f.offset.toNat + typeWidth f.type := by
      rw [ProtoPlexerField.Occupies, if_neg hbit]
    simp only [bitAt, updateField_number (hd.number hf hbit), getD_writeBytes, length_numberBytes,
      fieldWriter, if_neg hbit, howns]
    split_ifs <;> rfl

/-- **A field of the form writes its own bits and no others.** -/
theorem updateField_acts (hd : d.Layout) (hf : f ∈ d.fields) (data : List UInt8) :
    (fieldWriter state f).Acts (bitAt data) (bitAt (updateField state data f)) where
  own c hc := by
    rw [bitAt_updateField state hd hf]
    exact if_pos hc
  other c hc := by
    rw [bitAt_updateField state hd hf]
    exact if_neg hc

/-- The form never shortens the payload, and makes room for the field. -/
theorem length_updateField (hd : d.Layout) (hf : f ∈ d.fields) (data : List UInt8) :
    (updateField state data f).length =
      max data.length (f.offset.toNat + f.span) := by
  unfold ProtoPlexerField.span
  split_ifs with hbit
  · obtain ⟨h0, h7⟩ := hd.bits f hf hbit
    rw [updateField_bit state hbit, length_writeBit h0 h7]
  · rw [updateField_number (hd.number hf hbit), length_writeBytes, length_numberBytes]

/-- Room made for one field is there for all that come after it. -/
theorem length_foldl_updateField (hd : d.Layout) {fs : List ProtoPlexerField}
    (hsub : ∀ g ∈ fs, g ∈ d.fields) (data : List UInt8) :
    data.length ≤ (fs.foldl (updateField state) data).length ∧
      ∀ g ∈ fs, g.offset.toNat + g.span ≤ (fs.foldl (updateField state) data).length := by
  induction fs generalizing data with
  | nil => exact ⟨le_rfl, by simp⟩
  | cons f fs ih =>
    have hlen := length_updateField state hd (hsub f List.mem_cons_self) data
    obtain ⟨hgrow, hroom⟩ := ih (fun g hg => hsub g (List.mem_cons_of_mem f hg))
      (updateField state data f)
    rw [List.foldl_cons]
    refine ⟨by omega, fun g hg => ?_⟩
    rcases List.mem_cons.mp hg with rfl | hg
    · omega
    · exact hroom g hg

/-- The payload has room for every field. -/
theorem span_le_payload (hd : d.Layout) (hf : f ∈ d.fields) :
    f.offset.toNat + f.span ≤ (updatePayloadFromFields (some d) state).length :=
  (length_foldl_updateField state hd (fun _ hg => hg) []).2 f hf

/-- **Every field has its bits in the payload.** -/
theorem bitAt_payload (hd : d.Layout) (hf : f ∈ d.fields) {c : ℕ × ℕ} (hc : f.Occupies c) :
    bitAt (updatePayloadFromFields (some d) state) c = (fieldWriter state f).value c := by
  have hacts : ∀ g ∈ d.fields, ∀ data,
      (fieldWriter state g).Acts (bitAt data) (bitAt (updateField state data g)) :=
    fun g hg data => updateField_acts state hd hg data
  exact Writer.foldl_of_owns hacts hd.disjoint hf hc []

/-- A field of numbers has its bytes in the payload. -/
theorem payload_holds (hd : d.Layout) (hf : f ∈ d.fields) (hbit : f.type ≠ "bit") :
    Holds (updatePayloadFromFields (some d) state) f.offset.toNat
      (numberBytes f.type (state f.name).value.toNat) := by
  constructor
  · have hspan := span_le_payload state hd hf
    rwa [ProtoPlexerField.span, if_neg hbit, ← length_numberBytes] at hspan
  · intro j hj
    rw [length_numberBytes] at hj
    apply UInt8.toNat_inj.mp
    apply Nat.eq_of_testBit_eq
    intro k
    have hocc : f.Occupies (f.offset.toNat + j, k) := by
      rw [ProtoPlexerField.Occupies, if_neg hbit]
      exact ⟨Nat.le_add_right .., Nat.add_lt_add_left hj _⟩
    have hcell := bitAt_payload state hd hf hocc
    simp only [fieldWriter, if_neg hbit, Nat.add_sub_cancel_left] at hcell
    exact hcell

/-- A bit of a byte as a number. -/
theorem toNat_bitOf (b : UInt8) {i : ℕ} (hi : i ≤ 7) :
    ((b >>> UInt8.ofNat i) &&& 0x01).toNat = (b.toNat.testBit i).toNat := by
  have hidx : (UInt8.ofNat i).toNat % 8 = i := by
    rw [UInt8.toNat_ofNat', Nat.mod_eq_of_lt (by omega), Nat.mod_eq_of_lt (by omega)]
  rw [UInt8.toNat_and, UInt8.toNat_shiftRight, hidx, Nat.toNat_testBit,
    Nat.shiftRight_eq_div_pow]
  exact Nat.and_two_pow_sub_one_eq_mod _ 1

/-- **A field comes back as it was entered, unless it is a `u16le`**, which the summary does
not know. -/
theorem readField_payload (hd : d.Layout) (hf : f ∈ d.fields) :
    readField (updatePayloadFromFields (some d) state) f =
      if f.type = "u16le" then none else some (toString (f.entered (state f.name))) := by
  by_cases hbit : f.type = "bit"
  · obtain ⟨h0, h7⟩ := hd.bits f hf hbit
    have hspan := span_le_payload state hd hf
    rw [ProtoPlexerField.span, if_pos hbit] at hspan
    have hocc : f.Occupies (f.offset.toNat, f.bit.toNat) := by
      rw [ProtoPlexerField.Occupies, if_pos hbit]
      exact ⟨rfl, Int.toNat_of_nonneg h0⟩
    have hcell := bitAt_payload state hd hf hocc
    simp only [fieldWriter, if_pos hbit] at hcell
    have hread : readU8At (updatePayloadFromFields (some d) state) f.offset.toNat =
        some ((updatePayloadFromFields (some d) state).getD f.offset.toNat 0) :=
      if_neg (by omega)
    simp only [readField, hbit, String.reduceEq, reduceIte, hread, ProtoPlexerField.entered]
    rw [if_neg (by omega), toNat_bitOf _ (by omega)]
    exact congrArg (fun b => some (toString (Bool.toNat b))) hcell
  · have hholds := payload_holds state hd hf hbit
    have hnumber := hd.number hf hbit
    simp only [List.mem_cons, List.not_mem_nil, or_false] at hnumber
    rcases hnumber with h | h | h | h
    all_goals
      simp only [readField, ProtoPlexerField.entered, numberBytes, typeWidth, h, String.reduceEq,
        reduceIte, or_false, or_true] at hholds ⊢
    · obtain ⟨v, hread, hv⟩ := readU8At_of_holds hholds
      rw [hread, Option.map_some, hv]
    · obtain ⟨v, hread, hv⟩ := readU32leAt_of_holds hholds
      rw [hread, Option.map_some, hv]
    · obtain ⟨v, hread, hv⟩ := readU32beAt_of_holds hholds
      rw [hread, Option.map_some, hv]

end Form

/-! ### The summary as a list -/

/-- The fields a summary shows, as it shows them. -/
def summaryItems (data : List UInt8) (fs : List ProtoPlexerField) : List String :=
  fs.filterMap fun f => (readField data f).map fun v => f.name ++ "=" ++ v

/-- What the loop of the summary does with a field. -/
def summaryStep (data : List UInt8) (out : String × Bool) (f : ProtoPlexerField) :
    String × Bool :=
  match readField data f with
  | none => out
  | some v => appendKv out f.name v

/-- A text the loop has begun goes on with the fields that are still to come. -/
theorem foldl_summaryStep_begun (data : List UInt8) (fs : List ProtoPlexerField) (out : String) :
    (fs.foldl (summaryStep data) (out, false)).1 =
      " ".intercalate (out :: summaryItems data fs) := by
  induction fs generalizing out with
  | nil => exact String.intercalate_singleton.symm
  | cons f fs ih =>
    rw [List.foldl_cons, summaryItems, List.filterMap_cons]
    cases hread : readField data f with
    | none =>
      rw [summaryStep, hread]
      exact ih out
    | some v =>
      rw [summaryStep, hread]
      calc (fs.foldl (summaryStep data) (out ++ " " ++ f.name ++ "=" ++ v, false)).1
          = " ".intercalate ((out ++ " " ++ f.name ++ "=" ++ v) :: summaryItems data fs) := ih _
        _ = " ".intercalate ((out ++ " " ++ (f.name ++ "=" ++ v)) :: summaryItems data fs) := by
          simp only [String.append_assoc]
        _ = " ".intercalate (out :: (f.name ++ "=" ++ v) :: summaryItems data fs) := rfl

/-- **The summary is the list of the fields that are read.** -/
theorem formatPayloadSummary_eq {dict : ProtoPlexerDictionary} {id : UInt16}
    {d : ProtoPlexerMessageDef} (hdef : dict.messages id = some d) (data : List UInt8) :
    formatPayloadSummary dict id data = " ".intercalate (summaryItems data d.fields) := by
  have hloop : ∀ fs : List ProtoPlexerField,
      (fs.foldl (summaryStep data) ("", true)).1 = " ".intercalate (summaryItems data fs) := by
    intro fs
    induction fs with
    | nil => rfl
    | cons f fs ih =>
      rw [List.foldl_cons, summaryItems, List.filterMap_cons]
      cases hread : readField data f with
      | none =>
        rw [summaryStep, hread]
        exact ih
      | some v =>
        rw [summaryStep, hread]
        exact (foldl_summaryStep_begun data fs _).trans (by rw [String.empty_append]; rfl)
  simp only [formatPayloadSummary, hdef]
  split_ifs with hempty
  · rw [List.isEmpty_iff.mp hempty]
    rfl
  · exact hloop d.fields

/-- What the texts of a summary come to. -/
theorem length_intercalate (items : List String) :
    (" ".intercalate items).length = (items.map fun t => t.length + 1).sum - 1 := by
  induction items with
  | nil => rfl
  | cons t items ih =>
    cases items with
    | nil => simp
    | cons u items =>
      rw [String.intercalate_cons_cons, String.length_append, String.length_append, ih]
      simp only [List.map_cons, List.sum_cons, show " ".length = 1 from rfl]
      omega

/-- **A summary that leaves a field out is too short.** -/
theorem length_intercalate_filter {α : Type*} {text : α → String}
    (htext : ∀ a, 0 < (text a).length) {p : α → Bool} {as : List α} {a : α} (ha : a ∈ as)
    (hp : p a = false) :
    (" ".intercalate ((as.filter p).map text)).length < (" ".intercalate (as.map text)).length := by
  have hle : ∀ bs : List α, (((bs.filter p).map text).map fun t => t.length + 1).sum ≤
      ((bs.map text).map fun t => t.length + 1).sum := by
    intro bs
    simp only [List.map_map]
    exact (List.filter_sublist.map _).sum_le_sum fun _ _ => Nat.zero_le _
  have hsum : (((as.filter p).map text).map fun t => t.length + 1).sum + ((text a).length + 1) ≤
      ((as.map text).map fun t => t.length + 1).sum := by
    induction as with
    | nil => exact absurd ha List.not_mem_nil
    | cons b bs ih =>
      rcases List.mem_cons.mp ha with rfl | hmem
      · rw [List.filter_cons_of_neg (by rw [hp]; exact Bool.false_ne_true)]
        have hbs := hle bs
        simp only [List.map_cons, List.sum_cons]
        omega
      · have hbs := ih hmem
        cases hb : p b with
        | true =>
          rw [List.filter_cons_of_pos hb]
          simp only [List.map_cons, List.sum_cons]
          omega
        | false =>
          rw [List.filter_cons_of_neg (by rw [hb]; exact Bool.false_ne_true)]
          simp only [List.map_cons, List.sum_cons]
          omega
  have hpos := htext a
  rw [length_intercalate, length_intercalate]
  omega

/-! ### What the form encodes, the summary decodes -/

/-- The items of a summary of the form's payload: a `u16le` is not among them. -/
theorem summaryItems_payload {d : ProtoPlexerMessageDef} (hd : d.Layout)
    (state : String → ProtoPlexerFieldState) :
    summaryItems (updatePayloadFromFields (some d) state) d.fields =
      (d.fields.filter fun f => f.type ≠ "u16le").map (ProtoPlexerField.text state) := by
  have hitem : ∀ fs : List ProtoPlexerField, (∀ f ∈ fs, f ∈ d.fields) →
      summaryItems (updatePayloadFromFields (some d) state) fs =
        (fs.filter fun f => f.type ≠ "u16le").map (ProtoPlexerField.text state) := by
    intro fs
    induction fs with
    | nil => exact fun _ => rfl
    | cons f fs ih =>
      intro hsub
      have hread := readField_payload state hd (hsub f List.mem_cons_self)
      have htail := ih fun g hg => hsub g (List.mem_cons_of_mem f hg)
      rw [summaryItems] at htail ⊢
      by_cases h16 : f.type = "u16le"
      · rw [if_pos h16] at hread
        rw [List.filterMap_cons_none (by rw [hread]; rfl), htail,
          List.filter_cons_of_neg (by simp [h16])]
      · rw [if_neg h16] at hread
        rw [List.filterMap_cons_some (by rw [hread]; rfl), htail,
          List.filter_cons_of_pos (by simp [h16]), List.map_cons, ProtoPlexerField.text]
  exact hitem d.fields fun _ hf => hf

theorem text_pos (state : String → ProtoPlexerFieldState) (f : ProtoPlexerField) :
    0 < (f.text state).length := by
  rw [ProtoPlexerField.text, String.length_append, String.length_append]
  simp only [show "=".length = 1 from rfl]
  omega

/-- **The summary decodes what the form encodes exactly if no field is a `u16le`**: for every
definition with a layout and every state of the form. -/
theorem summary_of_form_iff (dict : ProtoPlexerDictionary) (id : UInt16)
    (d : ProtoPlexerMessageDef) (hdef : dict.messages id = some d) (hd : d.Layout)
    (state : String → ProtoPlexerFieldState) :
    formatPayloadSummary dict id (updatePayloadFromFields (some d) state) =
        " ".intercalate (d.fields.map (ProtoPlexerField.text state)) ↔
      ∀ f ∈ d.fields, f.type ≠ "u16le" := by
  rw [formatPayloadSummary_eq hdef, summaryItems_payload hd state]
  constructor
  · intro heq f hf h16
    have hshort := length_intercalate_filter (text_pos state) (p := fun f => f.type ≠ "u16le") hf
      (by simp [h16])
    rw [heq] at hshort
    exact lt_irrefl _ hshort
  · intro hall
    rw [List.filter_eq_self.mpr fun f hf => by simp [hall f hf]]

/-! ### A run of the form -/

/-- A time, a level and two switches, not in the order of the payload. -/
def stationDef : ProtoPlexerMessageDef :=
  ⟨[⟨"time", "u32be", 2, -1⟩, ⟨"power", "bit", 1, 6⟩, ⟨"level", "u8", 0, -1⟩,
    ⟨"lamp", "bit", 1, 0⟩]⟩

/-- A position and a speed of two bytes. -/
def axisDef : ProtoPlexerMessageDef := ⟨[⟨"pos", "u32le", 0, -1⟩, ⟨"speed", "u16le", 4, -1⟩]⟩

/-- A dictionary of the two. -/
def twoMessages : ProtoPlexerDictionary :=
  ⟨fun id => if id = 1 then some stationDef else if id = 2 then some axisDef else none⟩

/-- A form into which `300` is entered everywhere and every switch is on. -/
def formOf300 (_ : String) : ProtoPlexerFieldState := { value := 300, boolValue := true }

/-- The station's fields lie apart. -/
theorem stationDef_layout : stationDef.Layout where
  types := by decide
  bits := by decide
  disjoint := by
    simp only [stationDef, List.pairwise_cons, List.mem_cons, List.not_mem_nil, or_false,
      forall_eq_or_imp, forall_eq, IsEmpty.forall_iff, implies_true, List.Pairwise.nil, and_true,
      ProtoPlexerField.Occupies, typeWidth, String.reduceEq, reduceIte, or_true]
    refine ⟨⟨?_, ?_, ?_⟩, ⟨?_, ?_⟩, ?_⟩ <;> intro c <;> simp <;> omega

/-- The form for a station: of the level, `300` modulo `256` is left. -/
theorem summary_of_form_station :
    formatPayloadSummary twoMessages 1 (updatePayloadFromFields (some stationDef) formOf300) =
      "time=300 power=1 level=44 lamp=1" :=
  ((summary_of_form_iff twoMessages 1 stationDef rfl stationDef_layout formOf300).mpr
    (by decide)).trans (by decide)

/-- The axis's fields lie apart as well. -/
theorem axisDef_layout : axisDef.Layout where
  types := by decide
  bits := by decide
  disjoint := by
    simp only [axisDef, List.pairwise_cons, List.mem_cons, List.not_mem_nil, or_false,
      forall_eq, IsEmpty.forall_iff, implies_true, List.Pairwise.nil, and_true,
      ProtoPlexerField.Occupies, typeWidth, String.reduceEq, reduceIte]
    intro c
    simp
    omega

/-- The form for an axis: the speed is encoded, and the summary leaves it out. -/
theorem summary_of_form_lossy :
    axisDef.Layout ∧ (axisDef.fields.map ProtoPlexerField.name).Nodup ∧
      twoMessages.messages 2 = some axisDef ∧
      updatePayloadFromFields (some axisDef) formOf300 = [44, 1, 0, 0, 44, 1] ∧
      formatPayloadSummary twoMessages 2 (updatePayloadFromFields (some axisDef) formOf300) =
        "pos=300" ∧
      " ".intercalate (axisDef.fields.map (ProtoPlexerField.text formOf300)) =
        "pos=300 speed=300" ∧
      formatPayloadSummary twoMessages 2 (updatePayloadFromFields (some axisDef) formOf300) ≠
        " ".intercalate (axisDef.fields.map (ProtoPlexerField.text formOf300)) := by
  refine ⟨axisDef_layout, ?_⟩
  decide

end UniCan.App
