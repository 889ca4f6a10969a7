import Mathlib.Algebra.Order.Floor.Ring
import Mathlib.Algebra.Order.Ring.Rat
import Mathlib.Data.List.Nodup
import Mathlib.Data.Nat.Bitwise
import Mathlib.Data.Rat.Floor
import Mathlib.Tactic.Linarith
import UniCan.Foundation.Bits

/-!
# J1939 signals

The data of a J1939 message is one word in which the signals of the message's descriptor
lie one after the other, each as long as the descriptor says.  A raw signal holds a number,
a signal of type `SLOT` a measured value in steps of its scale from its offset on; the
pattern of ones means that there is no value.  Both functions walk along the descriptor and
add up the lengths, `uni_can_j1939_msg.c`.

Measured values are idealised as exact rationals.  A shift by the width of the word or more
has no result, as in the language.

## Main definitions

* `Signal`, `Double`, `SignalValue` — the descriptor and the values.
* `signalGet`, `signalSet` — the two functions.
* `Descriptor` — the descriptors whose signals fit into the word.

## Main results

* `signalGet_eq`, `signalSet_eq` — **a call reads or writes the field its signal has in the
  layout**, and fails for the identifiers that are not in it.
* `readField_eq`, `writeField_eq` — a field shorter than the word, read and written bit by bit.
* `raw_signal_iff` — **a raw signal packs and unpacks independently exactly if it is
  shorter than the word.**
* `slot_signal_iff` — **a measured value reads back right or not at all exactly if it is not
  below the range**, up to those that turn into the pattern of ones by accident.
-/

namespace UniCan
namespace J1939

/-! ### Words -/

/-- `x << k` for 64-bit words, which the language defines only for `k < 64`. -/
def shl (x : UInt64) (k : ℕ) : Option UInt64 :=
  if k < 64 then some (x <<< UInt64.ofNat k) else none

/-- `x >> k`, likewise. -/
def shr (x : UInt64) (k : ℕ) : Option UInt64 :=
  if k < 64 then some (x >>> UInt64.ofNat k) else none

/-! ### Descriptors and values -/

/-- `uni_can_j1939_signal_type_e`. -/
inductive SignalType
  | slot
  | raw
  | pgnnum
  | special (i : Fin 10)
  deriving DecidableEq, Repr

/-- `uni_can_j1939_signal_t`. -/
structure Signal where
  /-- The number it is asked for by. -/
  id : ℕ
  /-- How many bits it has. -/
  length : ℕ
  /-- The value of the pattern of zeros. -/
  offset : ℚ
  /-- The value of a step. -/
  scale : ℚ
  /-- The smallest value it can take. -/
  valMin : ℚ
  /-- The largest one. -/
  valMax : ℚ
  /-- What it is. -/
  type : SignalType
  deriving DecidableEq

/-- A measured value: not a number, an infinity, or a number. -/
inductive Double
  | nan
  | inf (negative : Bool)
  | num (q : ℚ)
  deriving DecidableEq

/-- A value handed over to be set: the union as each of its two members reads it. -/
structure SignalValue where
  rawUint64 : UInt64
  slot : Double

/-- What has been written into the union by a reader: one of its members. -/
inductive SignalResult
  | raw (v : UInt64)
  | slot (x : Double)
  deriving DecidableEq

/-- A number cut to its integer part, towards zero, and to the width of the word. -/
def truncToUint64 (q : ℚ) : UInt64 := UInt64.ofInt (if 0 ≤ q then ⌊q⌋ else -⌊-q⌋)

/-! ### Reading and writing -/

/-- What `uni_can_j1939_msg_signal_get` does at the signal it looks for, which starts at bit
`offset`. -/
def readField (data : UInt64) (offset : ℕ) (s : Signal) : Option SignalResult := do
  let one ← shl 1 s.length
  let valMax := one - 1
  let shifted ← shr data offset
  let val := shifted &&& valMax
  if s.type = .slot then
    if val = valMax then some (.slot .nan)
    else some (.slot (.num (val.toNat * s.scale + s.offset)))
  else some (.raw val)

/-- The number a measured value is written as, in a field whose largest number is `valMax`. -/
def encodeSlot (s : Signal) (valMax : UInt64) : Double → UInt64
  | .nan => valMax
  | .inf _ => valMax
  | .num q => if s.valMax < q then valMax else truncToUint64 ((q - s.offset) / s.scale) &&& valMax

/-- What `uni_can_j1939_msg_signal_set` does at the signal it looks for. -/
def writeField (data : UInt64) (offset : ℕ) (s : Signal) (value : SignalValue) :
    Option UInt64 := do
  let one ← shl 1 s.length
  let valMax := one - 1
  let mask ← shl valMax offset
  let val := if s.type = .slot then encodeSlot s valMax value.slot else value.rawUint64 &&& valMax
  let placed ← shl val offset
  some (data &&& ~~~mask ||| placed)

/-- The loop of both functions: along the descriptor, with the number of bits that lie behind
and what is done at a signal of the identifier. -/
def walk {ρ : Type*} (signalId : ℕ) (act : ℕ → ρ → Signal → Option ρ) :
    ℕ → List Signal → ρ → Option ρ
  | _, [], r => some r
  | offset, s :: signals, r =>
    if s.id = signalId then
      match act offset r s with
      | none => none
      | some r => walk signalId act (offset + s.length) signals r
    else walk signalId act (offset + s.length) signals r

/-- **`uni_can_j1939_msg_signal_get`**: whether the signal was found, and its value. -/
def signalGet (data : UInt64) (signals : List Signal) (signalId : ℕ) :
    Option (Bool × Option SignalResult) :=
  walk signalId (fun offset _ s => (readField data offset s).map fun v => (true, some v)) 0 signals
    (false, none)

/-- **`uni_can_j1939_msg_signal_set`**: whether the signal was found, and the new data. -/
def signalSet (data : UInt64) (signals : List Signal) (signalId : ℕ) (value : SignalValue) :
    Option (Bool × UInt64) :=
  walk signalId (fun offset st s => (writeField st.2 offset s value).map fun d => (true, d)) 0
    signals (false, data)

/-! ### The layout -/

/-- The first bit of the signal with this identifier. -/
def offsetOf : List Signal → ℕ → ℕ
  | [], _ => 0
  | s :: signals, signalId =>
    if s.id = signalId then 0 else s.length + offsetOf signals signalId

/-- **A descriptor whose signals fit into `width` bits**, each under an identifier of its
own. -/
structure Descriptor (width : ℕ) (signals : List Signal) : Prop where
  ids : (signals.map Signal.id).Nodup
  lengths : ∀ s ∈ signals, 1 ≤ s.length
  total : (signals.map Signal.length).sum ≤ width

section Layout

variable {signals : List Signal} {s t : Signal}

/-- A signal lies inside the bits of the descriptor. -/
theorem offsetOf_add_length_le (hids : (signals.map Signal.id).Nodup) (hs : s ∈ signals) :
    offsetOf signals s.id + s.length ≤ (signals.map Signal.length).sum := by
  induction signals with
  | nil => exact absurd hs List.not_mem_nil
  | cons u signals ih =>
    rw [List.map_cons, List.nodup_cons] at hids
    rw [offsetOf, List.map_cons, List.sum_cons]
    rcases List.mem_cons.mp hs with rfl | hmem
    · rw [if_pos rfl]
      omega
    · have hne : u.id ≠ s.id := fun h => hids.1 (h ▸ List.mem_map_of_mem hmem)
      have hle := ih hids.2 hmem
      rw [if_neg hne]
      omega

/-- **Two signals of a descriptor lie apart.** -/
theorem offsetOf_disjoint (hids : (signals.map Signal.id).Nodup) (hs : s ∈ signals)
    (ht : t ∈ signals) (hne : s.id ≠ t.id) :
    offsetOf signals s.id + s.length ≤ offsetOf signals t.id ∨
      offsetOf signals t.id + t.length ≤ offsetOf signals s.id := by
  induction signals with
  | nil => exact absurd hs List.not_mem_nil
  | cons u signals ih =>
    rw [List.map_cons, List.nodup_cons] at hids
    have hfirst : ∀ v ∈ signals, u.id ≠ v.id :=
      fun v hv h => hids.1 (h ▸ List.mem_map_of_mem hv)
    simp only [offsetOf]
    rcases List.mem_cons.mp hs with rfl | hs'
    · rw [if_pos rfl, if_neg hne]
      omega
    · rcases List.mem_cons.mp ht with rfl | ht'
      · rw [if_pos rfl, if_neg (Ne.symm hne)]
        omega
      · have hapart := ih hids.2 hs' ht'
        rw [if_neg (hfirst s hs'), if_neg (hfirst t ht')]
        omega

variable {ρ : Type*} {act : ℕ → ρ → Signal → Option ρ}

/-- A call for an identifier that is not in the descriptor does nothing. -/
theorem walk_of_not_mem {signalId : ℕ} (hout : signalId ∉ signals.map Signal.id) (offset : ℕ)
    (r : ρ) : walk signalId act offset signals r = some r := by
  induction signals generalizing offset with
  | nil => rfl
  | cons u signals ih =>
    rw [List.map_cons, List.mem_cons, not_or] at hout
    rw [walk, if_neg (Ne.symm hout.1)]
    exact ih hout.2 _

/-- **A call for a signal of the descriptor acts at the bit where it begins**, once. -/
theorem walk_of_mem (hids : (signals.map Signal.id).Nodup) (hs : s ∈ signals) (offset : ℕ)
    (r : ρ) : walk s.id act offset signals r = act (offset + offsetOf signals s.id) r s := by
  induction signals generalizing offset with
  | nil => exact absurd hs List.not_mem_nil
  | cons u signals ih =>
    rw [List.map_cons, List.nodup_cons] at hids
    rw [walk, offsetOf]
    rcases List.mem_cons.mp hs with rfl | hmem
    · rw [if_pos rfl, if_pos rfl, Nat.add_zero]
      cases hact : act offset r s with
      | none => rfl
      | some r' => exact walk_of_not_mem hids.1 _ r'
    · have hne : u.id ≠ s.id := fun h => hids.1 (h ▸ List.mem_map_of_mem hmem)
      rw [if_neg hne, if_neg hne, ih hids.2 hmem, Nat.add_assoc]

/-- **Reading a signal reads its field.** -/
theorem signalGet_eq (hids : (signals.map Signal.id).Nodup) (hs : s ∈ signals) (data : UInt64) :
    signalGet data signals s.id =
      (readField data (offsetOf signals s.id) s).map fun v => (true, some v) := by
  rw [signalGet, walk_of_mem hids hs, Nat.zero_add]

/-- **Writing a signal writes its field.** -/
theorem signalSet_eq (hids : (signals.map Signal.id).Nodup) (hs : s ∈ signals) (data : UInt64)
    (value : SignalValue) :
    signalSet data signals s.id value =
      (writeField data (offsetOf signals s.id) s value).map fun d => (true, d) := by
  rw [signalSet, walk_of_mem hids hs, Nat.zero_add]

end Layout

/-! ### The bits of a field -/

theorem shl_of_lt (x : UInt64) {k : ℕ} (hk : k < 64) :
    ∃ y, shl x k = some y ∧ y.toNat = x.toNat <<< k % 2 ^ 64 := by
  refine ⟨_, if_pos hk, ?_⟩
  rw [UInt64.toNat_shiftLeft, UInt64.toNat_ofNat', Nat.mod_eq_of_lt (by omega : k < 2 ^ 64),
    Nat.mod_eq_of_lt hk]

theorem shr_of_lt (x : UInt64) {k : ℕ} (hk : k < 64) :
    ∃ y, shr x k = some y ∧ y.toNat = x.toNat / 2 ^ k := by
  refine ⟨_, if_pos hk, ?_⟩
  rw [UInt64.toNat_shiftRight, UInt64.toNat_ofNat', Nat.mod_eq_of_lt (by omega : k < 2 ^ 64),
    Nat.mod_eq_of_lt hk, Nat.shiftRight_eq_div_pow]

/-- The number in a field of `len` bits from bit `offset` on. -/
def fieldOf (data : UInt64) (offset len : ℕ) : ℕ := data.toNat / 2 ^ offset % 2 ^ len

theorem testBit_fieldOf (data : UInt64) (offset len i : ℕ) :
    (fieldOf data offset len).testBit i =
      (decide (i < len) && data.toNat.testBit (offset + i)) := by
  rw [fieldOf, Nat.testBit_mod_two_pow, Nat.testBit_div_two_pow, Nat.add_comm]

/-- The ones of a field that is shorter than the word. -/
theorem shl_one_sub_one {len : ℕ} (hlen : len < 64) :
    ∃ one, shl 1 len = some one ∧ (one - 1).toNat = 2 ^ len - 1 := by
  obtain ⟨one, hshl, hone⟩ := shl_of_lt 1 hlen
  have hpow : 2 ^ len < 2 ^ 64 := Nat.pow_lt_pow_right (by omega) hlen
  have hpos : 0 < 2 ^ len := Nat.two_pow_pos len
  have hval : one.toNat = 2 ^ len := by
    rw [hone, UInt64.toNat_one, Nat.one_shiftLeft, Nat.mod_eq_of_lt hpow]
  refine ⟨one, hshl, ?_⟩
  rw [UInt64.toNat_sub_of_le _ _ (by rw [UInt64.le_iff_toNat_le, UInt64.toNat_one]; omega), hval,
    UInt64.toNat_one]

theorem testBit_not (x : UInt64) (i : ℕ) :
    (~~~x).toNat.testBit i = (decide (i < 64) && !x.toNat.testBit i) := by
  have hlt := x.toNat_lt
  rw [UInt64.toNat_not, show UInt64.size - 1 - x.toNat = 2 ^ 64 - (x.toNat + 1) by
    rw [show UInt64.size = 2 ^ 64 from rfl]; omega, Nat.testBit_two_pow_sub_succ hlt]

/-- What a field reads as. -/
def decodeSignal (s : Signal) (n : ℕ) : SignalResult :=
  if s.type = .slot then
    .slot (if n = 2 ^ s.length - 1 then .nan else .num (n * s.scale + s.offset))
  else .raw (UInt64.ofNat n)

/-- **Reading a field** of fewer bits than the word. -/
theorem readField_eq {s : Signal} (hlen : s.length < 64) {offset : ℕ} (hoff : offset < 64)
    (data : UInt64) :
    readField data offset s = some (decodeSignal s (fieldOf data offset s.length)) := by
  obtain ⟨one, hone, hmax⟩ := shl_one_sub_one hlen
  obtain ⟨shifted, hshr, hshifted⟩ := shr_of_lt data hoff
  have hval : (shifted &&& (one - 1)).toNat = fieldOf data offset s.length := by
    rw [UInt64.toNat_and, hmax, Nat.and_two_pow_sub_one_eq_mod, hshifted, fieldOf]
  have heq : shifted &&& (one - 1) = one - 1 ↔
      fieldOf data offset s.length = 2 ^ s.length - 1 := by
    rw [← UInt64.toNat_inj, hval, hmax]
  simp only [readField, hone, hshr, Option.bind_eq_bind, Option.bind_some, decodeSignal, heq,
    ← hval]
  split_ifs
  · rfl
  · rfl
  · rw [UInt64.ofNat_toNat]

/-- What a value is written as. -/
def encodeSignal (s : Signal) (value : SignalValue) : ℕ :=
  if s.type = .slot then (encodeSlot s (UInt64.ofNat (2 ^ s.length - 1)) value.slot).toNat
  else value.rawUint64.toNat % 2 ^ s.length

theorem toNat_ofNat_ones {len : ℕ} (hlen : len < 64) :
    (UInt64.ofNat (2 ^ len - 1)).toNat = 2 ^ len - 1 := by
  have hpow : 2 ^ len < 2 ^ 64 := Nat.pow_lt_pow_right (by omega) hlen
  rw [UInt64.toNat_ofNat', Nat.mod_eq_of_lt (by omega)]

/-- A value never takes more bits than its field has. -/
theorem encodeSignal_lt {s : Signal} (hlen : s.length < 64) (value : SignalValue) :
    encodeSignal s value < 2 ^ s.length := by
  have hpos := Nat.two_pow_pos s.length
  have hones := toNat_ofNat_ones hlen
  unfold encodeSignal
  split_ifs
  · unfold encodeSlot
    split
    · omega
    · omega
    · split_ifs
      · omega
      · rw [UInt64.toNat_and, hones, Nat.and_two_pow_sub_one_eq_mod]
        exact Nat.mod_lt _ hpos
  · exact Nat.mod_lt _ hpos

/-- **Writing a field** of fewer bits than the word: its bits are those of the value, the
others stay. -/
theorem writeField_eq {s : Signal} (hlen : s.length < 64) (hpos : 1 ≤ s.length) {offset : ℕ}
    (hoff : offset + s.length ≤ 64) (data : UInt64) (value : SignalValue) :
    ∃ data', writeField data offset s value = some data' ∧
      ∀ i, data'.toNat.testBit i =
        if offset ≤ i ∧ i < offset + s.length then (encodeSignal s value).testBit (i - offset)
        else data.toNat.testBit i := by
  obtain ⟨one, hone, hmax⟩ := shl_one_sub_one hlen
  have hones : one - 1 = UInt64.ofNat (2 ^ s.length - 1) := by
    rw [← UInt64.toNat_inj, hmax, toNat_ofNat_ones hlen]
  obtain ⟨mask, hshl, hmask⟩ := shl_of_lt (one - 1) (show offset < 64 by omega)
  obtain ⟨val, hval⟩ : ∃ val : UInt64, val = if s.type = .slot then
      encodeSlot s (one - 1) value.slot else value.rawUint64 &&& (one - 1) := ⟨_, rfl⟩
  have henc : val.toNat = encodeSignal s value := by
    rw [hval, encodeSignal]
    split_ifs
    · rw [hones]
    · rw [UInt64.toNat_and, hmax, Nat.and_two_pow_sub_one_eq_mod]
  obtain ⟨placed, hplace, hplaced⟩ := shl_of_lt val (show offset < 64 by omega)
  refine ⟨data &&& ~~~mask ||| placed, ?_, fun i => ?_⟩
  · simp only [writeField, hone, hshl, Option.bind_eq_bind, Option.bind_some, ← hval, hplace]
  · have hmaskbit : mask.toNat.testBit i = decide (offset ≤ i ∧ i < offset + s.length) := by
      rw [hmask, hmax, Nat.testBit_mod_two_pow, Nat.testBit_shiftLeft, Nat.testBit_two_pow_sub_one]
      rw [Bool.eq_iff_iff]
      simp only [Bool.and_eq_true, decide_eq_true_eq, ge_iff_le]
      omega
    have hplacedbit : placed.toNat.testBit i = (decide (offset ≤ i ∧ i < offset + s.length) &&
        (encodeSignal s value).testBit (i - offset)) := by
      rw [hplaced, henc, Nat.testBit_mod_two_pow, Nat.testBit_shiftLeft]
      by_cases hin : offset ≤ i ∧ i < offset + s.length
      · rw [decide_eq_true hin, decide_eq_true (by omega : i < 64),
          decide_eq_true (by omega : i ≥ offset), Bool.true_and, Bool.true_and]
      · rw [decide_eq_false hin, Bool.false_and]
        by_cases hle : offset ≤ i
        · -- the value has no bit above its field
          have hzero : (encodeSignal s value).testBit (i - offset) = false :=
            testBit_eq_false_of_le (encodeSignal_lt hlen value) (by omega)
          rw [hzero, Bool.and_false, Bool.and_false]
        · rw [decide_eq_false (by omega : ¬ i ≥ offset), Bool.false_and, Bool.and_false]
    rw [UInt64.toNat_or, UInt64.toNat_and, Nat.testBit_or, Nat.testBit_and, testBit_not, hmaskbit,
      hplacedbit]
    split_ifs with hin
    · rw [decide_eq_true hin, Bool.not_true, Bool.and_false, Bool.and_false, Bool.false_or,
        Bool.true_and]
    · rw [decide_eq_false hin, Bool.not_false, Bool.and_true, Bool.false_and, Bool.or_false]
      by_cases hi : i < 64
      · rw [decide_eq_true hi, Bool.and_true]
      · -- a word has no such bit
        have hzero : data.toNat.testBit i = false :=
          testBit_eq_false_of_le data.toNat_lt (by omega : 64 ≤ i)
        rw [hzero, Bool.false_and]

/-! ### Signals do not disturb each other -/

section Independence

variable {signals : List Signal} {s t : Signal}

/-- **A written signal reads back as it is encoded, and nothing else changes.** -/
theorem signalSet_spec (hd : Descriptor 64 signals) (hs : s ∈ signals) (hlen : s.length < 64)
    (data : UInt64) (value : SignalValue) :
    ∃ data', signalSet data signals s.id value = some (true, data') ∧
      signalGet data' signals s.id = some (true, some (decodeSignal s (encodeSignal s value))) ∧
      (∀ i, ¬ (offsetOf signals s.id ≤ i ∧ i < offsetOf signals s.id + s.length) →
        data'.toNat.testBit i = data.toNat.testBit i) ∧
      ∀ t ∈ signals, t.id ≠ s.id → signalGet data' signals t.id = signalGet data signals t.id := by
  have hpos := hd.lengths s hs
  have hin := (offsetOf_add_length_le hd.ids hs).trans hd.total
  obtain ⟨data', hwrite, hbits⟩ := writeField_eq hlen hpos hin data value
  have hown : fieldOf data' (offsetOf signals s.id) s.length = encodeSignal s value := by
    apply Nat.eq_of_testBit_eq
    intro i
    rw [testBit_fieldOf, hbits]
    by_cases hi : i < s.length
    · rw [if_pos (by omega), decide_eq_true hi, Bool.true_and, Nat.add_sub_cancel_left]
    · have hzero : (encodeSignal s value).testBit i = false :=
        testBit_eq_false_of_le (encodeSignal_lt hlen value) (by omega)
      rw [decide_eq_false hi, Bool.false_and, hzero]
  refine ⟨data', ?_, ?_, fun i hi => ?_, fun t ht hne => ?_⟩
  · rw [signalSet_eq hd.ids hs, hwrite, Option.map_some]
  · rw [signalGet_eq hd.ids hs, readField_eq hlen (by omega), hown, Option.map_some]
  · rw [hbits, if_neg hi]
  · -- the field of another signal lies apart, and is shorter than the word as well
    have hpost := hd.lengths t ht
    have hint := (offsetOf_add_length_le hd.ids ht).trans hd.total
    have hapart := offsetOf_disjoint hd.ids ht hs hne
    have hother : fieldOf data' (offsetOf signals t.id) t.length =
        fieldOf data (offsetOf signals t.id) t.length := by
      apply Nat.eq_of_testBit_eq
      intro i
      rw [testBit_fieldOf, testBit_fieldOf, hbits]
      by_cases hi : i < t.length
      · rw [if_neg (by omega)]
      · rw [decide_eq_false hi, Bool.false_and, Bool.false_and]
    rw [signalGet_eq hd.ids ht, signalGet_eq hd.ids ht, readField_eq (by omega) (by omega),
      readField_eq (by omega) (by omega), hother]

/-- In a word of 64 bits, a signal next to another one is shorter than the word. -/
theorem length_lt_of_other (hd : Descriptor 64 signals) (hs : s ∈ signals) (hlen : s.length < 64)
    (ht : t ∈ signals) : t.length < 64 := by
  by_cases hid : t.id = s.id
  · have heq : t = s := List.inj_on_of_nodup_map hd.ids ht hs hid
    rwa [heq]
  · have hpos := hd.lengths s hs
    have hs' := (offsetOf_add_length_le hd.ids hs).trans hd.total
    have ht' := (offsetOf_add_length_le hd.ids ht).trans hd.total
    have hapart := offsetOf_disjoint hd.ids ht hs hid
    omega

/-! ### Raw signals -/

/-- **What a raw signal is for**: no shift is out of range, the value comes back modulo the
width of the signal, no other bit changes, and the identifiers of the descriptor and no others
are found. -/
structure PacksIndependently (signals : List Signal) (s : Signal) (data : UInt64)
    (value : SignalValue) : Prop where
  comes_back : ∃ data', signalSet data signals s.id value = some (true, data') ∧
    signalGet data' signals s.id =
      some (true, some (.raw (UInt64.ofNat (value.rawUint64.toNat % 2 ^ s.length)))) ∧
    (∀ i, ¬ (offsetOf signals s.id ≤ i ∧ i < offsetOf signals s.id + s.length) →
      data'.toNat.testBit i = data.toNat.testBit i) ∧
    ∀ t ∈ signals, t.id ≠ s.id → signalGet data' signals t.id = signalGet data signals t.id
  gets : ∀ id, (signalGet data signals id).map Prod.fst =
    some (decide (id ∈ signals.map Signal.id))
  sets : ∀ id, (signalSet data signals id value).map Prod.fst =
    some (decide (id ∈ signals.map Signal.id))
  unknown : ∀ id, id ∉ signals.map Signal.id → signalSet data signals id value = some (false, data)

/-- Both calls find exactly the identifiers of the descriptor. -/
theorem found_iff (hd : Descriptor 64 signals) (hlen : ∀ t ∈ signals, t.length < 64)
    (data : UInt64) (value : SignalValue) (id : ℕ) :
    (signalGet data signals id).map Prod.fst = some (decide (id ∈ signals.map Signal.id)) ∧
      (signalSet data signals id value).map Prod.fst =
        some (decide (id ∈ signals.map Signal.id)) := by
  by_cases hid : id ∈ signals.map Signal.id
  · obtain ⟨t, ht, rfl⟩ := List.mem_map.mp hid
    have hpos := hd.lengths t ht
    have hin := (offsetOf_add_length_le hd.ids ht).trans hd.total
    obtain ⟨data', hwrite, -⟩ := writeField_eq (hlen t ht) hpos hin data value
    rw [signalGet_eq hd.ids ht, signalSet_eq hd.ids ht, hwrite,
      readField_eq (hlen t ht) (by omega), decide_eq_true hid]
    exact ⟨rfl, rfl⟩
  · rw [signalGet, signalSet, walk_of_not_mem hid, walk_of_not_mem hid, decide_eq_false hid]
    exact ⟨rfl, rfl⟩

/-- A field as wide as the word is never written: its mask would be shifted too far. -/
theorem writeField_eq_none (hlen : 64 ≤ s.length) (data : UInt64) (offset : ℕ)
    (value : SignalValue) : writeField data offset s value = none := by
  rw [writeField, shl, if_neg (by omega)]
  rfl

/-- **A raw signal packs and unpacks independently exactly if it is shorter than the word.** -/
theorem raw_signal_iff (hd : Descriptor 64 signals) (hs : s ∈ signals) (hraw : s.type ≠ .slot)
    (data : UInt64) (value : SignalValue) :
    PacksIndependently signals s data value ↔ s.length < 64 := by
  constructor
  · intro hpacks
    obtain ⟨data', hset, -⟩ := hpacks.comes_back
    by_contra hlen
    rw [signalSet_eq hd.ids hs, writeField_eq_none (by omega)] at hset
    exact absurd hset (by simp)
  · intro hlen
    have hall : ∀ t ∈ signals, t.length < 64 := fun t ht => length_lt_of_other hd hs hlen ht
    obtain ⟨data', hset, hget, hbits, hothers⟩ := signalSet_spec hd hs hlen data value
    rw [decodeSignal, encodeSignal, if_neg hraw, if_neg hraw] at hget
    exact
      { comes_back := ⟨data', hset, hget, hbits, hothers⟩
        gets := fun id => (found_iff hd hall data value id).1
        sets := fun id => (found_iff hd hall data value id).2
        unknown := fun id hid => by rw [signalSet, walk_of_not_mem hid] }

end Independence

/-- A speed of 16 bits in steps of an eighth. -/
def engineSpeed : Signal := ⟨190, 16, 0, 1 / 8, 0, 8000, .slot⟩

/-- A counter of four bits. -/
def rollingCounter : Signal := ⟨7, 4, 0, 1, 0, 0, .raw⟩

/-- A temperature of eight bits, from 40 degrees below zero on. -/
def coolantTemp : Signal := ⟨110, 8, -40, 1, -40, 210, .slot⟩

/-- A number of all the bits there are. -/
def serialNumber : Signal := ⟨588, 64, 0, 1, 0, 0, .raw⟩

/-- A message of three signals. -/
def engineSignals : List Signal := [engineSpeed, rollingCounter, coolantTemp]

theorem engineSignals_descriptor : Descriptor 63 engineSignals where
  ids := by decide
  lengths := by decide
  total := by decide

/-- The counter of the message takes `42` modulo `16`, between its neighbours. -/
theorem raw_signal_counter :
    PacksIndependently engineSignals rollingCounter 0xFFFFFFFFFFFFFFFF ⟨42, .nan⟩ ∧
      signalSet 0xFFFFFFFFFFFFFFFF engineSignals 7 ⟨42, .nan⟩ = some (true, 0xFFFFFFFFFFFAFFFF) :=
  ⟨(raw_signal_iff { engineSignals_descriptor with total := by decide } (by decide) (by decide)
    _ _).mpr (by decide), by decide⟩

/-- A descriptor may hold a single signal of all the bits; setting it shifts too far. -/
theorem raw_signal_too_wide :
    Descriptor 64 [serialNumber] ∧ serialNumber.type ≠ .slot ∧
      signalSet 0 [serialNumber] 588 ⟨5, .nan⟩ = none ∧
      ¬ PacksIndependently [serialNumber] serialNumber 0 ⟨5, .nan⟩ := by
  have hnone : signalSet 0 [serialNumber] 588 ⟨5, .nan⟩ = none := by decide
  refine ⟨⟨by decide, by decide, by decide⟩, by decide, hnone, fun hpacks => ?_⟩
  obtain ⟨data', hset, -⟩ := hpacks.comes_back
  rw [show serialNumber.id = 588 from rfl, hnone] at hset
  exact absurd hset (by simp)

/-! ### Measured values -/

section Slot

variable {signals : List Signal} {s : Signal}

/-- The lowest bits of a truncated number. -/
theorem toNat_truncToUint64 {len : ℕ} (hlen : len < 64) (q : ℚ) :
    (truncToUint64 q).toNat % 2 ^ len = ((if 0 ≤ q then ⌊q⌋ else -⌊-q⌋) % 2 ^ len).toNat := by
  have hmod : ∀ z : ℤ, (UInt64.ofInt z).toNat % 2 ^ len = (z % 2 ^ len).toNat := by
    intro z
    have hdvd : (2 : ℤ) ^ len ∣ 2 ^ 64 := pow_dvd_pow 2 (by omega)
    have hpos : (0 : ℤ) < 2 ^ len := by positivity
    have hword : (UInt64.ofInt z).toNat = (z % 2 ^ 64).toNat := by
      rw [UInt64.ofInt, UInt64.toNat_ofNat']
      omega
    apply Int.ofNat_inj.mp
    rw [hword, Int.natCast_mod, Int.toNat_of_nonneg (by omega),
      Int.toNat_of_nonneg (Int.emod_nonneg _ hpos.ne'), Nat.cast_pow, Nat.cast_ofNat,
      Int.emod_emod_of_dvd _ hdvd]
  exact hmod _

/-- **What a measured value has to read back as**: in the range, the value of the step it is
in; otherwise, nothing. -/
def ReadsBack (s : Signal) : Double → SignalResult → Prop
  | .num x, r =>
    if s.valMin ≤ x ∧ x ≤ s.valMax then ∃ y, r = .slot (.num y) ∧ y ≤ x ∧ x < y + s.scale
    else r = .slot .nan
  | _, r => r = .slot .nan

/-- A measured signal whose range lies above its offset, and whose largest value has a pattern
other than that of ones. -/
structure Signal.Measures (s : Signal) : Prop where
  slot : s.type = .slot
  scale : 0 < s.scale
  offset : s.offset ≤ s.valMin
  range : s.valMin ≤ s.valMax
  room : (s.valMax - s.offset) / s.scale < 2 ^ s.length - 1

/-- A number that is not too large is written as its steps from the offset on. -/
theorem encode_num (hs : s.Measures) (hlen : s.length < 64) {value : SignalValue} {x : ℚ}
    (hx : value.slot = .num x) (hmax : x ≤ s.valMax) :
    encodeSignal s value = ((if 0 ≤ (x - s.offset) / s.scale then ⌊(x - s.offset) / s.scale⌋
      else -⌊-((x - s.offset) / s.scale)⌋) % 2 ^ s.length).toNat := by
  rw [encodeSignal, if_pos hs.slot, hx, encodeSlot, if_neg (not_lt.mpr hmax), UInt64.toNat_and,
    toNat_ofNat_ones hlen, Nat.and_two_pow_sub_one_eq_mod, toNat_truncToUint64 hlen]

/-- **A number from the offset on reads back as the step it is in.** -/
theorem decodeSignal_encode_of_le (hs : s.Measures) (hlen : s.length < 64) {value : SignalValue}
    {x : ℚ} (hx : value.slot = .num x) (hoff : s.offset ≤ x) (hmax : x ≤ s.valMax) :
    ∃ y, decodeSignal s (encodeSignal s value) = .slot (.num y) ∧ y ≤ x ∧ x < y + s.scale := by
  have hscale := hs.scale
  have hnonneg : 0 ≤ (x - s.offset) / s.scale := by
    apply div_nonneg _ hscale.le
    linarith
  have hlt : (x - s.offset) / s.scale < 2 ^ s.length - 1 := by
    refine lt_of_le_of_lt ?_ hs.room
    gcongr
  obtain ⟨n, hn⟩ : ∃ n : ℕ, ⌊(x - s.offset) / s.scale⌋ = n :=
    Int.eq_ofNat_of_zero_le (Int.floor_nonneg.mpr hnonneg)
  have hfloor := Int.floor_eq_iff.mp hn
  have hsmall : (n : ℚ) < 2 ^ s.length - 1 := by
    refine lt_of_le_of_lt ?_ hlt
    exact_mod_cast hfloor.1
  have hsmall' : n + 1 < 2 ^ s.length := by
    have hcast : ((n + 1 : ℕ) : ℚ) < ((2 ^ s.length : ℕ) : ℚ) := by
      push_cast
      linarith
    exact_mod_cast hcast
  have henc : encodeSignal s value = n := by
    rw [encode_num hs hlen hx hmax, if_pos hnonneg, hn]
    have hmod : ((n : ℤ) % 2 ^ s.length) = n := by
      apply Int.emod_eq_of_lt (by omega)
      exact_mod_cast (show n < 2 ^ s.length by omega)
    rw [hmod, Int.toNat_natCast]
  refine ⟨n * s.scale + s.offset, ?_, ?_, ?_⟩
  · rw [henc, decodeSignal, if_pos hs.slot, if_neg (by omega)]
  · have hle : (n : ℚ) * s.scale ≤ x - s.offset :=
      (le_div_iff₀ hscale).mp (by exact_mod_cast hfloor.1)
    linarith
  · have hup : x - s.offset < ((n : ℚ) + 1) * s.scale :=
      (div_lt_iff₀ hscale).mp (by exact_mod_cast hfloor.2)
    linarith

/-- Counting down from the pattern of zeros ends at the pattern of ones. -/
theorem neg_emod_eq_ones {N m : ℤ} (hN : 2 ≤ N) : -m % N = N - 1 ↔ m % N = 1 := by
  have hones : (N - 1) % N = N - 1 := Int.emod_eq_of_lt (by omega) (by omega)
  have hone : (1 : ℤ) % N = 1 := Int.emod_eq_of_lt (by omega) (by omega)
  have hleft : -m % N = N - 1 ↔ N ∣ -m - (N - 1) := by
    rw [Int.dvd_iff_emod_eq_zero, ← Int.emod_eq_emod_iff_emod_sub_eq_zero, hones]
  have hright : m % N = 1 ↔ N ∣ m - 1 := by
    rw [Int.dvd_iff_emod_eq_zero, ← Int.emod_eq_emod_iff_emod_sub_eq_zero, hone]
  rw [hleft, hright, show -m - (N - 1) = -(m - 1) - N by ring, dvd_sub_self_right, dvd_neg]

/-- **A number below the offset reads back as nothing exactly if its steps count down to the
pattern of ones.** -/
theorem decodeSignal_encode_below (hs : s.Measures) (hlen : s.length < 64) (hpos : 1 ≤ s.length)
    {value : SignalValue} {x : ℚ} (hx : value.slot = .num x) (hoff : x < s.offset) :
    decodeSignal s (encodeSignal s value) = .slot .nan ↔
      ⌊(s.offset - x) / s.scale⌋ % 2 ^ s.length = 1 := by
  have hneg : ¬ 0 ≤ (x - s.offset) / s.scale := by
    rw [not_le]
    exact div_neg_of_neg_of_pos (by linarith) hs.scale
  have hN : (2 : ℤ) ≤ 2 ^ s.length := by
    calc (2 : ℤ) = 2 ^ 1 := (pow_one 2).symm
      _ ≤ 2 ^ s.length := pow_le_pow_right₀ (by omega) hpos
  have hswap : -((x - s.offset) / s.scale) = (s.offset - x) / s.scale := by
    rw [← neg_div, neg_sub]
  have hmax : x ≤ s.valMax := hoff.le.trans (hs.offset.trans hs.range)
  have hones : encodeSignal s value = 2 ^ s.length - 1 ↔
      -⌊(s.offset - x) / s.scale⌋ % 2 ^ s.length = 2 ^ s.length - 1 := by
    rw [encode_num hs hlen hx hmax, if_neg hneg, hswap]
    have hmod := Int.emod_nonneg (-⌊(s.offset - x) / s.scale⌋) (by omega : (2 : ℤ) ^ s.length ≠ 0)
    have hcast : ((2 ^ s.length - 1 : ℕ) : ℤ) = 2 ^ s.length - 1 := by
      rw [Nat.cast_sub (Nat.two_pow_pos _), Nat.cast_pow, Nat.cast_ofNat, Nat.cast_one]
    rw [← hcast]
    omega
  rw [← neg_emod_eq_ones hN, ← hones, decodeSignal, if_pos hs.slot]
  by_cases henc : encodeSignal s value = 2 ^ s.length - 1
  · rw [if_pos henc]
    exact iff_of_true rfl henc
  · rw [if_neg henc]
    exact iff_of_false (by simp) henc

/-- A value that is no number, or too large a one, is written as the pattern of ones. -/
theorem decodeSignal_encode_ones (hs : s.Measures) (hlen : s.length < 64) {value : SignalValue}
    (hx : ∀ x, value.slot = .num x → s.valMax < x) :
    decodeSignal s (encodeSignal s value) = .slot .nan := by
  have hones := toNat_ofNat_ones hlen
  have henc : encodeSignal s value = 2 ^ s.length - 1 := by
    rw [encodeSignal, if_pos hs.slot]
    cases hv : value.slot with
    | nan => exact hones
    | inf negative => exact hones
    | num x =>
      rw [encodeSlot, if_pos (hx x hv)]
      exact hones
  rw [decodeSignal, if_pos hs.slot, if_pos henc]

/-- **A measured signal never reads back wrong**: its value, or that there is none; and the
other signals stay. -/
def NeverWrong (signals : List Signal) (s : Signal) (data : UInt64) (value : SignalValue) : Prop :=
  ∃ data' r, signalSet data signals s.id value = some (true, data') ∧
    signalGet data' signals s.id = some (true, some r) ∧ ReadsBack s value.slot r ∧
    ∀ t ∈ signals, t.id ≠ s.id → signalGet data' signals t.id = signalGet data signals t.id

/-- What a value reads back as. -/
theorem readsBack_iff (hs : s.Measures) (hlen : s.length < 64) (hpos : 1 ≤ s.length)
    (value : SignalValue) :
    ReadsBack s value.slot (decodeSignal s (encodeSignal s value)) ↔
      ∀ x, value.slot = .num x → x < s.valMin →
        x ≤ s.offset ∧ ⌊(s.offset - x) / s.scale⌋ % 2 ^ s.length = 1 := by
  cases hv : value.slot with
  | nan => exact iff_of_true (decodeSignal_encode_ones hs hlen (by simp [hv])) (by simp)
  | inf negative => exact iff_of_true (decodeSignal_encode_ones hs hlen (by simp [hv])) (by simp)
  | num x =>
    simp only [ReadsBack, Double.num.injEq, forall_eq']
    by_cases hmin : s.valMin ≤ x
    · by_cases hmax : x ≤ s.valMax
      · rw [if_pos ⟨hmin, hmax⟩]
        exact iff_of_true (decodeSignal_encode_of_le hs hlen hv (hs.offset.trans hmin) hmax)
          fun hlt => absurd hmin (not_le.mpr hlt)
      · rw [if_neg fun h => hmax h.2]
        refine iff_of_true (decodeSignal_encode_ones hs hlen fun y hy => ?_)
          fun hlt => absurd hmin (not_le.mpr hlt)
        rw [hv, Double.num.injEq] at hy
        exact hy ▸ not_le.mp hmax
    · -- below the range the source checks nothing
      have hlt := not_le.mp hmin
      rw [if_neg fun h => hmin h.1]
      by_cases hoff : s.offset ≤ x
      · obtain ⟨y, hy, -⟩ := decodeSignal_encode_of_le hs hlen hv hoff (hlt.le.trans hs.range)
        refine iff_of_false (by rw [hy]; simp) fun h => ?_
        obtain ⟨hle, hmod⟩ := h hlt
        rw [le_antisymm hle hoff, sub_self, zero_div, Int.floor_zero, Int.zero_emod] at hmod
        exact absurd hmod (by omega)
      · rw [decodeSignal_encode_below hs hlen hpos hv (not_le.mp hoff)]
        exact ⟨fun h _ => ⟨(not_le.mp hoff).le, h⟩, fun h => (h hlt).2⟩

/-- **A measured value reads back right or not at all exactly if it is not below the range**,
or turns into the pattern of ones by accident. -/
theorem slot_signal_iff (hd : Descriptor 63 signals) (hmem : s ∈ signals) (hs : s.Measures)
    (data : UInt64) (value : SignalValue) :
    NeverWrong signals s data value ↔
      ∀ x, value.slot = .num x → x < s.valMin →
        x ≤ s.offset ∧ ⌊(s.offset - x) / s.scale⌋ % 2 ^ s.length = 1 := by
  have hword : Descriptor 64 signals := { hd with total := hd.total.trans (by omega) }
  have hpos := hd.lengths s hmem
  have hin := (offsetOf_add_length_le hd.ids hmem).trans hd.total
  have hlen : s.length < 64 := by omega
  obtain ⟨data', hset, hget, -, hothers⟩ := signalSet_spec hword hmem hlen data value
  rw [← readsBack_iff hs hlen hpos value]
  constructor
  · rintro ⟨data₁, r, hset₁, hget₁, hback, -⟩
    rw [hset, Option.some.injEq, Prod.mk.injEq] at hset₁
    rw [← hset₁.2, hget, Option.some.injEq, Prod.mk.injEq, Option.some.injEq] at hget₁
    rwa [hget₁.2]
  · intro hback
    exact ⟨data', _, hset, hget, hback, hothers⟩

end Slot

theorem coolantTemp_measures : coolantTemp.Measures where
  slot := rfl
  scale := by norm_num [coolantTemp]
  offset := by norm_num [coolantTemp]
  range := by norm_num [coolantTemp]
  room := by norm_num [coolantTemp]

/-- A temperature in the range of the signal reads back. -/
theorem slot_signal_temp : NeverWrong engineSignals coolantTemp 0 ⟨0, .num 85⟩ := by
  refine (slot_signal_iff engineSignals_descriptor (by decide) coolantTemp_measures 0 _).mpr ?_
  intro x hx hlt
  rw [← Double.num.inj hx] at hlt
  norm_num [coolantTemp] at hlt

/-- Fifty degrees below zero, ten below the range, read back as 206 degrees. -/
theorem slot_signal_below :
    Descriptor 63 engineSignals ∧ coolantTemp ∈ engineSignals ∧ coolantTemp.Measures ∧
      -50 < coolantTemp.valMin ∧
      signalSet 0 engineSignals 110 ⟨0, .num (-50)⟩ = some (true, 0xF600000) ∧
      signalGet 0xF600000 engineSignals 110 = some (true, some (.slot (.num 206))) ∧
      ¬ NeverWrong engineSignals coolantTemp 0 ⟨0, .num (-50)⟩ := by
  have hset : signalSet 0 engineSignals 110 ⟨0, .num (-50)⟩ = some (true, 0xF600000) := by
    decide +kernel
  have hget : signalGet 0xF600000 engineSignals 110 = some (true, some (.slot (.num 206))) := by
    decide +kernel
  refine ⟨engineSignals_descriptor, by decide, coolantTemp_measures, by norm_num [coolantTemp],
    hset, hget, ?_⟩
  rintro ⟨data', r, hset', hget', hback, -⟩
  rw [show coolantTemp.id = 110 from rfl, hset, Option.some.injEq, Prod.mk.injEq] at hset'
  rw [show coolantTemp.id = 110 from rfl, ← hset'.2, hget, Option.some.injEq, Prod.mk.injEq,
    Option.some.injEq] at hget'
  rw [← hget'.2, ReadsBack, if_neg (by norm_num [coolantTemp])] at hback
  exact absurd hback (by simp)

end J1939
end UniCan
