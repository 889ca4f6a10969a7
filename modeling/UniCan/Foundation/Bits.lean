import Mathlib.Data.Nat.Bitwise

/-!
# Bit fields

An identifier packs several numbers into one word.  These lemmas read packing and
unpacking as arithmetic: a shift is a product, a mask is a remainder, and the
bitwise or of disjoint fields is a sum.

* `testBit_eq_false_of_le` — the bits a number does not have.
* `toNat_field` — the value of a field of a word.
* `toNat_and_field`, `toNat_field_down` — a field cut out where it is, and moved down.
* `toNat_shiftLeft_of_lt` — the value of a number moved to its place.
* `toNat_byte_back` — a few bits taken out as a byte and put back.
* `toNat_or_of_disjoint` — joining a field to the ones above it.
* `toNat_word` — four bytes joined to a word.
-/

namespace UniCan

theorem or_eq_add {a b i : ℕ} (ha : 2 ^ i ∣ a) (hb : b < 2 ^ i) : a ||| b = a + b := by
  obtain ⟨c, rfl⟩ := ha
  exact (Nat.two_pow_add_eq_or_of_lt hb c).symm

/-- A number of `w` bits has no bit from `w` on. -/
theorem testBit_eq_false_of_le {x w i : ℕ} (hx : x < 2 ^ w) (hi : w ≤ i) :
    x.testBit i = false :=
  Nat.testBit_lt_two_pow (Nat.lt_of_lt_of_le hx (Nat.pow_le_pow_right (by decide) hi))

/-- A mask of `w` ones is a remainder. -/
theorem toNat_and_mask {x m : UInt32} (w : ℕ) (hm : m.toNat = 2 ^ w - 1) :
    (x &&& m).toNat = x.toNat % 2 ^ w := by
  rw [UInt32.toNat_and, hm, Nat.and_two_pow_sub_one_eq_mod]

/-- The field of `w` bits from bit `s` on. -/
theorem toNat_field {x k m : UInt32} (s w : ℕ) (hk : k.toNat = s) (hs : s < 32)
    (hm : m.toNat = 2 ^ w - 1) : ((x >>> k) &&& m).toNat = x.toNat / 2 ^ s % 2 ^ w := by
  rw [toNat_and_mask w hm, UInt32.toNat_shiftRight, hk, Nat.mod_eq_of_lt hs,
    Nat.shiftRight_eq_div_pow]

/-- A field cut out of a number. -/
theorem nat_and_field (x s w : ℕ) :
    x &&& ((2 ^ w - 1) * 2 ^ s) = x / 2 ^ s % 2 ^ w * 2 ^ s := by
  rw [← Nat.shiftLeft_eq, ← Nat.shiftLeft_eq, ← Nat.shiftRight_eq_div_pow,
    ← Nat.and_two_pow_sub_one_eq_mod]
  apply Nat.eq_of_testBit_eq
  intro i
  rw [Nat.testBit_and, Nat.testBit_shiftLeft, Nat.testBit_shiftLeft, Nat.testBit_and,
    Nat.testBit_shiftRight]
  by_cases hi : s ≤ i
  · rw [Nat.add_sub_cancel' hi]
    simp [hi]
  · simp [hi]

/-- The field of `w` bits from bit `s` on, left where it is. -/
theorem toNat_and_field {x m : UInt32} (s w : ℕ) (hm : m.toNat = (2 ^ w - 1) * 2 ^ s) :
    (x &&& m).toNat = x.toNat / 2 ^ s % 2 ^ w * 2 ^ s := by
  rw [UInt32.toNat_and, hm, nat_and_field]

/-- And moved down. -/
theorem toNat_field_down {x m k : UInt32} (s w : ℕ) (hm : m.toNat = (2 ^ w - 1) * 2 ^ s)
    (hk : k.toNat = s) (hs : s < 32) : ((x &&& m) >>> k).toNat = x.toNat / 2 ^ s % 2 ^ w := by
  rw [UInt32.toNat_shiftRight, hk, Nat.mod_eq_of_lt hs, toNat_and_field s w hm,
    Nat.shiftRight_eq_div_pow, Nat.mul_div_cancel _ (Nat.two_pow_pos s)]

/-- A number moved to its place in a word. -/
theorem toNat_shiftLeft_of_lt {x k : UInt32} (s : ℕ) (hk : k.toNat = s) (hs : s < 32)
    (hx : x.toNat * 2 ^ s < 2 ^ 32) : (x <<< k).toNat = x.toNat * 2 ^ s := by
  rw [UInt32.toNat_shiftLeft, hk, Nat.mod_eq_of_lt hs, Nat.shiftLeft_eq, Nat.mod_eq_of_lt hx]

/-- A few bits of a word, taken out as a byte and put back in their place. -/
theorem toNat_byte_back {x k m : UInt32} (s w : ℕ) (hk : k.toNat = s) (hm : m.toNat = 2 ^ w - 1)
    (hw : w ≤ 8) (hs : s + w ≤ 32) (hlt : s < 32) :
    (((x >>> k) &&& m).toUInt8.toUInt32 <<< k).toNat = x.toNat / 2 ^ s % 2 ^ w * 2 ^ s := by
  have hfield := toNat_field (x := x) s w hk hlt hm
  have hbyte : x.toNat / 2 ^ s % 2 ^ w < 2 ^ 8 :=
    Nat.lt_of_lt_of_le (Nat.mod_lt _ (Nat.two_pow_pos w)) (Nat.pow_le_pow_right (by decide) hw)
  have hself : ((x >>> k) &&& m).toUInt8.toUInt32.toNat = x.toNat / 2 ^ s % 2 ^ w := by
    rw [UInt8.toNat_toUInt32, UInt32.toNat_toUInt8, hfield, Nat.mod_eq_of_lt hbyte]
  have hplace : x.toNat / 2 ^ s % 2 ^ w * 2 ^ s < 2 ^ 32 :=
    calc x.toNat / 2 ^ s % 2 ^ w * 2 ^ s
        < 2 ^ w * 2 ^ s :=
          Nat.mul_lt_mul_of_pos_right (Nat.mod_lt _ (Nat.two_pow_pos w)) (Nat.two_pow_pos s)
      _ = 2 ^ (w + s) := (Nat.pow_add 2 w s).symm
      _ ≤ 2 ^ 32 := Nat.pow_le_pow_right (by decide) (by omega)
  rw [toNat_shiftLeft_of_lt s hk hlt (by rw [hself]; exact hplace), hself]

/-- A field joined to the fields above bit `s`. -/
theorem toNat_or_of_disjoint {x y : UInt32} (s : ℕ) (hx : 2 ^ s ∣ x.toNat)
    (hy : y.toNat < 2 ^ s) : (x ||| y).toNat = x.toNat + y.toNat := by
  rw [UInt32.toNat_or, or_eq_add hx hy]

/-- **Four bytes joined to a word.** -/
theorem toNat_word (b₀ b₁ b₂ b₃ : UInt8) :
    ((b₃.toUInt32 <<< 24) ||| (b₂.toUInt32 <<< 16) ||| (b₁.toUInt32 <<< 8) |||
      b₀.toUInt32).toNat = b₃.toNat * 2 ^ 24 + b₂.toNat * 2 ^ 16 + b₁.toNat * 2 ^ 8 + b₀.toNat := by
  have h₀ := b₀.toNat_lt
  have h₁ := b₁.toNat_lt
  have h₂ := b₂.toNat_lt
  have h₃ := b₃.toNat_lt
  have e₃ : (b₃.toUInt32 <<< 24).toNat = b₃.toNat * 2 ^ 24 :=
    toNat_shiftLeft_of_lt 24 rfl (by omega) (by rw [UInt8.toNat_toUInt32]; omega)
  have e₂ : (b₂.toUInt32 <<< 16).toNat = b₂.toNat * 2 ^ 16 :=
    toNat_shiftLeft_of_lt 16 rfl (by omega) (by rw [UInt8.toNat_toUInt32]; omega)
  have e₁ : (b₁.toUInt32 <<< 8).toNat = b₁.toNat * 2 ^ 8 :=
    toNat_shiftLeft_of_lt 8 rfl (by omega) (by rw [UInt8.toNat_toUInt32]; omega)
  have s₂ := toNat_or_of_disjoint (x := b₃.toUInt32 <<< 24) (y := b₂.toUInt32 <<< 16) 24
    (by omega) (by omega)
  have s₁ := toNat_or_of_disjoint (x := b₃.toUInt32 <<< 24 ||| b₂.toUInt32 <<< 16)
    (y := b₁.toUInt32 <<< 8) 16 (by omega) (by omega)
  rw [toNat_or_of_disjoint 8 (by omega) (by rw [UInt8.toNat_toUInt32]; omega), s₁, s₂, e₁, e₂, e₃,
    UInt8.toNat_toUInt32]

end UniCan
