import Mathlib.Algebra.CharP.Two
import Mathlib.Algebra.Field.ZMod
import Mathlib.Algebra.Polynomial.Div
import Mathlib.Algebra.Polynomial.Monic
import Mathlib.Tactic.LinearCombination
import UniCan.Foundation.Lfsr

/-!
# Check registers divide

Over the field of two elements the bits of a register are the coefficients of a polynomial,
and so are the bits of a message.  A check register divides: after a message has run through
it, it holds the remainder of the message, moved up by the width of the register, modulo
the polynomial with its leading term.

## Main definitions

* `Lfsr.contents`, `Lfsr.messagePoly` — a register and a message as polynomials.
* `Lfsr.generator` — the polynomial with its leading term.

## Main results

* `Lfsr.contents_feed` — one bit: times `X`, plus the bit, minus a multiple of the generator.
* `Lfsr.contents_run` — **the register holds a remainder.**
-/

namespace UniCan

open Polynomial

variable {w : ℕ}

namespace Lfsr

/-! ### Bits as coefficients -/

/-- A bit as an element of the field. -/
def bit (b : Bool) : ZMod 2 := if b then 1 else 0

@[simp] theorem bit_false : bit false = 0 := rfl

@[simp] theorem bit_true : bit true = 1 := rfl

theorem bit_xor (a b : Bool) : bit (a ^^ b) = bit a + bit b := by
  cases a <;> cases b <;> decide

/-- A register as a polynomial, its lowest bit the constant term. -/
noncomputable def contents (r : BitVec w) : (ZMod 2)[X] :=
  ∑ i ∈ Finset.range w, C (bit (r.getLsbD i)) * X ^ i

/-- A message as a polynomial, its last bit the constant term. -/
noncomputable def messagePoly : List Bool → (ZMod 2)[X]
  | [] => 0
  | b :: bits => C (bit b) * X ^ bits.length + messagePoly bits

/-- The polynomial of a register with its leading term. -/
noncomputable def generator (p : BitVec w) : (ZMod 2)[X] := X ^ w + contents p

theorem coeff_contents (r : BitVec w) (i : ℕ) : (contents r).coeff i = bit (r.getLsbD i) := by
  rw [contents, finsetSum_coeff]
  simp only [coeff_C_mul, coeff_X_pow, mul_ite, mul_one, mul_zero]
  rw [Finset.sum_ite_eq]
  split_ifs with hi
  · rfl
  · rw [BitVec.getLsbD_of_ge r i (by simpa using hi), bit_false]

@[simp] theorem contents_zero : contents (0#w) = 0 := by
  ext i
  rw [coeff_contents, BitVec.getLsbD_zero, bit_false, coeff_zero]

/-- Exclusive or is addition. -/
theorem contents_xor (r s : BitVec w) : contents (r ^^^ s) = contents r + contents s := by
  ext i
  rw [coeff_add, coeff_contents, coeff_contents, coeff_contents, BitVec.getLsbD_xor, bit_xor]

theorem degree_contents_lt (r : BitVec w) : (contents r).degree < w := by
  rw [degree_lt_iff_coeff_zero]
  intro i hi
  rw [coeff_contents, BitVec.getLsbD_of_ge r i hi, bit_false]

theorem monic_generator (p : BitVec w) : (generator p).Monic :=
  monic_X_pow_add (degree_contents_lt p)

theorem degree_generator (p : BitVec w) : (generator p).degree = w := by
  rw [generator, degree_add_eq_left_of_degree_lt, degree_X_pow]
  rw [degree_X_pow]
  exact degree_contents_lt p

/-! ### One bit -/

/-- A shift is a product with `X`; the bit that falls out would be the next coefficient. -/
theorem contents_shiftLeft (hw : 0 < w) (r : BitVec w) :
    contents (r <<< 1) + C (bit r.msb) * X ^ w = X * contents r := by
  ext i
  rw [coeff_add, coeff_contents, coeff_C_mul, coeff_X_pow]
  cases i with
  | zero =>
    rw [BitVec.getLsbD_shiftLeft, coeff_X_mul_zero, if_neg (by omega)]
    simp
  | succ i =>
    rw [BitVec.getLsbD_shiftLeft, coeff_X_mul, coeff_contents, Nat.add_sub_cancel]
    rcases Nat.lt_trichotomy (i + 1) w with hlt | heq | hgt
    · rw [if_neg (by omega)]
      simp [hlt]
    · have hlast : i = w - 1 := by omega
      rw [if_pos heq, BitVec.msb_eq_getLsbD_last, ← hlast]
      simp [heq]
    · rw [if_neg (by omega), BitVec.getLsbD_of_ge r i (by omega)]
      simp [show ¬ i + 1 < w by omega]

theorem contents_top (hw : 0 < w) (b : Bool) :
    X * contents (top b : BitVec w) = C (bit b) * X ^ w := by
  rw [← contents_shiftLeft hw, top_shiftLeft, contents_zero, zero_add, msb_top hw]

/-- **One bit of a message**: times `X`, plus the bit in front, minus a multiple of the
generator, which over this field is plus. -/
theorem contents_feed (hw : 0 < w) (p r : BitVec w) (b : Bool) :
    contents (feed p r b) =
      X * contents r + C (bit b) * X ^ w + C (bit (r ^^^ top b).msb) * generator p := by
  have hshift := contents_shiftLeft hw (r ^^^ top b)
  have hout : contents (if (r ^^^ top b).msb then p else 0#w) =
      C (bit (r ^^^ top b).msb) * contents p := by
    cases (r ^^^ top b).msb <;> simp
  have htwice : C (bit (r ^^^ top b).msb) * X ^ w + C (bit (r ^^^ top b).msb) * X ^ w =
      (0 : (ZMod 2)[X]) := CharTwo.add_self_eq_zero _
  rw [feed, shift, contents_xor, hout, generator]
  rw [contents_xor, mul_add, contents_top hw] at hshift
  linear_combination hshift - htwice

/-! ### A message -/

/-- Every bit adds a multiple of the generator. -/
theorem exists_quotient (hw : 0 < w) (p r : BitVec w) (bits : List Bool) :
    ∃ q, contents (run p r bits) + generator p * q =
      X ^ bits.length * contents r + messagePoly bits * X ^ w := by
  induction bits generalizing r with
  | nil => exact ⟨0, by simp [messagePoly]⟩
  | cons b bits ih =>
    obtain ⟨q, hq⟩ := ih (feed p r b)
    rw [contents_feed hw] at hq
    refine ⟨q - X ^ bits.length * C (bit (r ^^^ top b).msb), ?_⟩
    rw [run_cons, messagePoly, List.length_cons]
    linear_combination hq

/-- **The register holds a remainder**: that of what it held before and of the message, both
moved up, modulo the generator. -/
theorem contents_run (hw : 0 < w) (p r : BitVec w) (bits : List Bool) :
    contents (run p r bits) =
      (X ^ bits.length * contents r + messagePoly bits * X ^ w) %ₘ generator p := by
  obtain ⟨q, hq⟩ := exists_quotient hw p r bits
  have hdegree : (contents (run p r bits)).degree < (generator p).degree := by
    rw [degree_generator]
    exact degree_contents_lt _
  exact (div_modByMonic_unique q _ (monic_generator p) ⟨hq, hdegree⟩).2.symm

end Lfsr

end UniCan
