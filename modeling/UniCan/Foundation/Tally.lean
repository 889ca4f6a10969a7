import Mathlib.Algebra.BigOperators.Group.List.Basic
import Mathlib.Algebra.Ring.Nat

/-!
# Measures of a table

A table of slots is measured by adding up what each of its slots contributes.  An
operation that changes one slot changes the measure by what it changes of the slot.

## Main definitions

* `tally` — the sum of a measure over the slots.

## Main results

* `tally_set` — **changing one slot**.
* `tally_eq_zero_iff` — nothing is contributed by any slot.
-/

namespace UniCan

variable {α : Type*} {f : α → ℕ}

/-- The sum of a measure over the slots of a table. -/
def tally (f : α → ℕ) (slots : List α) : ℕ := (slots.map f).sum

/-- **Changing one slot** changes the measure by what the slot contributes. -/
theorem tally_set {slots : List α} {i : ℕ} (hi : i < slots.length) (x : α) :
    tally f (slots.set i x) + f slots[i] = tally f slots + f x := by
  unfold tally
  induction slots generalizing i with
  | nil => exact absurd hi (Nat.not_lt_zero i)
  | cons y slots ih =>
    cases i with
    | zero =>
      simp only [List.set_cons_zero, List.map_cons, List.sum_cons, List.getElem_cons_zero]
      omega
    | succ i =>
      have hrest := ih (Nat.lt_of_succ_lt_succ hi)
      simp only [List.set_cons_succ, List.map_cons, List.sum_cons, List.getElem_cons_succ]
      omega

/-- Nothing is contributed by any slot. -/
theorem tally_eq_zero_iff {slots : List α} : tally f slots = 0 ↔ ∀ x ∈ slots, f x = 0 := by
  unfold tally
  induction slots with
  | nil => simp
  | cons y slots ih =>
    rw [List.map_cons, List.sum_cons, Nat.add_eq_zero_iff, ih, List.forall_mem_cons]

end UniCan
