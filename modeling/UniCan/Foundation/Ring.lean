import Mathlib.Data.List.Range
import Mathlib.Data.Nat.ModEq

/-!
# Rings

A ring buffer keeps a queue in an array: `count` cells from `head` on, where the
cell behind the last one is the first.  The queue it stands for is the list of
these cells; putting an element into the cell behind them appends it, and moving
the head drops the first one.

## Main definitions

* `ringPlaces` — the cells in use, in order.
* `ringList` — what they hold.

## Main results

* `ringPlaces_succ`, `ringPlaces_cons` — the cells when one is added or dropped.
* `ringList_push`, `ringList_pop` — the same for the contents of an array.
-/

namespace UniCan

variable {α : Type*}

/-- The cells of a ring of `n` cells that are in use: `count` of them, from `head` on. -/
def ringPlaces (n head count : ℕ) : List ℕ := (List.range count).map fun i => (head + i) % n

/-- What the cells in use hold. -/
def ringList (mem : List α) (head count : ℕ) : List α :=
  (ringPlaces mem.length head count).filterMap fun i => mem[i]?

section Places

variable {n head count : ℕ}

@[simp] theorem length_ringPlaces : (ringPlaces n head count).length = count := by
  simp [ringPlaces]

theorem ringPlaces_succ :
    ringPlaces n head (count + 1) = ringPlaces n head count ++ [(head + count) % n] := by
  simp [ringPlaces, List.range_succ]

theorem ringPlaces_cons (hhead : head < n) :
    ringPlaces n head (count + 1) = head :: ringPlaces n ((head + 1) % n) count := by
  simp only [ringPlaces, List.range_succ_eq_map, List.map_cons, List.map_map, Nat.add_zero,
    Nat.mod_eq_of_lt hhead, List.cons.injEq, true_and]
  refine List.map_congr_left fun i _ => ?_
  simp only [Function.comp_apply, Nat.mod_add_mod]
  congr 1
  omega

theorem lt_of_mem_ringPlaces (hn : 0 < n) {i : ℕ} (hi : i ∈ ringPlaces n head count) : i < n := by
  obtain ⟨j, -, rfl⟩ := List.mem_map.mp hi
  exact Nat.mod_lt _ hn

/-- The cell behind those in use is free, if there is a free one. -/
theorem tail_notMem_ringPlaces (head : ℕ) (hcount : count < n) :
    (head + count) % n ∉ ringPlaces n head count := by
  intro hmem
  obtain ⟨j, hj, heq⟩ := List.mem_map.mp hmem
  have hlt : j < count := List.mem_range.mp hj
  have hmod : j % n = count % n := Nat.ModEq.add_left_cancel' head heq
  rw [Nat.mod_eq_of_lt (by omega), Nat.mod_eq_of_lt hcount] at hmod
  omega

end Places

section Contents

variable {mem : List α} {head count : ℕ}

@[simp] theorem ringList_zero : ringList mem head 0 = [] := rfl

theorem length_ringList (hmem : 0 < mem.length) : (ringList mem head count).length = count := by
  have hsome : ∀ i ∈ ringPlaces mem.length head count, (mem[i]?).isSome = true := by
    intro i hi
    rw [List.getElem?_eq_getElem (lt_of_mem_ringPlaces hmem hi)]
    rfl
  rw [ringList, List.length_filterMap_eq_countP, List.countP_eq_length.mpr hsome,
    length_ringPlaces]

/-- **A new element is appended.** -/
theorem ringList_push (hcount : count < mem.length) (x : α) :
    ringList (mem.set ((head + count) % mem.length) x) head (count + 1) =
      ringList mem head count ++ [x] := by
  have htail : (head + count) % mem.length < mem.length := Nat.mod_lt _ (by omega)
  rw [ringList, ringList, List.length_set, ringPlaces_succ, List.filterMap_append]
  congr 1
  · -- the other cells keep what they hold
    refine List.filterMap_congr fun i hi => List.getElem?_set_ne fun he => ?_
    exact tail_notMem_ringPlaces head hcount (he ▸ hi)
  · simp [htail]

/-- **The first element is dropped.** -/
theorem ringList_pop (count : ℕ) (hhead : head < mem.length) :
    ∃ x, mem[head]? = some x ∧ ringList mem head (count + 1) =
      x :: ringList mem ((head + 1) % mem.length) count := by
  refine ⟨mem[head], List.getElem?_eq_getElem hhead, ?_⟩
  rw [ringList, ringList, ringPlaces_cons hhead, List.filterMap_cons,
    List.getElem?_eq_getElem hhead]

end Contents

end UniCan
