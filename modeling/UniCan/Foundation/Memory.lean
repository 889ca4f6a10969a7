import Mathlib.Data.List.Basic

/-!
# Regions of memory

A region of memory is the list of its cells.  Reading and writing a range of
cells are total functions on lists, which agree with what a copy does as long as
the range lies inside the region; a `Copy` records the range, so that a component
can say which copies it made and a proof can say that they were inside.

## Main definitions

* `readAt`, `writeAt` — a range of a region, read and overwritten.
* `Copy`, `Copy.Inside` — a copy into or out of a region, and that it is in
  bounds.

## Main results

* `readAt_writeAt_append` — writing behind a range extends it.
* `readAt_slot_congr` — what one slot holds does not depend on another one.
-/

namespace UniCan

variable {α : Type*}

/-- The `len` cells of `mem` from `off` on. -/
def readAt (mem : List α) (off len : ℕ) : List α := (mem.drop off).take len

/-- `mem` with the cells from `off` on overwritten by `data`. -/
def writeAt (mem : List α) (off : ℕ) (data : List α) : List α :=
  mem.take off ++ data ++ mem.drop (off + data.length)

/-- A copy of `length` cells into or out of a region of `size` cells, at `offset`. -/
structure Copy where
  /-- Cells of the region. -/
  size : ℕ
  /-- The first cell that is copied. -/
  offset : ℕ
  /-- Cells that are copied. -/
  length : ℕ
  deriving DecidableEq, Repr

/-- The copy stays inside its region. -/
def Copy.Inside (c : Copy) : Prop := c.offset + c.length ≤ c.size

instance (c : Copy) : Decidable c.Inside := inferInstanceAs (Decidable (_ ≤ _))

@[simp] theorem readAt_zero (mem : List α) (off : ℕ) : readAt mem off 0 = [] := by
  simp [readAt]

theorem length_readAt {mem : List α} {off len : ℕ} (h : off + len ≤ mem.length) :
    (readAt mem off len).length = len := by
  simp only [readAt, List.length_take, List.length_drop]
  omega

theorem length_writeAt {mem : List α} {off : ℕ} {data : List α}
    (h : off + data.length ≤ mem.length) : (writeAt mem off data).length = mem.length := by
  simp only [writeAt, List.length_append, List.length_take, List.length_drop]
  omega

@[simp] theorem writeAt_nil (mem : List α) (off : ℕ) : writeAt mem off [] = mem := by
  simp [writeAt]

/-- A cell of a region after a write. -/
theorem getElem?_writeAt {mem : List α} {off : ℕ} {data : List α}
    (h : off + data.length ≤ mem.length) (i : ℕ) :
    (writeAt mem off data)[i]? =
      if i < off then mem[i]? else if i < off + data.length then data[i - off]? else mem[i]? := by
  have hoff : (mem.take off).length = off := by rw [List.length_take]; omega
  unfold writeAt
  split_ifs with h1 h2
  · rw [List.append_assoc, List.getElem?_append_left (by omega), List.getElem?_take_of_lt h1]
  · rw [List.append_assoc, List.getElem?_append_right (by omega), hoff,
      List.getElem?_append_left (by omega)]
  · rw [List.getElem?_append_right (by simp only [List.length_append]; omega), List.length_append,
      hoff, List.getElem?_drop]
    congr 1
    omega

theorem getElem?_readAt (mem : List α) (off len i : ℕ) :
    (readAt mem off len)[i]? = if i < len then mem[off + i]? else none := by
  unfold readAt
  split_ifs with h
  · rw [List.getElem?_take_of_lt h, List.getElem?_drop]
  · exact List.getElem?_eq_none (by rw [List.length_take]; omega)

/-- **The slots of a memory are disjoint**: a range in slot `i` stays if the memory stays
outside slot `j`. -/
theorem readAt_slot_congr {mem mem' : List α} {i j size len : ℕ} (hne : i ≠ j) (hlen : len ≤ size)
    (h : ∀ k, k < j * size ∨ (j + 1) * size ≤ k → mem'[k]? = mem[k]?) :
    readAt mem' (i * size) len = readAt mem (i * size) len := by
  apply List.ext_getElem?
  intro k
  rw [getElem?_readAt, getElem?_readAt]
  split_ifs with hk
  · apply h
    rcases Nat.lt_or_gt_of_ne hne with hlt | hgt
    · -- slot `i` lies before slot `j`
      have hmul : (i + 1) * size ≤ j * size := Nat.mul_le_mul_right _ hlt
      rw [Nat.succ_mul] at hmul
      exact Or.inl (by omega)
    · have hmul : (j + 1) * size ≤ i * size := Nat.mul_le_mul_right _ hgt
      exact Or.inr (by omega)
  · rfl

/-- **Writing behind a range extends it.** -/
theorem readAt_writeAt_append {mem : List α} {off n : ℕ} {data : List α}
    (h : off + n + data.length ≤ mem.length) :
    readAt (writeAt mem (off + n) data) off (n + data.length) = readAt mem off n ++ data := by
  have hlen : (readAt mem off n).length = n := length_readAt (by omega)
  apply List.ext_getElem?
  intro i
  rw [getElem?_readAt, getElem?_writeAt h]
  by_cases h1 : i < n
  · rw [if_pos (by omega), if_pos (by omega), List.getElem?_append_left (by omega),
      getElem?_readAt, if_pos h1]
  · rw [List.getElem?_append_right (by omega), hlen]
    by_cases h2 : i < n + data.length
    · rw [if_pos h2, if_neg (by omega), if_pos (by omega)]
      congr 1
      omega
    · rw [if_neg h2]
      exact (List.getElem?_eq_none (by omega)).symm

end UniCan
