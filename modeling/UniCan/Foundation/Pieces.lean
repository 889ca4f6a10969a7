import Mathlib.Data.List.Basic
import Mathlib.Data.List.Range

/-!
# Cutting a list into pieces

A sender cuts a stream into pieces of `m` elements, the last of which may be
shorter; the receiver puts the pieces together again.

* `piece l m i` — the `i`-th piece of `l`.
* `pieceCount n m` — how many pieces a stream of `n` elements has.
* `pieces` — all of them.
* `flatMap_piece` — the first `k` pieces are the first `k * m` elements.
* `flatten_pieces` — **the pieces together are the list.**
* `cut_induction` — induction by cutting off pieces.
-/

namespace UniCan

variable {α : Type*}

/-- The `i`-th piece of `m` elements. -/
def piece (l : List α) (m i : ℕ) : List α := (l.drop (i * m)).take m

/-- The number of pieces of `m` elements a stream of `n` elements is cut into. -/
def pieceCount (n m : ℕ) : ℕ := (n + (m - 1)) / m

theorem length_piece (l : List α) (m i : ℕ) :
    (piece l m i).length = min m (l.length - i * m) := by
  simp [piece]

/-- A piece exists exactly when the stream goes on at its place. -/
theorem lt_pieceCount_iff {n m i : ℕ} (hm : 0 < m) : i < pieceCount n m ↔ i * m < n := by
  rw [pieceCount, Nat.lt_div_iff_mul_lt hm]
  omega

/-- **The first `k` pieces are the first `k * m` elements.** -/
theorem flatMap_piece (l : List α) (m k : ℕ) :
    (List.range k).flatMap (piece l m) = l.take (k * m) := by
  induction k with
  | zero => simp
  | succ k ih =>
    rw [List.range_succ, List.flatMap_append, ih, List.flatMap_singleton, piece,
      Nat.succ_mul, List.take_add]

/-- All pieces together are the stream. -/
theorem flatMap_piece_pieceCount (l : List α) {m : ℕ} (hm : 0 < m) :
    (List.range (pieceCount l.length m)).flatMap (piece l m) = l := by
  rw [flatMap_piece, List.take_of_length_le]
  by_contra h
  exact absurd ((lt_pieceCount_iff hm).mpr (Nat.lt_of_not_le h)) (lt_irrefl _)

/-- The pieces of a list. -/
def pieces (l : List α) (m : ℕ) : List (List α) :=
  (List.range (pieceCount l.length m)).map (piece l m)

theorem length_pieces (l : List α) (m : ℕ) : (pieces l m).length = pieceCount l.length m := by
  simp [pieces]

@[simp] theorem pieces_nil {m : ℕ} (hm : 0 < m) : pieces ([] : List α) m = [] := by
  have hzero : pieceCount 0 m = 0 := by
    rw [pieceCount, Nat.zero_add]
    exact Nat.div_eq_of_lt (Nat.sub_lt hm Nat.one_pos)
  rw [pieces, List.length_nil, hzero]
  rfl

/-- Cutting off the first piece. -/
theorem pieces_of_ne_nil {l : List α} {m : ℕ} (hm : 0 < m) (h : l ≠ []) :
    pieces l m = l.take m :: pieces (l.drop m) m := by
  have hpos : 0 < l.length := List.length_pos_iff.mpr h
  have hcount : pieceCount l.length m = pieceCount (l.drop m).length m + 1 := by
    rw [pieceCount, pieceCount, List.length_drop]
    by_cases hle : l.length ≤ m
    · rw [Nat.sub_eq_zero_of_le hle, Nat.zero_add, Nat.div_eq_of_lt (Nat.sub_lt hm Nat.one_pos)]
      exact Nat.div_eq_of_lt_le (by omega) (by omega)
    · have hsplit : l.length + (m - 1) = l.length - m + (m - 1) + m := by omega
      rw [hsplit, Nat.add_div_right _ hm]
  rw [pieces, hcount, List.range_succ_eq_map, List.map_cons, List.map_map, piece, Nat.zero_mul,
    List.drop_zero, pieces]
  refine congrArg _ (List.map_congr_left fun i _ => ?_)
  rw [Function.comp_apply, piece, piece, List.drop_drop, Nat.succ_mul, Nat.add_comm]

/-- **The pieces together are the list.** -/
theorem flatten_pieces (l : List α) {m : ℕ} (hm : 0 < m) : (pieces l m).flatten = l := by
  rw [pieces, ← List.flatMap_def]
  exact flatMap_piece_pieceCount l hm

/-- **Induction by cutting off pieces.** -/
@[elab_as_elim]
theorem cut_induction {motive : List α → Prop} {m : ℕ} (hm : 0 < m) (nil : motive [])
    (cut : ∀ l, l ≠ [] → motive (l.drop m) → motive l) (l : List α) : motive l := by
  generalize hn : l.length = n
  induction n using Nat.strong_induction_on generalizing l with
  | _ n ih =>
    by_cases h : l = []
    · rw [h]
      exact nil
    · have hpos : 0 < l.length := List.length_pos_iff.mpr h
      refine cut l h (ih (l.drop m).length ?_ _ rfl)
      rw [List.length_drop]
      omega

/-- No piece is empty, and none is too long. -/
theorem length_of_mem_pieces {l p : List α} {m : ℕ} (hm : 0 < m) (h : p ∈ pieces l m) :
    1 ≤ p.length ∧ p.length ≤ m := by
  obtain ⟨i, hi, rfl⟩ := List.mem_map.mp h
  have hlt := (lt_pieceCount_iff hm).mp (List.mem_range.mp hi)
  rw [length_piece]
  omega

end UniCan
