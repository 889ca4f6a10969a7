import Mathlib.Data.List.Basic

/-!
# Writers of disjoint cells

A record is often filled in by one writer after the other, each of which owns some of its
cells.  If no cell has two owners, the order does not matter: in the end every cell holds
what its owner has written, and the cells nobody owns are as they were.

## Main definitions

* `Writer` — the cells that are owned, and what is written into them.
* `Writer.Acts` — an operation does what a writer says, and nothing else.
* `Writer.Disjoint` — no cell has two owners.

## Main results

* `Writer.foldl_of_owns` — **every cell holds what its owner has written.**
-/

namespace UniCan

/-- Some cells, and their contents. -/
structure Writer (κ β : Type*) where
  /-- The cells that are written. -/
  owns : κ → Prop
  /-- What is written into them. -/
  value : κ → β

namespace Writer

variable {κ β σ ι : Type*}

/-- From `m` to `m'` the writer has written its cells and left the others alone. -/
structure Acts (w : Writer κ β) (m m' : κ → β) : Prop where
  own : ∀ c, w.owns c → m' c = w.value c
  other : ∀ c, ¬ w.owns c → m' c = m c

/-- Two writers own different cells. -/
def Disjoint (v w : Writer κ β) : Prop := ∀ c, v.owns c → ¬ w.owns c

section Runs

variable {op : σ → ι → σ} {view : σ → κ → β} {writer : ι → Writer κ β} {is : List ι}

/-- A cell that nobody owns stays as it is. -/
theorem foldl_of_not_owns (hacts : ∀ i ∈ is, ∀ s, (writer i).Acts (view s) (view (op s i))) {c : κ}
    (hc : ∀ i ∈ is, ¬ (writer i).owns c) (s : σ) : view (is.foldl op s) c = view s c := by
  induction is generalizing s with
  | nil => rfl
  | cons i is ih =>
    rw [List.foldl_cons, ih (fun j hj => hacts j (List.mem_cons_of_mem i hj))
      fun j hj => hc j (List.mem_cons_of_mem i hj)]
    exact (hacts i List.mem_cons_self s).other c (hc i List.mem_cons_self)

/-- **Every cell holds what its owner has written.** -/
theorem foldl_of_owns (hacts : ∀ i ∈ is, ∀ s, (writer i).Acts (view s) (view (op s i)))
    (hdisj : is.Pairwise fun i j => (writer i).Disjoint (writer j)) {i : ι} (hi : i ∈ is) {c : κ}
    (hc : (writer i).owns c) (s : σ) : view (is.foldl op s) c = (writer i).value c := by
  induction is generalizing s with
  | nil => exact absurd hi (by simp)
  | cons j is ih =>
    obtain ⟨hfirst, hrest⟩ := List.pairwise_cons.mp hdisj
    have hacts' : ∀ k ∈ is, ∀ s, (writer k).Acts (view s) (view (op s k)) :=
      fun k hk => hacts k (List.mem_cons_of_mem j hk)
    rw [List.foldl_cons]
    rcases List.mem_cons.mp hi with rfl | hmem
    · -- the owner comes first, and nobody writes the cell after it
      rw [foldl_of_not_owns hacts' fun k hk => hfirst k hk c hc]
      exact (hacts i List.mem_cons_self s).own c hc
    · exact ih hacts' hrest hmem _

end Runs

end Writer

end UniCan
