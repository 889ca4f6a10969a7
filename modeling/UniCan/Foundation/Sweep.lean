import Mathlib.Data.List.Basic

/-!
# Serving a table

A table is served slot by slot: it is always the first slot in need that is served, and
every service puts something out.  A slot that is served may still be in need, and then
it is served again before those behind it.

## Main definitions

* `Sweeps` — serving a table until no slot is in need any more.
* `Drains` — what serving one slot until it is not in need puts out, and what becomes of it.

## Main results

* `Drains.sweeps` — **the slots are served one after the other.**
* `sweeps_once` — the same for slots that need to be served only once.
-/

namespace UniCan

variable {α ω : Type*}

/-- Serving the slots until none is in need: what is put out, and what becomes of them. -/
inductive Sweeps (needs : α → Bool) (serve : α → α × ω) : List α → List ω → List α → Prop
  | done {slots : List α} (h : slots.findIdx? needs = none) : Sweeps needs serve slots [] slots
  | next {slots slots' : List α} {outs : List ω} {i : ℕ} {x : α}
      (hfind : slots.findIdx? needs = some i) (hx : slots[i]? = some x)
      (hrest : Sweeps needs serve (slots.set i (serve x).1) outs slots') :
      Sweeps needs serve slots ((serve x).2 :: outs) slots'

/-- For slots with `I`, `outs` is what serving a slot puts out until it is not in need any
more, and `done` is what becomes of it. -/
structure Drains (needs : α → Bool) (serve : α → α × ω) (outs : α → List ω) (done : α → α)
    (I : α → Prop) : Prop where
  idle : ∀ x, I x → needs x = false → outs x = [] ∧ done x = x
  busy : ∀ x, I x → needs x = true →
    I (serve x).1 ∧ outs x = (serve x).2 :: outs (serve x).1 ∧ done x = done (serve x).1

section Sweeps

variable {needs : α → Bool} {serve : α → α × ω} {slots slots' : List α} {os : List ω} {x : α}

/-- A slot that is not in need is left alone. -/
theorem Sweeps.cons (hx : needs x = false) (h : Sweeps needs serve slots os slots') :
    Sweeps needs serve (x :: slots) os (x :: slots') := by
  induction h with
  | done h =>
    refine .done ?_
    rw [List.findIdx?_cons, hx, h]
    rfl
  | @next slots slots' outs i y hfind hy hrest ih =>
    refine .next (i := i + 1) ?_ ?_ ?_
    · rw [List.findIdx?_cons, hx, hfind]
      rfl
    · exact hy
    · exact ih

/-- **The slots are served one after the other**, each until it is not in need. -/
theorem Drains.sweeps {outs : α → List ω} {done : α → α} {I : α → Prop}
    (h : Drains needs serve outs done I) (slots : List α) (hslots : ∀ x ∈ slots, I x) :
    Sweeps needs serve slots (slots.flatMap outs) (slots.map done) := by
  induction slots with
  | nil => exact .done rfl
  | cons x xs ih =>
    have hrest := ih fun y hy => hslots y (List.mem_cons_of_mem x hy)
    have hx := hslots x List.mem_cons_self
    clear ih hslots
    rw [List.flatMap_cons, List.map_cons]
    -- by how often the first slot is served
    generalize hn : (outs x).length = n
    induction n generalizing x with
    | zero =>
      cases hneeds : needs x with
      | true =>
        obtain ⟨-, houts, -⟩ := h.busy x hx hneeds
        rw [houts] at hn
        exact absurd hn (by simp)
      | false =>
        obtain ⟨houts, hdone⟩ := h.idle x hx hneeds
        rw [houts, hdone, List.nil_append]
        exact hrest.cons hneeds
    | succ n ih =>
      cases hneeds : needs x with
      | false =>
        rw [(h.idle x hx hneeds).1] at hn
        exact absurd hn (by simp)
      | true =>
        obtain ⟨hx', houts, hdone⟩ := h.busy x hx hneeds
        rw [houts, List.length_cons, Nat.add_right_cancel_iff] at hn
        rw [houts, hdone, List.cons_append]
        refine .next (i := 0) ?_ rfl (ih _ hx' hn)
        rw [List.findIdx?_cons, hneeds]
        rfl

/-- No slot is in need afterwards. -/
theorem Sweeps.served (h : Sweeps needs serve slots os slots') : slots'.findIdx? needs = none := by
  induction h with
  | done h => exact h
  | next _ _ _ ih => exact ih

/-- **Slots that need to be served only once**: those in need are served in their order. -/
theorem sweeps_once (hserve : ∀ x, needs (serve x).1 = false) (slots : List α) :
    Sweeps needs serve slots ((slots.filter needs).map fun x => (serve x).2)
      (slots.map fun x => if needs x then (serve x).1 else x) := by
  have hdrains : Drains needs serve (fun x => if needs x then [(serve x).2] else [])
      (fun x => if needs x then (serve x).1 else x) fun _ => True := by
    refine ⟨fun x _ hx => ?_, fun x _ hx => ?_⟩
    · simp [hx]
    · simp [hx, hserve x]
  have houts : (slots.flatMap fun x => if needs x then [(serve x).2] else []) =
      (slots.filter needs).map fun x => (serve x).2 := by
    induction slots with
    | nil => rfl
    | cons x xs ih =>
      rw [List.flatMap_cons, List.filter_cons, ih]
      split_ifs <;> rfl
  rw [← houts]
  exact hdrains.sweeps slots fun _ _ => trivial

end Sweeps

/-- What one slot has put out, when the others are left out. -/
theorem filter_flatMap_eq {outs : α → List ω} {keep : ω → Bool} {slots : List α} {i : ℕ}
    (hi : i < slots.length) (hself : ∀ o ∈ outs slots[i], keep o = true)
    (hother : ∀ j (hj : j < slots.length), j ≠ i → ∀ o ∈ outs slots[j], keep o = false) :
    (slots.flatMap outs).filter keep = outs slots[i] := by
  induction slots generalizing i with
  | nil => exact absurd hi (Nat.not_lt_zero i)
  | cons x xs ih =>
    rw [List.flatMap_cons, List.filter_append]
    cases i with
    | zero =>
      have hrest : (xs.flatMap outs).filter keep = [] := by
        rw [List.filter_eq_nil_iff]
        intro o ho
        obtain ⟨y, hy, ho⟩ := List.mem_flatMap.mp ho
        obtain ⟨j, hj, rfl⟩ := List.getElem_of_mem hy
        rw [Bool.not_eq_true]
        exact hother (j + 1) (Nat.succ_lt_succ hj) (by simp) o ho
      rw [hrest, List.append_nil]
      exact List.filter_eq_self.mpr hself
    | succ i =>
      have hfirst : (outs x).filter keep = [] := by
        rw [List.filter_eq_nil_iff]
        intro o ho
        rw [Bool.not_eq_true]
        exact hother 0 (Nat.zero_lt_succ _) (by simp) o ho
      rw [hfirst, List.nil_append]
      exact ih (Nat.lt_of_succ_lt_succ hi) hself fun j hj hne =>
        hother (j + 1) (Nat.succ_lt_succ hj) (by simpa using hne)

end UniCan
