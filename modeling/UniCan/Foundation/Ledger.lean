import Mathlib.Data.Finset.Basic
import Mathlib.Tactic.SplitIfs

/-!
# Ledgers of resources

A program acquires resources, uses them and gives them back, and its ledger lists what it has
done.  A ledger is sound if nothing is used or given back that is not held at that time, and
nothing acquired that is.

## Main definitions

* `Usage` — an entry of a ledger.
* `Ledger.run` — what is held after a ledger, if it is sound.

## Main results

* `Ledger.run_append` — ledgers that follow one another.
* `Ledger.count_of_run` — **what is acquired is given back or held**, one for one.
-/

namespace UniCan

variable {κ : Type*} [DecidableEq κ]

/-- What is done with a resource. -/
inductive Usage (κ : Type*)
  | acquire (k : κ)
  | use (k : κ)
  | release (k : κ)
  deriving DecidableEq

/-- What is held after an entry, if it may be made. -/
def Usage.next (held : Finset κ) : Usage κ → Option (Finset κ)
  | .acquire k => if k ∈ held then none else some (insert k held)
  | .use k => if k ∈ held then some held else none
  | .release k => if k ∈ held then some (held.erase k) else none

namespace Ledger

/-- What is held after a ledger, if it is sound. -/
def run (held : Finset κ) : List (Usage κ) → Option (Finset κ)
  | [] => some held
  | entry :: ledger => (entry.next held).bind fun held => run held ledger

variable {held held' : Finset κ} {ledger ledger' : List (Usage κ)} {k : κ}

theorem run_append (h : run held ledger = some held') :
    run held (ledger ++ ledger') = run held' ledger' := by
  induction ledger generalizing held with
  | nil =>
    obtain rfl := Option.some.inj h
    rfl
  | cons entry ledger ih =>
    rw [run] at h
    rw [List.cons_append, run]
    cases hnext : entry.next held with
    | none =>
      rw [hnext] at h
      exact absurd h (by simp)
    | some held₁ =>
      rw [hnext] at h
      exact ih h

theorem run_acquire (h : k ∉ held) :
    run held (.acquire k :: ledger) = run (insert k held) ledger := by
  simp [run, Usage.next, h]

theorem run_use (h : k ∈ held) : run held (.use k :: ledger) = run held ledger := by
  simp [run, Usage.next, h]

theorem run_release (h : k ∈ held) :
    run held (.release k :: ledger) = run (held.erase k) ledger := by
  simp [run, Usage.next, h]

/-- Using what is held changes nothing. -/
theorem run_uses {uses : List (Usage κ)} (h : ∀ entry ∈ uses, ∃ k ∈ held, entry = .use k) :
    run held uses = some held := by
  induction uses with
  | nil => rfl
  | cons entry uses ih =>
    obtain ⟨k, hk, rfl⟩ := h entry List.mem_cons_self
    rw [run_use hk]
    exact ih fun entry' hmem => h entry' (List.mem_cons_of_mem _ hmem)

/-- **What is acquired is given back or held**, one for one. -/
theorem count_of_run (h : run held ledger = some held') (k : κ) :
    ledger.count (.acquire k) + (if k ∈ held then 1 else 0) =
      ledger.count (.release k) + if k ∈ held' then 1 else 0 := by
  induction ledger generalizing held with
  | nil =>
    obtain rfl := Option.some.inj h
    rfl
  | cons entry ledger ih =>
    cases entry with
    | acquire j =>
      by_cases hj : j ∈ held
      · exact absurd h (by simp [run, Usage.next, hj])
      · rw [run_acquire hj] at h
        have hrest := ih h
        by_cases heq : k = j
        · rw [heq] at hrest ⊢
          simp only [Finset.mem_insert_self, if_true] at hrest
          simp only [List.count_cons_self, hj, if_false, List.count_cons_of_ne, ne_eq,
            reduceCtorEq, not_false_eq_true]
          omega
        · simp only [Finset.mem_insert, heq, false_or] at hrest
          rw [List.count_cons_of_ne (by simpa using Ne.symm heq), List.count_cons_of_ne (by simp)]
          exact hrest
    | use j =>
      by_cases hj : j ∈ held
      · rw [run_use hj] at h
        rw [List.count_cons_of_ne (by simp), List.count_cons_of_ne (by simp)]
        exact ih h
      · exact absurd h (by simp [run, Usage.next, hj])
    | release j =>
      by_cases hj : j ∈ held
      · rw [run_release hj] at h
        have hrest := ih h
        by_cases heq : k = j
        · rw [heq] at hrest ⊢
          simp only [Finset.notMem_erase, if_false] at hrest
          simp only [List.count_cons_self, hj, if_true, List.count_cons_of_ne, ne_eq,
            reduceCtorEq, not_false_eq_true]
          omega
        · simp only [Finset.mem_erase, ne_eq, heq, not_false_eq_true, true_and] at hrest
          rw [List.count_cons_of_ne (by simp), List.count_cons_of_ne (by simpa using Ne.symm heq)]
          exact hrest
      · exact absurd h (by simp [run, Usage.next, hj])

end Ledger

end UniCan
