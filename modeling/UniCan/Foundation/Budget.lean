import Mathlib.Algebra.BigOperators.Group.Finset.Basic
import Mathlib.Order.WellFounded

/-!
# Steps that are paid for

A system makes steps, some of which cost something, and every step is paid for from a
measure of the state.  Then a run costs no more than the measure at its start, whatever
its steps are and in whatever order; and a run that goes on for ever costs nothing from
some point on.

## Main definitions

* `Pays` — every step is paid for.

## Main results

* `Pays.sum_le` — **what a run costs.**
* `Pays.eventually` — a run that goes on for ever costs nothing in the end.
-/

namespace UniCan

variable {σ : Type*} {step : σ → ℕ → σ → Prop} {I : σ → Prop} {μ : σ → ℕ} {run : ℕ → σ}
  {cost : ℕ → ℕ}

/-- On the states in `I`, every step of some cost is paid for from the measure `μ`. -/
structure Pays (step : σ → ℕ → σ → Prop) (I : σ → Prop) (μ : σ → ℕ) : Prop where
  inv : ∀ {s c s'}, I s → step s c s' → I s'
  pays : ∀ {s c s'}, I s → step s c s' → μ s' + c ≤ μ s

namespace Pays

/-- **What a run costs** is taken from the measure. -/
theorem sum_le (h : Pays step I μ) (hstart : I (run 0)) (n : ℕ)
    (hrun : ∀ k, k < n → step (run k) (cost k) (run (k + 1))) :
    I (run n) ∧ μ (run n) + ∑ k ∈ Finset.range n, cost k ≤ μ (run 0) := by
  induction n with
  | zero => exact ⟨hstart, Nat.le_refl _⟩
  | succ n ih =>
    obtain ⟨hinv, hle⟩ := ih fun k hk => hrun k (Nat.lt_succ_of_lt hk)
    have hstep := hrun n (Nat.lt_succ_self n)
    have hpaid := h.pays hinv hstep
    refine ⟨h.inv hinv hstep, ?_⟩
    rw [Finset.sum_range_succ]
    omega

/-- **A run that goes on for ever costs nothing in the end**: once the measure has got as
low as it ever does, no step can be paid for any more. -/
theorem eventually (h : Pays step I μ) (hstart : I (run 0))
    (hrun : ∀ k, step (run k) (cost k) (run (k + 1))) : ∃ K, ∀ k, K ≤ k → cost k = 0 := by
  have hinv : ∀ k, I (run k) := fun k => (h.sum_le hstart k fun j _ => hrun j).1
  obtain ⟨_, ⟨K, rfl⟩, hleast⟩ := wellFounded_lt.has_min (Set.range fun k => μ (run k)) ⟨_, 0, rfl⟩
  have hbelow : ∀ k, K ≤ k → μ (run k) ≤ μ (run K) := by
    intro k hk
    induction k, hk using Nat.le_induction with
    | base => exact Nat.le_refl _
    | succ k _ ih =>
      have hpaid := h.pays (hinv k) (hrun k)
      omega
  refine ⟨K, fun k hk => ?_⟩
  have hpaid := h.pays (hinv k) (hrun k)
  have hle := hbelow k hk
  have hge : ¬ μ (run (k + 1)) < μ (run K) := hleast _ ⟨k + 1, rfl⟩
  omega

end Pays

end UniCan
