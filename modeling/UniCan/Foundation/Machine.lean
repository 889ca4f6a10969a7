import Mathlib.Data.List.Induction

/-!
# Deterministic machines

Every component of the development is a deterministic machine: a state, an
input, and for each input one output.  What is proved about a component is
proved about its runs from one state, and the arguments that turn facts about a
step into facts about a run are collected here, for machines over arbitrary
types.

## Main definitions

* `Machine` — a step function.
* `Machine.final`, `Machine.outputs` — the state a run ends in, and what it put
  out.
* `Machine.Along` — the steps of a run are all of a kind.
* `Machine.Splits` — the machine is a family of independent machines, one for
  each key.

## Main results

* `Machine.final_of_step` — the invariant rule.
* `Machine.final_history`, `Machine.final_outputs` — the invariant rule for a
  property of the state and of the inputs, or of the outputs, so far.
* `Machine.along_iff_of_step_iff` — a run of such steps is one through good states.
* `Machine.final_of_along` — the invariant rule for runs whose steps are of a kind.
* `Machine.final_of_simulation` — the simulation rule.
* `Machine.Splits.outputs_of_key` — the outputs at the inputs of one key are the
  outputs of that key's own machine.
-/

namespace UniCan

/-- A deterministic machine with states `σ`, inputs `ι` and outputs `ω`. -/
structure Machine (σ ι ω : Type*) where
  /-- The next state and the output. -/
  step : σ → ι → σ × ω

namespace Machine

variable {σ τ ι ω υ κ : Type*} (M : Machine σ ι ω)

/-- The state after a list of inputs. -/
def final (s : σ) : List ι → σ
  | [] => s
  | i :: is => final (M.step s i).1 is

/-- The outputs to a list of inputs, one for each. -/
def outputs (s : σ) : List ι → List ω
  | [] => []
  | i :: is => (M.step s i).2 :: outputs (M.step s i).1 is

/-- Some inputs lead from `s₀` to `s`. -/
def Reachable (s₀ s : σ) : Prop := ∃ is, M.final s₀ is = s

@[simp] theorem final_nil (s : σ) : M.final s [] = s := rfl

@[simp] theorem final_cons (s : σ) (i : ι) (is : List ι) :
    M.final s (i :: is) = M.final (M.step s i).1 is := rfl

@[simp] theorem outputs_nil (s : σ) : M.outputs s [] = [] := rfl

@[simp] theorem outputs_cons (s : σ) (i : ι) (is : List ι) :
    M.outputs s (i :: is) = (M.step s i).2 :: M.outputs (M.step s i).1 is := rfl

theorem final_append (s : σ) (is js : List ι) :
    M.final s (is ++ js) = M.final (M.final s is) js := by
  induction is generalizing s with
  | nil => rfl
  | cons i is ih => exact ih _

theorem outputs_append (s : σ) (is js : List ι) :
    M.outputs s (is ++ js) = M.outputs s is ++ M.outputs (M.final s is) js := by
  induction is generalizing s with
  | nil => rfl
  | cons i is ih => simp only [List.cons_append, outputs_cons, final_cons, ih]

@[simp] theorem length_outputs (s : σ) (is : List ι) :
    (M.outputs s is).length = is.length := by
  induction is generalizing s with
  | nil => rfl
  | cons i is ih => simp [ih]

/-- **The invariant rule.**  What holds at the start and survives every step
holds at the end of every run. -/
theorem final_of_step {P : σ → Prop} {s : σ} (is : List ι) (hs : P s)
    (hstep : ∀ s, ∀ i ∈ is, P s → P (M.step s i).1) : P (M.final s is) := by
  induction is generalizing s with
  | nil => exact hs
  | cons i is ih =>
    have hnext : P (M.step s i).1 := hstep s i List.mem_cons_self hs
    exact ih hnext fun s j hj => hstep s j (List.mem_cons_of_mem i hj)

/-- **The invariant rule with history.**  The property may speak of the inputs
that led to the state. -/
theorem final_history {P : List ι → σ → Prop} {s : σ} (hs : P [] s)
    (hstep : ∀ h s i, P h s → P (h ++ [i]) (M.step s i).1) (is : List ι) :
    P is (M.final s is) := by
  induction is using List.reverseRecOn with
  | nil => exact hs
  | append_singleton is i ih =>
    rw [final_append]
    exact hstep is _ i ih

/-- **The invariant rule with outputs.**  The property may speak of what the run has put
out. -/
theorem final_outputs {P : σ → List ω → Prop} {s : σ} (hs : P s [])
    (hstep : ∀ s os i, P s os → P (M.step s i).1 (os ++ [(M.step s i).2])) (is : List ι) :
    P (M.final s is) (M.outputs s is) := by
  induction is using List.reverseRecOn with
  | nil => exact hs
  | append_singleton is i ih =>
    rw [final_append, outputs_append]
    exact hstep _ _ i ih

/-! ### Runs whose steps are all of a kind -/

/-- Every step of the run is one that `P` allows in its state. -/
def Along (P : σ → ι → Prop) (s : σ) : List ι → Prop
  | [] => True
  | i :: is => P s i ∧ Along P (M.step s i).1 is

/-- If exactly the steps that `Q` allows keep the states good, a run is made of such steps
exactly if all its states are good. -/
theorem along_iff_of_step_iff {good : σ → Prop} {Q : σ → ι → Prop} {s : σ} (hs : good s)
    (hstep : ∀ s i, good s → (Q s i ↔ good (M.step s i).1)) (is : List ι) :
    M.Along Q s is ↔ ∀ n, good (M.final s (is.take n)) := by
  induction is generalizing s with
  | nil => exact iff_of_true trivial fun n => by rwa [List.take_nil]
  | cons i is ih =>
    constructor
    · rintro ⟨hi, hrest⟩ n
      cases n with
      | zero => exact hs
      | succ n => exact (ih ((hstep s i hs).mp hi)).mp hrest n
    · intro h
      have hi : good (M.step s i).1 := h 1
      exact ⟨(hstep s i hs).mpr hi, (ih hi).mpr fun n => h (n + 1)⟩

/-- Steps of one kind are steps of another, in the states of an invariant they keep. -/
theorem along_of_step {I : σ → Prop} {P Q : σ → ι → Prop} {s : σ} {is : List ι} (hs : I s)
    (hstep : ∀ s i, I s → P s i → Q s i ∧ I (M.step s i).1) (h : M.Along P s is) :
    M.Along Q s is := by
  induction is generalizing s with
  | nil => trivial
  | cons i is ih =>
    obtain ⟨hi, hrest⟩ := h
    obtain ⟨hq, hnext⟩ := hstep s i hs hi
    exact ⟨hq, ih hnext hrest⟩

/-! ### Simulation -/

/-- **The simulation rule.**  If every step of a run is matched by some steps of another
machine, so is the run. -/
theorem final_of_simulation {N : Machine τ κ υ} {R : σ → τ → Prop} (is : List ι)
    (hstep : ∀ s t, ∀ i ∈ is, R s t → ∃ js, R (M.step s i).1 (N.final t js)) {s : σ} {t : τ}
    (h : R s t) : ∃ js, R (M.final s is) (N.final t js) := by
  induction is generalizing s t with
  | nil => exact ⟨[], h⟩
  | cons i is ih =>
    obtain ⟨js, hmatched⟩ := hstep s t i List.mem_cons_self h
    obtain ⟨js', hrest⟩ := ih (fun s t j hj => hstep s t j (List.mem_cons_of_mem i hj)) hmatched
    refine ⟨js ++ js', ?_⟩
    rw [N.final_append]
    exact hrest

/-! ### Machines that split by key

A machine with many clients may keep what belongs to each of them apart.  `N`
is the machine one client sees, `α s k` is what the state `s` holds for the
client `k`; the machine splits when a step of one client is a step of that
client's machine and leaves what the others have alone. -/

/-- On the states in `I` and the inputs in `J`, the machine `M` is a family of
machines `N`, one for each key, as far as `obs` can see its outputs. -/
structure Splits (M : Machine σ ι ω) (N : Machine τ ι υ) (obs : ω → υ) (key : ι → κ)
    (α : σ → κ → τ) (I : σ → Prop) (J : ι → Prop) : Prop where
  /-- The states in `I` are closed under steps. -/
  inv : ∀ s i, I s → J i → I (M.step s i).1
  /-- The output is that of the key's machine. -/
  out : ∀ s i, I s → J i → obs (M.step s i).2 = (N.step (α s (key i)) i).2
  /-- The key's part of the state makes the key's step. -/
  own : ∀ s i, I s → J i → α (M.step s i).1 (key i) = (N.step (α s (key i)) i).1
  /-- The other parts of the state stay. -/
  other : ∀ s i k, I s → J i → k ≠ key i → α (M.step s i).1 k = α s k

/-- The outputs of a run at the inputs of one key, in order. -/
def outputsOf [DecidableEq κ] (key : ι → κ) (k : κ) (s : σ) : List ι → List ω
  | [] => []
  | i :: is =>
      if key i = k then (M.step s i).2 :: outputsOf key k (M.step s i).1 is
      else outputsOf key k (M.step s i).1 is

theorem outputsOf_congr {κ' : Type*} [DecidableEq κ] [DecidableEq κ'] {key : ι → κ}
    {key' : ι → κ'} {k : κ} {k' : κ'} (h : ∀ i, key i = k ↔ key' i = k') (s : σ) (is : List ι) :
    M.outputsOf key k s is = M.outputsOf key' k' s is := by
  induction is generalizing s with
  | nil => rfl
  | cons i is ih => simp only [outputsOf, h i, ih]

/-- When all inputs are of one key, its outputs are all outputs. -/
theorem outputsOf_of_forall [DecidableEq κ] {key : ι → κ} {k : κ} (s : σ) {is : List ι}
    (h : ∀ i ∈ is, key i = k) : M.outputsOf key k s is = M.outputs s is := by
  induction is generalizing s with
  | nil => rfl
  | cons i is ih =>
    rw [outputsOf, if_pos (h i List.mem_cons_self), outputs_cons,
      ih _ fun j hj => h j (List.mem_cons_of_mem i hj)]

namespace Splits

variable {M : Machine σ ι ω} {N : Machine τ ι υ} {obs : ω → υ} {key : ι → κ} {α : σ → κ → τ}
  {I : σ → Prop} {J : ι → Prop}

/-- **A client sees only its own machine**: the outputs at its inputs are what
its machine puts out for its inputs alone. -/
theorem outputs_of_key [DecidableEq κ] (h : M.Splits N obs key α I J) (k : κ) (is : List ι)
    (s : σ) (hs : I s) (his : ∀ i ∈ is, J i) :
    (M.outputsOf key k s is).map obs = N.outputs (α s k) (is.filter (key · = k)) := by
  induction is generalizing s with
  | nil => rfl
  | cons i is ih =>
    have hi : J i := his i List.mem_cons_self
    have hrest := ih (M.step s i).1 (h.inv s i hs hi) fun j hj => his j (List.mem_cons_of_mem i hj)
    by_cases hk : key i = k
    · -- an input of the client: its machine makes the same step
      subst hk
      rw [outputsOf, if_pos rfl, List.map_cons, hrest, h.out s i hs hi, h.own s i hs hi]
      simp
    · rw [outputsOf, if_neg hk, hrest, h.other s i k hs hi (Ne.symm hk)]
      simp [hk]

/-- A run of one client. -/
theorem outputs_of_forall (h : M.Splits N obs key α I J) {k : κ} {is : List ι} {s : σ} (hs : I s)
    (his : ∀ i ∈ is, J i) (hkey : ∀ i ∈ is, key i = k) :
    (M.outputs s is).map obs = N.outputs (α s k) is := by
  classical
  have hfilter : is.filter (key · = k) = is :=
    List.filter_eq_self.mpr fun i hi => decide_eq_true (hkey i hi)
  rw [← M.outputsOf_of_forall s hkey, h.outputs_of_key k is s hs his, hfilter]

end Splits

end Machine

end UniCan
