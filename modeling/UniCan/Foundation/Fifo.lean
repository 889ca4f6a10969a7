import UniCan.Foundation.Machine

/-!
# First in, first out

A component of a machine is a queue when every step appends some elements at its back
and removes some at its front.  Over a run, what was removed, in order, followed by what
is still there, is then what was there at first and was appended since: nothing is lost,
duplicated or reordered.

## Main definitions

* `Machine.trace` — what the steps of a run contribute, in order.
* `Machine.Fifo` — a component that every step treats as a queue.

## Main results

* `Machine.Fifo.run` — **the first-in-first-out law of a run.**
-/

namespace UniCan

namespace Machine

variable {σ ι ω α : Type*} (M : Machine σ ι ω)

/-- What the steps of a run contribute, in order. -/
def trace (f : σ → ι → List α) (s : σ) : List ι → List α
  | [] => []
  | i :: is => f s i ++ trace f (M.step s i).1 is

@[simp] theorem trace_nil (f : σ → ι → List α) (s : σ) : M.trace f s [] = [] := rfl

@[simp] theorem trace_cons (f : σ → ι → List α) (s : σ) (i : ι) (is : List ι) :
    M.trace f s (i :: is) = f s i ++ M.trace f (M.step s i).1 is := rfl

theorem trace_append (f : σ → ι → List α) (s : σ) (is js : List ι) :
    M.trace f s (is ++ js) = M.trace f s is ++ M.trace f (M.final s is) js := by
  induction is generalizing s with
  | nil => rfl
  | cons i is ih => rw [List.cons_append, trace_cons, trace_cons, ih, final_cons,
      List.append_assoc]

/-- What a function makes of the contributions. -/
theorem trace_map {β : Type*} (g : α → β) (f : σ → ι → List α) (s : σ) (is : List ι) :
    M.trace (fun s i => (f s i).map g) s is = (M.trace f s is).map g := by
  induction is generalizing s with
  | nil => rfl
  | cons i is ih => rw [trace_cons, trace_cons, List.map_append, ih]

/-- On the states in `I`, every step removes what `out` says from the front of `content`,
and appends what `into` says at its back. -/
structure Fifo (content : σ → List α) (into out : σ → ι → List α) (I : σ → Prop) : Prop where
  /-- The states in `I` are closed under steps. -/
  inv : ∀ s i, I s → I (M.step s i).1
  /-- One step. -/
  step : ∀ s i, I s → out s i ++ content (M.step s i).1 = content s ++ into s i

variable {M} {content : σ → List α} {into out : σ → ι → List α} {I : σ → Prop}

/-- **The first-in-first-out law of a run.** -/
theorem Fifo.run (h : M.Fifo content into out I) {s : σ} (hs : I s) (is : List ι) :
    M.trace out s is ++ content (M.final s is) = content s ++ M.trace into s is := by
  induction is generalizing s with
  | nil => simp
  | cons i is ih =>
    rw [trace_cons, trace_cons, final_cons]
    calc out s i ++ M.trace out (M.step s i).1 is ++ content (M.final (M.step s i).1 is)
        = out s i ++ (content (M.step s i).1 ++ M.trace into (M.step s i).1 is) := by
          rw [List.append_assoc, ih (h.inv s i hs)]
      _ = content s ++ (into s i ++ M.trace into (M.step s i).1 is) := by
          rw [← List.append_assoc, h.step s i hs, List.append_assoc]

/-- A component that no step takes from. -/
theorem Fifo.run_of_out_nil (h : M.Fifo content into (fun _ _ => []) I) {s : σ} (hs : I s)
    (is : List ι) : content (M.final s is) = content s ++ M.trace into s is := by
  have hnil : M.trace (fun _ _ => ([] : List α)) s is = [] := by
    clear hs
    induction is generalizing s with
    | nil => rfl
    | cons i is ih => rw [trace_cons, ih, List.nil_append]
  have hrun := h.run hs is
  rw [hnil, List.nil_append] at hrun
  exact hrun

end Machine

end UniCan
