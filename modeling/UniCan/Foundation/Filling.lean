import Mathlib.Data.List.Basic
import Mathlib.Data.List.Induction
import Mathlib.Logic.Function.Basic

/-!
# Filling a table from a list

A table is often filled while a list is walked: each element is read, and what it gives is
stored at once.  Reading may fail.  The walk then ends where it is, and what it has stored
so far stays stored.

## Main definitions

* `fill` — the walk.
* `front` — what the elements in front of the first bad one give.
* `put` — an entry added to a table by keys.

## Main results

* `fill_fst` — **a walk stores what stands in front of the first bad element**, no more and
  no less.
* `fill_snd_eq_none_iff` — it gets to the end exactly if no element is bad.
* `fill_append`, `fill_map` — walks one after the other, and the same walk over other elements.
* `foldl_component` — a part of a state to which only some of the entries matter.
* `foldl_put_apply` — in a table by keys the last entry of a key is the one that counts.
* `foldl_revise` — a table whose entries are revised, one after the other.
-/

namespace UniCan

universe v

variable {α β γ δ ε σ : Type*}

/-- The walk.  Reading an element fails, or gives nothing, or gives something to store. -/
def fill (read : α → Except ε (Option β)) (store : σ → β → σ) : List α → σ → σ × Option ε
  | [], s => (s, none)
  | a :: as, s =>
    match read a with
    | .error e => (s, some e)
    | .ok none => fill read store as s
    | .ok (some b) => fill read store as (store s b)

/-- What the elements in front of the first bad one give. -/
def front (read : α → Except ε (Option β)) : List α → List β
  | [] => []
  | a :: as =>
    match read a with
    | .error _ => []
    | .ok none => front read as
    | .ok (some b) => b :: front read as

/-- A computation that ends in an error. -/
def Fails (x : Except ε α) : Prop := ∃ e, x = .error e

/-- An element that cannot be read. -/
def Bad (read : α → Except ε (Option β)) (a : α) : Prop := Fails (read a)

/-! ### Errors -/

@[simp] theorem not_fails_ok (a : α) : ¬ Fails (.ok a : Except ε α) := by simp [Fails]

@[simp] theorem fails_error (e : ε) : Fails (.error e : Except ε α) := ⟨e, rfl⟩

@[simp] theorem fails_map (f : α → β) (x : Except ε α) : Fails (x.map f) ↔ Fails x := by
  cases x <;> simp [Except.map]

/-- Two computations, one after the other: either of them may fail. -/
theorem fails_bind {α β : Type v} {x : Except ε α} {f : α → Except ε β} {P Q : Prop}
    (hx : Fails x ↔ P) (hf : ∀ a, Fails (f a) ↔ Q) : Fails (x >>= f) ↔ P ∨ Q := by
  rw [← hx]
  cases x with
  | error e => simp [bind, Except.bind]
  | ok a => simpa [bind, Except.bind] using hf a

/-- What is done with a result in the end does not fail. -/
theorem fails_bind_pure {α β : Type v} {x : Except ε α} {P : Prop} (hx : Fails x ↔ P)
    (f : α → β) : Fails (x >>= fun a => pure (f a)) ↔ P :=
  (fails_bind hx fun a => iff_false_intro (not_fails_ok (f a))).trans (or_iff_left id)

/-- Reading a list fails exactly if an element is bad. -/
theorem fails_filterMapM {α β : Type v} (f : α → Except ε (Option β)) (as : List α) :
    Fails (as.filterMapM f) ↔ ∃ a ∈ as, Bad f a := by
  induction as with
  | nil => simp [pure, Except.pure]
  | cons a as ih =>
    rw [List.filterMapM_cons, List.exists_mem_cons_iff, ← ih]
    cases h : f a with
    | error e => simp [bind, Except.bind, Bad, h]
    | ok b =>
      cases b with
      | none => simp [bind, Except.bind, Bad, h]
      | some b =>
        have htail := fails_bind_pure (x := as.filterMapM f) Iff.rfl fun bs => b :: bs
        simpa [bind, Except.bind, Bad, h] using htail

/-! ### Walks -/

variable {read : α → Except ε (Option β)} {store : σ → β → σ}

/-- **What a walk stores.** -/
theorem fill_fst (as : List α) (s : σ) :
    (fill read store as s).1 = (front read as).foldl store s := by
  induction as generalizing s with
  | nil => rfl
  | cons a as ih =>
    rw [fill, front]
    cases read a with
    | error e => rfl
    | ok b =>
      cases b with
      | none => exact ih s
      | some b => exact ih (store s b)

/-- A walk gets to the end exactly if no element is bad. -/
theorem fill_snd_eq_none_iff (as : List α) (s : σ) :
    (fill read store as s).2 = none ↔ ∀ a ∈ as, ¬ Bad read a := by
  induction as generalizing s with
  | nil => simp [fill]
  | cons a as ih =>
    rw [fill, List.forall_mem_cons]
    cases h : read a with
    | error e => simp [Bad, h]
    | ok b =>
      have hgood : ¬ Bad read a := by simp [Bad, h]
      cases b with
      | none => exact (ih s).trans (and_iff_right hgood).symm
      | some b => exact (ih (store s b)).trans (and_iff_right hgood).symm

/-- Two walks, one after the other. -/
theorem fill_append (as bs : List α) (s : σ) :
    fill read store (as ++ bs) s =
      if (fill read store as s).2 = none then fill read store bs (fill read store as s).1
      else fill read store as s := by
  induction as generalizing s with
  | nil => simp [fill]
  | cons a as ih =>
    rw [List.cons_append, fill, fill]
    cases read a with
    | error e => simp
    | ok b =>
      cases b with
      | none => exact ih s
      | some b => exact ih (store s b)

/-- The same walk over elements that are read and stored in the same way. -/
theorem fill_map {read' : γ → Except ε (Option δ)} {store' : σ → δ → σ} (f : α → γ) (g : β → δ)
    (hread : ∀ a, read' (f a) = (read a).map (Option.map g))
    (hstore : ∀ s b, store' s (g b) = store s b) (as : List α) (s : σ) :
    fill read store as s = fill read' store' (as.map f) s := by
  induction as generalizing s with
  | nil => rfl
  | cons a as ih =>
    rw [List.map_cons, fill, fill, hread a]
    cases read a with
    | error e => rfl
    | ok b =>
      cases b with
      | none => exact ih s
      | some b =>
        simp only [Except.map, Option.map_some, hstore]
        exact ih (store s b)

/-- A part of a state to which only some of the entries matter. -/
theorem foldl_component {τ : Type*} {set : σ → β → σ} {part : σ → τ} {pick : β → Option γ}
    {put : τ → γ → τ} (hset : ∀ s b, part (set s b) = (pick b).elim (part s) (put (part s)))
    (bs : List β) (s : σ) : part (bs.foldl set s) = (bs.filterMap pick).foldl put (part s) := by
  induction bs generalizing s with
  | nil => rfl
  | cons b bs ih =>
    rw [List.foldl_cons, ih, hset, List.filterMap_cons]
    cases pick b <;> rfl

/-! ### Tables by keys -/

section Tables

variable {κ ν : Type*} [DecidableEq κ]

/-- A table with another entry. -/
def put (table : κ → Option ν) (entry : κ × ν) : κ → Option ν :=
  Function.update table entry.1 (some entry.2)

/-- **The last entry of a key counts**, and a key without an entry keeps what it had. -/
theorem foldl_put_apply (entries : List (κ × ν)) (table : κ → Option ν) (k : κ) :
    entries.foldl put table k = (entries.reverse.lookup k).or (table k) := by
  induction entries generalizing table with
  | nil => rfl
  | cons entry entries ih =>
    obtain ⟨key, value⟩ := entry
    rw [List.foldl_cons, ih, List.reverse_cons, List.lookup_append, Option.or_assoc]
    congr 1
    by_cases hk : k = key
    · subst hk
      simp [put]
    · have hne : (k == key) = false := by simpa using hk
      simp [put, List.lookup_cons, hne, Function.update_of_ne hk]

/-- **A revised entry is as it was left**: what every revision of a key brings about holds of
the key after all of them. -/
theorem foldl_revise {ι : Type*} (key : ι → κ) (revise : ι → ν → ν) {P : κ → ν → Prop}
    {is : List ι} (hrevise : ∀ i ∈ is, ∀ v, P (key i) (revise i v)) (table : κ → ν) {i : ι}
    (hi : i ∈ is) :
    P (key i) (is.foldl (fun t j => Function.update t (key j) (revise j (t (key j)))) table
      (key i)) := by
  induction is using List.reverseRecOn with
  | nil => exact absurd hi (by simp)
  | append_singleton is j ih =>
    rw [List.foldl_append, List.foldl_cons, List.foldl_nil]
    by_cases hkey : key i = key j
    · rw [hkey, Function.update_self]
      exact hrevise j (by simp) _
    · -- the last revision is of another key
      rw [Function.update_of_ne hkey]
      rcases List.mem_append.mp hi with hbefore | hlast
      · exact ih (fun k hk => hrevise k (List.mem_append_left _ hk)) hbefore
      · exact absurd (congrArg key (List.mem_singleton.mp hlast)) hkey

end Tables

end UniCan
