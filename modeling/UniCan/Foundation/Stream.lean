import Mathlib.Data.List.Induction
import Mathlib.Logic.Function.Basic

/-!
# Streams of many transfers

A stream carries transfers that are told apart by keys: a transfer starts, some data
follows, and it stops.  A key serves one transfer after the other, and a transfer may
be left where it is when the next one with its key starts.  A reader that keeps, for
each key, the data since the last start gets what was sent, if the writer follows a
list of the transfers it started.

## Main definitions

* `Mark`, `Entry` — a piece of a transfer, and a transfer as it was started.
* `scan` — what a reader of a stream keeps.
* `Follows` — the writer follows a list of transfers.
* `Spent` — the transfers a reader has reported.
* `Opens` — the stream ends inside a transfer of a key.
* `since`, `Completes` — the pieces of a key since its last start, and pieces that make
  up a payload, though some of them were sent again.

## Main results

* `Follows.stop` — **a transfer that stops is the one that was started.**
* `Follows.last` — the transfer of a key is the last one that was started with it.
* `Spent.report` — **no transfer is reported twice.**
* `scan_current_eq_iff` — what a reader keeps of an open transfer is the data since its
  start.
-/

namespace UniCan

variable {κ τ β : Type*}

/-- A piece of a transfer. -/
inductive Mark (τ β : Type*)
  | start (tag : τ)
  | data (bytes : List β)
  | stop

/-- A transfer as it was started. -/
structure Entry (κ τ β : Type*) where
  key : κ
  tag : τ
  payload : List β

/-- A transfer as it is read: its number in the stream, what its start said, the data
so far, and whether it has stopped. -/
structure Reading (τ β : Type*) where
  number : ℕ
  tag : τ
  data : List β
  stopped : Bool

/-- What a reader keeps: the number of transfers so far, and the last one of each key. -/
structure Scan (κ τ β : Type*) where
  starts : ℕ
  current : κ → Option (Reading τ β)

section Scan

variable [DecidableEq κ]

/-- What a piece makes of it. -/
def Scan.step (s : Scan κ τ β) (p : κ × Mark τ β) : Scan κ τ β :=
  match p.2 with
  | .start tag => {
      starts := s.starts + 1
      current := Function.update s.current p.1 (some ⟨s.starts, tag, [], false⟩) }
  | .data bytes => { s with
      current := Function.update s.current p.1
        ((s.current p.1).map fun r => { r with data := r.data ++ bytes }) }
  | .stop => { s with
      current := Function.update s.current p.1
        ((s.current p.1).map fun r => { r with stopped := true }) }

section Step

variable (s : Scan κ τ β) (k : κ)

@[simp] theorem Scan.starts_start (tag : τ) : (s.step (k, .start tag)).starts = s.starts + 1 := rfl

@[simp] theorem Scan.starts_data (bytes : List β) : (s.step (k, .data bytes)).starts = s.starts :=
  rfl

@[simp] theorem Scan.starts_stop : (s.step (k, .stop)).starts = s.starts := rfl

@[simp] theorem Scan.current_start (tag : τ) :
    (s.step (k, .start tag)).current k = some ⟨s.starts, tag, [], false⟩ :=
  Function.update_self ..

@[simp] theorem Scan.current_data (bytes : List β) : (s.step (k, .data bytes)).current k =
    (s.current k).map fun r => { r with data := r.data ++ bytes } :=
  Function.update_self ..

@[simp] theorem Scan.current_stop : (s.step (k, .stop)).current k =
    (s.current k).map fun r => { r with stopped := true } :=
  Function.update_self ..

/-- The number of transfers does not go down. -/
theorem Scan.starts_le_step (p : κ × Mark τ β) : s.starts ≤ (s.step p).starts := by
  obtain ⟨k, mark⟩ := p
  cases mark <;> simp

end Step

/-- What a reader of a stream keeps. -/
def scan (l : List (κ × Mark τ β)) : Scan κ τ β := l.foldl Scan.step ⟨0, fun _ => none⟩

@[simp] theorem scan_concat (l : List (κ × Mark τ β)) (p : κ × Mark τ β) :
    scan (l ++ [p]) = (scan l).step p := by
  rw [scan, List.foldl_append]
  rfl

/-- A piece of another key. -/
theorem Scan.current_step_of_ne (s : Scan κ τ β) {p : κ × Mark τ β} {k : κ} (h : k ≠ p.1) :
    (s.step p).current k = s.current k := by
  unfold Scan.step
  cases p.2 <;> exact Function.update_of_ne h _ _

/-- The number of a transfer that is read. -/
theorem scan_number_lt {l : List (κ × Mark τ β)} {k : κ} {r : Reading τ β}
    (h : (scan l).current k = some r) : r.number < (scan l).starts := by
  induction l using List.reverseRecOn generalizing r with
  | nil => exact absurd h (by simp [scan])
  | append_singleton l p ih =>
    rw [scan_concat] at h ⊢
    obtain ⟨k', mark⟩ := p
    by_cases hk : k = k'
    · subst hk
      cases mark with
      | start tag =>
        rw [Scan.current_start] at h
        cases h
        exact Nat.lt_succ_self _
      | data bytes =>
        rw [Scan.current_data] at h
        obtain ⟨r', hr', rfl⟩ := Option.map_eq_some_iff.mp h
        have hold := ih hr'
        exact hold
      | stop =>
        rw [Scan.current_stop] at h
        obtain ⟨r', hr', rfl⟩ := Option.map_eq_some_iff.mp h
        have hold := ih hr'
        exact hold
    · rw [Scan.current_step_of_ne _ hk] at h
      exact Nat.lt_of_lt_of_le (ih h) (Scan.starts_le_step _ _)

/-- Two transfers that are read have different numbers. -/
theorem scan_number_inj {l : List (κ × Mark τ β)} {k k' : κ} {r r' : Reading τ β}
    (h : (scan l).current k = some r) (h' : (scan l).current k' = some r')
    (heq : r.number = r'.number) : k = k' := by
  induction l using List.reverseRecOn generalizing k k' r r' with
  | nil => exact absurd h (by simp [scan])
  | append_singleton l p ih =>
    obtain ⟨k₀, mark⟩ := p
    -- what is read after the piece has been read before, or it is only just started
    have hold : ∀ {k r}, (scan (l ++ [(k₀, mark)])).current k = some r →
        (∃ r₀, (scan l).current k = some r₀ ∧ r₀.number = r.number) ∨
          k = k₀ ∧ r.number = (scan l).starts := by
      intro k r hr
      rw [scan_concat] at hr
      by_cases hk : k = k₀
      · subst hk
        cases mark with
        | start tag =>
          rw [Scan.current_start] at hr
          cases hr
          exact .inr ⟨rfl, rfl⟩
        | data bytes =>
          rw [Scan.current_data] at hr
          obtain ⟨r₀, hr₀, rfl⟩ := Option.map_eq_some_iff.mp hr
          exact .inl ⟨r₀, hr₀, rfl⟩
        | stop =>
          rw [Scan.current_stop] at hr
          obtain ⟨r₀, hr₀, rfl⟩ := Option.map_eq_some_iff.mp hr
          exact .inl ⟨r₀, hr₀, rfl⟩
      · rw [Scan.current_step_of_ne _ hk] at hr
        exact .inl ⟨r, hr, rfl⟩
    rcases hold h with ⟨r₀, hr₀, hn⟩ | ⟨rfl, hn⟩ <;>
      rcases hold h' with ⟨r₀', hr₀', hn'⟩ | ⟨rfl, hn'⟩
    · exact ih hr₀ hr₀' (by omega)
    · have hlt := scan_number_lt hr₀
      omega
    · have hlt := scan_number_lt hr₀'
      omega
    · rfl

/-- Pieces of other keys. -/
theorem scan_append_of_ne {l l' : List (κ × Mark τ β)} {k : κ} (h : ∀ p ∈ l', p.1 ≠ k) :
    (scan (l ++ l')).current k = (scan l).current k := by
  induction l' using List.reverseRecOn with
  | nil => rw [List.append_nil]
  | append_singleton l' p ih =>
    rw [← List.append_assoc, scan_concat,
      Scan.current_step_of_ne _ (h p (List.mem_append_right l' List.mem_cons_self)).symm]
    exact ih fun q hq => h q (List.mem_append_left [p] hq)

end Scan

/-! ### Writers -/

section Follows

variable [DecidableEq κ] {started started' : List (Entry κ τ β)} {l l' : List (κ × Mark τ β)}
  {p : κ × Mark τ β} {k : κ} {r : Reading τ β}

/-- A writer of the transfers `started` may go on with this piece. -/
def Allows (started : List (Entry κ τ β)) (s : Scan κ τ β) (p : κ × Mark τ β) : Prop :=
  match p.2 with
  | .start tag => ∃ e, started[s.starts]? = some e ∧ e.key = p.1 ∧ e.tag = tag
  | .data bytes => ∃ r e, s.current p.1 = some r ∧ r.stopped = false ∧
      started[r.number]? = some e ∧ r.data ++ bytes <+: e.payload
  | .stop => ∃ r e, s.current p.1 = some r ∧ r.stopped = false ∧
      started[r.number]? = some e ∧ r.data = e.payload

/-- The stream is one of the transfers `started`. -/
def Follows (started : List (Entry κ τ β)) (l : List (κ × Mark τ β)) : Prop :=
  ∀ l₁ p l₂, l = l₁ ++ p :: l₂ → Allows started (scan l₁) p

theorem follows_nil : Follows started ([] : List (κ × Mark τ β)) :=
  fun _ _ _ h => absurd h (by simp)

theorem follows_concat : Follows started (l ++ [p]) ↔ Follows started l ∧
    Allows started (scan l) p := by
  constructor
  · intro h
    exact ⟨fun l₁ q l₂ heq => h l₁ q (l₂ ++ [p]) (by rw [heq]; simp), h l p [] rfl⟩
  · rintro ⟨h, hp⟩ l₁ q l₂ heq
    rcases List.eq_nil_or_concat l₂ with rfl | ⟨l₃, q', rfl⟩
    · obtain ⟨rfl, hlast⟩ := List.append_inj' heq rfl
      obtain rfl := List.singleton_inj.mp hlast
      exact hp
    · rw [List.concat_eq_append, ← List.cons_append, ← List.append_assoc] at heq
      exact h l₁ q l₃ (List.append_inj' heq rfl).1

/-- The first part of a stream. -/
theorem Follows.left (h : Follows started (l ++ l')) : Follows started l :=
  fun l₁ p l₂ heq => h l₁ p (l₂ ++ l') (by rw [heq]; simp)

theorem getElem?_of_prefix {α : Type*} {xs ys : List α} (h : xs <+: ys) {i : ℕ} {x : α}
    (hi : xs[i]? = some x) : ys[i]? = some x := by
  obtain ⟨zs, rfl⟩ := h
  obtain ⟨hlt, -⟩ := List.getElem?_eq_some_iff.mp hi
  rw [List.getElem?_append_left hlt]
  exact hi

omit [DecidableEq κ] in
/-- More transfers are started. -/
theorem Allows.mono {s : Scan κ τ β} (h : Allows started s p) (hle : started <+: started') :
    Allows started' s p := by
  obtain ⟨k, mark⟩ := p
  cases mark with
  | start tag =>
    obtain ⟨e, he, hkey⟩ := h
    exact ⟨e, getElem?_of_prefix hle he, hkey⟩
  | data bytes =>
    obtain ⟨r, e, hr, hopen, he, hdata⟩ := h
    exact ⟨r, e, hr, hopen, getElem?_of_prefix hle he, hdata⟩
  | stop =>
    obtain ⟨r, e, hr, hopen, he, hdata⟩ := h
    exact ⟨r, e, hr, hopen, getElem?_of_prefix hle he, hdata⟩

omit [DecidableEq κ] in
/-- The last transfer that was started may start. -/
theorem allows_start {s : Scan κ τ β} {e : Entry κ τ β} (h : s.starts = started.length) :
    Allows (started ++ [e]) s (e.key, .start e.tag) := by
  refine ⟨e, ?_, rfl, rfl⟩
  rw [h]
  exact List.getElem?_concat_length

/-- A transfer goes on with a piece. -/
inductive Reading.Goes (r : Reading τ β) (payload : List β) : Mark τ β → Reading τ β → Prop
  | data {bytes : List β} (hopen : r.stopped = false) (h : r.data ++ bytes <+: payload) :
      r.Goes payload (.data bytes) { r with data := r.data ++ bytes }
  | stop (hopen : r.stopped = false) (h : r.data = payload) :
      r.Goes payload .stop { r with stopped := true }

/-- A transfer that goes on may go on. -/
theorem Reading.Goes.step {s : Scan κ τ β} {e : Entry κ τ β} {mark : Mark τ β}
    {r' : Reading τ β} (h : r.Goes e.payload mark r') (hr : s.current k = some r)
    (he : started[r.number]? = some e) :
    Allows started s (k, mark) ∧ (s.step (k, mark)).current k = some r' ∧
      (s.step (k, mark)).starts = s.starts ∧ r'.number = r.number := by
  cases h with
  | data hopen h =>
    refine ⟨⟨r, e, hr, hopen, he, h⟩, ?_, rfl, rfl⟩
    rw [Scan.current_data, hr, Option.map_some]
  | stop hopen h =>
    refine ⟨⟨r, e, hr, hopen, he, h⟩, ?_, rfl, rfl⟩
    rw [Scan.current_stop, hr, Option.map_some]

theorem Follows.mono (h : Follows started l) (hle : started <+: started') : Follows started' l :=
  fun l₁ p l₂ heq => (h l₁ p l₂ heq).mono hle

/-- What is read of a key is a part of a transfer that was started with it. -/
theorem Follows.entry (h : Follows started l) (hr : (scan l).current k = some r) :
    r.number < (scan l).starts ∧
      ∃ e, started[r.number]? = some e ∧ e.key = k ∧ e.tag = r.tag ∧ r.data <+: e.payload := by
  induction l using List.reverseRecOn generalizing r with
  | nil => exact absurd hr (by simp [scan])
  | append_singleton l p ih =>
    obtain ⟨hl, hp⟩ := follows_concat.mp h
    rw [scan_concat] at hr ⊢
    obtain ⟨k', mark⟩ := p
    by_cases hk : k = k'
    · subst hk
      cases mark with
      | start tag =>
        obtain ⟨e, he, hkey, htag⟩ := hp
        rw [Scan.current_start, Option.some.injEq] at hr
        subst hr
        exact ⟨Nat.lt_succ_self _, e, he, hkey, htag, List.nil_prefix⟩
      | data bytes =>
        obtain ⟨r', e, hr', -, he, hdata⟩ := hp
        simp only at hr'
        rw [Scan.current_data, hr', Option.map_some, Option.some.injEq] at hr
        subst hr
        obtain ⟨hlt, e', he', hkey, htag, -⟩ := ih hl hr'
        obtain rfl := Option.some.inj (he.symm.trans he')
        exact ⟨hlt, e, he, hkey, htag, hdata⟩
      | stop =>
        obtain ⟨r', e, hr', -, he, hdata⟩ := hp
        simp only at hr'
        rw [Scan.current_stop, hr', Option.map_some, Option.some.injEq] at hr
        subst hr
        have hold := ih hl hr'
        exact hold
    · rw [Scan.current_step_of_ne _ hk] at hr
      obtain ⟨hlt, hrest⟩ := ih hl hr
      exact ⟨Nat.lt_of_lt_of_le hlt (Scan.starts_le_step _ _), hrest⟩

/-- **A transfer that stops is the one that was started.** -/
theorem Follows.stop (h : Follows started (l ++ [(k, .stop)]))
    (hr : (scan l).current k = some r) : r.stopped = false ∧
      started[r.number]? = some ⟨k, r.tag, r.data⟩ := by
  obtain ⟨hl, r', e, hr', hopen, he, hdata⟩ := follows_concat.mp h
  obtain rfl := Option.some.inj (hr.symm.trans hr')
  obtain ⟨-, e', he', hkey, htag, -⟩ := hl.entry hr
  obtain rfl := Option.some.inj (he.symm.trans he')
  refine ⟨hopen, ?_⟩
  rw [he, ← hkey, ← htag, hdata]

/-- The transfer of a key is the last one that was started with it. -/
theorem Follows.last (h : Follows started l) {n : ℕ} {e : Entry κ τ β}
    (hn : n < (scan l).starts) (he : started[n]? = some e) :
    ∃ r, (scan l).current e.key = some r ∧ n ≤ r.number := by
  induction l using List.reverseRecOn with
  | nil => exact absurd hn (Nat.not_lt_zero n)
  | append_singleton l p ih =>
    obtain ⟨hl, hp⟩ := follows_concat.mp h
    rw [scan_concat] at hn ⊢
    obtain ⟨k, mark⟩ := p
    by_cases hkey : e.key = k
    · subst hkey
      cases mark with
      | start tag => exact ⟨_, Scan.current_start _ _ _, Nat.lt_succ_iff.mp hn⟩
      | data bytes =>
        obtain ⟨r, hr, hle⟩ := ih hl hn
        exact ⟨{ r with data := r.data ++ bytes }, by
          rw [Scan.current_data, hr, Option.map_some], hle⟩
      | stop =>
        obtain ⟨r, hr, hle⟩ := ih hl hn
        exact ⟨{ r with stopped := true }, by
          rw [Scan.current_stop, hr, Option.map_some], hle⟩
    · rw [Scan.current_step_of_ne _ hkey]
      cases mark with
      | start tag =>
        -- the piece is not the start of this very transfer, whose key is another one
        obtain ⟨e', he', hkey', -⟩ := hp
        refine ih hl (Nat.lt_of_le_of_ne (Nat.lt_succ_iff.mp hn) ?_)
        rintro rfl
        obtain rfl := Option.some.inj (he.symm.trans he')
        exact hkey hkey'
      | data bytes => exact ih hl hn
      | stop => exact ih hl hn

end Follows

/-! ### Readers -/

section Spent

variable [DecidableEq κ] {s : Scan κ τ β} {reported : List ℕ} {k : κ} {r : Reading τ β}

/-- The transfers with these numbers were reported: each of them once, and none of them
goes on. -/
structure Spent (s : Scan κ τ β) (reported : List ℕ) : Prop where
  nodup : reported.Nodup
  lt : ∀ n ∈ reported, n < s.starts
  stopped : ∀ k r, s.current k = some r → r.number ∈ reported → r.stopped = true

omit [DecidableEq κ] in
theorem spent_nil : Spent s [] where
  nodup := List.nodup_nil
  lt _ h := absurd h (by simp)
  stopped _ _ _ h := absurd h (by simp)

/-- They stay so. -/
theorem Spent.step (h : Spent s reported) (p : κ × Mark τ β) : Spent (s.step p) reported where
  nodup := h.nodup
  lt n hn := Nat.lt_of_lt_of_le (h.lt n hn) (Scan.starts_le_step s p)
  stopped k r hr hn := by
    obtain ⟨k', mark⟩ := p
    by_cases hk : k = k'
    · subst hk
      cases mark with
      | start tag =>
        rw [Scan.current_start, Option.some.injEq] at hr
        subst hr
        exact absurd (h.lt _ hn) (Nat.lt_irrefl _)
      | data bytes =>
        rw [Scan.current_data] at hr
        obtain ⟨r', hr', rfl⟩ := Option.map_eq_some_iff.mp hr
        exact h.stopped _ r' hr' hn
      | stop =>
        rw [Scan.current_stop] at hr
        obtain ⟨r', -, rfl⟩ := Option.map_eq_some_iff.mp hr
        rfl
    · rw [Scan.current_step_of_ne _ hk] at hr
      exact h.stopped k r hr hn

/-- **No transfer is reported twice**, if it is reported when it stops. -/
theorem Spent.report (h : Spent s reported) (hr : s.current k = some r)
    (hopen : r.stopped = false) (hlt : r.number < s.starts)
    (hkey : ∀ k' r', s.current k' = some r' → r'.number = r.number → k' = k) :
    Spent (s.step (k, .stop)) (reported ++ [r.number]) where
  nodup := by
    rw [List.nodup_append]
    refine ⟨h.nodup, List.pairwise_singleton _ _, ?_⟩
    rintro n hn m hm rfl
    rw [List.mem_singleton.mp hm] at hn
    have hstopped := h.stopped k r hr hn
    rw [hopen] at hstopped
    exact absurd hstopped (by simp)
  lt n hn := by
    rcases List.mem_append.mp hn with hold | hnew
    · exact (h.step (k, .stop)).lt n hold
    · rw [List.mem_singleton.mp hnew]
      exact hlt
  stopped k' r' hr' hn := by
    rcases List.mem_append.mp hn with hold | hnew
    · exact (h.step (k, .stop)).stopped k' r' hr' hold
    · by_cases hk : k' = k
      · subst hk
        rw [Scan.current_stop, hr, Option.map_some, Option.some.injEq] at hr'
        rw [← hr']
      · rw [Scan.current_step_of_ne _ hk] at hr'
        exact absurd (hkey k' r' hr' (List.mem_singleton.mp hnew)) hk

end Spent

/-! ### What a reading stands for -/

section Opens

variable [DecidableEq κ] {l : List (κ × Mark τ β)} {k : κ} {n : ℕ} {tag : τ} {bytes : List β}

/-- The data of a key in a stream. -/
def dataOf (k : κ) (l : List (κ × Mark τ β)) : List β :=
  l.flatMap fun p =>
    match p.2 with
    | .data bytes => if p.1 = k then bytes else []
    | _ => []

theorem dataOf_concat (k : κ) (l : List (κ × Mark τ β)) (p : κ × Mark τ β) :
    dataOf k (l ++ [p]) = dataOf k l ++ dataOf k [p] := List.flatMap_append

/-- The stream ends inside a transfer of a key: it is the one with the number `n`, which
started with `tag`, and since then there was nothing of this key but data. -/
def Opens (l : List (κ × Mark τ β)) (k : κ) (n : ℕ) (tag : τ) (bytes : List β) : Prop :=
  ∃ l₁ l₂, l = l₁ ++ (k, .start tag) :: l₂ ∧ (scan l₁).starts = n ∧
    (∀ p ∈ l₂, p.1 = k → ∃ block, p.2 = .data block) ∧ dataOf k l₂ = bytes

/-- A piece of another key, or some data. -/
theorem Opens.concat (h : Opens l k n tag bytes) {p : κ × Mark τ β}
    (hp : p.1 = k → ∃ block, p.2 = .data block) :
    Opens (l ++ [p]) k n tag (bytes ++ dataOf k [p]) := by
  obtain ⟨l₁, l₂, rfl, hstarts, hdata, rfl⟩ := h
  refine ⟨l₁, l₂ ++ [p], by simp, hstarts, fun q hq hkey => ?_, dataOf_concat k l₂ p⟩
  rcases List.mem_append.mp hq with hold | hnew
  · exact hdata q hold hkey
  · obtain rfl := List.mem_singleton.mp hnew
    exact hp hkey

/-- **What a reader keeps of an open transfer** is the data since its start. -/
theorem scan_current_eq_iff :
    (scan l).current k = some ⟨n, tag, bytes, false⟩ ↔ Opens l k n tag bytes := by
  constructor
  · intro hr
    induction l using List.reverseRecOn generalizing bytes with
    | nil => exact absurd hr (by simp [scan])
    | append_singleton l p ih =>
      rw [scan_concat] at hr
      obtain ⟨k', mark⟩ := p
      by_cases hk : k' = k
      · subst hk
        cases mark with
        | start tag' =>
          rw [Scan.current_start] at hr
          cases hr
          exact ⟨l, [], rfl, rfl, fun _ h => absurd h (by simp), rfl⟩
        | data block =>
          rw [Scan.current_data, Option.map_eq_some_iff] at hr
          obtain ⟨r, hr, heq⟩ := hr
          obtain ⟨rfl, rfl, rfl, hopen⟩ := Reading.mk.inj heq
          rw [show r = ⟨r.number, r.tag, r.data, false⟩ by rw [← hopen]] at hr
          have hconcat := (ih hr).concat (p := (k', .data block)) fun _ => ⟨block, rfl⟩
          simpa [dataOf] using hconcat
        | stop =>
          rw [Scan.current_stop, Option.map_eq_some_iff] at hr
          obtain ⟨r, -, heq⟩ := hr
          exact absurd (Reading.mk.inj heq).2.2.2 (by simp)
      · rw [Scan.current_step_of_ne _ (Ne.symm hk)] at hr
        have hconcat := (ih hr).concat (p := (k', mark)) fun h => absurd h hk
        have hnone : dataOf k [(k', mark)] = [] := by
          cases mark <;> simp [dataOf, hk]
        rwa [hnone, List.append_nil] at hconcat
  · rintro ⟨l₁, l₂, rfl, rfl, hdata, rfl⟩
    induction l₂ using List.reverseRecOn with
    | nil => rw [scan_concat, Scan.current_start]; rfl
    | append_singleton l₂ p ih =>
      have hold := ih fun q hq => hdata q (List.mem_append_left [p] hq)
      rw [← List.cons_append, ← List.append_assoc, scan_concat, dataOf_concat]
      obtain ⟨k', mark⟩ := p
      by_cases hk : k' = k
      · subst hk
        obtain ⟨block, rfl⟩ := hdata (k', mark) (by simp) rfl
        rw [Scan.current_data, hold]
        simp [dataOf]
      · rw [Scan.current_step_of_ne _ (Ne.symm hk), hold]
        cases mark <;> simp [dataOf, hk]

end Opens

/-! ### Pieces that are sent again

A writer may send a piece again, so its pieces are not the payload cut up; but they
contain it. -/

section Pieces

/-- The pieces of a transfer with one more. -/
def Mark.after (pieces : List (Mark τ β)) : Mark τ β → List (Mark τ β)
  | .start _ => []
  | mark => pieces ++ [mark]

/-- The pieces of a key since its last start. -/
def since [DecidableEq κ] (k : κ) (l : List (κ × Mark τ β)) : List (Mark τ β) :=
  l.foldl (fun pieces p => if p.1 = k then p.2.after pieces else pieces) []

theorem since_concat [DecidableEq κ] (k : κ) (l : List (κ × Mark τ β)) (p : κ × Mark τ β) :
    since k (l ++ [p]) = if p.1 = k then p.2.after (since k l) else since k l := by
  rw [since, List.foldl_append]
  rfl

/-- Some of the pieces, in their order, make up a payload. -/
def Covers (payload : List β) (pieces : List (Mark τ β)) : Prop :=
  ∃ blocks : List (List β), (blocks.map Mark.data).Sublist pieces ∧ blocks.flatten = payload

/-- The pieces make up a payload, and stop. -/
def Completes (payload : List β) (pieces : List (Mark τ β)) : Prop :=
  ∃ before, pieces = before ++ [.stop] ∧ Covers payload before

variable {payload : List β} {pieces : List (Mark τ β)}

theorem covers_nil (pieces : List (Mark τ β)) : Covers [] pieces := ⟨[], by simp, rfl⟩

/-- A piece that brings nothing new. -/
theorem Covers.concat (h : Covers payload pieces) (mark : Mark τ β) :
    Covers payload (pieces ++ [mark]) := by
  obtain ⟨blocks, hsub, hflatten⟩ := h
  exact ⟨blocks, hsub.trans (List.sublist_append_left _ _), hflatten⟩

/-- The next piece of the payload. -/
theorem Covers.data (h : Covers payload pieces) (bytes : List β) :
    Covers (payload ++ bytes) (pieces ++ [.data bytes]) := by
  obtain ⟨blocks, hsub, hflatten⟩ := h
  refine ⟨blocks ++ [bytes], ?_, by simp [hflatten]⟩
  rw [List.map_append]
  exact hsub.append (List.Sublist.refl _)

end Pieces

end UniCan
