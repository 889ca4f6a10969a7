import Mathlib.Data.List.Basic
import Mathlib.Data.List.Range

/-!
# Check registers

A cyclic redundancy check runs the bits of a message through a shift register of
`w` bits: each bit is added to the top bit of the register, the register is shifted
by one place, and the bit that falls out decides whether a fixed pattern, the
polynomial, is added.  Addition is exclusive or, so everything here is linear.

## Main definitions

* `Lfsr.shift`, `Lfsr.feed`, `Lfsr.run` — one shift, one bit, all bits.
* `Burst` — two messages differ, and only in a few consecutive bits.

## Main results

* `Lfsr.run_xor` — the register is linear in its contents and in the message.
* `Lfsr.run_eq_table` — how a table does several bits at once.
* `Lfsr.run_ne_of_burst` — **a register of `w` bits tells messages apart that differ
  in a burst of at most `w` bits**, if the lowest bit of the polynomial is set.
-/

namespace UniCan

variable {w : ℕ}

namespace Lfsr

variable (p : BitVec w)

/-- One shift of the register. -/
def shift (r : BitVec w) : BitVec w := (r <<< 1) ^^^ (if r.msb then p else 0#w)

/-- A bit at the top of a register. -/
def top (b : Bool) : BitVec w := if b then BitVec.twoPow w (w - 1) else 0#w

/-- One bit of the message. -/
def feed (r : BitVec w) (b : Bool) : BitVec w := shift p (r ^^^ top b)

/-- The bits of a message, one after the other. -/
def run (r : BitVec w) (bits : List Bool) : BitVec w := bits.foldl (feed p) r

/-- The `n` uppermost bits of a register, the uppermost first. -/
def topBits (r : BitVec w) (n : ℕ) : List Bool := (List.range n).map r.getMsbD

@[simp] theorem run_nil (r : BitVec w) : run p r [] = r := rfl

@[simp] theorem run_cons (r : BitVec w) (b : Bool) (bits : List Bool) :
    run p r (b :: bits) = run p (feed p r b) bits := rfl

theorem run_append (r : BitVec w) (bits bits' : List Bool) :
    run p r (bits ++ bits') = run p (run p r bits) bits' := List.foldl_append

theorem topBits_succ (r : BitVec w) (n : ℕ) :
    topBits r (n + 1) = r.msb :: topBits (r <<< 1) n := by
  rw [topBits, List.range_succ_eq_map, List.map_cons, List.map_map, topBits, BitVec.msb]
  refine congrArg _ (List.map_congr_left fun i _ => ?_)
  rw [Function.comp_apply, BitVec.getMsbD_shiftLeft]

/-! ### Linearity -/

theorem xor_cross (a b c d : BitVec w) : a ^^^ b ^^^ (c ^^^ d) = a ^^^ c ^^^ (b ^^^ d) := by
  rw [BitVec.xor_assoc, BitVec.xor_assoc, ← BitVec.xor_assoc b, BitVec.xor_comm b c,
    BitVec.xor_assoc c]

theorem shift_xor (r s : BitVec w) : shift p (r ^^^ s) = shift p r ^^^ shift p s := by
  have hout : (if (r ^^^ s).msb then p else 0#w) =
      (if r.msb then p else 0#w) ^^^ (if s.msb then p else 0#w) := by
    rw [BitVec.msb_xor]
    cases r.msb <;> cases s.msb <;> simp
  rw [shift, shift, shift, BitVec.shiftLeft_xor_distrib, hout, xor_cross]

theorem top_xor (a b : Bool) : (top (a ^^ b) : BitVec w) = top a ^^^ top b := by
  cases a <;> cases b <;> simp [top]

theorem feed_xor (r s : BitVec w) (a b : Bool) :
    feed p (r ^^^ s) (a ^^ b) = feed p r a ^^^ feed p s b := by
  rw [feed, feed, feed, ← shift_xor, top_xor, xor_cross]

/-- **The register is linear** in its contents and in the message. -/
theorem run_xor (r s : BitVec w) (u v : List Bool) (hlen : u.length = v.length) :
    run p (r ^^^ s) (List.zipWith xor u v) = run p r u ^^^ run p s v := by
  induction u generalizing r s v with
  | nil =>
    cases v with
    | nil => rfl
    | cons b v => exact absurd hlen (by simp)
  | cons a u ih =>
    cases v with
    | nil => exact absurd hlen (by simp)
    | cons b v =>
      rw [List.zipWith_cons_cons, run_cons, run_cons, run_cons, feed_xor]
      exact ih _ _ v (Nat.succ.inj hlen)

/-! ### Several bits at once -/

theorem msb_top (hw : 0 < w) (b : Bool) : (top b : BitVec w).msb = b := by
  cases b
  · simp [top]
  · have hlast : w - 1 < w := by omega
    simp [top, BitVec.msb_eq_getLsbD_last, hlast]

theorem top_shiftLeft (b : Bool) : (top b : BitVec w) <<< 1 = 0#w := by
  cases b
  · simp [top]
  · apply BitVec.eq_of_getLsbD_eq
    intro i hi
    simp only [top, if_true, BitVec.getLsbD_shiftLeft, BitVec.getLsbD_twoPow, BitVec.getLsbD_zero]
    by_cases h0 : i < 1
    · simp [h0]
    · have hne : w - 1 ≠ i - 1 := by omega
      simp [hne]

/-- A bit that enters an empty register leaves the polynomial there, or nothing. -/
theorem feed_zero (hw : 0 < w) (b : Bool) : feed p 0#w b = if b then p else 0#w := by
  rw [feed, BitVec.zero_xor, shift, top_shiftLeft, msb_top hw, BitVec.zero_xor]

/-- One bit: the register moves up, and what enters is the sum of the bit and of the
one that falls out. -/
theorem feed_eq (hw : 0 < w) (r : BitVec w) (b : Bool) :
    feed p r b = (r <<< 1) ^^^ feed p 0#w (r.msb ^^ b) := by
  rw [feed_zero p hw, feed, shift, BitVec.shiftLeft_xor_distrib, top_shiftLeft, BitVec.xor_zero,
    BitVec.msb_xor, msb_top hw]

/-- **Several bits at once**: the register moves up, and what enters is read off the
sum of the message and of the bits that fall out.  This is what a table holds. -/
theorem run_eq_table (hw : 0 < w) (r : BitVec w) (bits : List Bool) :
    run p r bits = (r <<< bits.length) ^^^
      run p 0#w (List.zipWith xor (topBits r bits.length) bits) := by
  induction bits generalizing r with
  | nil => simp
  | cons b bits ih =>
    set rest : List Bool := List.zipWith xor (topBits (r <<< 1) bits.length) bits
    have hlen : rest.length = bits.length := by simp [rest, topBits]
    -- an empty message leaves the linear part of the register alone
    have hzero : List.zipWith xor bits (List.replicate bits.length false) = bits := by
      apply List.ext_getElem <;> simp
    have hzero' : List.zipWith xor rest (List.replicate bits.length false) = rest := by
      apply List.ext_getElem
      · simp [hlen]
      · intro i hi hi'
        simp
    have hsplit : run p (feed p r b) bits = run p (r <<< 1) bits ^^^
        run p (feed p 0#w (r.msb ^^ b)) (List.replicate bits.length false) := by
      rw [← run_xor p _ _ _ _ (by simp), hzero, ← feed_eq p hw]
    have hjoin : run p (feed p 0#w (r.msb ^^ b)) rest = run p 0#w rest ^^^
        run p (feed p 0#w (r.msb ^^ b)) (List.replicate bits.length false) := by
      rw [← run_xor p _ _ _ _ (by simp [hlen]), hzero', BitVec.zero_xor]
    rw [List.length_cons, topBits_succ, List.zipWith_cons_cons, run_cons, run_cons, hsplit, hjoin,
      ih (r <<< 1), ← BitVec.shiftLeft_add, Nat.add_comm 1, BitVec.xor_assoc]

/-! ### Nothing is forgotten -/

/-- The lowest `k` bits are zero. -/
def LowZero (k : ℕ) (r : BitVec w) : Prop := ∀ i, i < k → r.getLsbD i = false

variable {p}

/-- If the low bits are zero after a shift, the polynomial was not added. -/
theorem LowZero.msb_of_shift {k : ℕ} {r : BitVec w} (hp : p.getLsbD 0 = true) (hk : 0 < k)
    (h : LowZero k (shift p r)) : r.msb = false := by
  cases hmsb : r.msb with
  | false => rfl
  | true =>
    have hbit := h 0 hk
    rw [shift, hmsb, if_pos rfl, BitVec.getLsbD_xor, hp] at hbit
    simp at hbit

theorem LowZero.of_feed {k : ℕ} {r : BitVec w} {b : Bool} (hp : p.getLsbD 0 = true) (hk : k ≤ w)
    (h : LowZero k (feed p r b)) : LowZero (k - 1) r := by
  intro i hi
  have hmsb := h.msb_of_shift hp (by omega)
  have hbit := h (i + 1) (by omega)
  have htop : (top b : BitVec w).getLsbD i = false := by
    have hne : w - 1 ≠ i := by omega
    cases b <;> simp [top, BitVec.getLsbD_twoPow, hne]
  rw [feed, shift, hmsb, if_neg (by simp), BitVec.xor_zero, BitVec.getLsbD_shiftLeft,
    Nat.add_sub_cancel, BitVec.getLsbD_xor, htop, Bool.xor_false] at hbit
  have hlt : i + 1 < w := by omega
  simpa [hlt] using hbit

/-- Going back over `n` bits, all but `n` of the low zeros were zeros before. -/
theorem LowZero.of_run {k : ℕ} {r : BitVec w} {bits : List Bool} (hp : p.getLsbD 0 = true)
    (hk : k ≤ w) (h : LowZero k (run p r bits)) : LowZero (k - bits.length) r := by
  induction bits generalizing r with
  | nil => exact h
  | cons b bits ih =>
    have hnext := LowZero.of_feed hp (Nat.le_trans (Nat.sub_le _ _) hk) (ih h)
    rwa [List.length_cons, ← Nat.sub_sub]

theorem eq_zero_of_lowZero {r : BitVec w} (h : LowZero w r) : r = 0#w := by
  apply BitVec.eq_of_getLsbD_eq
  intro i hi
  rw [h i hi, BitVec.getLsbD_zero]

/-- The register before a bit can be told from the one after it. -/
theorem feed_injective (hp : p.getLsbD 0 = true) (b : Bool) :
    Function.Injective fun r => feed p r b := by
  intro r s heq
  have hw : 0 < w := by
    by_contra h0
    rw [BitVec.getLsbD_of_ge p 0 (by omega)] at hp
    exact absurd hp (by simp)
  have hzero : feed p (r ^^^ s) false = 0#w := by
    rw [← Bool.xor_self b, feed_xor]
    exact BitVec.xor_eq_zero_iff.mpr heq
  have hlow : LowZero w (shift p (r ^^^ s)) := by
    intro i _
    rw [feed, top, if_neg (by simp), BitVec.xor_zero] at hzero
    rw [hzero, BitVec.getLsbD_zero]
  have hmsb := hlow.msb_of_shift hp hw
  refine BitVec.xor_eq_zero_iff.mp (eq_zero_of_lowZero fun i hi => ?_)
  by_cases hlast : i = w - 1
  · rw [hlast, ← BitVec.msb_eq_getLsbD_last, hmsb]
  · refine LowZero.of_feed (b := false) hp (Nat.le_refl w) (fun j _ => ?_) i (by omega)
    rw [hzero, BitVec.getLsbD_zero]

theorem run_injective (hp : p.getLsbD 0 = true) (bits : List Bool) :
    Function.Injective fun r => run p r bits := by
  induction bits with
  | nil => exact fun _ _ h => h
  | cons b bits ih => exact fun r s h => feed_injective hp b (ih h)

end Lfsr

/-! ### Bursts -/

/-- Two messages of one length differ, and only in at most `n` consecutive bits. -/
def Burst (n : ℕ) (u v : List Bool) : Prop :=
  u.length = v.length ∧ u ≠ v ∧ ∃ s, ∀ i, u[i]? ≠ v[i]? → s ≤ i ∧ i < s + n

/-- Where a burst begins, and where it ends. -/
theorem Burst.split {n : ℕ} {u v : List Bool} (h : Burst n u v) :
    ∃ a x b c d, u = a ++ x :: (b ++ d) ∧ v = a ++ (!x) :: (c ++ d) ∧ b.length = c.length ∧
      b.length < n := by
  obtain ⟨hlen, hne, s, hs⟩ := h
  induction u generalizing v s with
  | nil => exact absurd (List.length_eq_zero_iff.mp hlen.symm).symm hne
  | cons x u ih =>
    obtain ⟨y, v, rfl⟩ : ∃ y v', v = y :: v' := List.exists_cons_of_length_eq_add_one hlen.symm
    have hlen' : u.length = v.length := Nat.succ.inj hlen
    by_cases hxy : x = y
    · -- the burst begins later
      subst hxy
      obtain ⟨a, x', b, c, d, rfl, rfl, hbc, hn⟩ := ih hlen' (fun heq => hne (by rw [heq]))
        (s - 1) fun i hi => by
          have := hs (i + 1) (by simpa using hi)
          omega
      exact ⟨x :: a, x', b, c, d, rfl, rfl, hbc, hn⟩
    · obtain ⟨h0, hpos⟩ := hs 0 (by simpa using hxy)
      have hdrop : u.drop (n - 1) = v.drop (n - 1) := by
        apply List.ext_getElem?
        intro i
        by_contra hi
        rw [List.getElem?_drop, List.getElem?_drop] at hi
        have := hs (n - 1 + i + 1) (by simpa using hi)
        omega
      have hy : y = !x := by cases x <;> cases y <;> simp_all
      refine ⟨[], x, u.take (n - 1), v.take (n - 1), u.drop (n - 1), ?_, ?_, ?_, ?_⟩
      · rw [List.take_append_drop, List.nil_append]
      · rw [hdrop, List.take_append_drop, hy, List.nil_append]
      · rw [List.length_take, List.length_take, hlen']
      · rw [List.length_take]
        omega

/-- **A burst of at most `w` bits is noticed**, if the lowest bit of the polynomial is
set. -/
theorem Lfsr.run_ne_of_burst {p : BitVec w} (hp : p.getLsbD 0 = true) (r : BitVec w)
    {u v : List Bool} (h : Burst w u v) : run p r u ≠ run p r v := by
  obtain ⟨a, x, b, c, d, rfl, rfl, hbc, hw⟩ := h.split
  rw [run_append, run_append, run_cons, run_cons, run_append, run_append]
  intro heq
  have hsame := BitVec.xor_eq_zero_iff.mpr (run_injective hp d heq)
  have hfirst : feed p (run p r a) x ^^^ feed p (run p r a) (!x) = p := by
    rw [← feed_xor, BitVec.xor_self, Bool.xor_not_self, feed_zero p (by omega), if_pos rfl]
  rw [← run_xor p _ _ _ _ hbc, hfirst] at hsame
  -- so the lowest bit of the polynomial would be zero
  have hlow : LowZero (w - (List.zipWith xor b c).length) p := by
    refine LowZero.of_run hp (Nat.le_refl w) fun i _ => ?_
    rw [hsame, BitVec.getLsbD_zero]
  have hbit := hlow 0 (by rw [List.length_zipWith]; omega)
  rw [hp] at hbit
  exact absurd hbit (by simp)

end UniCan
