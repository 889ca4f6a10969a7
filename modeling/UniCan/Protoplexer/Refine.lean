import UniCan.Protoplexer.Table

/-!
# The receiver refines its pairs

The table of reassemblies is shared: slots are taken and given back in any order,
and the slot of a message that was handed out as a view stays taken until the next
chunk.  None of this can be seen by a pair.  For each pair the context holds at
most one message in progress, and a call is a step of the pair of its chunk, with
no effect on the others; the only trace of the table is whether it has room.

## Main definitions

* `Inv` — the invariant of the table.
* `Ctx.inProgress` — the message in progress of a pair.
* `Ctx.Foreign`, `Ctx.Room` — the slots a pair cannot take, and that there is
  another one.
* `Frame`, `CallSpec` — what a call leaves alone, and what it does.

## Main results

* `receiver_step_spec` — **a call is a step of the pair of its chunk**, and of no
  other.
* `Ctx.Reachable.inv` — the invariant holds after every run of a context that was
  set up.
-/

namespace UniCan
namespace Protoplexer

/-! ### The invariant -/

/-- The invariant of the table. -/
structure Inv (ctx : Ctx) : Prop where
  length_rx : ctx.rx.length = ctx.maxChannels.toNat
  memory : ctx.MemoryOk
  idle : ∀ i, i < ctx.rx.length → (ctx.buffer i).inUse = false → (ctx.buffer i).payload = .null
  live : ∀ i, i < ctx.rx.length → (ctx.buffer i).inUse = true → ctx.Live i
  unique : ∀ i j, i < ctx.rx.length → j < ctx.rx.length → (ctx.buffer i).inUse = true →
    (ctx.buffer j).inUse = true →
    (ctx.buffer i).channelSignature = (ctx.buffer j).channelSignature → i = j
  view : ∀ v, ctx.rxView = some v → v < ctx.rx.length ∧ (ctx.buffer v).inUse = true ∧
    (ctx.buffer v).payloadSize = (ctx.buffer v).expectedLength ∧
    crc16 (ctx.payloadRead v (ctx.buffer v).expectedLength.toNat)
      (ctx.buffer v).expectedLength.toNat = (ctx.buffer v).expectedCrc

namespace Ctx

/-- Slot `i` is in use for the pair `sig`, and not only for the sake of a view. -/
structure Serves (ctx : Ctx) (i : ℕ) (sig : UInt32) : Prop where
  lt : i < ctx.rx.length
  inUse : (ctx.buffer i).inUse = true
  signature : (ctx.buffer i).channelSignature = sig
  noView : ctx.rxView ≠ some i

/-- The message in progress of the pair `sig`. -/
def inProgress (ctx : Ctx) (sig : UInt32) : Option Reassembly :=
  match rxFind ctx sig with
  | none => none
  | some i => if ctx.rxView = some i then none else some (ctx.reassembly i)

/-- Slot `i` is taken by another pair than `sig`. -/
def Foreign (ctx : Ctx) (sig : UInt32) (i : ℕ) : Prop :=
  (ctx.buffer i).inUse = true ∧ ctx.rxView ≠ some i ∧ (ctx.buffer i).channelSignature ≠ sig

instance (ctx : Ctx) (sig : UInt32) (i : ℕ) : Decidable (ctx.Foreign sig i) :=
  inferInstanceAs (Decidable (_ ∧ _ ∧ _))

/-- The table has a slot for the pair `sig`: its own one, or one that is not in use
or only in use for a view. -/
def Room (ctx : Ctx) (sig : UInt32) : Prop := ∃ i, i < ctx.rx.length ∧ ¬ ctx.Foreign sig i

instance (ctx : Ctx) (sig : UInt32) : Decidable (ctx.Room sig) :=
  inferInstanceAs (Decidable (∃ i, i < ctx.rx.length ∧ ¬ ctx.Foreign sig i))

variable {ctx : Ctx} {sig : UInt32} {i : ℕ}

theorem getElem_rx (h : i < ctx.rx.length) : ctx.rx[i] = ctx.buffer i := by
  rw [buffer, List.getD_eq_getElem _ _ h]

end Ctx

theorem rxFind_eq_none {ctx : Ctx} {sig : UInt32} :
    rxFind ctx sig = none ↔ ∀ i, i < ctx.rx.length → (ctx.buffer i).inUse = true →
      (ctx.buffer i).channelSignature ≠ sig := by
  rw [rxFind, List.findIdx?_eq_none_iff]
  constructor
  · intro h i hi huse hsig
    have := h _ (List.getElem_mem hi)
    rw [Ctx.getElem_rx hi] at this
    simp [huse, hsig] at this
  · intro h b hb
    obtain ⟨i, hi, rfl⟩ := List.mem_iff_getElem.mp hb
    rw [Ctx.getElem_rx hi]
    cases huse : (ctx.buffer i).inUse with
    | false => rfl
    | true => simpa using h i hi huse

theorem rxFind_eq_some {ctx : Ctx} (h : Inv ctx) {sig : UInt32} {i : ℕ} :
    rxFind ctx sig = some i ↔ i < ctx.rx.length ∧ (ctx.buffer i).inUse = true ∧
      (ctx.buffer i).channelSignature = sig := by
  have hsound : ∀ {j}, rxFind ctx sig = some j → j < ctx.rx.length ∧
      (ctx.buffer j).inUse = true ∧ (ctx.buffer j).channelSignature = sig := by
    intro j hj
    rw [rxFind, List.findIdx?_eq_some_iff_getElem] at hj
    obtain ⟨hlt, hp, -⟩ := hj
    rw [Ctx.getElem_rx hlt, Bool.and_eq_true, beq_iff_eq] at hp
    exact ⟨hlt, hp.1, hp.2⟩
  refine ⟨hsound, fun ⟨hlt, huse, hsig⟩ => ?_⟩
  -- the slot that is found is this one, since no other has the signature
  cases hfind : rxFind ctx sig with
  | none => exact absurd hsig (rxFind_eq_none.mp hfind i hlt huse)
  | some j =>
    obtain ⟨hlt', huse', hsig'⟩ := hsound hfind
    rw [h.unique j i hlt' hlt huse' huse (hsig'.trans hsig.symm)]

theorem Ctx.inProgress_eq_some {ctx : Ctx} (h : Inv ctx) {sig : UInt32} {r : Reassembly} :
    ctx.inProgress sig = some r ↔ ∃ i, ctx.Serves i sig ∧ ctx.reassembly i = r := by
  unfold Ctx.inProgress
  constructor
  · intro hr
    cases hfind : rxFind ctx sig with
    | none => rw [hfind] at hr; exact absurd hr (by simp)
    | some i =>
      rw [hfind] at hr
      obtain ⟨hlt, huse, hsig⟩ := (rxFind_eq_some h).mp hfind
      by_cases hv : ctx.rxView = some i
      · simp [hv] at hr
      · simp only [hv, if_false, Option.some.injEq] at hr
        exact ⟨i, ⟨hlt, huse, hsig, hv⟩, hr⟩
  · rintro ⟨i, hs, hr⟩
    rw [(rxFind_eq_some h).mpr ⟨hs.lt, hs.inUse, hs.signature⟩]
    simp only [hs.noView, if_false, hr]

/-- Two contexts hold the same message for a pair when the same slots serve it, with
the same contents. -/
theorem Ctx.inProgress_congr {ctx ctx' : Ctx} (h : Inv ctx) (h' : Inv ctx') {sig : UInt32}
    (hs : ∀ i, ctx'.Serves i sig ↔ ctx.Serves i sig)
    (hr : ∀ i, ctx.Serves i sig → ctx'.reassembly i = ctx.reassembly i) :
    ctx'.inProgress sig = ctx.inProgress sig := by
  apply Option.ext
  intro r
  rw [Ctx.inProgress_eq_some h', Ctx.inProgress_eq_some h]
  constructor
  · rintro ⟨i, hi, rfl⟩
    exact ⟨i, (hs i).mp hi, (hr i ((hs i).mp hi)).symm⟩
  · rintro ⟨i, hi, rfl⟩
    exact ⟨i, (hs i).mpr hi, hr i hi⟩

/-! ### One slot changes

A call changes the slot of the view, and then the slot of its pair.  In both cases
the slot ends up released, or live for the pair. -/

section OneSlot

variable {ctx ctx' : Ctx} {i : ℕ} {sig : UInt32}

/-- The invariant survives when one slot is released or becomes live for a pair no
other slot has. -/
theorem Inv.of_sameBut (h : Inv ctx) (hview : ctx.rxView = none) (hs : SameBut i ctx ctx')
    (hother : ∀ j, j ≠ i → j < ctx.rx.length → (ctx.buffer j).inUse = true →
      (ctx.buffer j).channelSignature ≠ sig)
    (hslot : ctx'.buffer i = releasedBuffer ∨ ∃ r, ctx'.LiveAs i sig r) : Inv ctx' where
  length_rx := by rw [hs.length_rx, hs.maxChannels]; exact h.length_rx
  memory := hs.memoryOk h.memory
  idle j hj huse := by
    by_cases hji : j = i
    · subst hji
      rcases hslot with hrel | ⟨r, hr⟩
      · rw [hrel]; rfl
      · rw [hr.inUse] at huse; exact absurd huse (by simp)
    · rw [hs.buffer j hji] at huse ⊢
      exact h.idle j (by rw [← hs.length_rx]; exact hj) huse
  live j hj huse := by
    by_cases hji : j = i
    · subst hji
      rcases hslot with hrel | ⟨r, hr⟩
      · rw [hrel] at huse; exact absurd huse (by simp [releasedBuffer])
      · exact hr.live
    · rw [hs.buffer j hji] at huse
      exact hs.live hji (h.live j (by rw [← hs.length_rx]; exact hj) huse)
  unique j k hj hk huj huk hjk := by
    rw [hs.length_rx] at hj hk
    -- a slot in use other than `i` is not for `sig`, and slot `i` in use is
    have hsigi : (ctx'.buffer i).inUse = true → (ctx'.buffer i).channelSignature = sig := by
      intro hu
      rcases hslot with hrel | ⟨r, hr⟩
      · rw [hrel] at hu; exact absurd hu (by simp [releasedBuffer])
      · exact hr.signature
    by_cases hji : j = i <;> by_cases hki : k = i
    · rw [hji, hki]
    · subst hji
      rw [hs.buffer k hki] at huk hjk
      exact absurd (hjk.symm.trans (hsigi huj)) (hother k hki hk huk)
    · subst hki
      rw [hs.buffer j hji] at huj hjk
      exact absurd (hjk.trans (hsigi huk)) (hother j hji hj huj)
    · rw [hs.buffer j hji] at huj hjk
      rw [hs.buffer k hki] at huk hjk
      exact h.unique j k hj hk huj huk hjk
  view v hv := by rw [hs.view, hview] at hv; exact absurd hv (by simp)

theorem SameBut.serves_iff (hs : SameBut i ctx ctx') {j : ℕ} (hj : j ≠ i) :
    ctx'.Serves j sig ↔ ctx.Serves j sig := by
  constructor
  · rintro ⟨hlt, huse, hsig, hv⟩
    rw [hs.buffer j hj] at huse hsig
    exact ⟨by rw [← hs.length_rx]; exact hlt, huse, hsig, by rw [← hs.view]; exact hv⟩
  · rintro ⟨hlt, huse, hsig, hv⟩
    rw [← hs.buffer j hj] at huse hsig
    exact ⟨by rw [hs.length_rx]; exact hlt, huse, hsig, by rw [hs.view]; exact hv⟩

/-- The other pairs keep their messages. -/
theorem SameBut.inProgress (h : Inv ctx) (h' : Inv ctx') (hs : SameBut i ctx ctx')
    {sig' : UInt32} (hi : ¬ ctx.Serves i sig') (hi' : ¬ ctx'.Serves i sig') :
    ctx'.inProgress sig' = ctx.inProgress sig' := by
  have hne : ∀ j, ctx.Serves j sig' → j ≠ i := fun j hj hji => hi (hji ▸ hj)
  refine Ctx.inProgress_congr h h' (fun j => ?_) fun j hj =>
    hs.reassembly (hne j hj) (h.live j hj.lt hj.inUse)
  by_cases hji : j = i
  · subst hji
    exact iff_of_false hi' hi
  · exact hs.serves_iff hji

end OneSlot

/-! ### The steps of a call -/

theorem Inv.noView {ctx : Ctx} (h : Inv ctx) : Inv { ctx with rxView := none } where
  length_rx := h.length_rx
  memory := h.memory
  idle := h.idle
  live i hi huse := by
    have hl := h.live i hi huse
    exact ⟨hl.messageId, hl.addressFrom, hl.addressTo, hl.signature, hl.size, hl.limit, hl.holds⟩
  unique := h.unique
  view v hv := absurd hv (by simp)

/-- The context after the slot of the view was released, which no pair can tell
from the one before. -/
structure Released (ctx c : Ctx) : Prop where
  inv : Inv c
  view : c.rxView = none
  setup : c.setup = ctx.setup
  length_rx : c.rx.length = ctx.rx.length
  inProgress : ∀ sig, c.inProgress sig = ctx.inProgress sig
  foreign : ∀ sig i, c.Foreign sig i ↔ ctx.Foreign sig i
  buffer : ∀ i, ctx.rxView ≠ some i → c.buffer i = ctx.buffer i
  reassembly : ∀ i, ctx.rxView ≠ some i → i < ctx.rx.length → (ctx.buffer i).inUse = true →
    c.reassembly i = ctx.reassembly i

theorem rxViewRelease_spec {ctx : Ctx} (h : Inv ctx) : Released ctx (rxViewRelease ctx) := by
  cases hv : ctx.rxView with
  | none =>
    have hc : rxViewRelease ctx = ctx := by rw [rxViewRelease, hv]
    rw [hc]
    exact ⟨h, hv, rfl, rfl, fun _ => rfl, fun _ _ => Iff.rfl, fun _ _ => rfl, fun _ _ _ _ => rfl⟩
  | some v =>
    set ctx₀ : Ctx := { ctx with rxView := none } with hctx₀
    have hc : rxViewRelease ctx = rxRelease ctx₀ v := by rw [rxViewRelease, hv]; rfl
    have h₀ : Inv ctx₀ := h.noView
    obtain ⟨hlt, huse, -, -⟩ := h.view v hv
    have hsame : SameBut v ctx₀ (rxRelease ctx₀ v) := rxRelease_same
    have hrel : (rxRelease ctx₀ v).buffer v = releasedBuffer := 
      rxRelease_buffer (show v < ctx₀.rx.length from hlt)
    have hinv : Inv (rxRelease ctx₀ v) := by
      have hother : ∀ j, j ≠ v → j < ctx₀.rx.length → (ctx₀.buffer j).inUse = true →
          (ctx₀.buffer j).channelSignature ≠ (ctx.buffer v).channelSignature :=
        fun j hj hjlt hjuse hsig => hj (h.unique j v hjlt hlt hjuse huse hsig)
      exact h₀.of_sameBut rfl hsame hother (Or.inl hrel)
    have hidle : ((rxRelease ctx₀ v).buffer v).inUse = false := by rw [hrel]; rfl
    rw [hc]
    refine ⟨hinv, hsame.view, hsame.setup, hsame.length_rx, fun sig => ?_, fun sig i => ?_,
      fun i hi => ?_, fun i hi hilt hiuse => ?_⟩
    · -- the slot of the view served no pair before, and serves none now
      refine Ctx.inProgress_congr h hinv (fun i => ?_) fun i hi => ?_
      · by_cases hiv : i = v
        · subst hiv
          exact iff_of_false (fun hs => by rw [hs.inUse] at hidle; exact absurd hidle (by simp))
            fun hs => hs.noView hv
        · constructor
          · rintro ⟨hl, hu, hs, -⟩
            rw [hsame.buffer i hiv] at hu hs
            exact ⟨hsame.length_rx ▸ hl, hu, hs, by rw [hv]; simpa using Ne.symm hiv⟩
          · rintro ⟨hl, hu, hs, -⟩
            refine ⟨hsame.length_rx.symm ▸ hl, ?_, ?_, by rw [hsame.view]; simp [hctx₀]⟩ <;>
              rw [hsame.buffer i hiv] <;> assumption
      · have hiv : i ≠ v := fun he => hi.noView (by rw [hv, he])
        exact hsame.reassembly hiv (h₀.live i hi.lt hi.inUse)
    · by_cases hiv : i = v
      · subst hiv
        exact iff_of_false (fun hf => by rw [hf.1] at hidle; exact absurd hidle (by simp))
          fun hf => hf.2.1 hv
      · unfold Ctx.Foreign
        rw [hsame.buffer i hiv, hsame.view, hv]
        simp [hctx₀, Ne.symm hiv, Ctx.buffer]
    · exact hsame.buffer i fun he => hi (by rw [hv, he])
    · exact hsame.reassembly (fun he => hi (by rw [hv, he])) (h₀.live i hilt hiuse)

/-- A slot for a pair: the one that serves it, or one that was not in use. -/
inductive Taken (c c' : Ctx) (i : ℕ) (sig : UInt32) : Prop
  | found (r : Reassembly) (same : c' = c) (live : c.LiveAs i sig r)
      (inProgress : c.inProgress sig = some r)
  | fresh (idle : (c.buffer i).inUse = false) (messageId : (c'.buffer i).messageId = errorId)
      (inProgress : c.inProgress sig = none)

theorem rxGetOrAlloc_eq_none {c : Ctx} {sig : UInt32} (hroom : ¬ c.Room sig) :
    rxGetOrAlloc c sig = none := by
  have hall : ∀ i, i < c.rx.length →
      (c.buffer i).inUse = true ∧ (c.buffer i).channelSignature ≠ sig := by
    intro i hi
    by_contra hno
    exact hroom ⟨i, hi, fun hf => hno ⟨hf.1, hf.2.2⟩⟩
  have hfind : rxFind c sig = none := rxFind_eq_none.mpr fun i hi _ => (hall i hi).2
  have hfree : c.rx.findIdx? (fun b => !b.inUse) = none := by
    rw [List.findIdx?_eq_none_iff]
    intro b hb
    obtain ⟨i, hi, rfl⟩ := List.mem_iff_getElem.mp hb
    rw [Ctx.getElem_rx hi, (hall i hi).1]
    rfl
  rw [rxGetOrAlloc, hfind, hfree]

theorem rxGetOrAlloc_spec {c : Ctx} (h : Inv c) (hv : c.rxView = none) {sig : UInt32}
    (hroom : c.Room sig) :
    ∃ c' i, rxGetOrAlloc c sig = some (c', i) ∧ i < c.rx.length ∧ SameBut i c c' ∧
      (c'.buffer i).inUse = true ∧ (c'.buffer i).channelSignature = sig ∧
      (∀ j, j ≠ i → j < c.rx.length → (c.buffer j).inUse = true →
        (c.buffer j).channelSignature ≠ sig) ∧ Taken c c' i sig := by
  cases hfind : rxFind c sig with
  | some i =>
    obtain ⟨hlt, huse, hsig⟩ := (rxFind_eq_some h).mp hfind
    refine ⟨c, i, by rw [rxGetOrAlloc, hfind], hlt, SameBut.refl i c, huse, hsig, ?_, ?_⟩
    · intro j hj hjlt hjuse hjsig
      exact hj (h.unique j i hjlt hlt hjuse huse (hjsig.trans hsig.symm))
    · refine .found (c.reassembly i) rfl ⟨huse, hsig, h.live i hlt huse, rfl⟩ ?_
      exact (Ctx.inProgress_eq_some h).mpr ⟨i, ⟨hlt, huse, hsig, by simp [hv]⟩, rfl⟩
  | none =>
    have hnone := rxFind_eq_none.mp hfind
    cases hfree : c.rx.findIdx? (fun b => !b.inUse) with
    | none =>
      -- every slot is in use, and for another pair
      rw [List.findIdx?_eq_none_iff] at hfree
      obtain ⟨i, hi, hno⟩ := hroom
      have huse : (c.buffer i).inUse = true := by
        have := hfree _ (List.getElem_mem hi)
        rw [Ctx.getElem_rx hi] at this
        simpa using this
      exact absurd ⟨huse, by simp [hv], hnone i hi huse⟩ hno
    | some i =>
      obtain ⟨hlt, hidle, -⟩ := List.findIdx?_eq_some_iff_getElem.mp hfree
      have hidle' : (c.buffer i).inUse = false := by
        rw [Ctx.getElem_rx hlt] at hidle
        simpa using hidle
      have hb : (c.setBuffer i
          { inUse := true, channelSignature := sig, messageId := errorId }).buffer i =
          { inUse := true, channelSignature := sig, messageId := errorId } :=
        Ctx.buffer_setBuffer_self hlt
      refine ⟨_, i, by rw [rxGetOrAlloc, hfind, hfree], hlt, SameBut.setBuffer i c _, by rw [hb],
        by rw [hb], fun j _ hjlt hjuse => hnone j hjlt hjuse, .fresh hidle' (by rw [hb]) ?_⟩
      rw [Ctx.inProgress, hfind]

/-- **Adding an accepted chunk is a step of its pair**: it changes the slot of the
view, and one slot, which ends up as the pair says. -/
theorem rxAddChunk_spec {ctx : Ctx} (h : Inv ctx) (alloc : Alloc) {chunk : CanMessage}
    (hlen : chunk.len.toNat ≤ maxLen) (haccept : ctx.setup.accepts chunk.id = true)
    (hroom : ctx.Room (channelSig chunk.id)) :
    ∃ i, i < ctx.rx.length ∧ SameBut i (rxViewRelease ctx) (rxAddChunk alloc ctx chunk).ctx ∧
      (∀ j, j ≠ i → j < ctx.rx.length → ((rxViewRelease ctx).buffer j).inUse = true →
        ((rxViewRelease ctx).buffer j).channelSignature ≠ channelSig chunk.id) ∧
      (∀ sig', sig' ≠ channelSig chunk.id → ¬ (rxViewRelease ctx).Serves i sig') ∧
      ¬ ctx.Foreign (channelSig chunk.id) i ∧
      (rxAddChunk alloc ctx chunk).Became i (channelSig chunk.id)
        (Pair.advance ctx.setup alloc (ctx.inProgress (channelSig chunk.id)) chunk) ∧
      (rxAddChunk alloc ctx chunk).Contained := by
  set sig := channelSig chunk.id
  have hrel := rxViewRelease_spec h
  have hroom' : (rxViewRelease ctx).Room sig := by
    obtain ⟨i, hi, hf⟩ := hroom
    exact ⟨i, by rw [hrel.length_rx]; exact hi, fun hf' => hf ((hrel.foreign sig i).mp hf')⟩
  obtain ⟨c', i, hget, hi, hsame, huse, hsig, hother, htaken⟩ :=
    rxGetOrAlloc_spec hrel.inv hrel.view hroom'
  have hmem' : c'.MemoryOk := hsame.memoryOk hrel.inv.memory
  have hi' : i < c'.rx.length := by rw [hsame.length_rx]; exact hi
  have hsetup' : c'.setup = ctx.setup := hsame.setup.trans hrel.setup
  have haddr : (canidGetTo chunk.id != (rxViewRelease ctx).ownAddress &&
      !(rxViewRelease ctx).monitoring) = false := by
    have hown : (rxViewRelease ctx).ownAddress = ctx.setup.ownAddress :=
      congrArg Setup.ownAddress hrel.setup
    have hmon : (rxViewRelease ctx).monitoring = ctx.setup.monitoring :=
      congrArg Setup.monitoring hrel.setup
    rw [hown, hmon]
    unfold Setup.accepts at haccept
    cases hmonitoring : ctx.setup.monitoring with
    | true => simp
    | false => simpa [hmonitoring] using haccept
  have hserves : ∀ sig', sig' ≠ sig → ¬ (rxViewRelease ctx).Serves i sig' := by
    intro sig' hne hs
    rcases htaken with ⟨r, -, hlive, -⟩ | ⟨hidle, -, -⟩
    · exact hne (hs.signature.symm.trans hlive.signature)
    · rw [hs.inUse] at hidle; exact absurd hidle (by simp)
  have hforeign : ¬ ctx.Foreign sig i := by
    rw [← hrel.foreign sig i]
    intro hf
    rcases htaken with ⟨r, -, hlive, -⟩ | ⟨hidle, -, -⟩
    · exact hf.2.2 hlive.signature
    · rw [hf.1] at hidle; exact absurd hidle (by simp)
  have hunfold : rxAddChunk alloc ctx chunk =
      if canidGetIsFirst chunk.id then rxFirstChunk alloc
        (if canidGetIsFirst chunk.id && (c'.buffer i).messageId != errorId then rxReset c' i
          else c') i chunk
      else rxDataChunk c' i chunk := by
    unfold rxAddChunk
    rw [if_neg (Nat.not_lt.mpr hlen)]
    simp only
    rw [haddr, if_neg (by simp), hget]
    simp only
    cases hfirst : canidGetIsFirst chunk.id <;> simp
  refine ⟨i, by rw [← hrel.length_rx]; exact hi, ?_⟩
  rw [hunfold]
  cases hfirst : canidGetIsFirst chunk.id with
  | true =>
    simp only [if_true, Bool.true_and, Pair.advance, hfirst]
    -- an old message of the pair is dropped first
    by_cases hid : ((c'.buffer i).messageId != errorId) = true
    · rw [if_pos hid]
      have hsame₂ : SameBut i (rxViewRelease ctx) (rxReset c' i) := hsame.trans rxReset_same
      have hb := rxReset_buffer hi'
      obtain ⟨hs, hbecame, hcontained⟩ := rxFirstChunk_spec alloc chunk
        (hsame₂.memoryOk hrel.inv.memory) (by rw [hsame₂.length_rx]; exact hi)
        (by rw [hb]; exact huse) (by rw [hb]; exact hsig) hlen
      rw [hsame₂.setup, hrel.setup] at hbecame
      exact ⟨hsame₂.trans hs, hrel.length_rx ▸ hother, hserves, hforeign, hbecame, hcontained⟩
    · rw [if_neg hid]
      obtain ⟨hs, hbecame, hcontained⟩ := rxFirstChunk_spec alloc chunk hmem' hi' huse
        hsig hlen
      rw [hsetup'] at hbecame
      exact ⟨hsame.trans hs, hrel.length_rx ▸ hother, hserves, hforeign, hbecame, hcontained⟩
  | false =>
    simp only [Bool.false_eq_true, if_false, Pair.advance, hfirst]
    rcases htaken with ⟨r, rfl, hlive, hprog⟩ | ⟨hidle, hid, hprog⟩
    · obtain ⟨hs, hbecame, hcontained⟩ := rxDataChunk_live chunk hlive hmem' hi' hlen
      rw [← hrel.inProgress, hprog]
      exact ⟨hs, hrel.length_rx ▸ hother, hserves, hforeign, hbecame, hcontained⟩
    · obtain ⟨hs, hbecame, hcontained⟩ := rxDataChunk_fresh sig chunk hi' hid
      rw [← hrel.inProgress, hprog]
      exact ⟨hsame.trans hs, hrel.length_rx ▸ hother, hserves, hforeign, hbecame, hcontained⟩

/-! ### A call -/

/-- A call for the pair `sig` leads from `ctx` to `ctx'`, and the other pairs and
their slots stay. -/
structure Frame (ctx : Ctx) (sig : UInt32) (ctx' : Ctx) : Prop where
  inv : Inv ctx'
  setup : ctx'.setup = ctx.setup
  length_rx : ctx'.rx.length = ctx.rx.length
  other : ∀ sig', sig' ≠ sig → ctx'.inProgress sig' = ctx.inProgress sig'
  slot : ∃ i, ¬ ctx.Foreign sig i ∧ ∀ j, j < ctx.rx.length → j ≠ i → ctx.rxView ≠ some j →
    ctx'.buffer j = ctx.buffer j ∧
      ((ctx.buffer j).inUse = true → ctx'.reassembly j = ctx.reassembly j)
  taken : ∀ i, ctx'.Foreign sig i → ctx.Foreign sig i

/-- What a call does: the pair of its chunk makes a step, and nothing else changes. -/
structure CallSpec (ctx : Ctx) (call : Call) (ctx' : Ctx) (reply : Reply) : Prop
    extends Frame ctx (channelSig call.chunk.id) ctx' where
  own : (ctx'.inProgress (channelSig call.chunk.id), reply.result, reply.message) =
    Pair.step ctx.setup (decide (ctx.Room (channelSig call.chunk.id)))
      (ctx.inProgress (channelSig call.chunk.id)) call

section OneCall

variable {ctx c ctx' : Ctx} {sig : UInt32} {i : ℕ}

/-- There is no slot behind the end of the table. -/
theorem Ctx.not_foreign_length : ¬ ctx.Foreign sig ctx.rx.length := by
  intro hf
  have huse := hf.1
  simp [Ctx.buffer] at huse

theorem Frame.refl (h : Inv ctx) : Frame ctx sig ctx where
  inv := h
  setup := rfl
  length_rx := rfl
  other _ _ := rfl
  slot := ⟨_, Ctx.not_foreign_length, fun _ _ _ _ => ⟨rfl, fun _ => rfl⟩⟩
  taken _ hf := hf

/-- The slots of the other pairs stay as they are. -/
theorem Frame.kept (h : Frame ctx sig ctx') (hi : i < ctx.rx.length) (hf : ctx.Foreign sig i) :
    ctx'.buffer i = ctx.buffer i ∧ ctx'.reassembly i = ctx.reassembly i := by
  obtain ⟨j, hj, hslot⟩ := h.slot
  have hij : i ≠ j := fun he => hj (he ▸ hf)
  obtain ⟨hb, hr⟩ := hslot i hi hij hf.2.1
  exact ⟨hb, hr hf.1⟩

/-- A call that only releases the view. -/
theorem Frame.of_released (hrel : Released ctx ctx') : Frame ctx sig ctx' where
  inv := hrel.inv
  setup := hrel.setup
  length_rx := hrel.length_rx
  other sig' _ := hrel.inProgress sig'
  slot := ⟨_, Ctx.not_foreign_length, fun j hj _ hv =>
    ⟨hrel.buffer j hv, hrel.reassembly j hv hj⟩⟩
  taken i hf := (hrel.foreign _ i).mp hf

/-- A call that changes one slot after it released the view; `c` is the context in
between. -/
theorem Frame.of_slot (hrel : Released ctx c) (hs : SameBut i c ctx')
    (hother : ∀ j, j ≠ i → j < c.rx.length → (c.buffer j).inUse = true →
      (c.buffer j).channelSignature ≠ sig)
    (hserves : ∀ sig', sig' ≠ sig → ¬ c.Serves i sig') (hforeign : ¬ ctx.Foreign sig i)
    (hslot : ctx'.buffer i = releasedBuffer ∨ ∃ r, ctx'.LiveAs i sig r) :
    Frame ctx sig ctx' := by
  have hinv : Inv ctx' := hrel.inv.of_sameBut hrel.view hs hother hslot
  -- the slot is foreign to nobody's but its own pair
  have hsig : (ctx'.buffer i).inUse = true → (ctx'.buffer i).channelSignature = sig := by
    intro hu
    rcases hslot with hb | ⟨r, hr⟩
    · rw [hb] at hu; exact absurd hu (by simp [releasedBuffer])
    · exact hr.signature
  refine ⟨hinv, hs.setup.trans hrel.setup, hs.length_rx.trans hrel.length_rx,
    fun sig' hne => ?_, ⟨i, hforeign, fun j hj hji hv => ?_⟩, fun j hf => ?_⟩
  · rw [hs.inProgress hrel.inv hinv (hserves sig' hne) fun hsv =>
      hne (hsv.signature.symm.trans (hsig hsv.inUse)), hrel.inProgress]
  · have hb := hrel.buffer j hv
    refine ⟨(hs.buffer j hji).trans hb, fun huse => ?_⟩
    have hlive : c.Live j := hrel.inv.live j (by rw [hrel.length_rx]; exact hj)
      (by rw [hb]; exact huse)
    exact (hs.reassembly hji hlive).trans (hrel.reassembly j hv hj huse)
  · have hji : j ≠ i := by
      rintro rfl
      exact hf.2.2 (hsig hf.1)
    refine (hrel.foreign _ j).mp ⟨?_, ?_, ?_⟩
    · rw [← hs.buffer j hji]; exact hf.1
    · rw [← hs.view]; exact hf.2.1
    · rw [← hs.buffer j hji]; exact hf.2.2

/-- A slot that holds a complete message may be given out as a view: then its pair
has no message in progress. -/
theorem Inv.giveView {r : Reassembly} (h : Inv c) (hv : c.rxView = none) (hi : i < c.rx.length)
    (hlive : c.LiveAs i sig r)
    (hfull : r.data.length = r.expectedLength.toNat)
    (hcrc : crc16 r.data r.expectedLength.toNat = r.expectedCrc) :
    Inv { c with rxView := some i } ∧ Ctx.inProgress { c with rxView := some i } sig = none ∧
      ∀ sig', sig' ≠ sig →
        Ctx.inProgress { c with rxView := some i } sig' = c.inProgress sig' := by
  have hsize : (c.buffer i).payloadSize = (c.buffer i).expectedLength := by
    rw [← UInt16.toNat_inj, ← hlive.length_data h.memory hi, hfull, ← hlive.reassembly]
    rfl
  have hinv : Inv { c with rxView := some i } := by
    refine ⟨h.length_rx, h.memory, h.idle, fun j hj huse => ?_, h.unique, fun v hv' => ?_⟩
    · have hl := h.live j hj huse
      exact ⟨hl.messageId, hl.addressFrom, hl.addressTo, hl.signature, hl.size, hl.limit, hl.holds⟩
    · simp only [Option.some.injEq] at hv'
      subst hv'
      refine ⟨hi, hlive.inUse, hsize, ?_⟩
      rw [← hlive.reassembly] at hcrc
      have hdata : (c.reassembly i).data = c.payloadRead i (c.buffer i).expectedLength.toNat := by
        rw [← hsize]; rfl
      rw [hdata] at hcrc
      exact hcrc
  refine ⟨hinv, ?_, fun sig' hne => ?_⟩
  · rw [Option.eq_none_iff_forall_ne_some]
    intro r' hr'
    obtain ⟨j, hs, -⟩ := (Ctx.inProgress_eq_some hinv).mp hr'
    exact hs.noView (congrArg some (h.unique i j hi hs.lt hlive.inUse hs.inUse
      (hlive.signature.trans hs.signature.symm)))
  · refine Ctx.inProgress_congr h hinv (fun j => ?_) fun j _ => rfl
    constructor
    · rintro ⟨hl, hu, hs, -⟩
      exact ⟨hl, hu, hs, by rw [hv]; simp⟩
    · rintro ⟨hl, hu, hs, -⟩
      refine ⟨hl, hu, hs, fun he => ?_⟩
      simp only [Option.some.injEq] at he
      subst he
      exact hne (hs.symm.trans hlive.signature)

/-- A call that gives out the slot it changed as a view. -/
theorem Frame.giveView {r : Reassembly} (hf : Frame ctx sig c) (hv : c.rxView = none)
    (hi : i < c.rx.length) (hlive : c.LiveAs i sig r)
    (hfull : r.data.length = r.expectedLength.toNat)
    (hcrc : crc16 r.data r.expectedLength.toNat = r.expectedCrc) :
    Frame ctx sig { c with rxView := some i } := by
  obtain ⟨hinv, -, hother⟩ := hf.inv.giveView hv hi hlive hfull hcrc
  refine ⟨hinv, hf.setup, hf.length_rx,
    fun sig' hne => (hother sig' hne).trans (hf.other sig' hne), hf.slot, fun j hj => ?_⟩
  exact hf.taken j ⟨hj.1, by rw [hv]; simp, hj.2.2⟩

end OneCall

/-- A slot with a complete message: the bytes its header announced are the data. -/
theorem Ctx.LiveAs.read_full {ctx : Ctx} {i : ℕ} {sig : UInt32} {r : Reassembly}
    (h : ctx.LiveAs i sig r) (hmem : ctx.MemoryOk) (hi : i < ctx.rx.length)
    (hfull : r.data.length = r.expectedLength.toNat) :
    ctx.payloadRead i (ctx.buffer i).expectedLength.toNat = r.data := by
  have hsize : (ctx.buffer i).payloadSize = (ctx.buffer i).expectedLength := by
    rw [← UInt16.toNat_inj, ← h.length_data hmem hi, hfull, ← h.reassembly]
    rfl
  rw [← hsize, ← h.reassembly]
  rfl

/-- Creating the message that is handed over. -/
theorem msgCreate_reassembly (alloc : Alloc) {ctx : Ctx} {i : ℕ} {sig : UInt32} {r : Reassembly}
    (h : ctx.LiveAs i sig r) (hfull : r.data.length = r.expectedLength.toNat)
    (hread : ctx.payloadRead i (ctx.buffer i).expectedLength.toNat = r.data) :
    msgCreate alloc (ctx.buffer i).messageId (ctx.buffer i).addressFrom (ctx.buffer i).addressTo
        (ctx.buffer i).priorityInverted
        (ctx.payloadRead i (ctx.buffer i).expectedLength.toNat) (ctx.buffer i).expectedLength =
      if alloc.calloc && (r.expectedLength = 0 || alloc.malloc) then some r.msg else none := by
  have hexp : (ctx.buffer i).expectedLength = r.expectedLength :=
    congrArg Reassembly.expectedLength h.reassembly
  have hid : (ctx.buffer i).messageId = r.messageId := congrArg Reassembly.messageId h.reassembly
  have hfrom : (ctx.buffer i).addressFrom = r.addressFrom :=
    congrArg Reassembly.addressFrom h.reassembly
  have hto : (ctx.buffer i).addressTo = r.addressTo := congrArg Reassembly.addressTo h.reassembly
  have hprio : (ctx.buffer i).priorityInverted = r.priorityInverted :=
    congrArg Reassembly.priorityInverted h.reassembly
  rw [hread, hexp, hid, hfrom, hto, hprio]
  unfold msgCreate Reassembly.msg
  by_cases h0 : r.expectedLength = 0
  · have hpos : ¬ r.expectedLength > 0 := by rw [h0]; decide
    cases alloc.calloc <;> simp [h0]
  · have hpos : r.expectedLength > 0 := UInt16.pos_iff_ne_zero.mpr h0
    cases alloc.calloc <;> cases alloc.malloc <;> simp [h0, hpos, ← hfull]

/-- A call whose chunk completes no message. -/
theorem receiver_step_of_none {ctx : Ctx} {call : Call}
    (h : (rxAddChunk call.alloc ctx call.chunk).done = none) :
    receiver.step ctx call = ((rxAddChunk call.alloc ctx call.chunk).ctx,
      ⟨(rxAddChunk call.alloc ctx call.chunk).result, none,
        (rxAddChunk call.alloc ctx call.chunk).copies⟩) := by
  obtain ⟨api, chunk, alloc⟩ := call
  cases api <;> simp only [receiver, addChunk, addChunkView] <;> rw [h]

/-- The data a view of a complete message shows. -/
theorem view_reassembly {ctx : Ctx} {i : ℕ} {sig : UInt32} {r : Reassembly}
    (h : ctx.LiveAs i sig r)
    (hread : ctx.payloadRead i (ctx.buffer i).expectedLength.toNat = r.data) :
    (⟨(ctx.buffer i).messageId, (ctx.buffer i).addressFrom, (ctx.buffer i).addressTo,
      (ctx.buffer i).priorityInverted, (ctx.buffer i).expectedLength,
      match (ctx.buffer i).payload with
      | .null => none
      | _ => some (ctx.payloadRead i (ctx.buffer i).expectedLength.toNat)⟩ : Msg) = r.msg := by
  have hexp : (ctx.buffer i).expectedLength = r.expectedLength :=
    congrArg Reassembly.expectedLength h.reassembly
  have hdata : (match (ctx.buffer i).payload with
      | .null => none
      | _ => some (ctx.payloadRead i (ctx.buffer i).expectedLength.toNat)) =
      if r.expectedLength = 0 then none else some r.data := by
    have hholds := h.live.holds
    rw [hread, ← hexp]
    unfold Ctx.Holds at hholds
    -- the pointer is null for an empty message, and for no other
    by_cases h0 : (ctx.buffer i).expectedLength = 0
    · rw [if_pos (by rw [h0]; rfl)] at hholds
      rw [hholds, if_pos h0]
    · have hpos : (ctx.buffer i).expectedLength.toNat ≠ 0 := fun h => h0 (UInt16.toNat_inj.mp h)
      rw [if_neg hpos] at hholds
      rw [if_neg h0]
      split_ifs at hholds
      · rw [hholds.1]
      · obtain ⟨block, hb, -⟩ := hholds
        rw [hb]
  rw [hdata, ← h.reassembly]
  rfl

/-- **A call whose chunk completes a message** hands it over as the pair says, and
releases its slot or keeps it for the view. -/
theorem receiver_step_of_done {ctx : Ctx} {call : Call} {i : ℕ} {sig : UInt32} {r : Reassembly}
    (h : (rxAddChunk call.alloc ctx call.chunk).Became i sig (.complete r))
    (hmem : (rxAddChunk call.alloc ctx call.chunk).ctx.MemoryOk)
    (hi : i < (rxAddChunk call.alloc ctx call.chunk).ctx.rx.length) :
    ((receiver.step ctx call).2.result, (receiver.step ctx call).2.message) =
        Pair.deliver call r ∧
      (receiver.step ctx call).1 =
        match call.api with
        | .addChunkView true true =>
            { (rxAddChunk call.alloc ctx call.chunk).ctx with rxView := some i }
        | _ => rxRelease (rxAddChunk call.alloc ctx call.chunk).ctx i := by
  obtain ⟨hok, hdone, hlive, hfull, -⟩ := h
  obtain ⟨api, chunk, alloc⟩ := call
  simp only at hok hdone hlive ⊢
  have hread := hlive.read_full hmem hi hfull
  cases api with
  | addChunk outMsg =>
    simp only [receiver, addChunk, hdone, Pair.deliver]
    cases outMsg with
    | false => simp [hok]
    | true =>
      simp only [if_true]
      rw [msgCreate_reassembly alloc hlive hfull hread]
      by_cases hmem : (alloc.calloc && (r.expectedLength = 0 || alloc.malloc)) = true
      · rw [if_pos hmem, if_pos hmem, hok]
        exact ⟨rfl, rfl⟩
      · rw [if_neg hmem, if_neg hmem]
        exact ⟨rfl, rfl⟩
  | addChunkView outMsg outComplete =>
    simp only [receiver, addChunkView, hdone, Pair.deliver]
    by_cases hout : (outMsg && outComplete) = true
    · obtain ⟨rfl, rfl⟩ : outMsg = true ∧ outComplete = true := by simpa using hout
      simp only [Bool.and_true, if_true, hok]
      exact ⟨congrArg (fun m => (Result.ok, some m)) (view_reassembly hlive hread), trivial⟩
    · rw [if_neg hout, if_neg hout, hok]
      refine ⟨rfl, ?_⟩
      cases outMsg <;> cases outComplete <;> simp at hout ⊢

/-- A chunk of another address, or one the table has no room for, only releases the
view. -/
theorem rxAddChunk_refused {ctx : Ctx} (h : Inv ctx) (alloc : Alloc) {chunk : CanMessage}
    (hlen : chunk.len.toNat ≤ maxLen)
    (hno : ¬ (ctx.setup.accepts chunk.id = true ∧ ctx.Room (channelSig chunk.id))) :
    (rxAddChunk alloc ctx chunk).ctx = rxViewRelease ctx ∧
      (rxAddChunk alloc ctx chunk).done = none ∧
      (rxAddChunk alloc ctx chunk).result = (if ctx.setup.accepts chunk.id
        then .addingChunkCantAllocateNewMsg else .addingChunkUnrelatedAddressTo) ∧
      (rxAddChunk alloc ctx chunk).copies = [] := by
  have hrel := rxViewRelease_spec h
  have haddr : (canidGetTo chunk.id != (rxViewRelease ctx).ownAddress &&
      !(rxViewRelease ctx).monitoring) = !ctx.setup.accepts chunk.id := by
    have hown : (rxViewRelease ctx).ownAddress = ctx.setup.ownAddress :=
      congrArg Setup.ownAddress hrel.setup
    have hmon : (rxViewRelease ctx).monitoring = ctx.setup.monitoring :=
      congrArg Setup.monitoring hrel.setup
    rw [hown, hmon, Setup.accepts, Bool.not_or, bne]
  unfold rxAddChunk
  rw [if_neg (Nat.not_lt.mpr hlen)]
  simp only
  rw [haddr]
  cases haccept : ctx.setup.accepts chunk.id with
  | false => simp
  | true =>
    have hroom : ¬ (rxViewRelease ctx).Room (channelSig chunk.id) := by
      rintro ⟨i, hi, hf⟩
      refine hno ⟨haccept, i, by rw [← hrel.length_rx]; exact hi, fun hf' => hf ?_⟩
      exact (hrel.foreign _ i).mpr hf'
    simp [rxGetOrAlloc_eq_none hroom]

theorem Ctx.LiveAs.inProgress {ctx : Ctx} {i : ℕ} {sig : UInt32} {r : Reassembly}
    (hlive : ctx.LiveAs i sig r) (h : Inv ctx) (hi : i < ctx.rx.length)
    (hv : ctx.rxView ≠ some i) : ctx.inProgress sig = some r :=
  (Ctx.inProgress_eq_some h).mpr
    ⟨i, ⟨hi, hlive.inUse, hlive.signature, hv⟩, hlive.reassembly⟩

/-- A released slot leaves its pair without a message. -/
theorem SameBut.inProgress_released {c ctx' : Ctx} {i : ℕ} {sig : UInt32} (h : Inv ctx')
    (hs : SameBut i c ctx')
    (hother : ∀ j, j ≠ i → j < c.rx.length → (c.buffer j).inUse = true →
      (c.buffer j).channelSignature ≠ sig)
    (hrel : ctx'.buffer i = releasedBuffer) : ctx'.inProgress sig = none := by
  rw [Option.eq_none_iff_forall_ne_some]
  intro r hr
  obtain ⟨j, hserves, -⟩ := (Ctx.inProgress_eq_some h).mp hr
  by_cases hji : j = i
  · subst hji
    have huse := hserves.inUse
    rw [hrel] at huse
    exact absurd huse (by simp [releasedBuffer])
  · have hc := (hs.serves_iff hji).mp hserves
    exact hother j hji hc.lt hc.inUse hc.signature

/-- **Every call is a step of the pair of its chunk**, which no other pair notices. -/
theorem receiver_step_spec {ctx : Ctx} (h : Inv ctx) (call : Call) :
    CallSpec ctx call (receiver.step ctx call).1 (receiver.step ctx call).2 := by
  set sig := channelSig call.chunk.id with hsigdef
  by_cases hlen : call.chunk.len.toNat > maxLen
  · -- an over-long chunk changes nothing at all
    have hadd : rxAddChunk call.alloc ctx call.chunk =
        ⟨ctx, .addingChunkInvalidChunk, none, []⟩ := by rw [rxAddChunk, if_pos hlen]
    rw [receiver_step_of_none (by rw [hadd]), hadd]
    exact ⟨Frame.refl h, by rw [Pair.step, if_pos hlen]⟩
  have hlen' : call.chunk.len.toNat ≤ maxLen := Nat.le_of_not_lt hlen
  have hrel := rxViewRelease_spec h
  by_cases htake : ctx.setup.accepts call.chunk.id = true ∧ ctx.Room sig
  · obtain ⟨haccept, hroom⟩ := htake
    obtain ⟨i, hi, hsame, hother, hserves, hforeign, hbecame, -⟩ :=
      rxAddChunk_spec h call.alloc hlen' haccept hroom
    rw [← hsigdef] at hother hserves hforeign hbecame
    rw [← hrel.length_rx] at hi hother
    set o := rxAddChunk call.alloc ctx call.chunk with ho
    have hi' : i < o.ctx.rx.length := by rw [hsame.length_rx]; exact hi
    have hview : o.ctx.rxView = none := hsame.view.trans hrel.view
    have hstep := Pair.step_of_accepts (r := ctx.inProgress sig) hlen' haccept
    rw [← decide_eq_true hroom] at hstep
    cases hadvance : Pair.advance ctx.setup call.alloc (ctx.inProgress sig) call.chunk with
    | refused result =>
      rw [hadvance] at hbecame hstep
      obtain ⟨hresult, hdone, hslot⟩ := hbecame
      rw [receiver_step_of_none hdone]
      have hframe := Frame.of_slot hrel hsame hother hserves hforeign (Or.inl hslot)
      refine ⟨hframe, ?_⟩
      rw [hstep, hsame.inProgress_released hframe.inv hother hslot, ← ho, hresult]
    | kept r result =>
      rw [hadvance] at hbecame hstep
      obtain ⟨hresult, hdone, hlive⟩ := hbecame
      rw [receiver_step_of_none hdone]
      have hframe := Frame.of_slot hrel hsame hother hserves hforeign (Or.inr ⟨r, hlive⟩)
      refine ⟨hframe, ?_⟩
      rw [hstep, hlive.inProgress hframe.inv hi' (by rw [hview]; simp), ← ho, hresult]
    | complete r =>
      rw [hadvance] at hbecame hstep
      have hmem : o.ctx.MemoryOk := hsame.memoryOk hrel.inv.memory
      obtain ⟨hdeliver, hctx⟩ := receiver_step_of_done hbecame hmem hi'
      obtain ⟨-, -, hlive, hfull, hcrc⟩ := hbecame
      have hkept := Frame.of_slot hrel hsame hother hserves hforeign (Or.inr ⟨r, hlive⟩)
      by_cases happ : call.api = .addChunkView true true
      · -- the slot stays, as the one of the view
        rw [happ] at hctx
        simp only at hctx
        rw [hctx]
        refine ⟨hkept.giveView hview hi' hlive hfull hcrc, ?_⟩
        rw [hstep, (hkept.inv.giveView hview hi' hlive hfull hcrc).2.1, hdeliver]
      · -- the slot is released
        have hrelease : (receiver.step ctx call).1 = rxRelease o.ctx i := by
          rw [hctx]
          split
          · exact absurd ‹_› happ
          · rfl
        have hsame' : SameBut i (rxViewRelease ctx) (rxRelease o.ctx i) :=
          hsame.trans rxRelease_same
        have hslot : (rxRelease o.ctx i).buffer i = releasedBuffer := rxRelease_buffer hi'
        have hframe := Frame.of_slot hrel hsame' hother hserves hforeign (Or.inl hslot)
        rw [hrelease]
        refine ⟨hframe, ?_⟩
        rw [hstep, hsame'.inProgress_released hframe.inv hother hslot, hdeliver]
  · obtain ⟨hctx, hdone, hresult, -⟩ := rxAddChunk_refused h call.alloc hlen' htake
    rw [receiver_step_of_none hdone, hctx, hresult]
    refine ⟨Frame.of_released hrel, ?_⟩
    rw [Pair.step, if_neg hlen, hrel.inProgress]
    cases haccept : ctx.setup.accepts call.chunk.id with
    | false => simp
    | true =>
      have hroom : ¬ ctx.Room sig := fun hr => htake ⟨haccept, hr⟩
      simp [← hsigdef, decide_eq_false hroom]

/-! ### Runs -/

/-- A context that was just set up. -/
def Ctx.Initial (ctx : Ctx) : Prop :=
  ∃ cfg, initStatic cfg = some ctx ∨ ∃ calloc, init calloc cfg = some ctx

/-- Two slots on the heap, for the chunks of every address. -/
def monitorConfig : Config where
  ownAddress := 0
  maxChunkLength := 8
  maxChannels := 2
  monitoring := true
  maxPayload := 0
  rxBuffers := false
  rxPayload := none
  rxPayload_length := fun _ h => absurd h (by simp)

/-- The context that is set up with it. -/
def Ctx.monitor : Ctx where
  ownAddress := 0
  maxChunkLength := 8
  monitoring := true
  maxChannels := 2
  rx := [{}, {}]
  maxPayload := 0
  rxPayload := []
  rxStatic := false
  rxView := none
  heapAllocs := 0
  heapFrees := 0

theorem Ctx.monitor_initial : Ctx.monitor.Initial := ⟨monitorConfig, Or.inr ⟨true, rfl⟩⟩

/-- A context after some calls, with whatever chunks and answers of the allocator. -/
def Ctx.Reachable (ctx : Ctx) : Prop := ∃ ctx₀ : Ctx, ctx₀.Initial ∧ receiver.Reachable ctx₀ ctx

/-- A table of unused slots, with the memory the configuration promised. -/
theorem Inv.of_replicate {ctx : Ctx} (hrx : ctx.rx = List.replicate ctx.maxChannels.toNat {})
    (hview : ctx.rxView = none) (hmem : ctx.MemoryOk) : Inv ctx := by
  have hb : ∀ i, ctx.buffer i = {} := by
    intro i
    rw [Ctx.buffer, hrx, List.getD_eq_getElem?_getD, List.getElem?_replicate]
    split_ifs <;> rfl
  have hidle : ∀ i, (ctx.buffer i).inUse ≠ true := by
    intro i
    rw [hb]
    simp
  exact {
    length_rx := by rw [hrx, List.length_replicate]
    memory := hmem
    idle := fun i _ _ => by rw [hb]
    live := fun i _ huse => absurd huse (hidle i)
    unique := fun i j _ _ huse _ _ => absurd huse (hidle i)
    view := fun v hv => by rw [hview] at hv; exact absurd hv (by simp) }

theorem initCommon_spec {cfg : Config} {ctx : Ctx} (h : initCommon cfg = some ctx) :
    ctx.rxView = none ∧ ctx.rxStatic = false ∧ ctx.maxChannels = cfg.maxChannels ∧
      ctx.setup = ⟨cfg.ownAddress &&& 0x0FFF, cfg.monitoring, cfg.maxPayload, false⟩ := by
  unfold initCommon at h
  split_ifs at h with hlen
  rw [Option.some.injEq] at h
  subst h
  exact ⟨rfl, rfl, rfl, rfl⟩

/-- All that `initStatic` can give. -/
theorem initStatic_cases {cfg : Config} {ctx : Ctx} (h : initStatic cfg = some ctx) :
    ∃ ctx₀, initCommon cfg = some ctx₀ ∧ ctx₀.maxChannels ≠ 0 ∧
      (cfg.rxPayload = none → ctx₀.maxPayload = 0) ∧
      ctx = { ctx₀ with
        rx := List.replicate ctx₀.maxChannels.toNat {}
        rxPayload := cfg.rxPayload.getD []
        rxStatic := true } := by
  unfold initStatic at h
  cases hcommon : initCommon cfg with
  | none => rw [hcommon] at h; exact absurd h (by simp)
  | some ctx₀ =>
    rw [hcommon] at h
    simp only at h
    split_ifs at h with hrefused
    rw [Option.some.injEq] at h
    simp only [Bool.or_eq_true, decide_eq_true_eq, not_or] at hrefused
    refine ⟨ctx₀, rfl, hrefused.1.2, fun hnone => ?_, h.symm⟩
    by_contra hne
    exact hrefused.2 (by simp [hne, hnone])

/-- All that `init` can give. -/
theorem init_cases {calloc : Bool} {cfg : Config} {ctx : Ctx} (h : init calloc cfg = some ctx) :
    (cfg.rxBuffers = true ∧ initStatic cfg = some ctx) ∨
      (cfg.rxBuffers = false ∧ ∃ ctx₀ maxChannels, initCommon cfg = some ctx₀ ∧
        maxChannels ≠ 0 ∧ ctx = { ctx₀ with
          maxChannels := maxChannels
          rx := List.replicate maxChannels.toNat {} }) := by
  unfold init at h
  cases hstatic : cfg.rxBuffers with
  | true =>
    rw [if_pos hstatic] at h
    exact .inl ⟨rfl, h⟩
  | false =>
    rw [if_neg (by simp [hstatic])] at h
    cases hcommon : initCommon cfg with
    | none => rw [hcommon] at h; exact absurd h (by simp)
    | some ctx₀ =>
      rw [hcommon] at h
      cases calloc with
      | false => exact absurd h (by simp)
      | true =>
        simp only [Bool.not_true, Bool.false_eq_true, if_false, Option.some.injEq] at h
        refine .inr ⟨rfl, ctx₀, _, rfl, ?_, h.symm⟩
        split_ifs with h0
        · decide
        · exact h0

theorem initStatic_spec {cfg : Config} {ctx : Ctx} (h : initStatic cfg = some ctx) :
    ctx.rx = List.replicate ctx.maxChannels.toNat {} ∧ ctx.rxView = none ∧ ctx.MemoryOk ∧
      ctx.setup = ⟨cfg.ownAddress &&& 0x0FFF, cfg.monitoring, cfg.maxPayload, true⟩ ∧
      ctx.maxChannels = cfg.maxChannels := by
  obtain ⟨ctx₀, hcommon, -, hnone, rfl⟩ := initStatic_cases h
  obtain ⟨hview, -, hchannels, hsetup⟩ := initCommon_spec hcommon
  have hpayload : ctx₀.maxPayload = cfg.maxPayload := congrArg Setup.maxPayload hsetup
  refine ⟨rfl, hview, fun _ => ?_, ?_, hchannels⟩
  · simp only [List.length_replicate]
    rw [hchannels, hpayload]
    cases hpay : cfg.rxPayload with
    | some mem => exact cfg.rxPayload_length mem hpay
    | none =>
      -- without memory there is no data
      have h0 : cfg.maxPayload = 0 := hpayload.symm.trans (hnone hpay)
      simp [h0]
  · exact congrArg (fun s : Setup => { s with rxStatic := true }) hsetup

theorem init_spec {calloc : Bool} {cfg : Config} {ctx : Ctx} (h : init calloc cfg = some ctx) :
    ctx.rx = List.replicate ctx.maxChannels.toNat {} ∧ ctx.rxView = none ∧ ctx.MemoryOk ∧
      ctx.setup = ⟨cfg.ownAddress &&& 0x0FFF, cfg.monitoring, cfg.maxPayload, cfg.rxBuffers⟩ := by
  rcases init_cases h with ⟨hstatic, h⟩ | ⟨hstatic, ctx₀, maxChannels, hcommon, -, rfl⟩
  · obtain ⟨hrx, hview, hmem, hsetup, -⟩ := initStatic_spec h
    exact ⟨hrx, hview, hmem, by rw [hsetup, hstatic]⟩
  · obtain ⟨hview, hheap, -, hsetup⟩ := initCommon_spec hcommon
    refine ⟨rfl, hview, fun hs => ?_, ?_⟩
    · rw [hheap] at hs
      exact absurd hs (by simp)
    · rw [hstatic]
      exact hsetup

theorem maxChannels_of_initStatic {cfg : Config} {ctx : Ctx} (h : initStatic cfg = some ctx) :
    ctx.maxChannels ≠ 0 := by
  obtain ⟨ctx₀, -, hchannels, -, rfl⟩ := initStatic_cases h
  exact hchannels

theorem maxChannels_of_init {calloc : Bool} {cfg : Config} {ctx : Ctx}
    (h : init calloc cfg = some ctx) : ctx.maxChannels ≠ 0 := by
  rcases init_cases h with ⟨-, h⟩ | ⟨-, ctx₀, maxChannels, -, hchannels, rfl⟩
  · exact maxChannels_of_initStatic h
  · exact hchannels

theorem Ctx.Initial.spec {ctx : Ctx} (h : ctx.Initial) :
    ctx.rx = List.replicate ctx.maxChannels.toNat {} ∧ ctx.rxView = none ∧ ctx.MemoryOk := by
  obtain ⟨cfg, hs | ⟨calloc, hd⟩⟩ := h
  · obtain ⟨hrx, hview, hmem, -⟩ := initStatic_spec hs
    exact ⟨hrx, hview, hmem⟩
  · obtain ⟨hrx, hview, hmem, -⟩ := init_spec hd
    exact ⟨hrx, hview, hmem⟩

theorem Ctx.Initial.inv {ctx : Ctx} (h : ctx.Initial) : Inv ctx := by
  obtain ⟨hrx, hview, hmem⟩ := h.spec
  exact Inv.of_replicate hrx hview hmem

/-- A chunk of the configured length holds the header and fits a message. -/
theorem chunkLengthOk_of_initStatic {cfg : Config} {ctx : Ctx} (h : initStatic cfg = some ctx) :
    ChunkLengthOk ctx.maxChunkLength := by
  obtain ⟨ctx₀, hcommon, -, -, rfl⟩ := initStatic_cases h
  unfold initCommon at hcommon
  split_ifs at hcommon with hlen
  rw [Option.some.injEq] at hcommon
  subst hcommon
  simp only [Bool.or_eq_true, decide_eq_true_eq, not_or] at hlen
  exact ⟨Nat.le_of_not_lt hlen.1, Nat.le_of_not_lt hlen.2⟩

theorem chunkLengthOk_of_init {calloc : Bool} {cfg : Config} {ctx : Ctx}
    (h : init calloc cfg = some ctx) : ChunkLengthOk cfg.maxChunkLength := by
  by_contra hm
  have hlen : (decide (cfg.maxChunkLength.toNat < headerSize) ||
      decide (cfg.maxChunkLength.toNat > maxLen)) = true := by
    simp only [Bool.or_eq_true, decide_eq_true_eq]
    by_contra hlen
    exact hm ⟨by omega, by omega⟩
  have hnone : initCommon cfg = none := if_pos hlen
  rcases init_cases h with ⟨-, h⟩ | ⟨-, ctx₀, -, hcommon, -⟩
  · obtain ⟨ctx₀, hcommon, -⟩ := initStatic_cases h
    exact absurd (hnone.symm.trans hcommon) (by simp)
  · exact absurd (hnone.symm.trans hcommon) (by simp)

/-- There is at least one slot. -/
theorem Ctx.Initial.length_pos {ctx : Ctx} (h : ctx.Initial) : 0 < ctx.rx.length := by
  have hinv := h.inv
  have hne : ctx.maxChannels ≠ 0 := by
    obtain ⟨cfg, hs | ⟨calloc, hd⟩⟩ := h
    · exact maxChannels_of_initStatic hs
    · exact maxChannels_of_init hd
  rw [hinv.length_rx]
  exact Nat.pos_of_ne_zero fun h0 => hne (UInt16.toNat_inj.mp h0)

/-- A context that was just set up holds no message of any pair. -/
theorem Ctx.Initial.inProgress {ctx : Ctx} (h : ctx.Initial) (sig : UInt32) :
    ctx.inProgress sig = none := by
  obtain ⟨hrx, -, -⟩ := h.spec
  have hfind : rxFind ctx sig = none := by
    rw [rxFind, List.findIdx?_eq_none_iff, hrx]
    intro b hb
    rw [(List.mem_replicate.mp hb).2]
    rfl
  rw [Ctx.inProgress, hfind]

/-- Every call keeps the invariant. -/
theorem Inv.step {ctx : Ctx} (h : Inv ctx) (call : Call) : Inv (receiver.step ctx call).1 :=
  (receiver_step_spec h call).inv

theorem Inv.final {ctx : Ctx} (h : Inv ctx) (calls : List Call) :
    Inv (receiver.final ctx calls) :=
  receiver.final_of_step calls h fun _ call _ h => h.step call

theorem Ctx.Initial.reachable {ctx : Ctx} (h : ctx.Initial) : ctx.Reachable :=
  ⟨ctx, h, [], rfl⟩

theorem Ctx.Reachable.inv {ctx : Ctx} (h : ctx.Reachable) : Inv ctx := by
  obtain ⟨ctx₀, h₀, calls, rfl⟩ := h
  exact h₀.inv.final calls

end Protoplexer
end UniCan
