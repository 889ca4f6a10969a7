import UniCan.Foundation.Tally
import UniCan.Protoplexer.Soundness

/-!
# Who holds the memory

A receiver takes blocks from the heap for the messages in progress and gives them
back when the messages end, on one of a dozen ways.  This file follows the blocks:
what was taken and not yet given back is what the slots hold.  It also follows the
headers: a slot is in use only for a pair whose header was accepted.

## Main definitions

* `Ctx.heldBlocks`, `Ctx.Balanced` — the blocks the slots hold, and that no other
  blocks are out.
* `Ctx.AnnouncedAt` — a slot goes back to an accepted header.
* `Ctx.Occupied` — a slot in use, with its memory.

## Main results

* `receiver_step_copies` — every copy stays inside the memory of its slot.
* `Ctx.Balanced.step` — **no block is dropped.**
* `receiver_announced` — every slot in use goes back to an accepted header.
* `reassembly_table` — **the table of reassemblies**, after every run.
* `context_leaves_nothing` — **what was taken for data is given back**, at the end of every run.
-/

namespace UniCan
namespace Protoplexer

/-! ### Blocks of the heap -/

/-- The blocks of the heap a reassembly holds. -/
def RxBuffer.blocks (b : RxBuffer) : ℕ :=
  match b.payload with
  | .heap _ => 1
  | _ => 0

/-- The blocks of the heap the table holds. -/
def Ctx.heldBlocks (ctx : Ctx) : ℕ := tally RxBuffer.blocks ctx.rx

/-- What was taken from the heap and not given back is in the table; with the memory
of the application there is none. -/
structure Ctx.Balanced (ctx : Ctx) : Prop where
  allocs : ctx.heapAllocs = ctx.heapFrees + ctx.heldBlocks
  heapless : ctx.rxStatic = true → ctx.heldBlocks = 0

section Blocks

variable {ctx : Ctx} {i : ℕ}

theorem Ctx.heldBlocks_setBuffer (hi : i < ctx.rx.length) (b : RxBuffer) :
    (ctx.setBuffer i b).heldBlocks + (ctx.buffer i).blocks = ctx.heldBlocks + b.blocks := by
  rw [← Ctx.getElem_rx hi]
  exact tally_set hi b

/-- A slot holds no more than the table. -/
theorem Ctx.blocks_le_heldBlocks (hi : i < ctx.rx.length) :
    (ctx.buffer i).blocks ≤ ctx.heldBlocks := by
  have hset := ctx.heldBlocks_setBuffer hi {}
  have hempty : ({} : RxBuffer).blocks = 0 := rfl
  omega

/-- A slot may change in everything but the block it holds. -/
theorem Ctx.Balanced.setBuffer (h : ctx.Balanced) (hi : i < ctx.rx.length) {b : RxBuffer}
    (hb : b.blocks = (ctx.buffer i).blocks) : (ctx.setBuffer i b).Balanced := by
  have hset := ctx.heldBlocks_setBuffer hi b
  have hheld : (ctx.setBuffer i b).heldBlocks = ctx.heldBlocks := by omega
  exact ⟨by rw [hheld]; exact h.allocs, by rw [hheld]; exact h.heapless⟩

theorem Ctx.Balanced.payloadFree (h : ctx.Balanced) (hi : i < ctx.rx.length) :
    (rxPayloadFree ctx i).Balanced := by
  have hset := ctx.heldBlocks_setBuffer hi
    { ctx.buffer i with payload := .null, payloadSize := 0 }
  have hnull : ({ ctx.buffer i with payload := .null, payloadSize := 0 } : RxBuffer).blocks = 0 :=
    rfl
  have hle := Ctx.blocks_le_heldBlocks hi
  have hallocs := h.allocs
  have hfreed : (rxPayloadFree ctx i).heapFrees = ctx.heapFrees + (ctx.buffer i).blocks := by
    cases hs : ctx.rxStatic with
    | true =>
      have hzero := h.heapless hs
      simp only [rxPayloadFree, hs]
      omega
    | false =>
      cases hp : (ctx.buffer i).payload <;> simp [rxPayloadFree, RxBuffer.blocks, hs, hp]
  constructor
  · -- what the slot held is what was given back
    rw [hfreed]
    change ctx.heapAllocs = ctx.heapFrees + (ctx.buffer i).blocks + (ctx.setBuffer i _).heldBlocks
    omega
  · intro hs
    have hzero := h.heapless hs
    change (ctx.setBuffer i _).heldBlocks = 0
    omega

theorem Ctx.Balanced.reset (h : ctx.Balanced) (hi : i < ctx.rx.length) :
    (rxReset ctx i).Balanced :=
  (h.payloadFree hi).setBuffer (by rw [rxPayloadFree_same.length_rx]; exact hi) rfl

theorem Ctx.Balanced.release (h : ctx.Balanced) (hi : i < ctx.rx.length) :
    (rxRelease ctx i).Balanced :=
  (h.reset hi).setBuffer (by rw [rxReset_same.length_rx]; exact hi) rfl

theorem Ctx.Balanced.payloadWrite (h : ctx.Balanced) (hi : i < ctx.rx.length) (off : ℕ)
    (bytes : List UInt8) : (ctx.payloadWrite i off bytes).Balanced := by
  unfold Ctx.payloadWrite
  cases hp : (ctx.buffer i).payload with
  | null => exact h
  | heap block => exact h.setBuffer hi (by simp [RxBuffer.blocks, hp])
  | app offset => exact ⟨h.allocs, h.heapless⟩

/-- A block is taken only for a slot that holds none. -/
theorem Ctx.Balanced.payloadAlloc (h : ctx.Balanced) (hi : i < ctx.rx.length)
    (hnull : (ctx.buffer i).payload = .null) (alloc : Alloc) (length : UInt16) :
    (rxPayloadAlloc alloc ctx i length).1.Balanced := by
  have hempty : (ctx.buffer i).blocks = 0 := by rw [RxBuffer.blocks, hnull]
  unfold rxPayloadAlloc
  split_ifs with hlimit h0 hs
  · exact h
  · exact h
  · exact h.setBuffer hi hempty.symm
  · cases alloc.rxAlloc with
    | none => exact h.setBuffer hi hempty.symm
    | some fill =>
      have hset := ctx.heldBlocks_setBuffer hi
        { ctx.buffer i with payload := .heap ((List.range length.toNat).map fill) }
      have hone : ({ ctx.buffer i with
          payload := .heap ((List.range length.toNat).map fill) } : RxBuffer).blocks = 1 := rfl
      have hallocs := h.allocs
      constructor
      · change ctx.heapAllocs + 1 = ctx.heapFrees + (ctx.setBuffer i _).heldBlocks
        omega
      · intro hstatic
        exact absurd hstatic hs

@[simp] theorem Ctx.length_rx_payloadWrite (off : ℕ) (bytes : List UInt8) :
    (ctx.payloadWrite i off bytes).rx.length = ctx.rx.length := by
  unfold Ctx.payloadWrite
  split <;> simp

theorem rxFinish_ctx (copies : List Copy) : (rxFinish ctx i copies).ctx = ctx := by
  unfold rxFinish
  simp only
  split_ifs <;> rfl

theorem Ctx.Balanced.dataChunk (h : ctx.Balanced) (hi : i < ctx.rx.length) (chunk : CanMessage) :
    (rxDataChunk ctx i chunk).ctx.Balanced := by
  unfold rxDataChunk
  simp only
  split_ifs with hid hover hpos
  · exact h.release hi
  · exact h.release hi
  · rw [rxFinish_ctx]
    set bytes := readAt chunk.data.toList 0 chunk.len.toNat
    have hw := h.payloadWrite hi (ctx.buffer i).payloadSize.toNat bytes
    exact hw.setBuffer (by rw [Ctx.length_rx_payloadWrite]; exact hi) rfl
  · rw [rxFinish_ctx]
    exact h

theorem Ctx.Balanced.firstChunk (h : ctx.Balanced) (hi : i < ctx.rx.length) (alloc : Alloc)
    (chunk : CanMessage) : (rxFirstChunk alloc ctx i chunk).ctx.Balanced := by
  have hstored : ∀ (c : Ctx) (copies : List Copy), c.Balanced → i < c.rx.length →
      (if (c.buffer i).messageId = errorId then
          (⟨rxRelease c i, .addingChunkReceivedErrorId, none, copies⟩ : RxOutcome)
        else rxFinish c i copies).ctx.Balanced := by
    intro c copies hc hic
    split
    · exact hc.release hic
    · rw [rxFinish_ctx]
      exact hc
  unfold rxFirstChunk
  simp only
  split
  · exact h.release hi
  split
  · exact h.release hi
  split
  · exact h.release hi
  set ctx₁ := ctx.setBuffer i { ctx.buffer i with
    addressTo := canidGetTo chunk.id
    addressFrom := canidGetFrom chunk.id
    priorityInverted := canidGetPriorityInverted chunk.id
    expectedLength := headerWord chunk 2
    expectedCrc := headerWord chunk 4 }
  have hi₁ : i < ctx₁.rx.length := by rw [Ctx.length_rx_setBuffer]; exact hi
  have h₁ : ctx₁.Balanced := h.setBuffer hi rfl
  split
  · exact h₁.release hi₁
  -- the block of an old message is given back before a new one is taken
  have hi₂ : i < (rxPayloadFree ctx₁ i).rx.length := by rw [rxPayloadFree_same.length_rx]; exact hi₁
  have hnull : ((rxPayloadFree ctx₁ i).buffer i).payload = .null := by
    rw [rxPayloadFree_buffer hi₁]
  have h₃ := (h₁.payloadFree hi₁).payloadAlloc hi₂ hnull alloc (headerWord chunk 2)
  have hi₃ := hi₂
  rw [← (rxPayloadAlloc_spec alloc (headerWord chunk 2) hi₂ hnull).1.length_rx] at hi₃
  generalize rxPayloadAlloc alloc (rxPayloadFree ctx₁ i) i (headerWord chunk 2) = a at h₃ hi₃ ⊢
  obtain ⟨ctx₃, ok⟩ := a
  cases ok with
  | false => exact h₃.release hi₃
  | true =>
    refine hstored _ _ ?_ ?_
    · split
      · have hcopied := h₃.payloadWrite hi₃ 0
          (readAt chunk.data.toList headerSize (chunk.len.toNat - headerSize))
        refine Ctx.Balanced.setBuffer ?_ (by simpa using hi₃) rfl
        exact hcopied.setBuffer (by simpa using hi₃) rfl
      · exact h₃.setBuffer hi₃ rfl
    · split <;> simpa using hi₃

/-- The slot that is found or taken for a pair; an unused one holds no block. -/
theorem Ctx.Balanced.getOrAlloc (h : ctx.Balanced) (hinv : Inv ctx) {sig : UInt32} {ctx' : Ctx}
    (hget : rxGetOrAlloc ctx sig = some (ctx', i)) :
    ctx'.Balanced ∧ i < ctx'.rx.length := by
  unfold rxGetOrAlloc at hget
  cases hfind : rxFind ctx sig with
  | some j =>
    rw [hfind] at hget
    obtain ⟨rfl, rfl⟩ := Prod.mk.inj (Option.some.inj hget)
    exact ⟨h, ((rxFind_eq_some hinv).mp hfind).1⟩
  | none =>
    rw [hfind] at hget
    cases hfree : ctx.rx.findIdx? (fun b => !b.inUse) with
    | none => rw [hfree] at hget; exact absurd hget (by simp)
    | some j =>
      rw [hfree] at hget
      obtain ⟨rfl, rfl⟩ := Prod.mk.inj (Option.some.inj hget)
      obtain ⟨hlt, hidle, -⟩ := List.findIdx?_eq_some_iff_getElem.mp hfree
      rw [Ctx.getElem_rx hlt, Bool.not_eq_true'] at hidle
      have hnull := hinv.idle j hlt hidle
      refine ⟨h.setBuffer hlt ?_, by rw [Ctx.length_rx_setBuffer]; exact hlt⟩
      simp [RxBuffer.blocks, hnull]

theorem Ctx.Balanced.viewRelease (h : ctx.Balanced) (hinv : Inv ctx) :
    (rxViewRelease ctx).Balanced := by
  unfold rxViewRelease
  cases hv : ctx.rxView with
  | none => exact h
  | some v =>
    have hrel := h.release (hinv.view v hv).1
    exact ⟨hrel.allocs, hrel.heapless⟩

theorem Ctx.Balanced.addChunk (h : ctx.Balanced) (hinv : Inv ctx) (alloc : Alloc)
    (chunk : CanMessage) : (rxAddChunk alloc ctx chunk).ctx.Balanced := by
  have hrel := h.viewRelease hinv
  unfold rxAddChunk
  split
  · exact h
  simp only
  split
  · exact hrel
  cases hget : rxGetOrAlloc (rxViewRelease ctx) (channelSig chunk.id) with
  | none => exact hrel
  | some p =>
    obtain ⟨ctx', j⟩ := p
    obtain ⟨h', hj⟩ := hrel.getOrAlloc (rxViewRelease_spec hinv).inv hget
    simp only
    split_ifs
    · exact (h'.reset hj).firstChunk (by rw [rxReset_same.length_rx]; exact hj) alloc chunk
    · exact h'.firstChunk hj alloc chunk
    · exact (h'.reset hj).dataChunk (by rw [rxReset_same.length_rx]; exact hj) chunk
    · exact h'.dataChunk hj chunk

end Blocks

/-! ### A call -/

section Call

variable {ctx : Ctx} {call : Call}

/-- A chunk that completes a message did so in a slot of the table. -/
theorem rxAddChunk_completes (h : Inv ctx) {i : ℕ}
    (hdone : (rxAddChunk call.alloc ctx call.chunk).done = some i) :
    ∃ r, ctx.setup.takes call.chunk = true ∧ i < ctx.rx.length ∧
      SameBut i (rxViewRelease ctx) (rxAddChunk call.alloc ctx call.chunk).ctx ∧
      Pair.advance ctx.setup call.alloc (ctx.inProgress (channelSig call.chunk.id)) call.chunk =
        .complete r ∧
      (rxAddChunk call.alloc ctx call.chunk).Became i (channelSig call.chunk.id) (.complete r) := by
  have hlen : call.chunk.len.toNat ≤ maxLen := by
    by_contra hlong
    rw [rxAddChunk, if_pos (Nat.lt_of_not_le hlong)] at hdone
    exact absurd hdone (by simp)
  by_cases htake : ctx.setup.accepts call.chunk.id = true ∧ ctx.Room (channelSig call.chunk.id)
  · obtain ⟨j, hj, hsame, -, -, -, hbecame, -⟩ :=
      rxAddChunk_spec h call.alloc hlen htake.1 htake.2
    cases hadvance : Pair.advance ctx.setup call.alloc
        (ctx.inProgress (channelSig call.chunk.id)) call.chunk with
    | refused result =>
      rw [hadvance] at hbecame
      rw [hbecame.2.1] at hdone
      exact absurd hdone (by simp)
    | kept r result =>
      rw [hadvance] at hbecame
      rw [hbecame.2.1] at hdone
      exact absurd hdone (by simp)
    | complete r =>
      rw [hadvance] at hbecame
      obtain rfl : j = i := Option.some.inj (hbecame.2.1.symm.trans hdone)
      exact ⟨r, by simp [Setup.takes, hlen, htake.1], hj, hsame, rfl, hbecame⟩
  · rw [(rxAddChunk_refused h call.alloc hlen htake).2.1] at hdone
    exact absurd hdone (by simp)

theorem rxAddChunk_contained (h : Inv ctx) (alloc : Alloc) (chunk : CanMessage) :
    (rxAddChunk alloc ctx chunk).Contained := by
  by_cases hlen : chunk.len.toNat ≤ maxLen
  · by_cases htake : ctx.setup.accepts chunk.id = true ∧ ctx.Room (channelSig chunk.id)
    · obtain ⟨-, -, -, -, -, -, -, hcontained⟩ := rxAddChunk_spec h alloc hlen htake.1 htake.2
      exact hcontained
    · unfold RxOutcome.Contained
      rw [(rxAddChunk_refused h alloc hlen htake).2.2.2]
      simp
  · rw [rxAddChunk, if_pos (Nat.lt_of_not_le hlen)]
    simp [RxOutcome.Contained]

/-- **Every copy stays inside the memory of its slot.** -/
theorem receiver_step_copies (h : Inv ctx) :
    ∀ copy ∈ (receiver.step ctx call).2.copies, copy.Inside := by
  have hcontained := rxAddChunk_contained h call.alloc call.chunk
  cases hdone : (rxAddChunk call.alloc ctx call.chunk).done with
  | none =>
    rw [receiver_step_of_none hdone]
    exact hcontained
  | some i =>
    obtain ⟨r, -, -, -, -, -, -, hlive, -, -⟩ := rxAddChunk_completes h hdone
    have hout : ((rxAddChunk call.alloc ctx call.chunk).ctx.payloadCopy i 0
        ((rxAddChunk call.alloc ctx call.chunk).ctx.buffer i).expectedLength.toNat).Inside :=
      hlive.live.holds.copy_inside (by omega)
    have hall : ∀ copy ∈ (rxAddChunk call.alloc ctx call.chunk).copies ++
        [(rxAddChunk call.alloc ctx call.chunk).ctx.payloadCopy i 0
          ((rxAddChunk call.alloc ctx call.chunk).ctx.buffer i).expectedLength.toNat],
        copy.Inside := by
      intro copy hcopy
      rcases List.mem_append.mp hcopy with hold | hnew
      · exact hcontained copy hold
      · rw [List.mem_singleton.mp hnew]
        exact hout
    obtain ⟨api, chunk, alloc⟩ := call
    cases api with
    | addChunk outMsg =>
      simp only [receiver, addChunk, hdone]
      split_ifs
      · split <;> assumption
      · exact hcontained
    | addChunkView outMsg outComplete =>
      simp only [receiver, addChunkView, hdone]
      split_ifs <;> exact hcontained

/-- **No block is dropped**: a call gives back what it does not keep. -/
theorem Ctx.Balanced.step (h : ctx.Balanced) (hinv : Inv ctx) :
    (receiver.step ctx call).1.Balanced := by
  have hadd := h.addChunk hinv call.alloc call.chunk
  cases hdone : (rxAddChunk call.alloc ctx call.chunk).done with
  | none =>
    rw [receiver_step_of_none hdone]
    exact hadd
  | some i =>
    obtain ⟨r, -, hi, hsame, -, hbecame⟩ := rxAddChunk_completes hinv hdone
    have hrel := rxViewRelease_spec hinv
    have hi' : i < (rxAddChunk call.alloc ctx call.chunk).ctx.rx.length := by
      rw [hsame.length_rx, hrel.length_rx]
      exact hi
    rw [(receiver_step_of_done hbecame (hsame.memoryOk hrel.inv.memory) hi').2]
    split
    · exact ⟨hadd.allocs, hadd.heapless⟩
    · exact hadd.release hi'

/-- The slot a call gives out as a view holds what the call completed; only an
over-long chunk leaves an older view. -/
theorem receiver_step_view (h : Inv ctx) {v : ℕ}
    (hv : (receiver.step ctx call).1.rxView = some v) :
    (call.chunk.len.toNat > maxLen ∧ (receiver.step ctx call).1 = ctx) ∨
      ∃ r, ctx.setup.takes call.chunk = true ∧
        Pair.advance ctx.setup call.alloc (ctx.inProgress (channelSig call.chunk.id)) call.chunk =
          .complete r ∧ (receiver.step ctx call).1.reassembly v = r := by
  have hrel := rxViewRelease_spec h
  cases hdone : (rxAddChunk call.alloc ctx call.chunk).done with
  | none =>
    rw [receiver_step_of_none hdone] at hv ⊢
    by_cases hlen : call.chunk.len.toNat ≤ maxLen
    · -- the view is released, and no other is given out
      have hnone : (rxAddChunk call.alloc ctx call.chunk).ctx.rxView = none := by
        by_cases htake : ctx.setup.accepts call.chunk.id = true ∧
            ctx.Room (channelSig call.chunk.id)
        · obtain ⟨i, -, hsame, -⟩ := rxAddChunk_spec h call.alloc hlen htake.1 htake.2
          exact hsame.view.trans hrel.view
        · rw [(rxAddChunk_refused h call.alloc hlen htake).1]
          exact hrel.view
      rw [hnone] at hv
      exact absurd hv (by simp)
    · have hlong : call.chunk.len.toNat > maxLen := Nat.lt_of_not_le hlen
      exact Or.inl ⟨hlong, by rw [rxAddChunk, if_pos hlong]⟩
  | some i =>
    obtain ⟨r, htakes, hi, hsame, hadvance, hbecame⟩ := rxAddChunk_completes h hdone
    have hi' : i < (rxAddChunk call.alloc ctx call.chunk).ctx.rx.length := by
      rw [hsame.length_rx, hrel.length_rx]
      exact hi
    have hctx := (receiver_step_of_done hbecame (hsame.memoryOk hrel.inv.memory) hi').2
    rw [hctx] at hv ⊢
    split at hv
    · obtain rfl : i = v := Option.some.inj hv
      exact Or.inr ⟨r, htakes, hadvance, hbecame.2.2.1.reassembly⟩
    · rw [rxRelease_same.view, hsame.view, hrel.view] at hv
      exact absurd hv (by simp)

end Call

/-! ### Runs -/

theorem unused_of_initCommon {cfg : Config} {ctx : Ctx} (h : initCommon cfg = some ctx) :
    ctx.heapAllocs = 0 ∧ ctx.heapFrees = 0 := by
  unfold initCommon at h
  split_ifs at h
  rw [Option.some.injEq] at h
  subst h
  exact ⟨rfl, rfl⟩

theorem unused_of_initStatic {cfg : Config} {ctx : Ctx} (h : initStatic cfg = some ctx) :
    ctx.heapAllocs = 0 ∧ ctx.heapFrees = 0 := by
  obtain ⟨ctx₀, hcommon, -, -, rfl⟩ := initStatic_cases h
  have hunused := unused_of_initCommon hcommon
  exact hunused

theorem unused_of_init {calloc : Bool} {cfg : Config} {ctx : Ctx}
    (h : init calloc cfg = some ctx) : ctx.heapAllocs = 0 ∧ ctx.heapFrees = 0 := by
  rcases init_cases h with ⟨-, h⟩ | ⟨-, ctx₀, maxChannels, hcommon, -, rfl⟩
  · exact unused_of_initStatic h
  · have hunused := unused_of_initCommon hcommon
    exact hunused

/-- A context that was just set up has taken nothing from the heap but its table. -/
theorem Ctx.Initial.balanced {ctx : Ctx} (h : ctx.Initial) : ctx.Balanced := by
  have hunused : ctx.heapAllocs = 0 ∧ ctx.heapFrees = 0 := by
    obtain ⟨cfg, hs | ⟨calloc, hd⟩⟩ := h
    · exact unused_of_initStatic hs
    · exact unused_of_init hd
  have hheld : ctx.heldBlocks = 0 := by
    rw [Ctx.heldBlocks, tally_eq_zero_iff, h.spec.1]
    intro b hb
    rw [(List.mem_replicate.mp hb).2]
    rfl
  exact ⟨by rw [hunused.1, hunused.2, hheld], fun _ => hheld⟩

/-- What was taken from the heap is in the table, after any calls. -/
theorem receiver_balanced {ctx : Ctx} (h : ctx.Initial) (calls : List Call) :
    Inv (receiver.final ctx calls) ∧ (receiver.final ctx calls).Balanced := by
  refine receiver.final_of_step (P := fun c => Inv c ∧ c.Balanced) calls ⟨h.inv, h.balanced⟩ ?_
  rintro c call - ⟨hinv, hbalanced⟩
  exact ⟨hinv.step call, hbalanced.step hinv⟩

/-- A slot with an accepted header is the one of an identifier. -/
theorem Ctx.Live.exists_canId {ctx : Ctx} {i : ℕ} (h : ctx.Live i) :
    ∃ canId, channelSig canId = (ctx.buffer i).channelSignature ∧
      pairOf canId = ((ctx.buffer i).addressFrom, (ctx.buffer i).addressTo) := by
  have hfrom := (addressValid_iff _).mp h.addressFrom
  have hto := (addressValid_iff _).mp h.addressTo
  have hsig := h.signature
  generalize ctx.buffer i = b at *
  have hpair : pairOf (canidCreate b.addressFrom b.addressTo 0 false) =
      (b.addressFrom, b.addressTo) := by
    rw [pairOf, Prod.mk.injEq, ← UInt16.toNat_inj, ← UInt16.toNat_inj,
      toNat_canidGetFrom_canidCreate, toNat_canidGetTo_canidCreate]
    omega
  obtain ⟨hf, ht⟩ := Prod.mk.inj hpair
  exact ⟨_, by rw [← UInt32.toNat_inj, toNat_channelSig, hsig, hf, ht], hpair⟩

/-- The slot `i` holds what its pair announced and sent in `calls`. -/
def Ctx.AnnouncedAt (ctx : Ctx) (setup : Setup) (calls : List Call) (i : ℕ) : Prop :=
  AnnouncedIn setup ((ctx.buffer i).addressFrom, (ctx.buffer i).addressTo)
    (heard ((ctx.buffer i).addressFrom, (ctx.buffer i).addressTo) calls) (ctx.reassembly i)

/-- The view goes back to an accepted header. -/
theorem receiver_view_announced {ctx : Ctx} (h : ctx.Initial) (calls : List Call) (v : ℕ)
    (hv : (receiver.final ctx calls).rxView = some v) :
    (receiver.final ctx calls).AnnouncedAt ctx.setup calls v := by
  induction calls using List.reverseRecOn with
  | nil =>
    rw [receiver.final_nil, h.spec.2.1] at hv
    exact absurd hv (by simp)
  | append_singleton calls call ih =>
    obtain ⟨hinv, hsetup, hann⟩ := receiver_heard h calls
    rw [receiver.final_append] at hv ⊢
    simp only [receiver.final_cons, receiver.final_nil] at hv ⊢
    unfold Ctx.AnnouncedAt
    rw [heard_append]
    rcases receiver_step_view hinv hv with ⟨hlong, hsame⟩ | ⟨r, htakes, hadvance, hr⟩
    · -- nobody hears an over-long chunk
      rw [hsame] at hv ⊢
      have hnil : ∀ p, heard p [call] = [] := fun p => by
        simp [heard, Nat.not_le.mpr hlong]
      rw [hnil, List.append_nil]
      exact ih hv
    · rw [hsetup] at htakes hadvance
      rw [Setup.takes, Bool.and_eq_true, decide_eq_true_eq] at htakes
      have hnew := Pair.advance_announced (hann call.chunk.id) rfl htakes.2 (by rw [hadvance]; rfl)
      obtain ⟨_, _, _, _, hann'⟩ := id hnew
      have hpair : pairOf call.chunk.id =
          (((receiver.step (receiver.final ctx calls) call).1.buffer v).addressFrom,
            ((receiver.step (receiver.final ctx calls) call).1.buffer v).addressTo) :=
        Prod.ext (hann'.addressFrom.symm.trans (congrArg Reassembly.addressFrom hr.symm))
          (hann'.addressTo.symm.trans (congrArg Reassembly.addressTo hr.symm))
      rw [← hpair, heard_singleton rfl, if_pos htakes.1, hr]
      exact hnew

/-- **Every slot in use goes back to an accepted header.** -/
theorem receiver_announced {ctx : Ctx} (h : ctx.Initial) (calls : List Call) (i : ℕ)
    (hi : i < (receiver.final ctx calls).rx.length)
    (huse : ((receiver.final ctx calls).buffer i).inUse = true) :
    (receiver.final ctx calls).AnnouncedAt ctx.setup calls i := by
  by_cases hv : (receiver.final ctx calls).rxView = some i
  · exact receiver_view_announced h calls i hv
  · obtain ⟨hinv, -, hann⟩ := receiver_heard h calls
    obtain ⟨canId, hsig, hpair⟩ := (hinv.live i hi huse).exists_canId
    have hprog := (Ctx.inProgress_eq_some hinv).mpr ⟨i, ⟨hi, huse, hsig.symm, hv⟩, rfl⟩
    have hslot := hann canId _ hprog
    rw [hpair] at hslot
    exact hslot

/-! ### The table -/

/-- A slot in use, with its memory: the slot's own part of the application's memory, or
a block of the heap, and none for an empty message. -/
structure Ctx.Occupied (ctx : Ctx) (i : ℕ) : Prop where
  messageId : (ctx.buffer i).messageId ≠ 0
  addressFrom : 1 ≤ (ctx.buffer i).addressFrom.toNat ∧ (ctx.buffer i).addressFrom.toNat ≤ 0xFFF
  addressTo : 1 ≤ (ctx.buffer i).addressTo.toNat ∧ (ctx.buffer i).addressTo.toNat ≤ 0xFFF
  signature : (ctx.buffer i).channelSignature.toNat =
    (ctx.buffer i).addressTo.toNat + 4096 * (ctx.buffer i).addressFrom.toNat
  size : (ctx.buffer i).payloadSize ≤ (ctx.buffer i).expectedLength
  limit : ctx.maxPayload ≠ 0 ∨ ctx.rxStatic = true →
    (ctx.buffer i).expectedLength ≤ ctx.maxPayload
  null : (ctx.buffer i).payload = .null ↔ (ctx.buffer i).expectedLength = 0
  heap : ∀ block, (ctx.buffer i).payload = .heap block →
    ctx.rxStatic = false ∧ (ctx.buffer i).expectedLength.toNat ≤ block.length
  app : ∀ offset, (ctx.buffer i).payload = .app offset →
    ctx.rxStatic = true ∧ offset = i * ctx.maxPayload.toNat ∧
      (ctx.buffer i).expectedLength ≤ ctx.maxPayload ∧
      (i + 1) * ctx.maxPayload.toNat ≤ ctx.rxPayload.length

theorem Ctx.Live.occupied {ctx : Ctx} {i : ℕ} (h : ctx.Live i) (hmem : ctx.MemoryOk)
    (hi : i < ctx.rx.length) : ctx.Occupied i := by
  have hholds := h.holds
  unfold Ctx.Holds at hholds
  have hsig := h.signature
  have hzero : (ctx.buffer i).expectedLength.toNat = 0 ↔ (ctx.buffer i).expectedLength = 0 := by
    rw [← UInt16.toNat_inj]
    rfl
  refine ⟨h.messageId, (addressValid_iff _).mp h.addressFrom, (addressValid_iff _).mp h.addressTo,
    by omega, UInt16.le_iff_toNat_le.mpr h.size, h.limit, ?_, fun block hb => ?_,
    fun offset ha => ?_⟩
  · split_ifs at hholds with h0 hs
    · exact iff_of_true hholds (hzero.mp h0)
    · exact iff_of_false (by rw [hholds.1]; simp) fun he => h0 (hzero.mpr he)
    · obtain ⟨block, hb, -⟩ := hholds
      exact iff_of_false (by rw [hb]; simp) fun he => h0 (hzero.mpr he)
  · split_ifs at hholds with h0 hs
    · rw [hb] at hholds; exact absurd hholds (by simp)
    · rw [hb] at hholds; exact absurd hholds.1 (by simp)
    · obtain ⟨block', hb', hlen⟩ := hholds
      obtain rfl := Payload.heap.inj (hb.symm.trans hb')
      exact ⟨eq_false_of_ne_true hs, Nat.le_of_eq hlen.symm⟩
  · split_ifs at hholds with h0 hs
    · rw [ha] at hholds; exact absurd hholds (by simp)
    · obtain ⟨hp, hle⟩ := hholds
      exact ⟨hs, Payload.app.inj (ha.symm.trans hp), UInt16.le_iff_toNat_le.mpr hle,
        hmem.region hs hi⟩
    · obtain ⟨block, hb, -⟩ := hholds
      rw [ha] at hb; exact absurd hb (by simp)

/-- **The table of reassemblies**, after any calls to a context that was set up: no two
slots in use are of one pair; a slot in use holds what its pair announced with an
accepted header and sent since then, in memory of its own; a slot not in use holds
nothing; a view is complete and its checksum is right.  So every copy a call makes stays
inside the memory of its slot, and what was taken from the heap and not given back is in
the table. -/
theorem reassembly_table {ctx : Ctx} (h : ctx.Initial) (calls : List Call) :
    (∀ i j, i < (receiver.final ctx calls).rx.length → j < (receiver.final ctx calls).rx.length →
      ((receiver.final ctx calls).buffer i).inUse = true →
      ((receiver.final ctx calls).buffer j).inUse = true →
      ((receiver.final ctx calls).buffer i).channelSignature =
        ((receiver.final ctx calls).buffer j).channelSignature → i = j) ∧
    (∀ i, i < (receiver.final ctx calls).rx.length →
      if ((receiver.final ctx calls).buffer i).inUse = true then
        (receiver.final ctx calls).Occupied i ∧
          (receiver.final ctx calls).AnnouncedAt ctx.setup calls i
      else ((receiver.final ctx calls).buffer i).payload = .null) ∧
    (∀ v, (receiver.final ctx calls).rxView = some v →
      v < (receiver.final ctx calls).rx.length ∧
      ((receiver.final ctx calls).buffer v).inUse = true ∧
      ((receiver.final ctx calls).buffer v).payloadSize =
        ((receiver.final ctx calls).buffer v).expectedLength ∧
      crc16 ((receiver.final ctx calls).payloadRead v
          ((receiver.final ctx calls).buffer v).expectedLength.toNat)
        ((receiver.final ctx calls).buffer v).expectedLength.toNat =
          ((receiver.final ctx calls).buffer v).expectedCrc) ∧
    (∀ call, ∀ copy ∈ (receiver.step (receiver.final ctx calls) call).2.copies, copy.Inside) ∧
    (receiver.final ctx calls).Balanced := by
  obtain ⟨hinv, hbalanced⟩ := receiver_balanced h calls
  refine ⟨hinv.unique, fun i hi => ?_, hinv.view, fun call => receiver_step_copies hinv,
    hbalanced⟩
  split
  case isTrue huse =>
    exact ⟨(hinv.live i hi huse).occupied hinv.memory hi, receiver_announced h calls i hi huse⟩
  case isFalse hidle => exact hinv.idle i hi (eq_false_of_ne_true hidle)

/-- A header of which the data is still to come. -/
theorem reassembly_table_monitor :
    (receiver.final Ctx.monitor [smallCall 5 6]).Occupied 0 ∧
      (receiver.final Ctx.monitor [smallCall 5 6]).heldBlocks = 1 := by
  have htable := (reassembly_table Ctx.monitor_initial [smallCall 5 6]).2.1 0 (by decide)
  rw [if_pos (by decide)] at htable
  exact ⟨htable.1, by decide⟩

/-! ### The end of a context -/

/-- One round of the loop of `deinit`. -/
def releaseSlot (ctx : Ctx) (i : ℕ) : Ctx :=
  if (ctx.buffer i).inUse then rxRelease ctx i else ctx

/-- The loop of `uni_can_protoplexer_deinit`.  After it the block of the table is given back,
if it was taken, which is not counted here, and the context zeroed. -/
def deinit (ctx : Ctx) : Ctx := (List.range ctx.maxChannels.toNat).foldl releaseSlot ctx

section Deinit

variable {ctx : Ctx} {i : ℕ}

theorem releaseSlot_same : SameBut i ctx (releaseSlot ctx i) := by
  unfold releaseSlot
  split_ifs
  · exact rxRelease_same
  · exact SameBut.refl i ctx

theorem Ctx.Balanced.releaseSlot (h : ctx.Balanced) (hi : i < ctx.rx.length) :
    (releaseSlot ctx i).Balanced := by
  unfold Protoplexer.releaseSlot
  split_ifs
  · exact h.release hi
  · exact h

/-- A slot that was released holds nothing. -/
theorem releaseSlot_payload (hi : i < ctx.rx.length)
    (hidle : (ctx.buffer i).inUse = false → (ctx.buffer i).payload = .null) :
    ((releaseSlot ctx i).buffer i).payload = .null := by
  unfold releaseSlot
  split_ifs with huse
  · rw [rxRelease_buffer hi]
    rfl
  · exact hidle (eq_false_of_ne_true huse)

theorem heapAllocs_releaseSlot : (releaseSlot ctx i).heapAllocs = ctx.heapAllocs := by
  unfold releaseSlot
  split_ifs <;> rfl

/-- **The slots so far hold nothing**, those that follow are as they were. -/
theorem foldl_releaseSlot (h : ctx.Balanced) (hidle : ∀ i, i < ctx.rx.length →
      (ctx.buffer i).inUse = false → (ctx.buffer i).payload = .null)
    (n : ℕ) (hn : n ≤ ctx.rx.length) (ctx' : Ctx)
    (hctx' : ctx' = (List.range n).foldl releaseSlot ctx) :
    ctx'.Balanced ∧ ctx'.rx.length = ctx.rx.length ∧ ctx'.heapAllocs = ctx.heapAllocs ∧
      (∀ i, i < n → (ctx'.buffer i).payload = .null) ∧
      ∀ i, n ≤ i → ctx'.buffer i = ctx.buffer i := by
  induction n generalizing ctx' with
  | zero =>
    subst hctx'
    exact ⟨h, rfl, rfl, fun i hi => absurd hi (Nat.not_lt_zero i), fun _ _ => rfl⟩
  | succ n ih =>
    obtain ⟨hbalanced, hlen, hallocs, hnull, hrest⟩ := ih (by omega) _ rfl
    rw [List.range_succ, List.foldl_append, List.foldl_cons, List.foldl_nil] at hctx'
    rw [hctx']
    set ctx₁ := (List.range n).foldl releaseSlot ctx with hctx₁
    have hlt : n < ctx₁.rx.length := by omega
    have hsame : SameBut n ctx₁ (releaseSlot ctx₁ n) := releaseSlot_same
    refine ⟨hbalanced.releaseSlot hlt, hsame.length_rx.trans hlen,
      heapAllocs_releaseSlot.trans hallocs, fun i hi => ?_, fun i hi => ?_⟩
    · by_cases heq : i = n
      · rw [heq]
        refine releaseSlot_payload hlt ?_
        rw [hrest n (Nat.le_refl n)]
        exact hidle n (by omega)
      · rw [hsame.buffer i heq]
        exact hnull i (by omega)
    · rw [hsame.buffer i (by omega)]
      exact hrest i (by omega)

end Deinit

/-- **A context leaves no data behind**: after any calls to a context that was set up, however
they end, `deinit` gives back what is still held, so that every block that was taken from the
heap for the data of a message has been given back once, and takes none itself. -/
theorem context_leaves_nothing {ctx : Ctx} (h : ctx.Initial) (calls : List Call) :
    (deinit (receiver.final ctx calls)).heapFrees = (receiver.final ctx calls).heapAllocs ∧
      (deinit (receiver.final ctx calls)).heapAllocs = (receiver.final ctx calls).heapAllocs ∧
      ∀ b ∈ (deinit (receiver.final ctx calls)).rx, b.payload = .null := by
  obtain ⟨hinv, hbalanced⟩ := receiver_balanced h calls
  obtain ⟨hend, hlen, hallocs, hnull, -⟩ := foldl_releaseSlot hbalanced hinv.idle
    (receiver.final ctx calls).maxChannels.toNat (Nat.le_of_eq hinv.length_rx.symm) _ rfl
  have hall : ∀ b ∈ (deinit (receiver.final ctx calls)).rx, b.payload = .null := by
    intro b hb
    obtain ⟨i, hi, rfl⟩ := List.getElem_of_mem hb
    rw [Ctx.getElem_rx hi]
    refine hnull i ?_
    rw [← hinv.length_rx, ← hlen]
    exact hi
  have hheld : (deinit (receiver.final ctx calls)).heldBlocks = 0 := by
    rw [Ctx.heldBlocks, tally_eq_zero_iff]
    intro b hb
    rw [RxBuffer.blocks, hall b hb]
  refine ⟨?_, hallocs, hall⟩
  have htotal := hend.allocs
  change (deinit (receiver.final ctx calls)).heapAllocs =
    (deinit (receiver.final ctx calls)).heapFrees +
      (deinit (receiver.final ctx calls)).heldBlocks at htotal
  rw [hheld, Nat.add_zero] at htotal
  exact htotal.symm.trans hallocs

/-- The block of a message that never came to its end. -/
theorem context_leaves_nothing_monitor :
    (receiver.final Ctx.monitor [smallCall 5 6]).heldBlocks = 1 ∧
      (deinit (receiver.final Ctx.monitor [smallCall 5 6])).heapFrees = 1 :=
  ⟨by decide, (context_leaves_nothing Ctx.monitor_initial [smallCall 5 6]).1⟩

end Protoplexer
end UniCan
