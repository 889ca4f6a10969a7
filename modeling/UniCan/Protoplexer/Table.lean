import UniCan.Protoplexer.Pair

/-!
# The table of reassemblies

Every operation of the receiver works on one slot of the table.  This file says
what a slot holds, what an operation on it leaves alone, and what adding a chunk
to it does, in the terms of the pair the slot belongs to.

## Main definitions

* `Ctx.Holds`, `Ctx.Live` — the memory of a slot, and a slot with an accepted
  header.
* `Ctx.reassembly` — what a slot holds for its pair.
* `SameBut` — two contexts that differ in one slot only.
* `Ctx.Became` — a slot after a chunk.

## Main results

* `payloadWrite_spec` — a copy into a slot extends its data and touches no other.
* `rxFirstChunk_spec`, `rxDataChunk_spec` — **adding a chunk to a slot is a step
  of its pair.**
-/

namespace UniCan
namespace Protoplexer

/-! ### Slots -/

/-- A slot that was released. -/
def releasedBuffer : RxBuffer := { priorityInverted := priorityMinimal }

namespace Ctx

variable {ctx : Ctx} {i j : ℕ} {b : RxBuffer}

@[simp] theorem buffer_setBuffer_self (hi : i < ctx.rx.length) :
    (ctx.setBuffer i b).buffer i = b := by
  simp [buffer, setBuffer, hi]

@[simp] theorem buffer_setBuffer_of_ne (h : j ≠ i) :
    (ctx.setBuffer i b).buffer j = ctx.buffer j := by
  simp [buffer, setBuffer, List.getElem?_set_ne (Ne.symm h)]

@[simp] theorem length_rx_setBuffer : (ctx.setBuffer i b).rx.length = ctx.rx.length := by
  simp [setBuffer]

@[simp] theorem rxStatic_setBuffer : (ctx.setBuffer i b).rxStatic = ctx.rxStatic := rfl

@[simp] theorem maxPayload_setBuffer : (ctx.setBuffer i b).maxPayload = ctx.maxPayload := rfl

@[simp] theorem rxPayload_setBuffer : (ctx.setBuffer i b).rxPayload = ctx.rxPayload := rfl

@[simp] theorem setup_setBuffer : (ctx.setBuffer i b).setup = ctx.setup := rfl

@[simp] theorem rxView_setBuffer : (ctx.setBuffer i b).rxView = ctx.rxView := rfl

/-- The memory of slot `i` holds `cap` bytes: there is none for an empty message,
else it is a block of the heap of this size, or the slot's part of the memory of
the application. -/
def Holds (ctx : Ctx) (i cap : ℕ) : Prop :=
  if cap = 0 then (ctx.buffer i).payload = .null
  else if ctx.rxStatic then
    (ctx.buffer i).payload = .app (i * ctx.maxPayload.toNat) ∧ cap ≤ ctx.maxPayload.toNat
  else ∃ block, (ctx.buffer i).payload = .heap block ∧ block.length = cap

/-- The memory of the application has a part for every slot. -/
def MemoryOk (ctx : Ctx) : Prop :=
  ctx.rxStatic = true → ctx.rx.length * ctx.maxPayload.toNat ≤ ctx.rxPayload.length

/-- A slot with an accepted header. -/
structure Live (ctx : Ctx) (i : ℕ) : Prop where
  messageId : (ctx.buffer i).messageId ≠ errorId
  addressFrom : addressValid (ctx.buffer i).addressFrom = true
  addressTo : addressValid (ctx.buffer i).addressTo = true
  signature : (ctx.buffer i).channelSignature.toNat =
    (ctx.buffer i).addressTo.toNat + (ctx.buffer i).addressFrom.toNat * 4096
  size : (ctx.buffer i).payloadSize.toNat ≤ (ctx.buffer i).expectedLength.toNat
  limit : ctx.setup.Limited → (ctx.buffer i).expectedLength ≤ ctx.maxPayload
  holds : ctx.Holds i (ctx.buffer i).expectedLength.toNat

/-- What slot `i` holds for its pair. -/
def reassembly (ctx : Ctx) (i : ℕ) : Reassembly where
  messageId := (ctx.buffer i).messageId
  addressFrom := (ctx.buffer i).addressFrom
  addressTo := (ctx.buffer i).addressTo
  priorityInverted := (ctx.buffer i).priorityInverted
  expectedLength := (ctx.buffer i).expectedLength
  expectedCrc := (ctx.buffer i).expectedCrc
  data := ctx.payloadRead i (ctx.buffer i).payloadSize.toNat

/-- A new record of a slot that keeps its memory keeps what the memory holds. -/
theorem payloadRead_setBuffer (hi : i < ctx.rx.length) (hp : b.payload = (ctx.buffer i).payload)
    (len : ℕ) : (ctx.setBuffer i b).payloadRead i len = ctx.payloadRead i len := by
  unfold payloadRead
  rw [buffer_setBuffer_self hi, hp]
  rfl

theorem Holds.setBuffer {cap : ℕ} (h : ctx.Holds i cap) (hi : i < ctx.rx.length)
    (hp : b.payload = (ctx.buffer i).payload) : (ctx.setBuffer i b).Holds i cap := by
  unfold Holds at h ⊢
  rw [buffer_setBuffer_self hi, hp]
  exact h

@[simp] theorem payloadRead_zero : ctx.payloadRead i 0 = [] := by
  unfold payloadRead
  split <;> simp

/-- The part of the application's memory that belongs to a slot lies inside it. -/
theorem MemoryOk.region (h : ctx.MemoryOk) (hs : ctx.rxStatic = true) (hi : i < ctx.rx.length) :
    (i + 1) * ctx.maxPayload.toNat ≤ ctx.rxPayload.length :=
  le_trans (Nat.mul_le_mul_right _ hi) (h hs)

/-- A copy within the bytes a slot has memory for stays inside its memory. -/
theorem Holds.copy_inside {cap off len : ℕ} (h : ctx.Holds i cap) (hlen : off + len ≤ cap) :
    (ctx.payloadCopy i off len).Inside := by
  unfold Holds at h
  unfold payloadCopy Copy.Inside
  split_ifs at h with h0 hs
  · rw [h]
    simp only
    omega
  · rw [h.1]
    exact le_trans hlen h.2
  · obtain ⟨block, hb, hbl⟩ := h
    rw [hb]
    simp only
    omega

theorem length_payloadRead {cap len : ℕ} (hmem : ctx.MemoryOk) (hi : i < ctx.rx.length)
    (h : ctx.Holds i cap) (hlen : len ≤ cap) : (ctx.payloadRead i len).length = len := by
  unfold Holds at h
  unfold payloadRead
  split_ifs at h with h0 hs
  · rw [h]
    simp only [List.length_nil]
    omega
  · rw [h.1]
    have hregion := hmem.region hs hi
    rw [Nat.succ_mul] at hregion
    exact length_readAt (by omega)
  · obtain ⟨block, hb, hbl⟩ := h
    rw [hb]
    exact length_readAt (by omega)

end Ctx

/-! ### What an operation on one slot leaves alone -/

/-- `ctx'` is `ctx` but for slot `i`, and for the part of the application's memory
that belongs to it. -/
structure SameBut (i : ℕ) (ctx ctx' : Ctx) : Prop where
  setup : ctx'.setup = ctx.setup
  maxChannels : ctx'.maxChannels = ctx.maxChannels
  length_rx : ctx'.rx.length = ctx.rx.length
  length_mem : ctx'.rxPayload.length = ctx.rxPayload.length
  view : ctx'.rxView = ctx.rxView
  buffer : ∀ j, j ≠ i → ctx'.buffer j = ctx.buffer j
  mem : ∀ k, k < i * ctx.maxPayload.toNat ∨ (i + 1) * ctx.maxPayload.toNat ≤ k →
    ctx'.rxPayload[k]? = ctx.rxPayload[k]?

namespace SameBut

variable {i j : ℕ} {ctx ctx' ctx'' : Ctx}

theorem refl (i : ℕ) (ctx : Ctx) : SameBut i ctx ctx where
  setup := rfl
  maxChannels := rfl
  length_rx := rfl
  length_mem := rfl
  view := rfl
  buffer _ _ := rfl
  mem _ _ := rfl

theorem maxPayload (h : SameBut i ctx ctx') : ctx'.maxPayload = ctx.maxPayload :=
  congrArg Setup.maxPayload h.setup

theorem rxStatic (h : SameBut i ctx ctx') : ctx'.rxStatic = ctx.rxStatic :=
  congrArg Setup.rxStatic h.setup

theorem trans (h : SameBut i ctx ctx') (h' : SameBut i ctx' ctx'') : SameBut i ctx ctx'' where
  setup := h'.setup.trans h.setup
  maxChannels := h'.maxChannels.trans h.maxChannels
  length_rx := h'.length_rx.trans h.length_rx
  length_mem := h'.length_mem.trans h.length_mem
  view := h'.view.trans h.view
  buffer j hj := (h'.buffer j hj).trans (h.buffer j hj)
  mem k hk := (h'.mem k (by rw [h.maxPayload]; exact hk)).trans (h.mem k hk)

theorem memoryOk (h : SameBut i ctx ctx') (hmem : ctx.MemoryOk) : ctx'.MemoryOk := by
  intro hs
  rw [h.length_rx, h.maxPayload, h.length_mem]
  exact hmem (h.rxStatic ▸ hs)

theorem setBuffer (i : ℕ) (ctx : Ctx) (b : RxBuffer) : SameBut i ctx (ctx.setBuffer i b) where
  setup := rfl
  maxChannels := rfl
  length_rx := Ctx.length_rx_setBuffer
  length_mem := rfl
  view := rfl
  buffer _ hj := Ctx.buffer_setBuffer_of_ne hj
  mem _ _ := rfl

theorem holds (h : SameBut i ctx ctx') (hj : j ≠ i) {cap : ℕ} (hc : ctx.Holds j cap) :
    ctx'.Holds j cap := by
  unfold Ctx.Holds at hc ⊢
  rw [h.buffer j hj, h.maxPayload, h.rxStatic]
  exact hc

/-- The data of another slot is not touched. -/
theorem payloadRead (h : SameBut i ctx ctx') (hj : j ≠ i) {cap len : ℕ} (hc : ctx.Holds j cap)
    (hlen : len ≤ cap) : ctx'.payloadRead j len = ctx.payloadRead j len := by
  unfold Ctx.payloadRead
  rw [h.buffer j hj]
  unfold Ctx.Holds at hc
  split_ifs at hc with h0 hs
  · rw [hc]
  · rw [hc.1]
    exact readAt_slot_congr hj (hlen.trans hc.2) h.mem
  · obtain ⟨block, hb, -⟩ := hc
    rw [hb]

theorem live (h : SameBut i ctx ctx') (hj : j ≠ i) (hl : ctx.Live j) : ctx'.Live j where
  messageId := by rw [h.buffer j hj]; exact hl.messageId
  addressFrom := by rw [h.buffer j hj]; exact hl.addressFrom
  addressTo := by rw [h.buffer j hj]; exact hl.addressTo
  signature := by rw [h.buffer j hj]; exact hl.signature
  size := by rw [h.buffer j hj]; exact hl.size
  limit := by rw [h.buffer j hj, h.setup, h.maxPayload]; exact hl.limit
  holds := by rw [h.buffer j hj]; exact h.holds hj hl.holds

/-- What another slot holds for its pair stays. -/
theorem reassembly (h : SameBut i ctx ctx') (hj : j ≠ i) (hl : ctx.Live j) :
    ctx'.reassembly j = ctx.reassembly j := by
  unfold Ctx.reassembly
  rw [h.buffer j hj, h.payloadRead hj hl.holds hl.size]

end SameBut

/-! ### The operations -/

section Operations

variable {ctx : Ctx} {i : ℕ}

theorem rxPayloadFree_same : SameBut i ctx (rxPayloadFree ctx i) where
  setup := rfl
  maxChannels := rfl
  length_rx := Ctx.length_rx_setBuffer
  length_mem := rfl
  view := rfl
  buffer _ hj := Ctx.buffer_setBuffer_of_ne hj
  mem _ _ := rfl

theorem rxPayloadFree_buffer (hi : i < ctx.rx.length) :
    (rxPayloadFree ctx i).buffer i = { ctx.buffer i with payload := .null, payloadSize := 0 } :=
  Ctx.buffer_setBuffer_self hi

theorem rxReset_same : SameBut i ctx (rxReset ctx i) :=
  rxPayloadFree_same.trans (SameBut.setBuffer i _ _)

theorem rxReset_buffer (hi : i < ctx.rx.length) :
    (rxReset ctx i).buffer i =
      { releasedBuffer with
        inUse := (ctx.buffer i).inUse
        channelSignature := (ctx.buffer i).channelSignature } := by
  unfold rxReset
  simp only
  rw [Ctx.buffer_setBuffer_self (by rw [rxPayloadFree_same.length_rx]; exact hi),
    rxPayloadFree_buffer hi]
  rfl

theorem rxRelease_same : SameBut i ctx (rxRelease ctx i) :=
  rxReset_same.trans (SameBut.setBuffer i _ _)

@[simp] theorem rxRelease_buffer (hi : i < ctx.rx.length) :
    (rxRelease ctx i).buffer i = releasedBuffer := by
  unfold rxRelease
  simp only
  rw [Ctx.buffer_setBuffer_self (by rw [rxReset_same.length_rx]; exact hi), rxReset_buffer hi]
  rfl

/-- **A copy into a slot extends its data and touches no other slot.** -/
theorem payloadWrite_spec {cap : ℕ} (off : ℕ) (bytes : List UInt8) (hi : i < ctx.rx.length)
    (hmem : ctx.MemoryOk) (h : ctx.Holds i cap) (hlen : off + bytes.length ≤ cap) :
    SameBut i ctx (ctx.payloadWrite i off bytes) ∧
      (∃ p, (ctx.payloadWrite i off bytes).buffer i = { ctx.buffer i with payload := p }) ∧
      (ctx.payloadWrite i off bytes).Holds i cap ∧
      (ctx.payloadWrite i off bytes).payloadRead i (off + bytes.length) =
        ctx.payloadRead i off ++ bytes := by
  unfold Ctx.Holds at h
  split_ifs at h with h0 hs
  · -- an empty message: nothing to write
    have hnil : bytes = [] := List.eq_nil_of_length_eq_zero (by omega)
    have hw : ctx.payloadWrite i off bytes = ctx := by simp [Ctx.payloadWrite, h]
    rw [hw]
    refine ⟨SameBut.refl i ctx, ⟨_, rfl⟩, by rw [Ctx.Holds, if_pos h0]; exact h, ?_⟩
    simp [Ctx.payloadRead, h, hnil]
  · -- the memory of the application: the slot's own part is written
    obtain ⟨hp, hcap⟩ := h
    have hregion := hmem.region hs hi
    rw [Nat.succ_mul] at hregion
    have hin : i * ctx.maxPayload.toNat + off + bytes.length ≤ ctx.rxPayload.length := by omega
    have hw : ctx.payloadWrite i off bytes =
        { ctx with rxPayload := writeAt ctx.rxPayload (i * ctx.maxPayload.toNat + off) bytes } := by
      simp [Ctx.payloadWrite, hp]
    rw [hw]
    refine ⟨⟨rfl, rfl, rfl, length_writeAt hin, rfl, fun _ _ => rfl, ?_⟩, ⟨_, rfl⟩, ?_, ?_⟩
    · intro k hk
      rw [Nat.succ_mul] at hk
      rw [getElem?_writeAt hin]
      split_ifs <;> first | rfl | omega
    · rw [Ctx.Holds, if_neg h0, if_pos hs]
      exact ⟨hp, hcap⟩
    · have hread : ∀ c : Ctx, (c.buffer i).payload = .app (i * ctx.maxPayload.toNat) →
          ∀ n, c.payloadRead i n = readAt c.rxPayload (i * ctx.maxPayload.toNat) n := by
        intro c hc n
        simp only [Ctx.payloadRead, hc]
      have hnew := hread { ctx with
        rxPayload := writeAt ctx.rxPayload (i * ctx.maxPayload.toNat + off) bytes } hp
      rw [hread ctx hp, hnew]
      exact readAt_writeAt_append hin
  · -- a block of the heap
    obtain ⟨block, hp, hbl⟩ := h
    have hw : ctx.payloadWrite i off bytes = ctx.setBuffer i
        { ctx.buffer i with payload := .heap (writeAt block off bytes) } := by
      simp [Ctx.payloadWrite, hp]
    have hb : (ctx.payloadWrite i off bytes).buffer i =
        { ctx.buffer i with payload := .heap (writeAt block off bytes) } := by
      rw [hw]; exact Ctx.buffer_setBuffer_self hi
    refine ⟨by rw [hw]; exact SameBut.setBuffer i _ _, ⟨_, hb⟩, ?_, ?_⟩
    · rw [Ctx.Holds, if_neg h0, if_neg (by rw [hw]; exact hs), hb]
      exact ⟨_, rfl, by rw [length_writeAt (by omega), hbl]⟩
    · have hnew : (ctx.payloadWrite i off bytes).payloadRead i (off + bytes.length) =
          readAt (writeAt block off bytes) 0 (off + bytes.length) := by
        simp only [Ctx.payloadRead, hb]
      have hold : ctx.payloadRead i off = readAt block 0 off := by
        simp only [Ctx.payloadRead, hp]
      rw [hnew, hold]
      have hin : 0 + off + bytes.length ≤ block.length := by omega
      simpa using readAt_writeAt_append hin

/-- A copy into a slot, and the new length of its data: nothing else of the slot changes. -/
theorem payloadAppend_spec {ctx' : Ctx} {cap off : ℕ} {bytes : List UInt8} {size : UInt16}
    (hi : i < ctx.rx.length) (hmem : ctx.MemoryOk) (h : ctx.Holds i cap)
    (hlen : off + bytes.length ≤ cap)
    (hctx' : ctx' = (ctx.payloadWrite i off bytes).setBuffer i
      { (ctx.payloadWrite i off bytes).buffer i with payloadSize := size }) :
    SameBut i ctx ctx' ∧
      (∃ p, ctx'.buffer i = { ctx.buffer i with payload := p, payloadSize := size }) ∧
      ctx'.Holds i cap ∧
      ctx'.payloadRead i (off + bytes.length) = ctx.payloadRead i off ++ bytes := by
  obtain ⟨hsame, ⟨p, hp⟩, hholds, hread⟩ := payloadWrite_spec off bytes hi hmem h hlen
  rw [← hsame.length_rx] at hi
  subst hctx'
  refine ⟨hsame.trans (SameBut.setBuffer i _ _), ⟨p, ?_⟩, hholds.setBuffer hi rfl, ?_⟩
  · rw [Ctx.buffer_setBuffer_self hi, hp]
  · rw [Ctx.payloadRead_setBuffer hi (by rfl), hread]

/-- Memory for a message: there is some unless the setup refuses its length or the
heap has none. -/
theorem rxPayloadAlloc_spec (alloc : Alloc) (length : UInt16) (hi : i < ctx.rx.length)
    (hnull : (ctx.buffer i).payload = .null) :
    SameBut i ctx (rxPayloadAlloc alloc ctx i length).1 ∧
      (rxPayloadAlloc alloc ctx i length).2 = !ctx.setup.refuses alloc length ∧
      (ctx.setup.refuses alloc length = false →
        (∃ p, (rxPayloadAlloc alloc ctx i length).1.buffer i = { ctx.buffer i with payload := p }) ∧
          (rxPayloadAlloc alloc ctx i length).1.Holds i length.toNat) := by
  unfold rxPayloadAlloc Setup.refuses
  by_cases hlimit : ((ctx.maxPayload != 0 || ctx.rxStatic) && length > ctx.maxPayload) = true
  · have hlimit' : ((ctx.setup.maxPayload != 0 || ctx.setup.rxStatic) &&
        length > ctx.setup.maxPayload) = true := hlimit
    rw [if_pos hlimit, hlimit']
    exact ⟨SameBut.refl i ctx, rfl, fun h => absurd h (by simp)⟩
  have hlimit' : ((ctx.setup.maxPayload != 0 || ctx.setup.rxStatic) &&
      length > ctx.setup.maxPayload) = false := eq_false_of_ne_true hlimit
  rw [if_neg hlimit, hlimit', Bool.false_or]
  by_cases h0 : length = 0
  · subst h0
    refine ⟨SameBut.refl i ctx, rfl, fun _ => ⟨⟨_, rfl⟩, ?_⟩⟩
    rw [Ctx.Holds, if_pos rfl]
    exact hnull
  have hpos : length.toNat ≠ 0 := fun h => h0 (UInt16.toNat_inj.mp h)
  have hne : (length != 0) = true := by simpa using h0
  rw [if_neg h0, hne, Bool.true_and]
  by_cases hs : ctx.rxStatic = true
  · have hs' : ctx.setup.rxStatic = true := hs
    rw [if_pos hs, hs']
    refine ⟨SameBut.setBuffer i _ _, rfl, fun _ => ⟨⟨_, Ctx.buffer_setBuffer_self hi⟩, ?_⟩⟩
    rw [Ctx.Holds, if_neg hpos, if_pos (by exact hs), Ctx.buffer_setBuffer_self hi]
    refine ⟨rfl, ?_⟩
    -- the length is within the limit
    have hle : ¬ length > ctx.maxPayload := fun hgt => hlimit (by simp [hs, hgt])
    rw [gt_iff_lt, UInt16.lt_iff_toNat_lt] at hle
    exact Nat.le_of_not_lt hle
  · have hs' : ctx.setup.rxStatic = false := eq_false_of_ne_true hs
    rw [if_neg hs, hs']
    cases halloc : alloc.rxAlloc with
    | none => exact ⟨SameBut.setBuffer i _ _, rfl, fun h => absurd h (by simp)⟩
    | some fill =>
      have hb : (ctx.setBuffer i { ctx.buffer i with
          payload := .heap ((List.range length.toNat).map fill) }).buffer i =
          { ctx.buffer i with payload := .heap ((List.range length.toNat).map fill) } :=
        Ctx.buffer_setBuffer_self hi
      have hsame := SameBut.setBuffer i ctx { ctx.buffer i with
        payload := .heap ((List.range length.toNat).map fill) }
      refine ⟨⟨hsame.setup, hsame.maxChannels, hsame.length_rx, hsame.length_mem, hsame.view,
        hsame.buffer, hsame.mem⟩, rfl, fun _ => ⟨⟨_, hb⟩, ?_⟩⟩
      rw [Ctx.Holds, if_neg hpos, if_neg (by exact hs)]
      refine ⟨(List.range length.toNat).map fill, ?_, by simp⟩
      exact congrArg RxBuffer.payload hb

end Operations

theorem Setup.le_of_not_refuses {s : Setup} {alloc : Alloc} {length : UInt16}
    (h : s.refuses alloc length = false) (hlim : s.Limited) : length ≤ s.maxPayload := by
  unfold Setup.refuses at h
  rw [Bool.or_eq_false_iff, Bool.and_eq_false_iff] at h
  rcases h.1 with hno | hle
  · -- no limit at all
    simp only [Bool.or_eq_false_iff, bne_eq_false_iff_eq] at hno
    rcases hlim with hmax | hst
    · exact absurd hno.1 hmax
    · rw [hno.2] at hst
      exact absurd hst (by simp)
  · exact UInt16.not_lt.mp (of_decide_eq_false hle)

/-! ### A chunk and the slot of its pair -/

/-- Slot `i` is in use for the pair `sig` and holds the message in progress `r`. -/
structure Ctx.LiveAs (ctx : Ctx) (i : ℕ) (sig : UInt32) (r : Reassembly) : Prop where
  inUse : (ctx.buffer i).inUse = true
  signature : (ctx.buffer i).channelSignature = sig
  live : ctx.Live i
  reassembly : ctx.reassembly i = r

/-- Slot `i` of the pair `sig` after a chunk: what the pair says became of the
message is what the outcome says. -/
def RxOutcome.Became (o : RxOutcome) (i : ℕ) (sig : UInt32) : Pair.Progress → Prop
  | .refused result => o.result = result ∧ o.done = none ∧ o.ctx.buffer i = releasedBuffer
  | .kept r result => o.result = result ∧ o.done = none ∧ o.ctx.LiveAs i sig r
  | .complete r =>
      o.result = .ok ∧ o.done = some i ∧ o.ctx.LiveAs i sig r ∧
        r.data.length = r.expectedLength.toNat ∧
        crc16 r.data r.expectedLength.toNat = r.expectedCrc

/-- Every copy that was made stayed inside the memory it was made in. -/
def RxOutcome.Contained (o : RxOutcome) : Prop := ∀ copy ∈ o.copies, copy.Inside

section Chunks

variable {ctx : Ctx} {i : ℕ} {sig : UInt32}

theorem Ctx.LiveAs.length_data {r : Reassembly} (h : ctx.LiveAs i sig r) (hmem : ctx.MemoryOk)
    (hi : i < ctx.rx.length) : r.data.length = (ctx.buffer i).payloadSize.toNat := by
  rw [← h.reassembly]
  exact Ctx.length_payloadRead hmem hi h.live.holds h.live.size

/-- The last part of adding a chunk, for a slot with a message in progress. -/
theorem rxFinish_became {r : Reassembly} (h : ctx.LiveAs i sig r) (hmem : ctx.MemoryOk)
    (hi : i < ctx.rx.length) (copies : List Copy) :
    (rxFinish ctx i copies).ctx = ctx ∧
      (rxFinish ctx i copies).Became i sig (Pair.finish r) := by
  have hlen := h.length_data hmem hi
  have hexp : r.expectedLength = (ctx.buffer i).expectedLength :=
    (congrArg Reassembly.expectedLength h.reassembly).symm
  have hcrc : r.expectedCrc = (ctx.buffer i).expectedCrc :=
    (congrArg Reassembly.expectedCrc h.reassembly).symm
  have hiff : (ctx.buffer i).payloadSize = (ctx.buffer i).expectedLength ↔
      r.data.length = r.expectedLength.toNat := by
    rw [hlen, hexp, UInt16.toNat_inj]
  unfold rxFinish Pair.finish
  simp only
  by_cases hfull : r.data.length = r.expectedLength.toNat
  · have hdata : ctx.payloadRead i (ctx.buffer i).expectedLength.toNat = r.data := by
      rw [← hiff.mpr hfull, ← h.reassembly]
      rfl
    rw [if_pos (hiff.mpr hfull), if_pos hfull, hdata, ← hexp, ← hcrc]
    by_cases hok : crc16 r.data r.expectedLength.toNat = r.expectedCrc
    · rw [if_neg (not_not.mpr hok), if_neg (not_not.mpr hok)]
      exact ⟨rfl, rfl, rfl, h, hfull, hok⟩
    · rw [if_pos hok, if_pos hok]
      exact ⟨rfl, rfl, rfl, h⟩
  · rw [if_neg (fun he => hfull (hiff.mp he)), if_neg hfull]
    exact ⟨rfl, rfl, rfl, h⟩

theorem rxFinish_contained (h : ctx.Live i) {copies : List Copy}
    (hcopies : ∀ copy ∈ copies, copy.Inside) : (rxFinish ctx i copies).Contained := by
  have hfinal : (ctx.payloadCopy i 0 (ctx.buffer i).expectedLength.toNat).Inside :=
    h.holds.copy_inside (by omega)
  have hall : ∀ copy ∈ copies ++ [ctx.payloadCopy i 0 (ctx.buffer i).expectedLength.toNat],
      copy.Inside := by
    intro copy hcopy
    rcases List.mem_append.mp hcopy with hold | hnew
    · exact hcopies copy hold
    · rw [List.mem_singleton.mp hnew]
      exact hfinal
  unfold rxFinish RxOutcome.Contained
  simp only
  split_ifs <;> assumption

/-- A chunk that is refused, whatever it has done to its slot before: the slot is released. -/
theorem rxRelease_refused {ctx' : Ctx} (hsame : SameBut i ctx ctx') (hi : i < ctx'.rx.length)
    (result : Result) {copies : List Copy} (hcopies : ∀ copy ∈ copies, copy.Inside) :
    SameBut i ctx (rxRelease ctx' i) ∧
      (⟨rxRelease ctx' i, result, none, copies⟩ : RxOutcome).Became i sig (.refused result) ∧
      (⟨rxRelease ctx' i, result, none, copies⟩ : RxOutcome).Contained :=
  ⟨hsame.trans rxRelease_same, ⟨rfl, rfl, rxRelease_buffer hi⟩, hcopies⟩

/-- A chunk that is not the first, for a slot that was just taken. -/
theorem rxDataChunk_fresh (sig : UInt32) (chunk : CanMessage) (hi : i < ctx.rx.length)
    (hid : (ctx.buffer i).messageId = errorId) :
    SameBut i ctx (rxDataChunk ctx i chunk).ctx ∧
      (rxDataChunk ctx i chunk).Became i sig (Pair.next none chunk) ∧
      (rxDataChunk ctx i chunk).Contained := by
  unfold rxDataChunk
  simp only [hid, if_true]
  exact rxRelease_refused (SameBut.refl i ctx) hi _ (List.forall_mem_nil _)

theorem CanMessage.bytes_eq_readAt (chunk : CanMessage) :
    chunk.bytes = readAt chunk.data.toList 0 chunk.len.toNat := rfl

/-- **A chunk that is not the first is a step of the pair.** -/
theorem rxDataChunk_live (chunk : CanMessage) {r : Reassembly} (h : ctx.LiveAs i sig r)
    (hmem : ctx.MemoryOk) (hi : i < ctx.rx.length) (hlen : chunk.len.toNat ≤ maxLen) :
    SameBut i ctx (rxDataChunk ctx i chunk).ctx ∧
      (rxDataChunk ctx i chunk).Became i sig (Pair.next (some r) chunk) ∧
      (rxDataChunk ctx i chunk).Contained := by
  have hdata := h.length_data hmem hi
  have hexp : r.expectedLength = (ctx.buffer i).expectedLength :=
    (congrArg Reassembly.expectedLength h.reassembly).symm
  unfold rxDataChunk Pair.next
  simp only [h.live.messageId, if_false]
  rw [← hexp, ← hdata]
  by_cases hover : r.data.length + chunk.len.toNat > r.expectedLength.toNat
  · rw [if_pos hover, if_pos hover]
    exact rxRelease_refused (SameBut.refl i ctx) hi _ (List.forall_mem_nil _)
  rw [if_neg hover, if_neg hover]
  by_cases hpos : chunk.len > 0
  · -- the bytes are copied behind the data that is there
    have hbytes : (readAt chunk.data.toList 0 chunk.len.toNat).length = chunk.len.toNat :=
      CanMessage.length_bytes hlen
    set ctx₂ := (ctx.payloadWrite i r.data.length
        (readAt chunk.data.toList 0 chunk.len.toNat)).setBuffer i
      { (ctx.payloadWrite i r.data.length
          (readAt chunk.data.toList 0 chunk.len.toNat)).buffer i with
        payloadSize := UInt16.ofNat (r.data.length + chunk.len.toNat) } with hctx₂
    obtain ⟨hsame₂, ⟨p, hb₂⟩, hholds₂, hread₂⟩ := payloadAppend_spec hi hmem h.live.holds
      (by rw [hbytes, ← hexp]; omega) hctx₂
    rw [if_pos hpos]
    have hsize : (UInt16.ofNat (r.data.length + chunk.len.toNat)).toNat =
        r.data.length + chunk.len.toNat :=
      UInt16.toNat_ofNat_of_lt' (Nat.lt_of_le_of_lt (Nat.le_of_not_lt hover)
        r.expectedLength.toNat_lt)
    have hwas : ctx.payloadRead i r.data.length = r.data := by
      rw [hdata, ← h.reassembly]
      rfl
    rw [hbytes, hwas, ← CanMessage.bytes_eq_readAt] at hread₂
    have hlive₂ : ctx₂.LiveAs i sig { r with data := r.data ++ chunk.bytes } := by
      refine ⟨by rw [hb₂]; exact h.inUse, by rw [hb₂]; exact h.signature,
        ⟨by rw [hb₂]; exact h.live.messageId, by rw [hb₂]; exact h.live.addressFrom,
          by rw [hb₂]; exact h.live.addressTo, by rw [hb₂]; exact h.live.signature, ?_,
          by rw [hb₂, hsame₂.setup, hsame₂.maxPayload]; exact h.live.limit,
          by rw [hb₂]; exact hholds₂⟩, ?_⟩
      · rw [hb₂]
        simp only
        rw [hsize, ← hexp]
        omega
      · unfold Ctx.reassembly
        rw [hb₂]
        simp only
        rw [hsize, hread₂, ← h.reassembly]
        rfl
    obtain ⟨hctx, hbecame⟩ := rxFinish_became hlive₂ (hsame₂.memoryOk hmem)
      (by rw [hsame₂.length_rx]; exact hi)
      [ctx.payloadCopy i r.data.length chunk.len.toNat]
    have hcopy : (ctx.payloadCopy i r.data.length chunk.len.toNat).Inside :=
      h.live.holds.copy_inside (by rw [← hexp]; omega)
    exact ⟨by rw [hctx]; exact hsame₂, hbecame,
      rxFinish_contained hlive₂.live (List.forall_mem_singleton.mpr hcopy)⟩
  · -- an empty chunk
    have hzero : chunk.len.toNat = 0 := by
      rw [gt_iff_lt, UInt16.lt_iff_toNat_lt] at hpos
      exact Nat.eq_zero_of_not_pos hpos
    have hnil : chunk.bytes = [] := by rw [CanMessage.bytes, hzero, List.take_zero]
    rw [if_neg hpos, hnil, List.append_nil]
    obtain ⟨hctx, hbecame⟩ := rxFinish_became h hmem hi []
    exact ⟨by rw [hctx]; exact SameBut.refl i ctx, hbecame, rxFinish_contained h.live (by simp)⟩

/-- The bytes behind the header, if there are any, become the data of the slot. -/
theorem rxFirstChunk_store {ctx' : Ctx} {cap n : ℕ} {chunk : CanMessage} (hi : i < ctx.rx.length)
    (hmem : ctx.MemoryOk) (h : ctx.Holds i cap) (hempty : (ctx.buffer i).payloadSize = 0)
    (hlen : chunk.len.toNat ≤ maxLen) (hn : n = chunk.len.toNat - headerSize) (hcap : n ≤ cap)
    (hctx' : ctx' = if n > 0 then
        ((ctx.payloadWrite i 0 (readAt chunk.data.toList headerSize n)).setBuffer i
          { (ctx.payloadWrite i 0 (readAt chunk.data.toList headerSize n)).buffer i with
            payloadSize := UInt16.ofNat n })
      else ctx) :
    SameBut i ctx ctx' ∧
      (∃ p, ctx'.buffer i =
        { ctx.buffer i with payload := p, payloadSize := UInt16.ofNat n }) ∧
      ctx'.Holds i cap ∧ ctx'.payloadRead i n = chunk.bytes.drop headerSize := by
  have hbytes : readAt chunk.data.toList headerSize n = chunk.bytes.drop headerSize := by
    rw [CanMessage.bytes, List.drop_take, readAt, hn]
  have hcount : (readAt chunk.data.toList headerSize n).length = n := by
    have hle : chunk.len.toNat ≤ 8 := hlen
    have h6 : headerSize = 6 := rfl
    rw [length_readAt (by simp; omega)]
  by_cases hpos : n > 0
  · rw [if_pos hpos] at hctx'
    obtain ⟨hsame, hb, hholds, hread⟩ := payloadAppend_spec hi hmem h
      (by rw [hcount]; omega) hctx'
    rw [hcount, Nat.zero_add, Ctx.payloadRead_zero, List.nil_append, hbytes] at hread
    exact ⟨hsame, hb, hholds, hread⟩
  · -- a header alone
    rw [if_neg hpos] at hctx'
    subst hctx'
    have hzero : n = 0 := Nat.eq_zero_of_not_pos hpos
    refine ⟨SameBut.refl i ctx', ⟨(ctx'.buffer i).payload, ?_⟩, h, ?_⟩
    · have hsame : UInt16.ofNat n = (ctx'.buffer i).payloadSize := by rw [hzero, hempty]; rfl
      rw [hsame]
    · rw [← hbytes, hzero, readAt_zero, Ctx.payloadRead_zero]

/-- The record of a slot that took the header of `chunk`. -/
def headerBuffer (chunk : CanMessage) (p : Payload) : RxBuffer where
  inUse := true
  channelSignature := channelSig chunk.id
  expectedLength := headerWord chunk 2
  expectedCrc := headerWord chunk 4
  messageId := headerWord chunk 0
  addressFrom := canidGetFrom chunk.id
  addressTo := canidGetTo chunk.id
  priorityInverted := canidGetPriorityInverted chunk.id
  payload := p
  payloadSize := UInt16.ofNat (chunk.len.toNat - headerSize)

/-- A slot that took an accepted header holds the message it announces. -/
theorem Ctx.liveAs_header {alloc : Alloc} {chunk : CanMessage} {p : Payload}
    (hb : ctx.buffer i = headerBuffer chunk p)
    (hto : addressValid (canidGetTo chunk.id) = true)
    (hfrom : addressValid (canidGetFrom chunk.id) = true)
    (hsize : chunk.len.toNat - headerSize ≤ (headerWord chunk 2).toNat)
    (hrefuse : ctx.setup.refuses alloc (headerWord chunk 2) = false)
    (hid : headerWord chunk 0 ≠ errorId) (hholds : ctx.Holds i (headerWord chunk 2).toNat)
    (hread : ctx.payloadRead i (chunk.len.toNat - headerSize) = chunk.bytes.drop headerSize) :
    ctx.LiveAs i (channelSig chunk.id) (Pair.header chunk) := by
  have hn : (UInt16.ofNat (chunk.len.toNat - headerSize)).toNat =
      chunk.len.toNat - headerSize :=
    UInt16.toNat_ofNat_of_lt' (Nat.lt_of_le_of_lt hsize (headerWord chunk 2).toNat_lt)
  refine ⟨by rw [hb]; rfl, by rw [hb]; rfl, ⟨by rw [hb]; exact hid, by rw [hb]; exact hfrom,
    by rw [hb]; exact hto, by rw [hb]; exact toNat_channelSig _, ?_, ?_, ?_⟩, ?_⟩
  · rw [hb]
    exact hn.le.trans hsize
  · intro hlim
    rw [hb]
    exact Setup.le_of_not_refuses hrefuse hlim
  · rw [hb]
    exact hholds
  · unfold Ctx.reassembly Pair.header
    rw [hb]
    simp only [headerBuffer]
    rw [hn, hread]

/-- **A first chunk is a step of the pair**, whatever the slot held before. -/
theorem rxFirstChunk_spec (alloc : Alloc) (chunk : CanMessage) (hmem : ctx.MemoryOk)
    (hi : i < ctx.rx.length) (huse : (ctx.buffer i).inUse = true)
    (hsig : (ctx.buffer i).channelSignature = channelSig chunk.id)
    (hlen : chunk.len.toNat ≤ maxLen) :
    SameBut i ctx (rxFirstChunk alloc ctx i chunk).ctx ∧
      (rxFirstChunk alloc ctx i chunk).Became i (channelSig chunk.id)
        (Pair.first ctx.setup alloc chunk) ∧
      (rxFirstChunk alloc ctx i chunk).Contained := by
  unfold rxFirstChunk Pair.first
  by_cases hshort : chunk.len.toNat < headerSize
  · simp only [hshort, if_true]
    exact rxRelease_refused (SameBut.refl i ctx) hi _ (List.forall_mem_nil _)
  simp only [hshort, if_false]
  by_cases haddr : (!addressValid (canidGetTo chunk.id) ||
      !addressValid (canidGetFrom chunk.id)) = true
  · rw [if_pos haddr, if_pos haddr]
    exact rxRelease_refused (SameBut.refl i ctx) hi _ (List.forall_mem_nil _)
  rw [if_neg haddr, if_neg haddr,
    if_neg (UInt8.not_lt.mpr (canidGetPriorityInverted_le chunk.id))]
  simp only [Bool.or_eq_true, Bool.not_eq_true', not_or, Bool.not_eq_false] at haddr
  set ctx₁ := ctx.setBuffer i { ctx.buffer i with
    addressTo := canidGetTo chunk.id
    addressFrom := canidGetFrom chunk.id
    priorityInverted := canidGetPriorityInverted chunk.id
    expectedLength := headerWord chunk 2
    expectedCrc := headerWord chunk 4 } with hctx₁
  have hsame₁ : SameBut i ctx ctx₁ := SameBut.setBuffer i _ _
  have hi₁ : i < ctx₁.rx.length := by rw [hsame₁.length_rx]; exact hi
  by_cases hover : chunk.len.toNat - headerSize > (headerWord chunk 2).toNat
  · rw [if_pos hover, if_pos hover]
    exact rxRelease_refused hsame₁ hi₁ _ (List.forall_mem_nil _)
  rw [if_neg hover, if_neg hover]
  -- the memory for the data
  have hsame₂ : SameBut i ctx (rxPayloadFree ctx₁ i) := hsame₁.trans rxPayloadFree_same
  have hi₂ : i < (rxPayloadFree ctx₁ i).rx.length := by rw [hsame₂.length_rx]; exact hi
  have hb₂ := rxPayloadFree_buffer hi₁
  obtain ⟨hsame₃, hok₃, hspec₃⟩ := rxPayloadAlloc_spec alloc
    (headerWord chunk 2) hi₂ (by rw [hb₂])
  rw [hsame₂.setup] at hok₃ hspec₃
  have hsame₃' := hsame₂.trans hsame₃
  generalize rxPayloadAlloc alloc (rxPayloadFree ctx₁ i) i (headerWord chunk 2) = a at *
  obtain ⟨ctx₃, ok⟩ := a
  simp only at hsame₃ hok₃ hspec₃ hsame₃'
  have hi₃ : i < ctx₃.rx.length := by rw [hsame₃'.length_rx]; exact hi
  cases hrefuse : ctx.setup.refuses alloc (headerWord chunk 2) with
  | true =>
    subst hok₃
    rw [hrefuse]
    exact rxRelease_refused hsame₃' hi₃ _ (List.forall_mem_nil _)
  | false =>
    subst hok₃
    obtain ⟨⟨p, hp⟩, hholds⟩ := hspec₃ hrefuse
    rw [hrefuse]
    simp only [Bool.not_false, Bool.false_eq_true, if_false]
    -- the bytes behind the header are copied, if there are any
    set n := chunk.len.toNat - headerSize with hn
    set ctx₅ := if n > 0 then
        ((ctx₃.payloadWrite i 0 (readAt chunk.data.toList headerSize n)).setBuffer i
          { (ctx₃.payloadWrite i 0 (readAt chunk.data.toList headerSize n)).buffer i with
            payloadSize := UInt16.ofNat n })
      else ctx₃ with hctx₅
    have hempty : (ctx₃.buffer i).payloadSize = 0 := by rw [hp, hb₂]
    obtain ⟨hsame₅, ⟨p', hp'⟩, hholds₅, hread₅⟩ := rxFirstChunk_store hi₃
      (hsame₃'.memoryOk hmem) hholds hempty hlen hn (by omega) hctx₅
    have hcopies : ∀ copy ∈ (if n > 0 then [ctx₃.payloadCopy i 0 n] else []), copy.Inside := by
      have hcopy : (ctx₃.payloadCopy i 0 n).Inside := hholds.copy_inside (by omega)
      split_ifs
      · exact List.forall_mem_singleton.mpr hcopy
      · simp
    generalize ctx₅ = ctx₅ at hsame₅ hp' hholds₅ hread₅ ⊢
    have hi₅ : i < ctx₅.rx.length := by rw [hsame₅.length_rx]; exact hi₃
    set ctx₆ := ctx₅.setBuffer i { ctx₅.buffer i with messageId := headerWord chunk 0 } with hctx₆
    have hsame₆ : SameBut i ctx ctx₆ :=
      (hsame₃'.trans hsame₅).trans (SameBut.setBuffer i _ _)
    have hi₆ : i < ctx₆.rx.length := by rw [hsame₆.length_rx]; exact hi
    have hb₆ : ctx₆.buffer i = headerBuffer chunk p' := by
      rw [hctx₆, Ctx.buffer_setBuffer_self hi₅, hp', hp, hb₂, hctx₁, Ctx.buffer_setBuffer_self hi,
        huse, hsig]
      rfl
    have hid₆ : (ctx₆.buffer i).messageId = headerWord chunk 0 := by rw [hb₆]; rfl
    rw [hid₆]
    by_cases hid : headerWord chunk 0 = errorId
    · rw [if_pos hid, if_pos hid]
      exact rxRelease_refused hsame₆ hi₆ _ hcopies
    · rw [if_neg hid, if_neg hid]
      have hlive : ctx₆.LiveAs i (channelSig chunk.id) (Pair.header chunk) :=
        Ctx.liveAs_header hb₆ haddr.1 haddr.2 (by omega) (by rw [hsame₆.setup]; exact hrefuse)
          hid (hholds₅.setBuffer hi₅ rfl)
          (by rw [hctx₆, Ctx.payloadRead_setBuffer hi₅ (by rfl)]; exact hread₅)
      obtain ⟨hctx, hbecame⟩ := rxFinish_became hlive (hsame₆.memoryOk hmem) hi₆
        (if n > 0 then [ctx₃.payloadCopy i 0 n] else [])
      exact ⟨by rw [hctx]; exact hsame₆, hbecame, rxFinish_contained hlive.live hcopies⟩

end Chunks

end Protoplexer
end UniCan
