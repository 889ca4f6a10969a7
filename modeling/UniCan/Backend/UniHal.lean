import Mathlib.Logic.Function.Basic
import UniCan.Foundation.Bits
import UniCan.Foundation.Machine
import UniCan.Message

/-!
# The filters of a Uni.HAL channel

A CAN peripheral has slots for acceptance filters, and a channel owns some of them.  A
filter is an identifier and a mask; a frame passes if its identifier is the one of a
filter in the bits of the mask.  The channel keeps the filters it has set, so that none
takes a second slot.

## Main definitions

* `Hal` — the peripheral: it programs a slot, or fails and changes nothing.
* `Channel`, `channelSetup`, `filterAdd` — the channel and its operations.
* `Channel.filters` — the filters of a channel, in the order of their slots.
* `FilterTable` — how the table, the slots and the calls so far belong together.

## Main results

* `filterAdd_cases` — what a call can do.
* `filter_table_exact` — **the slots accept exactly what the successful calls asked
  for.**
-/

namespace UniCan
namespace UniHal

/-- `UNI_CAN_UNIHAL_FILTERS_MAX`. -/
def filtersMax : ℕ := 14

/-- `UNI_CAN_UNIHAL_FILTER_EXT_ID_POS`. -/
def filterExtIdPos : UInt32 := 3

/-- `UNI_CAN_UNIHAL_EXT_ID_MASK`. -/
def extIdMask : UInt32 := 0x1FFFFFFF

/-- The peripheral, as far as filters go.  `uni_hal_can_set_filter` either programs the
slot it is given, or fails and changes none. -/
structure Hal (σ : Type*) where
  /-- `uni_hal_can_set_filter`, with the FIFO, the slot, the identifier and the mask. -/
  setFilter : σ → UInt32 → UInt32 → UInt32 → UInt32 → Bool × σ
  /-- What a slot was programmed with since the channel was set up. -/
  slots : σ → UInt32 → Option (UInt32 × UInt32)
  programs : ∀ s fifo slot id mask, (setFilter s fifo slot id mask).1 = true →
    slots (setFilter s fifo slot id mask).2 = Function.update (slots s) slot (some (id, mask))
  fails : ∀ s fifo slot id mask, (setFilter s fifo slot id mask).1 = false →
    slots (setFilter s fifo slot id mask).2 = slots s

/-- `uni_can_unihal_config_t`. -/
structure Config where
  /-- The peripheral is given. -/
  can : Bool
  filterFifo : UInt32
  filterSlotFirst : UInt32
  filterSlotCount : UInt32
  deriving DecidableEq

/-- `uni_can_unihal_channel_t`. -/
structure Channel where
  config : Config
  filterId : Vector UInt32 14
  filterMask : Vector UInt32 14
  filterCount : ℕ
  opened : Bool
  deriving DecidableEq

/-- `uni_can_unihal_channel_setup`; `none` is a missing argument. -/
def channelSetup (config : Option Config) : Option Channel :=
  match config with
  | none => none
  | some config =>
      if config.can then
        some ⟨config, Vector.replicate 14 0, Vector.replicate 14 0, 0, false⟩
      else none

/-- The filter with this index. -/
def Channel.filter (channel : Channel) (idx : ℕ) : UInt32 × UInt32 :=
  (channel.filterId[idx]?.getD 0, channel.filterMask[idx]?.getD 0)

section Model

variable {σ : Type*} (hal : Hal σ)

/-- `_uni_can_unihal_filter_add`: the result, the channel and the peripheral. -/
def filterAdd (channel : Channel) (s : σ) (id mask : UInt32) : Bool × Channel × σ :=
  let id := id &&& extIdMask
  let mask := mask &&& extIdMask
  if (List.range channel.filterCount).any fun idx =>
      (channel.filter idx).1 == id && (channel.filter idx).2 == mask then (true, channel, s)
  else
    let slots := channel.config.filterSlotCount.toNat
    let slots := if slots > filtersMax then filtersMax else slots
    if channel.filterCount ≥ slots then (false, channel, s)
    else
      let slot := channel.config.filterSlotFirst + UInt32.ofNat channel.filterCount
      let (done, s) := hal.setFilter s channel.config.filterFifo slot (id <<< filterExtIdPos)
        (mask <<< filterExtIdPos)
      if !done then (false, channel, s)
      else
        (true, { channel with
          filterId := channel.filterId.setIfInBounds channel.filterCount id
          filterMask := channel.filterMask.setIfInBounds channel.filterCount mask
          filterCount := channel.filterCount + 1 }, s)

/-- A call of `filter_add`, and what it returned. -/
structure Answered where
  id : UInt32
  mask : UInt32
  result : Bool
  deriving DecidableEq

/-- A channel on a peripheral as a machine; its inputs are identifiers and masks. -/
def machine : Machine (Channel × σ) (UInt32 × UInt32) Answered where
  step state call :=
    let (result, channel, s) := filterAdd hal state.1 state.2 call.1 call.2
    ((channel, s), ⟨call.1, call.2, result⟩)

end Model

/-! ### What a call can do -/

/-- The filters of a channel, in the order of their slots. -/
def Channel.filters (channel : Channel) : List (UInt32 × UInt32) :=
  (List.range channel.filterCount).map channel.filter

/-- A filter as it is kept: identifiers have 29 bits. -/
def cut (id mask : UInt32) : UInt32 × UInt32 := (id &&& extIdMask, mask &&& extIdMask)

/-- How many filters a channel may have. -/
def Channel.limit (channel : Channel) : ℕ := min channel.config.filterSlotCount.toNat filtersMax

/-- The slot of the filter with this index, numbered as the peripheral numbers them. -/
def Channel.slot (channel : Channel) (idx : ℕ) : UInt32 :=
  channel.config.filterSlotFirst + UInt32.ofNat idx

/-- The contents of the slot of a filter. -/
def slotOf (filter : UInt32 × UInt32) : UInt32 × UInt32 :=
  (filter.1 <<< filterExtIdPos, filter.2 <<< filterExtIdPos)

@[simp] theorem Channel.length_filters (channel : Channel) :
    channel.filters.length = channel.filterCount := by
  simp [Channel.filters]

/-- The search of `_uni_can_unihal_filter_add`. -/
theorem Channel.any_filters (channel : Channel) (p : UInt32 × UInt32) :
    ((List.range channel.filterCount).any fun idx =>
      (channel.filter idx).1 == p.1 && (channel.filter idx).2 == p.2) = true ↔
      p ∈ channel.filters := by
  rw [List.any_eq_true, Channel.filters, List.mem_map]
  simp only [Bool.and_eq_true, beq_iff_eq, Prod.ext_iff]

/-- A filter written behind the others. -/
theorem Channel.filters_push {channel : Channel} (h : channel.filterCount < 14)
    (p : UInt32 × UInt32) :
    Channel.filters { channel with
      filterId := channel.filterId.setIfInBounds channel.filterCount p.1
      filterMask := channel.filterMask.setIfInBounds channel.filterCount p.2
      filterCount := channel.filterCount + 1 } = channel.filters ++ [p] := by
  have hold : ∀ idx ∈ List.range channel.filterCount,
      Channel.filter { channel with
        filterId := channel.filterId.setIfInBounds channel.filterCount p.1
        filterMask := channel.filterMask.setIfInBounds channel.filterCount p.2
        filterCount := channel.filterCount + 1 } idx = channel.filter idx := by
    intro idx hidx
    have hne : channel.filterCount ≠ idx := by
      have := List.mem_range.mp hidx
      omega
    simp only [Channel.filter, Vector.getElem?_setIfInBounds_ne hne]
  have hnew : Channel.filter { channel with
      filterId := channel.filterId.setIfInBounds channel.filterCount p.1
      filterMask := channel.filterMask.setIfInBounds channel.filterCount p.2
      filterCount := channel.filterCount + 1 } channel.filterCount = p := by
    simp only [Channel.filter, Vector.getElem?_setIfInBounds_self_of_lt h, Option.getD_some]
  rw [Channel.filters, List.range_succ, List.map_append, List.map_congr_left hold,
    List.map_singleton, hnew]
  rfl

section Calls

variable {σ : Type*} {hal : Hal σ} {channel channel' : Channel} {s s' : σ} {id mask : UInt32}
  {result : Bool}

/-- **What a call can do**: the filter is there already; or it is refused, and nothing
changes; or it is put at the end of the table and into the next slot. -/
theorem filterAdd_cases (h : filterAdd hal channel s id mask = (result, channel', s')) :
    (result = true ∧ channel' = channel ∧ s' = s ∧ cut id mask ∈ channel.filters) ∨
    (result = false ∧ channel' = channel ∧ hal.slots s' = hal.slots s) ∨
    (result = true ∧ channel'.config = channel.config ∧ cut id mask ∉ channel.filters ∧
      channel.filterCount < channel.limit ∧
      channel'.filters = channel.filters ++ [cut id mask] ∧
      hal.slots s' = Function.update (hal.slots s) (channel.slot channel.filterCount)
        (some (slotOf (cut id mask)))) := by
  have hmem := channel.any_filters (cut id mask)
  rw [cut] at hmem
  simp only [filterAdd] at h
  by_cases hdup : cut id mask ∈ channel.filters
  · rw [if_pos (hmem.mpr hdup)] at h
    obtain ⟨rfl, rfl, rfl⟩ : true = result ∧ channel = channel' ∧ s = s' := by simpa using h
    exact Or.inl ⟨rfl, rfl, rfl, hdup⟩
  rw [if_neg fun hany => hdup (hmem.mp hany)] at h
  have hlimit : (if channel.config.filterSlotCount.toNat > filtersMax then filtersMax
      else channel.config.filterSlotCount.toNat) = channel.limit := by
    rw [Channel.limit]
    split_ifs <;> omega
  rw [hlimit] at h
  by_cases hfull : channel.filterCount ≥ channel.limit
  · rw [if_pos hfull] at h
    obtain ⟨rfl, rfl, rfl⟩ : false = result ∧ channel = channel' ∧ s = s' := by simpa using h
    exact Or.inr (Or.inl ⟨rfl, rfl, rfl⟩)
  rw [if_neg hfull] at h
  set answer := hal.setFilter s channel.config.filterFifo (channel.slot channel.filterCount)
    ((id &&& extIdMask) <<< filterExtIdPos) ((mask &&& extIdMask) <<< filterExtIdPos) with hanswer
  cases hdone : answer.1 with
  | false =>
    -- the peripheral has refused the filter
    have hslots := hal.fails _ _ _ _ _ (hanswer ▸ hdone)
    rw [← hanswer] at hslots
    change (if !answer.1 then (false, channel, answer.2) else _) = _ at h
    rw [hdone, Bool.not_false, if_pos rfl] at h
    obtain ⟨rfl, rfl, rfl⟩ : false = result ∧ channel = channel' ∧ answer.2 = s' := by
      simpa using h
    exact Or.inr (Or.inl ⟨rfl, rfl, hslots⟩)
  | true =>
    have hslots := hal.programs _ _ _ _ _ (hanswer ▸ hdone)
    rw [← hanswer] at hslots
    change (if !answer.1 then _ else (_, _, answer.2)) = _ at h
    rw [hdone, Bool.not_true, if_neg (by simp)] at h
    have hlt : channel.filterCount < channel.limit := Nat.lt_of_not_le hfull
    have h14 : channel.limit ≤ 14 := Nat.min_le_right _ _
    obtain ⟨rfl, hchannel, rfl⟩ : true = result ∧ _ = channel' ∧ answer.2 = s' := by
      simpa only [Prod.mk.injEq] using h
    refine Or.inr (Or.inr ⟨rfl, ?_, hdup, hlt, ?_, hslots⟩)
    · rw [← hchannel]
    · rw [← hchannel]
      exact Channel.filters_push (Nat.lt_of_lt_of_le hlt h14) (cut id mask)

end Calls

/-! ### The table after any calls -/

/-- Two filters of one channel have different slots. -/
theorem Channel.slot_injective {channel : Channel} {i j : ℕ} (hi : i ≤ channel.limit)
    (hj : j ≤ channel.limit) (h : channel.slot i = channel.slot j) : i = j := by
  have h14 : channel.limit ≤ 14 := Nat.min_le_right _ _
  have hsize : UInt32.size = 2 ^ 32 := rfl
  have heq := congrArg UInt32.toNat (UInt32.add_right_inj _ |>.mp h)
  rwa [UInt32.toNat_ofNat_of_lt' (by omega), UInt32.toNat_ofNat_of_lt' (by omega)] at heq

section Table

variable {σ : Type*} (hal : Hal σ)

/-- How the channel, the slots and the calls so far belong together: no filter is there
twice, they are in the slots of the channel and nothing else is in any slot, and they are
what the successful calls asked for. -/
structure FilterTable (config : Config) (state : Channel × σ) (answers : List Answered) :
    Prop where
  config : state.1.config = config
  nodup : state.1.filters.Nodup
  le : state.1.filterCount ≤ state.1.limit
  programmed : ∀ i p, state.1.filters[i]? = some p →
    hal.slots state.2 (state.1.slot i) = some (slotOf p)
  only : ∀ n x, hal.slots state.2 n = some x →
    ∃ i p, state.1.filters[i]? = some p ∧ n = state.1.slot i ∧ x = slotOf p
  asked : ∀ p, p ∈ state.1.filters ↔ ∃ a ∈ answers, a.result = true ∧ cut a.id a.mask = p

variable {hal} {config : Config} {state : Channel × σ} {answers : List Answered}

/-- A channel that was just set up has no filters. -/
theorem FilterTable.setup {channel : Channel} (h : channelSetup (some config) = some channel)
    {s : σ} (hs : ∀ n, hal.slots s n = none) : FilterTable hal config (channel, s) [] := by
  simp only [channelSetup] at h
  split_ifs at h
  obtain rfl := Option.some.inj h
  refine ⟨rfl, List.nodup_nil, Nat.zero_le _, fun i p hp => ?_, fun n x hx => ?_, fun p => ?_⟩
  · exact absurd hp (by simp [Channel.filters])
  · exact absurd ((hs n).symm.trans hx) (by simp)
  · simp [Channel.filters]

/-- A call that changes nothing keeps the table. -/
theorem FilterTable.same (h : FilterTable hal config state answers) {s' : σ} {a : Answered}
    (hslots : hal.slots s' = hal.slots state.2)
    (ha : a.result = true → cut a.id a.mask ∈ state.1.filters) :
    FilterTable hal config (state.1, s') (answers ++ [a]) := by
  refine ⟨h.config, h.nodup, h.le, fun i p hp => ?_, fun n x hx => ?_, fun p => ?_⟩
  · rw [hslots]
    exact h.programmed i p hp
  · rw [hslots] at hx
    exact h.only n x hx
  · rw [h.asked p]
    constructor
    · rintro ⟨b, hb, hres, hp⟩
      exact ⟨b, List.mem_append_left _ hb, hres, hp⟩
    · rintro ⟨b, hb, hres, hp⟩
      rcases List.mem_append.mp hb with hb | hb
      · exact ⟨b, hb, hres, hp⟩
      · rw [List.mem_singleton] at hb
        subst hb
        rw [← h.asked p, ← hp]
        exact ha hres

/-- A new filter. -/
theorem FilterTable.push (h : FilterTable hal config state answers) {channel' : Channel} {s' : σ}
    {a : Answered} (ha : a.result = true) (hconfig : channel'.config = state.1.config)
    (hnew : cut a.id a.mask ∉ state.1.filters) (hlt : state.1.filterCount < state.1.limit)
    (hfilters : channel'.filters = state.1.filters ++ [cut a.id a.mask])
    (hslots : hal.slots s' = Function.update (hal.slots state.2)
      (state.1.slot state.1.filterCount) (some (slotOf (cut a.id a.mask)))) :
    FilterTable hal config (channel', s') (answers ++ [a]) := by
  have hslot : ∀ i, channel'.slot i = state.1.slot i := fun i => by
    rw [Channel.slot, Channel.slot, hconfig]
  have hlimit : channel'.limit = state.1.limit := by rw [Channel.limit, Channel.limit, hconfig]
  have hcount : channel'.filterCount = state.1.filterCount + 1 := by
    rw [← Channel.length_filters, hfilters, List.length_append, Channel.length_filters]
    rfl
  -- the filters so far, and the new one
  have hget : ∀ i p, channel'.filters[i]? = some p ↔
      state.1.filters[i]? = some p ∨ i = state.1.filterCount ∧ p = cut a.id a.mask := by
    intro i p
    have hlen := state.1.length_filters
    rw [hfilters, List.getElem?_append, hlen]
    split_ifs with hi
    · constructor
      · exact Or.inl
      · rintro (hp | ⟨heq, -⟩)
        · exact hp
        · omega
    · rw [List.getElem?_eq_none (l := state.1.filters) (by omega), List.getElem?_singleton]
      split_ifs with hzero
      · have heq : i = state.1.filterCount := by omega
        simp [heq, eq_comm]
      · have hne : i ≠ state.1.filterCount := by omega
        simp [hne]
  have hlow : ∀ i p, state.1.filters[i]? = some p → i < state.1.filterCount := fun i p hp => by
    rw [← state.1.length_filters]
    exact (List.getElem?_eq_some_iff.mp hp).1
  refine ⟨hconfig.trans h.config, ?_, by show channel'.filterCount ≤ channel'.limit; omega,
    fun i p hp => ?_, fun n x hx => ?_, fun p => ?_⟩
  · rw [hfilters, List.nodup_append]
    refine ⟨h.nodup, by simp, fun p hp q hq heq => ?_⟩
    rw [List.mem_singleton] at hq
    exact hnew (hq ▸ heq ▸ hp)
  · rw [hslot, hslots]
    rcases (hget i p).mp hp with hp | ⟨rfl, rfl⟩
    · have hne : state.1.slot i ≠ state.1.slot state.1.filterCount := fun heq => by
        have := Channel.slot_injective (by have := hlow i p hp; omega) h.le heq
        have := hlow i p hp
        omega
      rw [Function.update_of_ne hne]
      exact h.programmed i p hp
    · rw [Function.update_self]
  · simp only [hslot]
    rw [hslots] at hx
    by_cases hn : n = state.1.slot state.1.filterCount
    · subst hn
      rw [Function.update_self] at hx
      exact ⟨_, _, (hget _ _).mpr (Or.inr ⟨rfl, rfl⟩), rfl, (Option.some.inj hx).symm⟩
    · rw [Function.update_of_ne hn] at hx
      obtain ⟨i, p, hp, hni, hxp⟩ := h.only n x hx
      exact ⟨i, p, (hget i p).mpr (Or.inl hp), hni, hxp⟩
  · show p ∈ channel'.filters ↔ _
    rw [hfilters, List.mem_append, List.mem_singleton, h.asked p]
    constructor
    · rintro (⟨b, hb, hres, hp⟩ | rfl)
      · exact ⟨b, List.mem_append_left _ hb, hres, hp⟩
      · exact ⟨a, List.mem_append_right _ (List.mem_singleton_self a), ha, rfl⟩
    · rintro ⟨b, hb, hres, hp⟩
      rcases List.mem_append.mp hb with hb | hb
      · exact Or.inl ⟨b, hb, hres, hp⟩
      · rw [List.mem_singleton] at hb
        subst hb
        exact Or.inr hp.symm

/-- **Every call keeps the table.** -/
theorem FilterTable.step (h : FilterTable hal config state answers) (call : UInt32 × UInt32) :
    FilterTable hal config ((machine hal).step state call).1
      (answers ++ [((machine hal).step state call).2]) := by
  obtain ⟨channel, s⟩ := state
  obtain ⟨id, mask⟩ := call
  simp only [machine]
  rcases hcall : filterAdd hal channel s id mask with ⟨result, channel', s'⟩
  simp only
  rcases filterAdd_cases hcall with ⟨-, rfl, rfl, hmem⟩ | ⟨rfl, rfl, hslots⟩ |
    ⟨rfl, hconfig, hnew, hlt, hfilters, hslots⟩
  · exact h.same rfl fun _ => hmem
  · exact h.same hslots fun hres => absurd hres (by simp)
  · exact h.push rfl hconfig hnew hlt hfilters hslots

/-- A frame passes the slot of a filter if its identifier is that of the filter in the
bits of the mask. -/
theorem passes_slotOf_iff (id mask f : UInt32) :
    ((f <<< filterExtIdPos) ^^^ (slotOf (cut id mask)).1) &&& (slotOf (cut id mask)).2 = 0 ↔
      (f ^^^ (id &&& extIdMask)) &&& (mask &&& extIdMask) = 0 := by
  set x : UInt32 := (f ^^^ (id &&& extIdMask)) &&& (mask &&& extIdMask) with hx
  have hshift : ((f <<< filterExtIdPos) ^^^ (slotOf (cut id mask)).1) &&&
      (slotOf (cut id mask)).2 = x <<< filterExtIdPos := by
    rw [hx, UInt32.shiftLeft_and, UInt32.shiftLeft_xor]
    rfl
  have hlt : x.toNat < 2 ^ 29 := by
    have hmask : (mask &&& extIdMask).toNat = mask.toNat % 2 ^ 29 := toNat_and_mask 29 rfl
    rw [hx, UInt32.toNat_and]
    exact Nat.and_lt_two_pow _ (by omega)
  rw [hshift, ← UInt32.toNat_inj, ← UInt32.toNat_inj,
    toNat_shiftLeft_of_lt 3 rfl (by decide) (by omega), UInt32.toNat_zero]
  omega

/-- **The slots accept exactly what the successful calls asked for.**  Whatever the calls
after the setup are, and however the peripheral answers them: no filter is kept twice, and
there are at most as many as slots, and at most 14; each is in its slot, which is the one
it was programmed with, and no slot outside the channel's range is programmed; a call that
fails changes neither the table nor a slot; and an identifier of 29 bits passes a slot if
and only if it is, in the bits of the mask, one that a successful call asked for. -/
theorem filter_table_exact (hal : Hal σ) (config : Config) (channel : Channel)
    (hsetup : channelSetup (some config) = some channel) (s : σ)
    (hs : ∀ n, hal.slots s n = none) (calls : List (UInt32 × UInt32)) :
    ((machine hal).final (channel, s) calls).1.filters.Nodup ∧
    ((machine hal).final (channel, s) calls).1.filters.length ≤
      min config.filterSlotCount.toNat 14 ∧
    (∀ i p, ((machine hal).final (channel, s) calls).1.filters[i]? = some p →
      hal.slots ((machine hal).final (channel, s) calls).2
        (config.filterSlotFirst + UInt32.ofNat i) =
          some (p.1 <<< filterExtIdPos, p.2 <<< filterExtIdPos)) ∧
    (∀ n, hal.slots ((machine hal).final (channel, s) calls).2 n ≠ none →
      ∃ i < min config.filterSlotCount.toNat 14, n = config.filterSlotFirst + UInt32.ofNat i) ∧
    (∀ call,
      ((machine hal).step ((machine hal).final (channel, s) calls) call).2.result = false →
        ((machine hal).step ((machine hal).final (channel, s) calls) call).1.1 =
            ((machine hal).final (channel, s) calls).1 ∧
          hal.slots ((machine hal).step ((machine hal).final (channel, s) calls) call).1.2 =
            hal.slots ((machine hal).final (channel, s) calls).2) ∧
    ∀ f : UInt32, f.toNat < 2 ^ 29 →
      ((∃ n a m, hal.slots ((machine hal).final (channel, s) calls).2 n = some (a, m) ∧
          ((f <<< filterExtIdPos) ^^^ a) &&& m = 0) ↔
        ∃ x ∈ (machine hal).outputs (channel, s) calls, x.result = true ∧
          (f ^^^ (x.id &&& extIdMask)) &&& (x.mask &&& extIdMask) = 0) := by
  have h : FilterTable hal config ((machine hal).final (channel, s) calls)
      ((machine hal).outputs (channel, s) calls) :=
    (machine hal).final_outputs (P := FilterTable hal config)
      (FilterTable.setup hsetup hs) (fun _ _ call hprev => hprev.step call) calls
  set final := (machine hal).final (channel, s) calls
  have hle := h.le
  rw [Channel.limit, h.config] at hle
  have hlow : ∀ i p, final.1.filters[i]? = some p → i < min config.filterSlotCount.toNat 14 :=
    fun i p hp => by
      have hi := (List.getElem?_eq_some_iff.mp hp).1
      rw [Channel.length_filters] at hi
      exact Nat.lt_of_lt_of_le hi hle
  refine ⟨h.nodup, ?_, fun i p hp => ?_, fun n hn => ?_, fun call hfalse => ?_, fun f _ => ?_⟩
  · rw [Channel.length_filters]
    exact hle
  · have hslot := h.programmed i p hp
    rw [Channel.slot, h.config] at hslot
    exact hslot
  · obtain ⟨x, hx⟩ := Option.ne_none_iff_exists'.mp hn
    obtain ⟨i, p, hp, hni, -⟩ := h.only n x hx
    rw [Channel.slot, h.config] at hni
    exact ⟨i, hlow i p hp, hni⟩
  · rcases hcall : filterAdd hal final.1 final.2 call.1 call.2 with ⟨result, channel', s'⟩
    simp only [machine, hcall] at hfalse ⊢
    rcases filterAdd_cases hcall with ⟨hres, -⟩ | ⟨-, hsame, hslots⟩ | ⟨hres, -⟩
    · exact absurd (hres.symm.trans hfalse) (by simp)
    · exact ⟨hsame, hslots⟩
    · exact absurd (hres.symm.trans hfalse) (by simp)
  · constructor
    · rintro ⟨n, a, m, hslot, hpass⟩
      obtain ⟨i, p, hp, -, hx⟩ := h.only n (a, m) hslot
      obtain ⟨x, hmem, hres, rfl⟩ := (h.asked p).mp (List.mem_of_getElem? hp)
      obtain ⟨rfl, rfl⟩ := Prod.mk.inj hx
      exact ⟨x, hmem, hres, (passes_slotOf_iff x.id x.mask f).mp hpass⟩
    · rintro ⟨x, hmem, hres, hpass⟩
      obtain ⟨i, hi⟩ := List.mem_iff_getElem?.mp ((h.asked _).mpr ⟨x, hmem, hres, rfl⟩)
      exact ⟨_, _, _, h.programmed i _ hi, (passes_slotOf_iff x.id x.mask f).mpr hpass⟩

end Table

/-- A peripheral that answers as listed, and then always succeeds. -/
def scriptedHal : Hal (List Bool × (UInt32 → Option (UInt32 × UInt32))) where
  setFilter s _ slot id mask :=
    if s.1.headD true then (true, s.1.tail, Function.update s.2 slot (some (id, mask)))
    else (false, s.1.tail, s.2)
  slots s := s.2
  programs s fifo slot id mask h := by
    cases hd : s.1.headD true <;> simp_all
  fails s fifo slot id mask h := by
    cases hd : s.1.headD true <;> simp_all

/-- A peripheral that fails once: of three calls the second one is lost. -/
theorem filter_table_exact_scripted :
    let channel : Channel :=
      ⟨⟨true, 0, 4, 2⟩, Vector.replicate 14 0, Vector.replicate 14 0, 0, false⟩
    let final := (machine scriptedHal).final (channel, [true, false], fun _ => none)
      [(0x123, 0x7FF), (0x456, 0x7FF), (0x123, 0x7FF)]
    final.1.filters.length ≤ 2 ∧
      ∃ n a m, scriptedHal.slots final.2 n = some (a, m) ∧
        (((0x923 : UInt32) <<< filterExtIdPos) ^^^ a) &&& m = 0 :=
  have h := filter_table_exact scriptedHal ⟨true, 0, 4, 2⟩ _ rfl ([true, false], fun _ => none)
    (fun _ => rfl) [(0x123, 0x7FF), (0x456, 0x7FF), (0x123, 0x7FF)]
  ⟨h.2.1, (h.2.2.2.2.2 0x923 (by decide)).mpr ⟨⟨0x123, 0x7FF, true⟩, by decide, rfl, by decide⟩⟩

end UniHal
end UniCan
