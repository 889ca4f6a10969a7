import UniCan.Protoplexer.Isolation

/-!
# Four ways to receive

The data of a message lies on the heap or in the application's memory, and a message
is copied out or looked at where it is.  A view leaves its slot taken for one more
call, so two receivers that differ in this have different tables; but they have the
same messages in progress, and that is all an answer depends on.

## Main definitions

* `Ctx.Alike` — two contexts with the same messages in progress.
* `Arrival` — a chunk, and how each of two contexts takes it.

## Main results

* `Ctx.room_congr` — whether there is room does not depend on the table.
* `receive_ways_agree` — **the ways to receive agree.**
-/

namespace UniCan
namespace Protoplexer

/-! ### Room -/

/-- **Whether there is room for a pair depends only on the messages in progress** and
on the size of the table: every message in progress takes one slot, and nothing else
does for longer than it takes to ask. -/
theorem Ctx.room_congr {ctx ctx' : Ctx} (h : Inv ctx) (h' : Inv ctx')
    (hlen : ctx'.rx.length = ctx.rx.length)
    (hprog : ∀ sig, ctx'.inProgress sig = ctx.inProgress sig) {sig : UInt32}
    (hroom : ctx.Room sig) : ctx'.Room sig := by
  -- the pairs with a message in progress, and this one
  set foreign := (Finset.range ctx.rx.length).filter fun i => ctx.Foreign sig i
  set P := insert sig (foreign.image fun i => (ctx.buffer i).channelSignature)
  have hwithin : ctx'.Within P := by
    intro s r hr
    rw [hprog] at hr
    obtain ⟨i, hs, -⟩ := (Ctx.inProgress_eq_some h).mp hr
    by_cases hown : s = sig
    · exact hown ▸ Finset.mem_insert_self _ _
    · have hforeign : ctx.Foreign sig i := ⟨hs.inUse, hs.noView, by rw [hs.signature]; exact hown⟩
      refine Finset.mem_insert_of_mem (Finset.mem_image.mpr ⟨i, ?_, hs.signature⟩)
      exact Finset.mem_filter.mpr ⟨Finset.mem_range.mpr hs.lt, hforeign⟩
  have hcard : P.card ≤ ctx'.rx.length := by
    obtain ⟨i, hi, hnot⟩ := hroom
    have hless : foreign.card < ctx.rx.length := by
      rw [← Finset.card_range ctx.rx.length]
      refine Finset.card_lt_card (Finset.filter_ssubset.mpr ⟨i, Finset.mem_range.mpr hi, hnot⟩)
    have hinsert : P.card ≤ (foreign.image fun i => (ctx.buffer i).channelSignature).card + 1 :=
      Finset.card_insert_le _ _
    have himage : (foreign.image fun i => (ctx.buffer i).channelSignature).card ≤ foreign.card :=
      Finset.card_image_le
    omega
  exact hwithin.room h' hcard (Finset.mem_insert_self _ _)

/-! ### One call -/

section OneCall

variable {setup setup' : Setup} {call call' : Call}

/-- With a limit on the length and memory for what is within it, the length alone
decides. -/
theorem Setup.refuses_of_serves {alloc : Alloc} {api : Api} (hmax : setup.maxPayload ≠ 0)
    (hserves : alloc.Serves setup.rxStatic api) (length : UInt16) :
    setup.refuses alloc length = decide (length > setup.maxPayload) := by
  have hmemory : (length != 0 && !setup.rxStatic && alloc.rxAlloc.isNone) = false := by
    cases hs : setup.rxStatic with
    | true => simp
    | false =>
      have hsome := hserves.1 hs
      cases halloc : alloc.rxAlloc with
      | none => rw [halloc] at hsome; exact absurd hsome (by simp)
      | some fill => simp
  rw [Setup.refuses, hmemory, Bool.or_false, bne_iff_ne.mpr hmax, Bool.true_or, Bool.true_and]

/-- A caller that takes the message gets it, with memory for the copy. -/
theorem Pair.deliver_of_serves {rxStatic : Bool} (hwants : call.api.wantsMessage = true)
    (hserves : call.alloc.Serves rxStatic call.api) (r : Reassembly) :
    Pair.deliver call r = (.ok, some r.msg) := by
  unfold Pair.deliver
  cases happ : call.api with
  | addChunk outMsg =>
    rw [happ] at hwants
    obtain ⟨hcalloc, hmalloc⟩ := hserves.2 outMsg happ
    obtain rfl : outMsg = true := hwants
    simp [hcalloc, hmalloc]
  | addChunkView outMsg outComplete =>
    rw [happ] at hwants
    exact if_pos hwants

/-- What the setups of two contexts have to have in common. -/
structure Setup.Alike (setup setup' : Setup) : Prop where
  ownAddress : setup.ownAddress = setup'.ownAddress
  monitoring : setup.monitoring = setup'.monitoring
  maxPayload : setup.maxPayload = setup'.maxPayload
  limited : setup.maxPayload ≠ 0

/-- **A pair cannot tell which way its chunk is taken.** -/
theorem Pair.step_congr (h : setup.Alike setup') (call call' : Call)
    (hchunk : call.chunk = call'.chunk)
    (hwants : call.api.wantsMessage = true) (hwants' : call'.api.wantsMessage = true)
    (hserves : call.alloc.Serves setup.rxStatic call.api)
    (hserves' : call'.alloc.Serves setup'.rxStatic call'.api) (room : Bool)
    (r : Option Reassembly) : Pair.step setup room r call = Pair.step setup' room r call' := by
  have haccepts : setup.accepts call.chunk.id = setup'.accepts call.chunk.id := by
    rw [Setup.accepts, Setup.accepts, h.ownAddress, h.monitoring]
  have hrefuses : ∀ length, setup.refuses call.alloc length =
      setup'.refuses call'.alloc length := by
    intro length
    rw [Setup.refuses_of_serves h.limited hserves,
      Setup.refuses_of_serves (h.maxPayload ▸ h.limited) hserves', h.maxPayload]
  have hadvance : Pair.advance setup call.alloc r call.chunk =
      Pair.advance setup' call'.alloc r call.chunk := by
    unfold Pair.advance Pair.first
    rw [hrefuses]
  have hdeliver : Pair.deliver call = Pair.deliver call' := by
    funext r
    rw [Pair.deliver_of_serves hwants hserves, Pair.deliver_of_serves hwants' hserves']
  unfold Pair.step
  rw [← hchunk, haccepts, hadvance, hdeliver]

end OneCall

/-! ### Two contexts -/

/-- Two contexts that no sender can tell apart: they have the same messages in
progress, and tables of the same size. -/
structure Ctx.Alike (ctx ctx' : Ctx) : Prop where
  left : Inv ctx
  right : Inv ctx'
  setup : ctx.setup.Alike ctx'.setup
  length_rx : ctx.rx.length = ctx'.rx.length
  inProgress : ∀ sig, ctx.inProgress sig = ctx'.inProgress sig

/-- They have room for the same pairs. -/
theorem Ctx.Alike.room_iff {ctx ctx' : Ctx} (h : ctx.Alike ctx') (sig : UInt32) :
    ctx.Room sig ↔ ctx'.Room sig :=
  ⟨Ctx.room_congr h.left h.right h.length_rx.symm fun s => (h.inProgress s).symm,
    Ctx.room_congr h.right h.left h.length_rx h.inProgress⟩

/-- A chunk that two contexts take, each in its way. -/
structure Arrival where
  chunk : CanMessage
  leftApi : Api
  leftAlloc : Alloc
  rightApi : Api
  rightAlloc : Alloc

/-- The call of the first context. -/
def Arrival.left (a : Arrival) : Call := ⟨a.leftApi, a.chunk, a.leftAlloc⟩

/-- The call of the second context. -/
def Arrival.right (a : Arrival) : Call := ⟨a.rightApi, a.chunk, a.rightAlloc⟩

/-- Both callers take the messages that are completed, and have memory for them. -/
structure Arrival.Served (a : Arrival) (rxStatic rxStatic' : Bool) : Prop where
  wantsLeft : a.leftApi.wantsMessage = true
  wantsRight : a.rightApi.wantsMessage = true
  left : a.leftAlloc.Serves rxStatic a.leftApi
  right : a.rightAlloc.Serves rxStatic' a.rightApi

/-- **One chunk is answered alike**, and the contexts stay alike. -/
theorem Ctx.Alike.step {ctx ctx' : Ctx} (h : ctx.Alike ctx') {a : Arrival}
    (hserved : a.Served ctx.rxStatic ctx'.rxStatic) :
    (receiver.step ctx a.left).2.answer = (receiver.step ctx' a.right).2.answer ∧
      (receiver.step ctx a.left).1.Alike (receiver.step ctx' a.right).1 := by
  have hspec := receiver_step_spec h.left a.left
  have hspec' := receiver_step_spec h.right a.right
  have hroom : decide (ctx.Room (channelSig a.chunk.id)) =
      decide (ctx'.Room (channelSig a.chunk.id)) := decide_eq_decide.mpr (h.room_iff _)
  have hown : ((receiver.step ctx a.left).1.inProgress (channelSig a.chunk.id),
        (receiver.step ctx a.left).2.answer) =
      ((receiver.step ctx' a.right).1.inProgress (channelSig a.chunk.id),
        (receiver.step ctx' a.right).2.answer) :=
    calc
      _ = Pair.step ctx.setup (decide (ctx.Room (channelSig a.chunk.id)))
          (ctx.inProgress (channelSig a.chunk.id)) a.left := hspec.own
      _ = Pair.step ctx'.setup (decide (ctx'.Room (channelSig a.chunk.id)))
          (ctx'.inProgress (channelSig a.chunk.id)) a.right := by
        rw [hroom, h.inProgress]
        exact Pair.step_congr h.setup a.left a.right rfl hserved.wantsLeft hserved.wantsRight
          hserved.left hserved.right _ _
      _ = _ := hspec'.own.symm
  obtain ⟨hprog, hanswer⟩ := Prod.mk.inj hown
  refine ⟨hanswer, hspec.inv, hspec'.inv, ?_, ?_, fun sig => ?_⟩
  · rw [hspec.setup, hspec'.setup]
    exact h.setup
  · rw [hspec.length_rx, hspec'.length_rx]
    exact h.length_rx
  · by_cases hsig : sig = channelSig a.chunk.id
    · rw [hsig]
      exact hprog
    · rw [hspec.other sig hsig, hspec'.other sig hsig]
      exact h.inProgress sig

/-- Two contexts that were set up with the same addresses and sizes are alike. -/
theorem Ctx.Initial.alike {ctx ctx' : Ctx} (h : ctx.Initial) (h' : ctx'.Initial)
    (hsetup : ctx.setup.Alike ctx'.setup) (hchannels : ctx.maxChannels = ctx'.maxChannels) :
    ctx.Alike ctx' where
  left := h.inv
  right := h'.inv
  setup := hsetup
  length_rx := by rw [h.inv.length_rx, h'.inv.length_rx, hchannels]
  inProgress sig := by rw [h.inProgress, h'.inProgress]

/-- **The ways to receive agree.**  Two contexts that were set up with the same address,
monitoring, number of slots and limit on the data, whether on the heap or in memory of
the application, get the same chunks, and take each by `addChunk` or `addChunkView` as
they please, with memory for what they allocate.  Then every chunk has the same result
with both, and delivers the same message. -/
theorem receive_ways_agree {ctx ctx' : Ctx} (h : ctx.Initial) (h' : ctx'.Initial)
    (hown : ctx.ownAddress = ctx'.ownAddress) (hmonitoring : ctx.monitoring = ctx'.monitoring)
    (hchannels : ctx.maxChannels = ctx'.maxChannels) (hmax : ctx.maxPayload = ctx'.maxPayload)
    (hpos : 0 < ctx.maxPayload) (arrivals : List Arrival)
    (hserved : ∀ a ∈ arrivals, a.Served ctx.rxStatic ctx'.rxStatic) :
    (receiver.outputs ctx (arrivals.map Arrival.left)).map Reply.answer =
      (receiver.outputs ctx' (arrivals.map Arrival.right)).map Reply.answer := by
  have hsetup : ctx.setup.Alike ctx'.setup :=
    ⟨hown, hmonitoring, hmax, UInt16.pos_iff_ne_zero.mp hpos⟩
  have halike := h.alike h' hsetup hchannels
  clear h h' hown hmonitoring hchannels hmax hpos hsetup
  induction arrivals generalizing ctx ctx' with
  | nil => rfl
  | cons a arrivals ih =>
    obtain ⟨hanswer, hnext⟩ := halike.step (hserved a List.mem_cons_self)
    have hkind : (receiver.step ctx a.left).1.rxStatic = ctx.rxStatic :=
      congrArg Setup.rxStatic (receiver_step_spec halike.left a.left).setup
    have hkind' : (receiver.step ctx' a.right).1.rxStatic = ctx'.rxStatic :=
      congrArg Setup.rxStatic (receiver_step_spec halike.right a.right).setup
    have hrest := ih (fun b hb => by
      rw [hkind, hkind']
      exact hserved b (List.mem_cons_of_mem a hb)) hnext
    simp only [List.map_cons, receiver.outputs_cons, hanswer, hrest]

/-- One slot, for eight bytes of data at most, on the heap or in memory of the
application. -/
def eightBytes (rxStatic : Bool) : Config where
  ownAddress := 2
  maxChunkLength := 8
  maxChannels := 1
  monitoring := false
  maxPayload := 8
  rxBuffers := rxStatic
  rxPayload := some (List.replicate 8 0)
  rxPayload_length := fun mem h => by
    obtain rfl := Option.some.inj h
    decide

/-- The contexts that are set up with it. -/
def Ctx.eightBytes (rxStatic : Bool) : Ctx where
  ownAddress := 2
  maxChunkLength := 8
  monitoring := false
  maxChannels := 1
  rx := [{}]
  maxPayload := 8
  rxPayload := if rxStatic then List.replicate 8 0 else []
  rxStatic := rxStatic
  rxView := none
  heapAllocs := 0
  heapFrees := 0

theorem Ctx.eightBytes_initial (rxStatic : Bool) : (Ctx.eightBytes rxStatic).Initial :=
  ⟨Protoplexer.eightBytes rxStatic, Or.inr ⟨true, by cases rxStatic <;> rfl⟩⟩

/-- A message that is copied out of the heap by one receiver, and looked at in the
application's memory by the other. -/
def smallArrival (maxChunkLength : UInt16) : Arrival where
  chunk := (smallCall 5 maxChunkLength).chunk
  leftApi := .addChunk true
  leftAlloc := .ample
  rightApi := .addChunkView true true
  rightAlloc := .heapless

theorem receive_ways_agree_eightBytes :
    (receiver.outputs (Ctx.eightBytes false)
        ([smallArrival 8, smallArrival 6].map Arrival.left)).map Reply.answer =
      (receiver.outputs (Ctx.eightBytes true)
        ([smallArrival 8, smallArrival 6].map Arrival.right)).map Reply.answer := by
  have hserved : ∀ maxChunkLength, (smallArrival maxChunkLength).Served false true := fun _ =>
    ⟨rfl, rfl, ⟨fun _ => rfl, fun _ _ => ⟨rfl, rfl⟩⟩, ⟨fun h => absurd h (by simp),
      fun outMsg h => absurd h (by simp [smallArrival])⟩⟩
  refine receive_ways_agree (Ctx.eightBytes_initial false) (Ctx.eightBytes_initial true) rfl rfl
    rfl rfl (by decide) [smallArrival 8, smallArrival 6] fun a ha => ?_
  rcases List.mem_pair.mp ha with rfl | rfl
  · exact hserved 8
  · exact hserved 6

end Protoplexer
end UniCan
