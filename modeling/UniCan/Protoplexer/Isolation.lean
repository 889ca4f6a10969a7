import Mathlib.Data.Finset.Card
import UniCan.Protoplexer.Refine

/-!
# Pairs do not disturb each other

A receiver with a slot for everybody is a family of independent receivers, one for
each pair: what a pair gets to see, the results of its calls and the messages they
deliver, is what it would see if it were alone.

## Main definitions

* `Ctx.takes` — the chunks that get past the length and address checks.
* `Ctx.pairs` — the pairs of these chunks in a list of calls.

## Main results

* `receiver_splits` — the receiver splits into the machines of its pairs as long
  as no pair is turned away.
* `receiver_isolation` — **isolation**: with at most as many pairs as slots, each
  pair sees its own receiver; and whatever there is in the table, a call changes
  only the slot of its own pair and the slot of the view.
-/

namespace UniCan
namespace Protoplexer

/-- The chunk gets past the checks of its length and of its address. -/
def Setup.takes (s : Setup) (chunk : CanMessage) : Bool :=
  decide (chunk.len.toNat ≤ maxLen) && s.accepts chunk.id

/-- What a caller gets to see of a reply. -/
def Reply.answer (r : Reply) : Result × Option Msg := (r.result, r.message)

/-! ### The machine of a pair -/

section Pair

variable {setup : Setup} {r : Option Reassembly} {call : Call}

/-- A chunk that is not taken is answered without a look at the table. -/
theorem Pair.step_of_not_takes (h : setup.takes call.chunk = false) (room : Bool) :
    Pair.step setup room r call = (r, (Pair.step setup true r call).2) := by
  unfold Pair.step
  by_cases hlen : call.chunk.len.toNat > maxLen
  · simp only [hlen, if_true]
  · have haccept : setup.accepts call.chunk.id = false := by
      simpa [Setup.takes, Nat.le_of_not_lt hlen] using h
    simp only [hlen, if_false, haccept, Bool.not_false, if_true]

/-- The pair of a call makes a step of its machine, if it gets a slot. -/
theorem CallSpec.own_machine {ctx ctx' : Ctx} {reply : Reply} (h : CallSpec ctx call ctx' reply)
    (hroom : ctx.setup.takes call.chunk = true → ctx.Room (channelSig call.chunk.id)) :
    (ctx'.inProgress (channelSig call.chunk.id), reply.answer) =
      (Pair.machine ctx.setup).step (ctx.inProgress (channelSig call.chunk.id)) call := by
  refine h.own.trans ?_
  cases htakes : ctx.setup.takes call.chunk with
  | true => rw [decide_eq_true (hroom htakes)]; rfl
  | false =>
    rw [Pair.step_of_not_takes htakes]
    exact (Pair.step_of_not_takes htakes true).symm

end Pair

/-! ### The receiver as a family of pairs -/

/-- **The receiver splits into its pairs** on a set of states and calls where no
chunk that is taken finds the table full. -/
theorem receiver_splits (setup : Setup) (R : Ctx → Prop) (J : Call → Prop)
    (hR : ∀ ctx call, Inv ctx → ctx.setup = setup → R ctx → J call →
      R (receiver.step ctx call).1)
    (hroom : ∀ ctx call, Inv ctx → ctx.setup = setup → R ctx → J call →
      setup.takes call.chunk = true → ctx.Room (channelSig call.chunk.id)) :
    receiver.Splits (Pair.machine setup) Reply.answer (fun call => channelSig call.chunk.id)
      Ctx.inProgress (fun ctx => Inv ctx ∧ ctx.setup = setup ∧ R ctx) J where
  inv ctx call := by
    rintro ⟨hinv, hsetup, hr⟩ hj
    have hspec := receiver_step_spec hinv call
    exact ⟨hspec.inv, hspec.setup.trans hsetup, hR ctx call hinv hsetup hr hj⟩
  out ctx call := by
    rintro ⟨hinv, rfl, hr⟩ hj
    have hown := (receiver_step_spec hinv call).own_machine (hroom ctx call hinv rfl hr hj)
    exact congrArg Prod.snd hown
  own ctx call := by
    rintro ⟨hinv, rfl, hr⟩ hj
    have hown := (receiver_step_spec hinv call).own_machine (hroom ctx call hinv rfl hr hj)
    exact congrArg Prod.fst hown
  other ctx call sig := by
    rintro ⟨hinv, -, -⟩ - hne
    exact (receiver_step_spec hinv call).other sig hne

/-! ### Room for everybody -/

/-- Only the pairs in `P` have a message in progress. -/
def Ctx.Within (ctx : Ctx) (P : Finset UInt32) : Prop :=
  ∀ sig r, ctx.inProgress sig = some r → sig ∈ P

/-- A table with as many slots as there are pairs has one for each of them. -/
theorem Ctx.Within.room {ctx : Ctx} {P : Finset UInt32} (h : Inv ctx) (hP : ctx.Within P)
    (hcard : P.card ≤ ctx.rx.length) {sig : UInt32} (hsig : sig ∈ P) : ctx.Room sig := by
  by_contra hno
  have hforeign : ∀ i, i < ctx.rx.length → ctx.Foreign sig i := by
    intro i hi
    by_contra hf
    exact hno ⟨i, hi, hf⟩
  -- every slot serves a pair of its own, and none of them is `sig`
  have hmaps : Set.MapsTo (fun i => (ctx.buffer i).channelSignature)
      (Finset.range ctx.rx.length) (P.erase sig) := by
    intro i hi
    have hlt : i < ctx.rx.length := by simpa using hi
    obtain ⟨huse, hview, hne⟩ := hforeign i hlt
    have hprog : ctx.inProgress (ctx.buffer i).channelSignature = some (ctx.reassembly i) :=
      (Ctx.inProgress_eq_some h).mpr ⟨i, ⟨hlt, huse, rfl, hview⟩, rfl⟩
    exact Finset.mem_coe.mpr (Finset.mem_erase.mpr ⟨hne, hP _ _ hprog⟩)
  have hinj : Set.InjOn (fun i => (ctx.buffer i).channelSignature)
      (Finset.range ctx.rx.length) := by
    intro i hi j hj heq
    have hi' : i < ctx.rx.length := by simpa using hi
    have hj' : j < ctx.rx.length := by simpa using hj
    exact h.unique i j hi' hj' (hforeign i hi').1 (hforeign j hj').1 heq
  have hle := Finset.card_le_card_of_injOn _ hmaps hinj
  rw [Finset.card_range, Finset.card_erase_of_mem hsig] at hle
  have hpos : 0 < P.card := Finset.card_pos.mpr ⟨sig, hsig⟩
  omega

/-- A call adds no pair but that of a chunk that is taken. -/
theorem Ctx.Within.step {ctx : Ctx} {P : Finset UInt32} (h : Inv ctx) (hP : ctx.Within P)
    {call : Call} (hsig : ctx.setup.takes call.chunk = true → channelSig call.chunk.id ∈ P) :
    (receiver.step ctx call).1.Within P := by
  intro sig r hr
  have hspec := receiver_step_spec h call
  by_cases hown : sig = channelSig call.chunk.id
  · subst hown
    cases htakes : ctx.setup.takes call.chunk with
    | true => exact hsig htakes
    | false =>
      have hsame := congrArg Prod.fst hspec.own
      rw [Pair.step_of_not_takes htakes] at hsame
      exact hP _ r (hsame.symm.trans hr)
  · rw [hspec.other sig hown] at hr
    exact hP sig r hr

/-! ### Isolation -/

/-- The pairs (from, to) whose chunks get past the checks of this context. -/
def Ctx.pairs (ctx : Ctx) (calls : List Call) : Finset (UInt16 × UInt16) :=
  ((calls.filter fun call => ctx.setup.takes call.chunk).map
    fun call => pairOf call.chunk.id).toFinset

theorem Ctx.mem_pairs {ctx : Ctx} {calls : List Call} {call : Call} (hmem : call ∈ calls)
    (htakes : ctx.setup.takes call.chunk = true) : pairOf call.chunk.id ∈ ctx.pairs calls := by
  rw [Ctx.pairs, List.mem_toFinset]
  exact List.mem_map_of_mem (List.mem_filter.mpr ⟨hmem, htakes⟩)

/-- Without too many pairs, a pair of a context that was just set up sees its own
machine. -/
theorem outputs_of_pair {ctx : Ctx} (h : ctx.Initial) {calls : List Call} {P : Finset UInt32}
    (hcard : P.card ≤ ctx.maxChannels.toNat)
    (hcalls : ∀ call ∈ calls, ctx.setup.takes call.chunk = true → channelSig call.chunk.id ∈ P)
    (sig : UInt32) :
    (receiver.outputsOf (fun call => channelSig call.chunk.id) sig ctx calls).map Reply.answer =
      (Pair.machine ctx.setup).outputs none
        (calls.filter fun call => channelSig call.chunk.id = sig) := by
  have hsplits := receiver_splits ctx.setup
    (fun c => c.rx.length = ctx.rx.length ∧ c.Within P)
    (fun call => ctx.setup.takes call.chunk = true → channelSig call.chunk.id ∈ P)
    (fun c call hinv hsetup hR hJ => ⟨(receiver_step_spec hinv call).length_rx.trans hR.1,
      hR.2.step hinv (by rw [hsetup]; exact hJ)⟩)
    (fun c call hinv hsetup hR hJ htakes => hR.2.room hinv
      (by rw [hR.1, h.inv.length_rx]; exact hcard) (hJ htakes))
  have hwithin : ctx.Within P := by
    intro s r hr
    rw [h.inProgress s] at hr
    exact absurd hr (by simp)
  rw [hsplits.outputs_of_key sig calls ctx ⟨h.inv, rfl, rfl, hwithin⟩ hcalls, h.inProgress]

/-- **Isolation.**  When at most as many pairs as the table has slots get past the
checks, the calls of a pair are answered as if they were the only ones, whatever
the other calls are and however the allocator answers.  And in any context a call
changes, of the slots in use, only the slot of its own pair and the one that was
given out as a view; no slot at all changes but one and the one of the view; and
a slot in use for another pair was so before. -/
theorem receiver_isolation :
    (∀ ctx : Ctx, ctx.Initial → ∀ calls : List Call,
      (ctx.pairs calls).card ≤ ctx.maxChannels.toNat → ∀ canId : UInt32,
        (receiver.outputsOf (fun call => pairOf call.chunk.id) (pairOf canId) ctx calls).map
            Reply.answer =
          (receiver.outputs ctx
            (calls.filter fun call => pairOf call.chunk.id = pairOf canId)).map Reply.answer) ∧
    (∀ ctx : Ctx, ctx.Reachable → ∀ call : Call,
      (∀ i, i < ctx.rx.length → (ctx.buffer i).inUse = true → ctx.rxView ≠ some i →
        (ctx.buffer i).channelSignature ≠ channelSig call.chunk.id →
          (receiver.step ctx call).1.buffer i = ctx.buffer i ∧
            (receiver.step ctx call).1.reassembly i = ctx.reassembly i) ∧
      (∃ i, ∀ j, j < ctx.rx.length → j ≠ i → ctx.rxView ≠ some j →
        (receiver.step ctx call).1.buffer j = ctx.buffer j) ∧
      (∀ i, ((receiver.step ctx call).1.buffer i).inUse = true →
        (receiver.step ctx call).1.rxView ≠ some i →
        ((receiver.step ctx call).1.buffer i).channelSignature ≠ channelSig call.chunk.id →
          (ctx.buffer i).inUse = true ∧ ctx.rxView ≠ some i)) := by
  refine ⟨fun ctx h calls hpairs canId => ?_, fun ctx h call => ?_⟩
  · -- the pairs, by their signatures
    set P : Finset UInt32 := (ctx.pairs calls).image fun p => pairSig p.1 p.2
    have hcard : P.card ≤ ctx.maxChannels.toNat := le_trans Finset.card_image_le hpairs
    have hcalls : ∀ call ∈ calls, ctx.setup.takes call.chunk = true →
        channelSig call.chunk.id ∈ P := fun call hmem htakes =>
      Finset.mem_image.mpr ⟨pairOf call.chunk.id, Ctx.mem_pairs hmem htakes, rfl⟩
    have hkey : ∀ call : Call, pairOf call.chunk.id = pairOf canId ↔
        channelSig call.chunk.id = channelSig canId := fun call =>
      (channelSig_eq_iff call.chunk.id canId).symm
    simp only [receiver.outputsOf_congr hkey, hkey]
    rw [outputs_of_pair h hcard hcalls]
    have halone : ∀ call ∈ calls.filter (fun c => channelSig c.chunk.id = channelSig canId),
        channelSig call.chunk.id = channelSig canId := fun call hmem => by
      simpa using (List.mem_filter.mp hmem).2
    rw [← receiver.outputsOf_of_forall ctx halone,
      outputs_of_pair h hcard fun call hmem => hcalls call (List.mem_filter.mp hmem).1]
    simp
  · have hspec := receiver_step_spec h.inv call
    refine ⟨fun i hi huse hview hsig => hspec.kept hi ⟨huse, hview, hsig⟩, ?_,
      fun i huse hview hsig => ?_⟩
    · obtain ⟨i, -, hslot⟩ := hspec.slot
      exact ⟨i, fun j hj hji hview => (hslot j hj hji hview).1⟩
    · obtain ⟨huse', hview', -⟩ := hspec.taken i ⟨huse, hview, hsig⟩
      exact ⟨huse', hview'⟩

/-- The first chunk of the message, as a call. -/
def smallCall (messageId : UInt16) (maxChunkLength : UInt16) : Call :=
  ⟨.addChunk true, chunkAt (smallMsg messageId) maxChunkLength 0, .ample⟩

/-- A chunk of a message of three, as a call. -/
def longCall (addressFrom messageId : UInt16) (i : ℕ) : Call :=
  ⟨.addChunk true, chunkAt (longMsg addressFrom messageId) 6 i, .ample⟩

/-- The chunks of two senders come in turn, and there are two slots: the first one is answered
as if the other were not there, and a chunk of the other one leaves its slot alone. -/
theorem receiver_isolation_monitor :
    (receiver.outputsOf (fun call => pairOf call.chunk.id) (1, 2) Ctx.monitor
        [longCall 1 5 0, longCall 3 6 0, longCall 3 6 1, longCall 1 5 1, longCall 3 6 2,
          longCall 1 5 2]).map Reply.answer =
      (receiver.outputs Ctx.monitor [longCall 1 5 0, longCall 1 5 1, longCall 1 5 2]).map
        Reply.answer ∧
    (receiver.final Ctx.monitor [longCall 1 5 0, longCall 3 6 0]).reassembly 0 =
      (receiver.final Ctx.monitor [longCall 1 5 0]).reassembly 0 := by
  have hreachable : (receiver.final Ctx.monitor [longCall 1 5 0]).Reachable :=
    ⟨Ctx.monitor, Ctx.monitor_initial, [longCall 1 5 0], rfl⟩
  constructor
  · exact receiver_isolation.1 Ctx.monitor Ctx.monitor_initial
      [longCall 1 5 0, longCall 3 6 0, longCall 3 6 1, longCall 1 5 1, longCall 3 6 2,
        longCall 1 5 2] (by decide) (longCall 1 5 0).chunk.id
  · exact ((receiver_isolation.2 _ hreachable (longCall 3 6 0)).1 0 (by decide) (by decide)
      (by decide) (by decide)).2

end Protoplexer
end UniCan
