import UniCan.Protoplexer.Link

/-!
# One message after the other

A receiver that has nothing in progress takes the chunks of messages of any pairs, one
message after the other.  It never holds more than the message it is at, so that one slot
is enough for any number of pairs.

## Main definitions

* `Ctx.Idle` — no message is in progress.
* `Transfer.Holds` — the chunks of a message so far are all a receiver holds.
* `Setup.Welcomes` — a message a receiver with this setup takes.
* `delivered` — the messages in some replies.

## Main results

* `Transfer.Holds.step` — the next chunk of a message.
* `receiver_sequence` — **the messages of a stream are delivered** as far as it has come.
-/

namespace UniCan
namespace Protoplexer

/-- No message is in progress. -/
def Ctx.Idle (ctx : Ctx) : Prop := ∀ sig, ctx.inProgress sig = none

/-- A context with this setup that can take a message. -/
structure Ctx.Ready (ctx : Ctx) (setup : Setup) : Prop where
  inv : Inv ctx
  sameSetup : ctx.setup = setup
  slots : 0 < ctx.rx.length

theorem Ctx.Ready.step {ctx : Ctx} {setup : Setup} (h : ctx.Ready setup) (call : Call) :
    (receiver.step ctx call).1.Ready setup := by
  have hspec := receiver_step_spec h.inv call
  exact ⟨hspec.inv, hspec.setup.trans h.sameSetup, by rw [hspec.length_rx]; exact h.slots⟩

/-- The messages in some replies. -/
def delivered (replies : List Reply) : List Content :=
  replies.filterMap fun r => r.message.map Msg.content

theorem delivered_append (replies replies' : List Reply) :
    delivered (replies ++ replies') = delivered replies ++ delivered replies' :=
  List.filterMap_append ..

/-- The call, whenever its chunk was received. -/
def Call.untimed (call : Call) : Call := { call with chunk := call.chunk.stamped 0 }

/-- A receiver does not look at the time of its chunks. -/
theorem receiver_step_untimed (ctx : Ctx) (call : Call) :
    receiver.step ctx call.untimed = receiver.step ctx call := by
  have hchunk : ∀ ctx, rxAddChunk call.alloc ctx (call.chunk.stamped 0) =
      rxAddChunk call.alloc ctx call.chunk := fun _ => rfl
  cases hapi : call.api with
  | addChunk outMsg =>
    simp only [receiver, Call.untimed, hapi, addChunk, hchunk]
  | addChunkView outMsg outComplete =>
    simp only [receiver, Call.untimed, hapi, addChunkView, hchunk]

theorem outputs_untimed (ctx : Ctx) (calls : List Call) :
    receiver.outputs ctx (calls.map Call.untimed) = receiver.outputs ctx calls := by
  induction calls generalizing ctx with
  | nil => rfl
  | cons call calls ih =>
    rw [List.map_cons, receiver.outputs_cons, receiver.outputs_cons, receiver_step_untimed, ih]

/-- Messages, whenever they were received. -/
def untimed (msgs : List CanMessage) : List CanMessage := msgs.map (·.stamped 0)

theorem untimed_append (msgs msgs' : List CanMessage) :
    untimed (msgs ++ msgs') = untimed msgs ++ untimed msgs' := List.map_append ..

/-- A chunk that is sent has no time. -/
theorem untimed_chunksOf {m : UInt16} (hm : ChunkLengthOk m) {msg : Msg} (h : msg.HasData) :
    untimed (chunksOf msg m) = chunksOf msg m := by
  rw [untimed, chunksOf_eq hm h, List.map_map]
  rfl

/-! ### One message -/

section Transfer

variable {setup : Setup} {f t : UInt16}

/-- What a context holds when it has taken `j` chunks of a message, and not all of them. -/
def Transfer.Holds (x : Transfer setup f t) (ctx : Ctx) : ℕ → Prop
  | 0 => ctx.Idle
  | j + 1 => ∃ r, x.Partial (j + 1) true r ∧ ctx.inProgress (pairSig f t) = some r ∧
      ∀ sig, sig ≠ pairSig f t → ctx.inProgress sig = none

variable {x : Transfer setup f t} {ctx : Ctx} {j : ℕ}

theorem Transfer.Holds.other (h : x.Holds ctx j) {sig : UInt32} (hne : sig ≠ pairSig f t) :
    ctx.inProgress sig = none := by
  cases j with
  | zero => exact h sig
  | succ j =>
    obtain ⟨r, -, -, hother⟩ := h
    exact hother sig hne

variable (hf : addressValid f = true) (ht : addressValid t = true)
  (hown : setup.monitoring = true ∨ setup.ownAddress = t)
  (hwants : ∀ i, (x.api i).wantsMessage = true)

include hf ht

theorem Transfer.Holds.advance (h : x.Holds ctx j) (hj : j < x.count) :
    ∃ r, x.Partial (j + 1) true r ∧
      Pair.advance setup (x.alloc j) (ctx.inProgress (pairSig f t)) (x.call j).chunk =
        Pair.finish r := by
  cases j with
  | zero => exact x.advance_first hf ht _
  | succ j =>
    obtain ⟨r, hpart, hr, -⟩ := h
    rw [hr]
    exact hpart.advance (Nat.succ_pos j) hj

include hown hwants

/-- **The next chunk of a message**: it is fine, and the last one delivers the message and
leaves nothing behind. -/
theorem Transfer.Holds.step (h : x.Holds ctx j) (hready : ctx.Ready setup) (hj : j < x.count) :
    (receiver.step ctx (x.call j)).2.message.map Msg.content =
        (if j + 1 = x.count then some x.msg.content else none) ∧
      if j + 1 = x.count then (receiver.step ctx (x.call j)).1.Idle
      else x.Holds (receiver.step ctx (x.call j)).1 (j + 1) := by
  have hspec := receiver_step_spec hready.inv (x.call j)
  have hsig : channelSig (x.call j).chunk.id = pairSig f t := by
    obtain ⟨hfrom, hto⟩ := x.pair_call hf ht j
    rw [channelSig, hfrom, hto, pairSig]
  have hmachine := hspec.own_machine fun _ => by
    rw [hsig]
    exact Ctx.room_of_alone hready.inv hready.slots fun sig hne => h.other hne
  rw [hsig, hready.sameSetup] at hmachine
  obtain ⟨r, hpart, hadvance⟩ := h.advance hf ht hj
  obtain ⟨hanswer, hmore, hlast⟩ := hpart.machine_step hf ht hown hj hadvance
  have hstate := congrArg Prod.fst hmachine
  have hreply := congrArg Prod.snd ((congrArg (fun p => seen p.2) hmachine).trans hanswer)
  simp only [seen, Reply.answer, Transfer.answer, hwants, x.length_chunks, Bool.true_and,
    Bool.and_self, Bool.and_true, beq_iff_eq] at hreply
  have hnone : ∀ sig, sig ≠ pairSig f t →
      (receiver.step ctx (x.call j)).1.inProgress sig = none := fun sig hne => by
    rw [hspec.other sig (by rwa [hsig])]
    exact h.other hne
  refine ⟨hreply, ?_⟩
  split_ifs with hend
  · intro sig
    by_cases hown' : sig = pairSig f t
    · rw [hown']
      exact hstate.trans (hlast rfl hend)
    · exact hnone sig hown'
  · exact ⟨r, hpart, hstate.trans (hmore (by omega)), hnone⟩

/-- **Some chunks of a message** that follow those the context holds. -/
theorem Transfer.Holds.run (n : ℕ) {ctx : Ctx} {j : ℕ} (h : x.Holds ctx j)
    (hready : ctx.Ready setup) (hlt : j < x.count) (hn : j + n ≤ x.count) :
    (receiver.final ctx ((List.range' j n).map x.call)).Ready setup ∧
      if j + n = x.count then
        (receiver.final ctx ((List.range' j n).map x.call)).Idle ∧
          delivered (receiver.outputs ctx ((List.range' j n).map x.call)) = [x.msg.content]
      else delivered (receiver.outputs ctx ((List.range' j n).map x.call)) = [] := by
  induction n generalizing ctx j with
  | zero =>
    refine ⟨hready, ?_⟩
    rw [if_neg (by omega)]
    rfl
  | succ n ih =>
    obtain ⟨hmessage, hnext⟩ := h.step hf ht hown hwants hready hlt
    have hready' := hready.step (x.call j)
    rw [List.range'_succ, List.map_cons, receiver.final_cons, receiver.outputs_cons]
    by_cases hend : j + 1 = x.count
    · -- the last one
      obtain rfl : n = 0 := by omega
      rw [if_pos hend] at hmessage hnext
      refine ⟨hready', ?_⟩
      rw [if_pos (by omega)]
      exact ⟨hnext, by simp [delivered, hmessage]⟩
    · rw [if_neg hend] at hmessage hnext
      obtain ⟨hfinal, hrest⟩ := ih hnext hready' (by omega) (by omega)
      refine ⟨hfinal, ?_⟩
      have hcount : j + 1 + n = j + (n + 1) := by omega
      have hskip : ∀ replies, delivered ((receiver.step ctx (x.call j)).2 :: replies) =
          delivered replies := fun replies => by simp [delivered, hmessage]
      rw [hcount] at hrest
      rw [hskip]
      exact hrest

end Transfer

/-! ### A stream of messages -/

/-- A message a receiver with this setup takes. -/
structure Setup.Welcomes (setup : Setup) (msg : Msg) : Prop where
  addressed : msg.Addressed
  hasData : msg.HasData
  own : setup.monitoring = true ∨ setup.ownAddress = msg.addressTo
  fits : setup.Limited → msg.length ≤ setup.maxPayload

/-- A call that takes its chunk, and a message the chunk completes. -/
def Call.Takes (call : Call) (setup : Setup) : Prop :=
  call.api.wantsMessage = true ∧ call.alloc.Serves setup.rxStatic call.api

/-- The call that is made where none is in a list. -/
def Call.blank : Call := ⟨.addChunkView true true, {}, .ample⟩

theorem Call.takes_blank (setup : Setup) : Call.blank.Takes setup :=
  ⟨rfl, fun _ => rfl, fun _ h => absurd h (by simp [Call.blank])⟩

section Stream

variable {setup : Setup} {m : UInt16} (hm : ChunkLengthOk m)

include hm

/-- The calls that take the first chunks of a message are those of a transfer. -/
theorem Setup.Welcomes.transfer {msg : Msg} (h : setup.Welcomes msg) {calls : List Call}
    (htakes : ∀ call ∈ calls, call.Takes setup)
    (hcalls : calls.map Call.chunk = (chunksOf msg m).take calls.length) :
    ∃ x : Transfer setup msg.addressFrom msg.addressTo, x.msg = msg ∧
      x.count = (chunksOf msg m).length ∧ (∀ i, (x.api i).wantsMessage = true) ∧
        calls = (List.range' 0 calls.length).map x.call := by
  have hblank : ∀ i, (calls.getD i .blank).Takes setup := by
    intro i
    by_cases hi : i < calls.length
    · rw [List.getD_eq_getElem _ _ hi]
      exact htakes _ (List.getElem_mem hi)
    · rw [List.getD_eq_default _ _ (Nat.le_of_not_lt hi)]
      exact Call.takes_blank setup
  refine ⟨h.addressed.transfer (fun i => (calls.getD i .blank).api)
    (fun i => (calls.getD i .blank).alloc) h.hasData hm h.fits fun i => (hblank i).2, rfl,
    (length_chunksOf hm h.hasData).symm, fun i => (hblank i).1, ?_⟩
  have hle : calls.length ≤ chunksCount msg.length m := by
    have hlen := congrArg List.length hcalls
    rw [List.length_map, List.length_take, length_chunksOf hm h.hasData] at hlen
    omega
  apply List.ext_getElem (by simp)
  intro i hi hi'
  have hchunk : calls[i].chunk = chunkAt msg m i := by
    have hget := congrArg (fun chunks => chunks[i]?) hcalls
    rw [List.getElem?_map, List.getElem?_eq_getElem hi, List.getElem?_take_of_lt hi,
      chunksOf_eq hm h.hasData, List.getElem?_map, List.getElem?_range (by omega)] at hget
    exact Option.some.inj hget
  rw [List.getElem_map, List.getElem_range', Nat.zero_add, Nat.one_mul]
  simp only [Transfer.call, Msg.Addressed.transfer, List.getD_eq_getElem _ _ hi]
  rw [← hchunk]

/-- **The messages of a stream are delivered**, those whose chunks were all taken, in order,
and no others: `calls` take the first chunks of the messages `msgs`, one message after the
other. -/
theorem receiver_sequence (msgs : List Msg) {ctx : Ctx} (hready : ctx.Ready setup)
    (hidle : ctx.Idle) (hmsgs : ∀ msg ∈ msgs, setup.Welcomes msg) {calls : List Call}
    (htakes : ∀ call ∈ calls, call.Takes setup)
    (hcalls : calls.map Call.chunk <+: msgs.flatMap fun msg => chunksOf msg m) :
    ∃ done rest j, msgs = done ++ rest ∧ (∀ msg ∈ rest.head?, j < (chunksOf msg m).length) ∧
      calls.map Call.chunk = (done.flatMap fun msg => chunksOf msg m) ++
        (rest.flatMap fun msg => chunksOf msg m).take j ∧
      delivered (receiver.outputs ctx calls) = done.map Msg.content := by
  induction msgs generalizing ctx calls with
  | nil =>
    obtain rfl : calls = [] := by simpa using hcalls
    exact ⟨[], [], 0, rfl, fun _ h => absurd h (by simp), rfl, rfl⟩
  | cons msg later ih =>
    have hmsg := hmsgs msg List.mem_cons_self
    have hprefix := List.prefix_iff_eq_take.mp hcalls
    rw [List.flatMap_cons, List.length_map] at hprefix
    have hpos : 0 < (chunksOf msg m).length := by
      rw [length_chunksOf hm hmsg.hasData]
      exact chunksCount_pos hm msg.length
    by_cases hlt : calls.length < (chunksOf msg m).length
    · -- the stream ends within this message
      rw [List.take_append_of_le_length (Nat.le_of_lt hlt)] at hprefix
      obtain ⟨x, -, hcount, hwants, hx⟩ := hmsg.transfer hm htakes hprefix
      have hrun := (Transfer.Holds.run hmsg.addressed.addressFrom hmsg.addressed.addressTo
        hmsg.own hwants calls.length (j := 0) hidle hready (by omega) (by omega)).2
      rw [if_neg (by omega), ← hx] at hrun
      refine ⟨[], msg :: later, calls.length, rfl, fun first hfirst => ?_, ?_, hrun⟩
      · obtain rfl : msg = first := by simpa using hfirst
        exact hlt
      · rw [List.flatMap_nil, List.nil_append, List.flatMap_cons,
          List.take_append_of_le_length (Nat.le_of_lt hlt)]
        exact hprefix
    · -- the message is delivered, and the rest follows
      have hle := Nat.le_of_not_lt hlt
      set n := (chunksOf msg m).length with hn
      have hlen : (calls.take n).length = n := List.length_take_of_le hle
      have hsplit : calls = calls.take n ++ calls.drop n := (List.take_append_drop n calls).symm
      have hfirst : (calls.take n).map Call.chunk =
          (chunksOf msg m).take (calls.take n).length := by
        rw [hlen, List.map_take, hprefix, List.take_take, Nat.min_eq_left hle,
          List.take_append_of_le_length (Nat.le_refl _)]
      have hrest : (calls.drop n).map Call.chunk <+: later.flatMap fun msg => chunksOf msg m := by
        rw [List.map_drop, hprefix, List.take_append, List.take_of_length_le hle,
          List.drop_left]
        exact List.take_prefix _ _
      obtain ⟨x, hxmsg, hcount, hwants, hx⟩ := hmsg.transfer hm
        (fun call hcall => htakes call (List.mem_of_mem_take hcall)) hfirst
      have hrun := Transfer.Holds.run hmsg.addressed.addressFrom hmsg.addressed.addressTo
        hmsg.own hwants (calls.take n).length (j := 0) hidle hready (by omega) (by omega)
      rw [if_pos (by omega), ← hx, hxmsg] at hrun
      obtain ⟨hready', hidle', hdelivered⟩ := hrun
      obtain ⟨done, rest, j, rfl, hhead, hchunks, hout⟩ := ih hready' hidle'
        (fun msg' hmsg' => hmsgs msg' (List.mem_cons_of_mem msg hmsg'))
        (fun call hcall => htakes call (List.mem_of_mem_drop hcall)) hrest
      refine ⟨msg :: done, rest, j, rfl, hhead, ?_, ?_⟩
      · rw [hsplit, List.map_append, hfirst, hchunks, hlen, List.take_of_length_le (Nat.le_refl _),
          List.flatMap_cons, List.append_assoc]
      · rw [hsplit, receiver.outputs_append, delivered_append, hdelivered, hout]
        rfl

end Stream

end Protoplexer
end UniCan
