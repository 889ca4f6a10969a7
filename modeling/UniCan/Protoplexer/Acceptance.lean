import UniCan.Protoplexer.Boxes
import UniCan.Protoplexer.Delivery

/-!
# What a queue sends and what a receiver takes

Sending and receiving check different things.  A queue refuses a message for its
size; a receiver refuses it for its id and its addresses, and reads only the bits
of the addresses and of the priority that fit the identifier.  A message that a
queue accepts arrives exactly if its fields are in range.

## Main definitions

* `Msg.Addressed` — the fields a receiver can get.
* `queuedChunks`, `feed` — the chunks a send has queued, and the calls that take
  them.
* `Arrives` — every chunk is fine, and the last one delivers the message.

## Main results

* `queueSend_arrives_iff` — **an accepted message arrives exactly if its fields are
  in range.**
-/

namespace UniCan
namespace Protoplexer

/-- The fields of a message are in range. -/
structure Msg.Addressed (msg : Msg) : Prop where
  messageId : msg.messageId ≠ errorId
  addressFrom : addressValid msg.addressFrom = true
  addressTo : addressValid msg.addressTo = true
  priority : msg.priorityInverted ≤ priorityMinimal

instance (msg : Msg) : Decidable msg.Addressed :=
  decidable_of_iff (msg.messageId ≠ errorId ∧ addressValid msg.addressFrom = true ∧
      addressValid msg.addressTo = true ∧ msg.priorityInverted ≤ priorityMinimal)
    ⟨fun h => ⟨h.1, h.2.1, h.2.2.1, h.2.2.2⟩,
      fun h => ⟨h.messageId, h.addressFrom, h.addressTo, h.priority⟩⟩

/-- The chunks that were appended to the outbox. -/
def queuedChunks (before after : Queue) : List CanMessage :=
  after.outboxList.drop before.outboxList.length

/-- The calls that take chunks one after the other; chunk `i` is taken by `api i`. -/
def feed (api : ℕ → Api) (alloc : ℕ → Alloc) (chunks : List CanMessage) : List Call :=
  chunks.zipIdx.map fun p => ⟨api p.2, p.1, alloc p.2⟩

/-- A receiver takes all of `n` chunks, and delivers the message with the last one. -/
def Arrives (ctx : Ctx) (calls : List Call) (msg : Msg) : Prop :=
  (receiver.outputs ctx calls).map (fun r => seen r.answer) =
    (List.range calls.length).map fun i =>
      (.ok, if i + 1 = calls.length then some msg.content else none)

/-- A context that was set up to take every chunk has a slot for every pair. -/
theorem Ctx.Initial.room {ctx : Ctx} (h : ctx.Initial) (sig : UInt32) : ctx.Room sig := by
  obtain ⟨hrx, -, -⟩ := h.spec
  refine ⟨0, h.length_pos, fun hf => ?_⟩
  have huse := hf.1
  have hb : ctx.buffer 0 = {} := by
    rw [Ctx.buffer, hrx, List.getD_eq_getElem?_getD, List.getElem?_replicate]
    split_ifs <;> rfl
  rw [hb] at huse
  exact absurd huse (by simp)

/-- The transfer of a message whose fields are in range. -/
def Msg.Addressed.transfer {msg : Msg} (h : msg.Addressed) {setup : Setup} {m : UInt16}
    (api : ℕ → Api) (alloc : ℕ → Alloc) (hdata : msg.HasData) (hm : ChunkLengthOk m)
    (hfits : setup.Limited → msg.length ≤ setup.maxPayload)
    (hserves : ∀ i, (alloc i).Serves setup.rxStatic (api i)) :
    Transfer setup msg.addressFrom msg.addressTo where
  msg := msg
  maxChunkLength := m
  arrives := fun _ => true
  api := api
  alloc := alloc
  addressFrom := rfl
  addressTo := rfl
  messageId := h.messageId
  priority := h.priority
  hasData := hdata
  chunkLength := hm
  fits := hfits
  serves := hserves

/-- A message whose fields are in range arrives. -/
theorem Msg.Addressed.arrives {msg : Msg} (h : msg.Addressed) {ctx : Ctx} (hctx : ctx.Initial)
    (hmon : ctx.monitoring = true) {m : UInt16} {api : ℕ → Api} {alloc : ℕ → Alloc}
    (hdata : msg.HasData) (hm : ChunkLengthOk m)
    (hfits : ctx.setup.Limited → msg.length ≤ ctx.maxPayload)
    (hserves : ∀ i, (alloc i).Serves ctx.rxStatic (api i))
    (hwants : ∀ i, (api i).wantsMessage = true) :
    Arrives ctx (feed api alloc (chunksOf msg m)) msg := by
  set x : Transfer ctx.setup msg.addressFrom msg.addressTo :=
    h.transfer api alloc hdata hm hfits hserves
  have hcalls : x.calls = feed api alloc (chunksOf msg m) := by
    rw [Transfer.calls, List.filter_eq_self.mpr]
    · rfl
    · intro p _
      exact Bool.or_true _
  have hcomplete : x.complete = true := by
    rw [Transfer.complete, List.all_eq_true]
    exact fun i _ => Bool.or_true _
  have hlen : (feed api alloc (chunksOf msg m)).length = x.chunks.length := by
    rw [feed, List.length_map, List.length_zipIdx]
    rfl
  have hanswers := receiver_answers hctx.inv h.addressFrom h.addressTo (Or.inl hmon)
    (hctx.room _) [x]
  rw [List.flatMap_cons, List.flatMap_nil, List.append_nil, hcalls, List.flatMap_cons,
    List.flatMap_nil, List.append_nil] at hanswers
  rw [Arrives, hanswers, Transfer.answers, hlen, List.filter_eq_self.mpr]
  · refine List.map_congr_left fun i _ => ?_
    have hwant : (x.api i).wantsMessage = true := hwants i
    unfold Transfer.answer
    rw [hcomplete, hwant, Bool.true_and, Bool.and_true]
    simp only [beq_iff_eq]
    rfl
  · exact fun i _ => Bool.or_true _

/-- A message that arrives has fields in range. -/
theorem Msg.Addressed.of_arrives {msg : Msg} {ctx : Ctx} (hctx : ctx.Initial) {calls : List Call}
    (hne : calls ≠ []) (h : Arrives ctx calls msg) : msg.Addressed := by
  rcases List.eq_nil_or_concat' calls with rfl | ⟨calls, call, rfl⟩
  · exact absurd rfl hne
  -- the answer to the last call is the message
  have hlast := congrArg List.getLast? h
  rw [receiver.outputs_append, Machine.outputs_cons, Machine.outputs_nil, List.map_append,
    List.map_singleton, List.getLast?_concat, List.length_append, List.length_singleton,
    List.range_succ, List.map_append, List.map_singleton, List.getLast?_concat, if_pos rfl,
    Option.some.injEq] at hlast
  obtain ⟨m, hm, hcontent⟩ := Option.map_eq_some_iff.mp (congrArg Prod.snd hlast)
  obtain ⟨r, ⟨pre, H, post, -, ha⟩, -, -, rfl⟩ := receiver_message_announced hctx calls call hm
  have hid : r.messageId = msg.messageId := congrArg Content.messageId hcontent
  have hfrom : r.addressFrom = msg.addressFrom := congrArg Content.addressFrom hcontent
  have hto : r.addressTo = msg.addressTo := congrArg Content.addressTo hcontent
  have hprio : r.priorityInverted = msg.priorityInverted :=
    congrArg Content.priorityInverted hcontent
  refine ⟨?_, ?_, ?_, ?_⟩
  · rw [← hid, ha.messageId]; exact ha.messageId_ne
  · rw [← hfrom, ha.addressFrom]; exact ha.validFrom
  · rw [← hto, ha.addressTo]; exact ha.validTo
  · rw [← hprio, ha.priorityInverted]; exact canidGetPriorityInverted_le H.id

/-- **An accepted message arrives exactly if its fields are in range.**  The message
is queued by any queue; its chunks are fed to a context that was just set up, that
takes the chunks for every address, and whose limit admits the length. -/
theorem queueSend_arrives_iff {queue queue' : Queue} (hqueue : queue.Reachable) {msg : Msg}
    (hdata : msg.Readable) (hsend : queueSend queue msg = (queue', .ok)) {ctx : Ctx}
    (hctx : ctx.Initial) (hmon : ctx.monitoring = true)
    (hfits : ctx.setup.Limited → msg.length ≤ ctx.maxPayload) {api : ℕ → Api} {alloc : ℕ → Alloc}
    (hserves : ∀ i, (alloc i).Serves ctx.rxStatic (api i))
    (hwants : ∀ i, (api i).wantsMessage = true) :
    Arrives ctx (feed api alloc (queuedChunks queue queue')) msg ↔ msg.Addressed := by
  rcases queueSend_spec hqueue.ok hdata with ⟨-, hno⟩ | ⟨hhas, hm, -, mem, -, -, hlist⟩
  · rw [hsend] at hno
    exact absurd rfl hno
  rw [hsend] at hlist
  have hqueued : queuedChunks queue queue' = chunksOf msg queue.protocol.maxChunkLength := by
    rw [queuedChunks, hlist, List.drop_left]
  rw [hqueued]
  refine ⟨fun h => Msg.Addressed.of_arrives hctx ?_ h, fun h =>
    h.arrives hctx hmon hhas hm hfits hserves hwants⟩
  rw [feed, Ne, List.map_eq_nil_iff, List.zipIdx_eq_nil_iff, ← List.length_eq_zero_iff,
    length_chunksOf hm hhas]
  exact Nat.ne_of_gt (chunksCount_pos hm msg.length)

/-- It arrives when its id is not the error id. -/
theorem queueSend_arrives_smallMsg :
    Arrives Ctx.monitor (feed (fun _ => .addChunk true) (fun _ => .ample)
      (queuedChunks (smallQueue 1) (queueSend (smallQueue 1) (smallMsg 5)).1)) (smallMsg 5) :=
  (queueSend_arrives_iff (smallQueue_reachable 1) (smallMsg_readable 5) rfl Ctx.monitor_initial rfl
    (fun h => absurd h (by decide)) (fun _ => ⟨fun _ => rfl, fun _ _ => ⟨rfl, rfl⟩⟩)
    fun _ => rfl).mpr (by decide)

/-- With the error id it is queued all the same, and its first chunk is refused. -/
theorem queueSend_error_id :
    (queueSend (smallQueue 1) (smallMsg errorId)).2 = .ok ∧
      ¬ Arrives Ctx.monitor (feed (fun _ => .addChunk true) (fun _ => .ample)
        (queuedChunks (smallQueue 1) (queueSend (smallQueue 1) (smallMsg errorId)).1))
        (smallMsg errorId) ∧
      (receiver.outputs Ctx.monitor (feed (fun _ => .addChunk true) (fun _ => .ample)
        (queuedChunks (smallQueue 1) (queueSend (smallQueue 1) (smallMsg errorId)).1))).map
          Reply.result = [.addingChunkReceivedErrorId] := by
  refine ⟨by decide, ?_, by decide⟩
  unfold Arrives
  decide

end Protoplexer
end UniCan
