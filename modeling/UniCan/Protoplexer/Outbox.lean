import UniCan.Foundation.Fifo
import UniCan.Protoplexer.Boxes

/-!
# The outbox is first in, first out

Messages are sent whole or not at all, and the network takes their chunks one by one in
the order they were sent.

## Main definitions

* `chunksSent`, `chunksGone` — the chunks a call puts into the outbox, and the one it
  takes out.
* `SendSpec`, `PollTxSpec` — what a send and a poll do to the outbox.

## Main results

* `rxAddChunk_maxChunkLength` — the chunks are of the configured length for good.
* `outbox_fifo` — **the outbox is a queue with atomic sends.**
-/

namespace UniCan
namespace Protoplexer

/-! ### The length of the chunks -/

section ChunkLength

variable {ctx : Ctx} {i : ℕ}

@[simp] theorem Ctx.maxChunkLength_setBuffer (b : RxBuffer) :
    (ctx.setBuffer i b).maxChunkLength = ctx.maxChunkLength := rfl

@[simp] theorem rxRelease_maxChunkLength :
    (rxRelease ctx i).maxChunkLength = ctx.maxChunkLength := rfl

@[simp] theorem rxReset_maxChunkLength :
    (rxReset ctx i).maxChunkLength = ctx.maxChunkLength := rfl

@[simp] theorem Ctx.maxChunkLength_payloadWrite (off : ℕ) (bytes : List UInt8) :
    (ctx.payloadWrite i off bytes).maxChunkLength = ctx.maxChunkLength := by
  unfold Ctx.payloadWrite
  split <;> rfl

@[simp] theorem rxPayloadAlloc_maxChunkLength (alloc : Alloc) (length : UInt16) :
    (rxPayloadAlloc alloc ctx i length).1.maxChunkLength = ctx.maxChunkLength := by
  unfold rxPayloadAlloc
  split_ifs
  · rfl
  · rfl
  · rfl
  · cases alloc.rxAlloc <;> rfl

@[simp] theorem rxFinish_maxChunkLength (copies : List Copy) :
    (rxFinish ctx i copies).ctx.maxChunkLength = ctx.maxChunkLength := by
  unfold rxFinish
  simp only
  split_ifs <;> rfl

theorem rxFirstChunk_maxChunkLength (alloc : Alloc) (chunk : CanMessage) :
    (rxFirstChunk alloc ctx i chunk).ctx.maxChunkLength = ctx.maxChunkLength := by
  unfold rxFirstChunk
  simp only
  split
  · rfl
  split
  · rfl
  split
  · rfl
  split
  · rfl
  set ctx₁ := ctx.setBuffer i { ctx.buffer i with
    addressTo := canidGetTo chunk.id
    addressFrom := canidGetFrom chunk.id
    priorityInverted := canidGetPriorityInverted chunk.id
    expectedLength := headerWord chunk 2
    expectedCrc := headerWord chunk 4 }
  have hlen : (rxPayloadAlloc alloc (rxPayloadFree ctx₁ i) i (headerWord chunk 2)).1.maxChunkLength
      = ctx.maxChunkLength := rxPayloadAlloc_maxChunkLength alloc _
  generalize rxPayloadAlloc alloc (rxPayloadFree ctx₁ i) i (headerWord chunk 2) = a at hlen ⊢
  obtain ⟨ctx₃, ok⟩ := a
  cases ok with
  | false => exact hlen
  | true =>
    refine Eq.trans ?_ hlen
    simp only
    split_ifs <;> simp

theorem rxDataChunk_maxChunkLength (chunk : CanMessage) :
    (rxDataChunk ctx i chunk).ctx.maxChunkLength = ctx.maxChunkLength := by
  unfold rxDataChunk
  simp only
  split_ifs <;> simp

theorem rxGetOrAlloc_maxChunkLength {sig : UInt32} {ctx' : Ctx}
    (h : rxGetOrAlloc ctx sig = some (ctx', i)) : ctx'.maxChunkLength = ctx.maxChunkLength := by
  unfold rxGetOrAlloc at h
  cases hfind : rxFind ctx sig with
  | some j =>
    rw [hfind] at h
    obtain ⟨rfl, rfl⟩ := Prod.mk.inj (Option.some.inj h)
    rfl
  | none =>
    rw [hfind] at h
    cases hfree : ctx.rx.findIdx? (fun b => !b.inUse) with
    | none => rw [hfree] at h; exact absurd h (by simp)
    | some j =>
      rw [hfree] at h
      obtain ⟨rfl, rfl⟩ := Prod.mk.inj (Option.some.inj h)
      rfl

theorem rxViewRelease_maxChunkLength :
    (rxViewRelease ctx).maxChunkLength = ctx.maxChunkLength := by
  unfold rxViewRelease
  cases ctx.rxView <;> rfl

/-- Adding a chunk does not change the length of the chunks that are sent. -/
theorem rxAddChunk_maxChunkLength (alloc : Alloc) (chunk : CanMessage) :
    (rxAddChunk alloc ctx chunk).ctx.maxChunkLength = ctx.maxChunkLength := by
  unfold rxAddChunk
  split
  · rfl
  have hview : (rxViewRelease ctx).maxChunkLength = ctx.maxChunkLength :=
    rxViewRelease_maxChunkLength
  refine Eq.trans ?_ hview
  simp only
  split
  · rfl
  cases hget : rxGetOrAlloc (rxViewRelease ctx) (channelSig chunk.id) with
  | none => rfl
  | some p =>
    obtain ⟨ctx', j⟩ := p
    rw [← rxGetOrAlloc_maxChunkLength hget]
    simp only
    split_ifs <;> simp [rxFirstChunk_maxChunkLength, rxDataChunk_maxChunkLength]

theorem receiver_step_maxChunkLength (call : Call) :
    (receiver.step ctx call).1.maxChunkLength = ctx.maxChunkLength := by
  obtain ⟨api, chunk, alloc⟩ := call
  have hadd : (rxAddChunk alloc ctx chunk).ctx.maxChunkLength = ctx.maxChunkLength :=
    rxAddChunk_maxChunkLength alloc chunk
  -- what adding the chunk has made of the context is only released or shown
  cases api with
  | addChunk outMsg =>
    simp only [receiver, addChunk]
    generalize rxAddChunk alloc ctx chunk = r at hadd ⊢
    split
    · exact hadd
    · split
      · split <;> exact hadd
      · exact hadd
  | addChunkView outMsg outComplete =>
    simp only [receiver, addChunkView]
    generalize rxAddChunk alloc ctx chunk = r at hadd ⊢
    split
    · exact hadd
    · split <;> exact hadd

end ChunkLength

/-- The chunks of a queue are of a length the protocol accepts. -/
theorem Queue.Reachable.chunkLengthOk {queue : Queue} (h : queue.Reachable) :
    ChunkLengthOk queue.protocol.maxChunkLength := by
  obtain ⟨cfg, queue₀, hinit, calls, rfl⟩ := h
  obtain ⟨storage, -, -, -, -, -, -, -, -, -, hprotocol, -⟩ := queueInit_spec hinit
  have hrun := queueMachine.final_of_step
    (P := fun q => q.Ok ∧ q.protocol.maxChunkLength = queue₀.protocol.maxChunkLength) calls
    ⟨(queueInit_ok hinit).1, rfl⟩ ?_
  · rw [hrun.2]
    exact chunkLengthOk_of_initStatic hprotocol
  · rintro q call - ⟨hok, hlen⟩
    refine ⟨hok.step call, ?_⟩
    rw [← hlen]
    have hadd : ∀ chunk, (queueAddChunk q chunk).1.protocol.maxChunkLength =
        q.protocol.maxChunkLength := fun chunk => by
      rw [(queueAddChunk_spec hok chunk).2.1]
      exact receiver_step_maxChunkLength _
    cases call with
    | send msg readable =>
      rcases queueSend_spec hok readable with ⟨hsame, -⟩ | ⟨-, -, -, mem, heq, -, -⟩
      · exact congrArg (fun q : Queue => q.protocol.maxChunkLength) hsame
      · simp only [queueMachine, heq]
    | addChunk chunk => exact hadd chunk
    | pollRx frame =>
      rcases queuePollRx_eq q frame with heq | ⟨chunk, -, heq⟩
      · simp only [queueMachine, heq]
      · simp only [queueMachine, heq]
        exact hadd chunk
    | pollTx hw =>
      exact congrArg Ctx.maxChunkLength (queuePollTx_spec hok hw).2.1
    | pollNew =>
      exact congrArg Ctx.maxChunkLength (queuePollNew_spec hok).2.1

/-! ### One call -/

/-- The chunks a call puts into the outbox: those of a message that is accepted. -/
def chunksSent (queue : Queue) : QueueCall → List CanMessage
  | .send msg _ =>
      if (queueSend queue msg).2 = .ok then chunksOf msg queue.protocol.maxChunkLength else []
  | _ => []

/-- The network took the chunk it was offered, or nobody can send it. -/
def Queue.Disposes (queue : Queue) (hw : HwResult) : Prop :=
  queue.config.sendChunk = false ∨ hw = .ok ∨ hw = .errorNonRecoverable

instance (queue : Queue) (hw : HwResult) : Decidable (queue.Disposes hw) :=
  inferInstanceAs (Decidable (_ ∨ _ ∨ _))

theorem Queue.disposes_iff (queue : Queue) (hw : HwResult) : queue.Disposes hw ↔
    ¬ (queue.config.sendChunk = true ∧ (hw = .errorResendRequired ∨ hw = .other)) := by
  unfold Queue.Disposes
  cases queue.config.sendChunk <;> cases hw <;> simp

/-- The chunk a call takes out of the outbox: confirmed by the network, or dropped. -/
def chunksGone (queue : Queue) : QueueCall → List CanMessage
  | .pollTx hw => if queue.Disposes hw then queue.outboxFront.toList else []
  | _ => []

/-- **Every call treats the outbox as a queue.** -/
theorem outbox_fifo_step : queueMachine.Fifo Queue.outboxList chunksSent chunksGone Queue.Ok where
  inv queue call h := h.step call
  step queue call h := by
    have hadd : ∀ chunk, (queueAddChunk queue chunk).1.outboxList = queue.outboxList :=
      fun chunk => (queueAddChunk_spec h chunk).2.2.2.2.1
    cases call with
    | send msg readable =>
      simp only [queueMachine, chunksGone, chunksSent, List.nil_append]
      rcases queueSend_spec h readable with ⟨hsame, hne⟩ | ⟨-, -, -, mem, heq, -, hlist⟩
      · rw [hsame, if_neg hne, List.append_nil]
      · rw [hlist, if_pos (by rw [heq])]
    | addChunk chunk =>
      simp only [queueMachine, chunksGone, chunksSent, List.nil_append, List.append_nil]
      exact hadd chunk
    | pollRx frame =>
      simp only [queueMachine, chunksGone, chunksSent, List.nil_append, List.append_nil]
      rcases queuePollRx_eq queue frame with heq | ⟨chunk, -, heq⟩
      · rw [heq]
      · rw [heq]
        exact hadd chunk
    | pollTx hw =>
      simp only [queueMachine, chunksGone, chunksSent, List.append_nil]
      obtain ⟨-, -, -, -, -, ⟨hlist, hfront, heq⟩ | ⟨chunk, rest, hlist, hfront, hafter⟩⟩ :=
        queuePollTx_spec h hw
      · rw [heq, hfront]
        split_ifs <;> rfl
      · rw [hafter, hfront, hlist]
        by_cases hkeep : queue.config.sendChunk = true ∧ (hw = .errorResendRequired ∨ hw = .other)
        · rw [if_pos hkeep, if_neg fun hd => (queue.disposes_iff hw).mp hd hkeep]
          rfl
        · rw [if_neg hkeep, if_pos ((queue.disposes_iff hw).mpr hkeep)]
          rfl
    | pollNew =>
      simp only [queueMachine, chunksGone, chunksSent, List.nil_append, List.append_nil]
      exact (queuePollNew_spec h).2.2.2.2.1

/-- A message within the limit, with its data, is refused only for want of room. -/
theorem queueSend_result {queue : Queue} (h : queue.Ok)
    (hm : ChunkLengthOk queue.protocol.maxChunkLength) {msg : Msg} (hdata : msg.HasData)
    (hle : msg.length ≤ queue.storage.maxPayload) :
    (queueSend queue msg).2 =
      if queue.outboxCount + chunksCount msg.length queue.protocol.maxChunkLength ≤
          queue.storage.outboxSize then .ok else .sendMsgCantAddMessageChunks := by
  have hsize : (decide (msg.length > queue.storage.maxPayload) ||
      (decide (msg.length > 0) && msg.data.isNone)) = false := by
    rw [Bool.or_eq_false_iff]
    refine ⟨decide_eq_false (UInt16.not_lt.mpr hle), ?_⟩
    cases hd : msg.data with
    | some data => exact Bool.and_false _
    | none =>
      -- no data is enough for an empty message only
      have hzero : msg.length.toNat ≤ 0 := by simpa [Msg.HasData, hd] using hdata
      rw [Option.isNone_none, Bool.and_true, decide_eq_false_iff_not, gt_iff_lt,
        UInt16.lt_iff_toNat_lt]
      exact Nat.not_lt.mpr hzero
  have hzero : chunksCount msg.length queue.protocol.maxChunkLength ≠ 0 :=
    Nat.ne_of_gt (chunksCount_pos hm _)
  rw [queueSend, hsize, if_neg (by simp)]
  simp only [hzero, if_false]
  by_cases hfull : queue.outboxCount + chunksCount msg.length queue.protocol.maxChunkLength ≤
      queue.storage.outboxSize
  · obtain ⟨mem, hsend, -⟩ := queueSendFrom_spec hdata
      (chunksCount msg.length queue.protocol.maxChunkLength) 0 h hm (by omega) hfull
    rw [if_neg (Nat.not_lt.mpr hfull), if_pos hfull, hsend]
  · rw [if_pos (Nat.lt_of_not_le hfull), if_neg hfull]

/-! ### Every run -/

/-- **The outbox is first in, first out, with atomic sends.**  In every state a queue gets
into: a send appends all chunks of its message, in order, or changes nothing at all; a
message within the limit is refused only if its chunks do not all fit; a poll offers the
first chunk, and drops it if the network took it or it cannot be sent.  And over every run
the chunks that left the outbox and the ones that are in it are those of the accepted
messages, in the order they were sent. -/
theorem outbox_fifo :
    (∀ queue : Queue, queue.Reachable →
      queue.outboxHead < queue.storage.outboxSize ∧
      queue.outboxCount ≤ queue.storage.outboxSize ∧
      queue.outboxList.length = queue.outboxCount ∧
      (∀ msg : Msg, msg.Readable →
        ((queueSend queue msg).2 ≠ .ok ∧ (queueSend queue msg).1 = queue ∨
          (queueSend queue msg).2 = .ok ∧
          (∃ mem count, (queueSend queue msg).1 =
            { queue with outbox := mem, outboxCount := count }) ∧
          ∃ chunks, (queueSend queue msg).1.outboxList = queue.outboxList ++ chunks ∧
            chunks.length = chunksCount msg.length queue.protocol.maxChunkLength ∧
            ∀ i (hi : i < chunks.length),
              buildChunk msg queue.protocol.maxChunkLength i = .ok chunks[i]) ∧
        (msg.HasData → msg.length ≤ queue.storage.maxPayload →
          (queueSend queue msg).2 =
            if queue.outboxCount + chunksCount msg.length queue.protocol.maxChunkLength ≤
                queue.storage.outboxSize then .ok else .sendMsgCantAddMessageChunks)) ∧
      (∀ hw : HwResult,
        queue.outboxList = [] ∧ queuePollTx queue hw = (queue, .pollingTxBufferEmpty) ∨
        ∃ chunk rest, queue.outboxList = chunk :: rest ∧ queue.outboxFront = some chunk ∧
          (queuePollTx queue hw).1.outboxList =
            if queue.config.sendChunk = false ∨ hw = .ok ∨ hw = .errorNonRecoverable then rest
            else chunk :: rest)) ∧
    (∀ (cfg : QueueConfig) (queue : Queue), queueInit cfg = some queue →
      ∀ calls : List QueueCall,
        queueMachine.trace chunksGone queue calls ++ (queueMachine.final queue calls).outboxList =
          queueMachine.trace chunksSent queue calls) := by
  refine ⟨fun queue hreach => ?_, fun cfg queue hinit calls => ?_⟩
  · have h := hreach.ok
    have hm := hreach.chunkLengthOk
    refine ⟨h.outboxHead, h.outboxCount, ?_, fun msg hreadable => ⟨?_, fun hdata hle =>
      queueSend_result h hm hdata hle⟩, fun hw => ?_⟩
    · exact length_ringList (by have := h.length_outbox; have := h.outboxHead; omega)
    · rcases queueSend_spec h hreadable with ⟨hsame, hne⟩ | ⟨hdata, -, -, mem, heq, -, hlist⟩
      · exact Or.inl ⟨hne, hsame⟩
      · refine Or.inr ⟨by rw [heq], ⟨mem, _, by rw [heq]⟩, _, hlist, length_chunksOf hm hdata, ?_⟩
        intro i hi
        rw [length_chunksOf hm hdata] at hi
        rw [buildChunk_eq_ok hm hdata hi]
        simp only [chunksOf_eq hm hdata, List.getElem_map, List.getElem_range]
    · obtain ⟨-, -, -, -, -, ⟨hlist, -, heq⟩ | ⟨chunk, rest, hlist, hfront, hafter⟩⟩ :=
        queuePollTx_spec h hw
      · exact Or.inl ⟨hlist, heq⟩
      · refine Or.inr ⟨chunk, rest, hlist, hfront, ?_⟩
        rw [hafter]
        by_cases hkeep : queue.config.sendChunk = true ∧ (hw = .errorResendRequired ∨ hw = .other)
        · exact (if_pos hkeep).trans
            (if_neg fun hd => (queue.disposes_iff hw).mp hd hkeep).symm
        · exact (if_neg hkeep).trans (if_pos ((queue.disposes_iff hw).mpr hkeep)).symm
  · obtain ⟨hok, hempty, -⟩ := queueInit_ok hinit
    have hrun := outbox_fifo_step.run hok calls
    rw [hempty, List.nil_append] at hrun
    exact hrun

/-- Memory for a message of ten bytes, and for four chunks on the way out. -/
def longStorage : Storage where
  rxBuffers := true
  rxPayload := some (List.replicate 10 0)
  maxChannels := 1
  maxPayload := 10
  inbox := some [{}]
  inboxPayload := some (List.replicate 10 0)
  inboxSize := 1
  outbox := some (List.replicate 4 {})
  outboxSize := 4
  rxPayload_length := by intro mem h; cases h; exact Nat.le_refl 10
  inbox_length := smallStorage.inbox_length
  inboxPayload_length := by intro mem h; cases h; exact Nat.le_refl 10
  outbox_length := by intro mem h; cases h; rfl

/-- The queue that is set up with it; its chunks have six bytes. -/
def longQueue : Queue where
  config := { smallQueueConfig 1 with maxChunkLength := 6, storage := some longStorage }
  storage := longStorage
  protocol := { (smallQueue 1).protocol with
    maxChunkLength := 6
    maxPayload := 10
    rxPayload := List.replicate 10 0 }
  inbox := [{}]
  inboxPayload := List.replicate 10 0
  inboxHead := 0
  inboxCount := 0
  outbox := List.replicate 4 {}
  outboxHead := 0
  outboxCount := 0
  sendAttempts := 0

theorem longMsg_readable (addressFrom messageId : UInt16) :
    (longMsg addressFrom messageId).Readable := by
  intro data h
  cases h
  exact Nat.le_refl 10

/-- Two messages of three chunks are sent, and a third one, for which there is no room; the
second one begins at the end of the ring and goes on at its start. -/
def longCalls : List QueueCall :=
  [.send (longMsg 1 5) (longMsg_readable 1 5), .pollTx .errorResendRequired, .pollTx .ok,
    .pollTx .ok, .send (longMsg 1 6) (longMsg_readable 1 6),
    .send (longMsg 1 7) (longMsg_readable 1 7), .pollTx .ok, .pollTx .ok]

/-- What has left the outbox and what is in it are the chunks of the first two. -/
theorem outbox_fifo_longQueue :
    (queueMachine.final longQueue longCalls).outboxHead = 0 ∧
      (queueMachine.final longQueue longCalls).outboxCount = 2 ∧
      queueMachine.trace chunksGone longQueue longCalls ++
          (queueMachine.final longQueue longCalls).outboxList =
        chunksOf (longMsg 1 5) 6 ++ chunksOf (longMsg 1 6) 6 :=
  ⟨by decide, by decide, (outbox_fifo.2 longQueue.config longQueue rfl longCalls).trans (by decide)⟩

end Protoplexer
end UniCan
