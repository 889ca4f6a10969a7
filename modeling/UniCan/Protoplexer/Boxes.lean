import UniCan.Protoplexer.Queue
import UniCan.Protoplexer.Soundness

/-!
# Outbox and inbox

The two rings of a queue as lists: sending a message appends its chunks to the
outbox, the network takes them from its front, a completed message is appended to
the inbox with a copy of its data, and the application takes it from there.

## Main definitions

* `Queue.outboxList`, `Queue.inboxList` — what the boxes hold.
* `Queue.Ok` — the invariant of a queue.

## Main results

* `queueInit_ok` — a queue that was set up is empty and has the invariant.
* `queueSend_spec`, `queuePollTx_spec`, `queueAddChunk_spec`, `queuePollNew_spec` —
  **the calls on the lists.**
-/

namespace UniCan
namespace Protoplexer

/-! ### The boxes as lists -/

/-- The element in cell `i` of the inbox: its data is the cell's part of the memory. -/
structure InboxEntry.Ok (entry : InboxEntry) (maxPayload : UInt16) (i : ℕ) : Prop where
  length_le : entry.length ≤ maxPayload
  dataAt : entry.dataAt = if entry.length > 0 then some (i * maxPayload.toNat) else none

namespace Queue

/-- The chunks that wait to be sent. -/
def outboxList (queue : Queue) : List CanMessage :=
  ringList queue.outbox queue.outboxHead queue.outboxCount

/-- The messages that wait for the application. -/
def inboxList (queue : Queue) : List Msg :=
  (ringPlaces queue.storage.inboxSize queue.inboxHead queue.inboxCount).map queue.inboxMsg

/-- The invariant of a queue. -/
structure Ok (queue : Queue) : Prop where
  protocol : Inv queue.protocol
  rxStatic : queue.protocol.rxStatic = true
  maxPayload : queue.protocol.maxPayload = queue.storage.maxPayload
  length_inbox : queue.inbox.length = queue.storage.inboxSize
  inboxPayload : queue.storage.inboxSize * queue.storage.maxPayload.toNat ≤
    queue.inboxPayload.length
  inboxHead : queue.inboxHead < queue.storage.inboxSize
  inboxCount : queue.inboxCount ≤ queue.storage.inboxSize
  entries : ∀ i ∈ ringPlaces queue.storage.inboxSize queue.inboxHead queue.inboxCount,
    (queue.inbox.getD i {}).Ok queue.storage.maxPayload i
  length_outbox : queue.outbox.length = queue.storage.outboxSize
  outboxHead : queue.outboxHead < queue.storage.outboxSize
  outboxCount : queue.outboxCount ≤ queue.storage.outboxSize

end Queue

/-! ### Setting up -/

theorem queueInit_spec {cfg : QueueConfig} {queue : Queue} (h : queueInit cfg = some queue) :
    ∃ storage, cfg.storage = some storage ∧ queue.storage = storage ∧ queue.config = cfg ∧
      storage.inbox = some queue.inbox ∧ storage.outbox = some queue.outbox ∧
      0 < storage.inboxSize ∧ 0 < storage.outboxSize ∧
      queue.inboxPayload = storage.inboxPayload.getD [] ∧
      (storage.maxPayload ≠ 0 → storage.inboxPayload.isSome = true) ∧
      initStatic (protocolConfig cfg storage) = some queue.protocol ∧
      queue.inboxHead = 0 ∧ queue.inboxCount = 0 ∧ queue.outboxHead = 0 ∧
      queue.outboxCount = 0 ∧ queue.sendAttempts = 0 := by
  unfold queueInit at h
  cases hstorage : cfg.storage with
  | none => rw [hstorage] at h; exact absurd h (by simp)
  | some storage =>
    rw [hstorage] at h
    simp only at h
    cases hinbox : storage.inbox with
    | none => rw [hinbox] at h; exact absurd h (by simp)
    | some inbox =>
      cases houtbox : storage.outbox with
      | none => rw [hinbox, houtbox] at h; exact absurd h (by simp)
      | some outbox =>
        rw [hinbox, houtbox] at h
        simp only at h
        split_ifs at h with hempty hmem
        cases hprotocol : initStatic (protocolConfig cfg storage) with
        | none => rw [hprotocol] at h; exact absurd h (by simp)
        | some protocol =>
          rw [hprotocol, Option.some.injEq] at h
          subst h
          simp only [Bool.or_eq_true, Bool.not_eq_true', beq_iff_eq, not_or] at hempty
          refine ⟨storage, rfl, rfl, rfl, hinbox, houtbox, Nat.pos_of_ne_zero hempty.1.2,
            Nat.pos_of_ne_zero hempty.2, rfl, fun hpay => ?_, hprotocol, rfl, rfl, rfl, rfl, rfl⟩
          cases hsome : storage.inboxPayload with
          | some mem => rfl
          | none => exact absurd (by simp [hpay, hsome]) hmem

/-- **A queue that was set up** is empty and has the invariant. -/
theorem queueInit_ok {cfg : QueueConfig} {queue : Queue} (h : queueInit cfg = some queue) :
    queue.Ok ∧ queue.outboxList = [] ∧ queue.inboxList = [] := by
  obtain ⟨storage, -, rfl, -, hinbox, houtbox, hinpos, houtpos, hpay, hmem, hprotocol, hih, hic,
    hoh, hoc, -⟩ := queueInit_spec h
  obtain ⟨hrx, hview, hmemory, hsetup, -⟩ := initStatic_spec hprotocol
  refine ⟨⟨Inv.of_replicate hrx hview hmemory, congrArg Setup.rxStatic hsetup,
    congrArg Setup.maxPayload hsetup, queue.storage.inbox_length _ hinbox, ?_, by omega, by omega,
    ?_, queue.storage.outbox_length _ houtbox, by omega, by omega⟩, ?_, ?_⟩
  · rw [hpay]
    cases hsome : queue.storage.inboxPayload with
    | some mem => exact queue.storage.inboxPayload_length mem hsome
    | none =>
      have h0 : queue.storage.maxPayload = 0 := by
        by_contra hne
        have := hmem hne
        rw [hsome] at this
        exact absurd this (by simp)
      simp [h0]
  · rw [hic]
    exact fun i hi => absurd hi (by simp [ringPlaces])
  · rw [Queue.outboxList, hoc, ringList_zero]
  · rw [Queue.inboxList, hic]
    rfl

/-! ### Sending -/

/-- The data of a message that is given to be sent: if there is any, all of it can
be read. -/
def Msg.Readable (msg : Msg) : Prop := ∀ data, msg.data = some data → msg.length.toNat ≤ data.length

theorem smallMsg_readable (messageId : UInt16) : (smallMsg messageId).Readable := by
  intro data h
  cases h
  exact Nat.le_refl 2

/-- Only the outbox changes, and stays a ring. -/
theorem Queue.Ok.withOutbox {queue : Queue} (h : queue.Ok) {mem : List CanMessage} {head count : ℕ}
    {attempts : UInt32} (hlen : mem.length = queue.outbox.length)
    (hhead : head < queue.storage.outboxSize) (hcount : count ≤ queue.storage.outboxSize) :
    Queue.Ok { queue with
      outbox := mem, outboxHead := head, outboxCount := count, sendAttempts := attempts } where
  protocol := h.protocol
  rxStatic := h.rxStatic
  maxPayload := h.maxPayload
  length_inbox := h.length_inbox
  inboxPayload := h.inboxPayload
  inboxHead := h.inboxHead
  inboxCount := h.inboxCount
  entries i hi := ⟨(h.entries i hi).length_le, (h.entries i hi).dataAt⟩
  length_outbox := hlen.trans h.length_outbox
  outboxHead := hhead
  outboxCount := hcount

/-- The loop of a send appends the chunks it builds. -/
theorem queueSendFrom_spec {msg : Msg} (hdata : msg.HasData) (n idx : ℕ) {queue : Queue}
    (h : queue.Ok) (hm : ChunkLengthOk queue.protocol.maxChunkLength)
    (hidx : idx + n ≤ chunksCount msg.length queue.protocol.maxChunkLength)
    (hroom : queue.outboxCount + n ≤ queue.storage.outboxSize) :
    ∃ mem, queueSendFrom queue msg idx n =
        ({ queue with outbox := mem, outboxCount := queue.outboxCount + n }, .ok) ∧
      mem.length = queue.outbox.length ∧
      ringList mem queue.outboxHead (queue.outboxCount + n) = queue.outboxList ++
        (List.range' idx n).map (chunkAt msg queue.protocol.maxChunkLength) := by
  induction n generalizing idx queue with
  | zero => exact ⟨queue.outbox, rfl, rfl, by simp [Queue.outboxList]⟩
  | succ n ih =>
    set m := queue.protocol.maxChunkLength with hmdef
    set queue₁ : Queue := { queue with
      outbox := queue.outbox.set
        ((queue.outboxHead + queue.outboxCount) % queue.storage.outboxSize) (chunkAt msg m idx)
      outboxCount := queue.outboxCount + 1 }
    have h₁ : queue₁.Ok := h.withOutbox List.length_set h.outboxHead (by omega)
    have hpush : queue₁.outboxList = queue.outboxList ++ [chunkAt msg m idx] := by
      have hlen := h.length_outbox
      simp only [Queue.outboxList, queue₁]
      rw [← hlen]
      exact ringList_push (by rw [hlen]; omega) _
    obtain ⟨mem, hsend, hlen, hlist⟩ := ih (idx + 1) h₁ hm
      (show idx + 1 + n ≤ chunksCount msg.length m by omega)
      (show queue.outboxCount + 1 + n ≤ queue.storage.outboxSize by omega)
    refine ⟨mem, ?_, hlen.trans List.length_set, ?_⟩
    · rw [queueSendFrom, ← hmdef, buildChunk_eq_ok hm hdata (by omega)]
      simp only
      rw [hsend]
      simp only [queue₁, Nat.add_assoc, Nat.add_comm 1 n]
    · have hcount : queue₁.outboxCount + n = queue.outboxCount + (n + 1) := by
        simp only [queue₁]
        omega
      rw [hcount] at hlist
      rw [List.range'_succ, List.map_cons]
      refine hlist.trans ?_
      rw [hpush, List.append_assoc]
      rfl

/-- **Sending**: either nothing happens, or the chunks of the message are appended to
the outbox, and nothing else happens. -/
theorem queueSend_spec {queue : Queue} (h : queue.Ok) {msg : Msg} (hdata : msg.Readable) :
    (queueSend queue msg).1 = queue ∧ (queueSend queue msg).2 ≠ .ok ∨
    msg.HasData ∧ ChunkLengthOk queue.protocol.maxChunkLength ∧
      msg.length ≤ queue.storage.maxPayload ∧
      ∃ mem, queueSend queue msg = ({ queue with
          outbox := mem
          outboxCount := queue.outboxCount +
            chunksCount msg.length queue.protocol.maxChunkLength }, .ok) ∧
        (queueSend queue msg).1.Ok ∧
        (queueSend queue msg).1.outboxList =
          queue.outboxList ++ chunksOf msg queue.protocol.maxChunkLength := by
  by_cases hsize : (decide (msg.length > queue.storage.maxPayload) ||
      (decide (msg.length > 0) && msg.data.isNone)) = true
  · -- the message is too long for the memory, or its data is missing
    left
    rw [queueSend, if_pos hsize]
    exact ⟨rfl, by simp⟩
  by_cases hzero : chunksCount msg.length queue.protocol.maxChunkLength = 0
  · -- no chunk can be made of it
    left
    rw [queueSend, if_neg hsize]
    simp only [hzero, if_true]
    exact ⟨trivial, by simp⟩
  by_cases hfull : queue.outboxCount + chunksCount msg.length queue.protocol.maxChunkLength >
      queue.storage.outboxSize
  · -- the chunks do not all fit
    left
    rw [queueSend, if_neg hsize]
    simp only [hzero, if_false, hfull, if_true]
    exact ⟨trivial, by simp⟩
  right
  simp only [Bool.or_eq_true, decide_eq_true_eq, Bool.and_eq_true, not_or, not_and] at hsize
  have hhas : msg.HasData := by
    unfold Msg.HasData
    cases hd : msg.data with
    | some data => exact hdata data hd
    | none =>
      have h0 : ¬ msg.length > 0 := fun hpos => hsize.2 hpos (by rw [hd]; rfl)
      rw [gt_iff_lt, UInt16.lt_iff_toNat_lt] at h0
      exact Nat.le_of_not_lt h0
  have hm : ChunkLengthOk queue.protocol.maxChunkLength := by
    by_contra hno
    exact hzero (chunksCount_of_not_ok hno _)
  obtain ⟨mem, hsend, hlen, hlist⟩ := queueSendFrom_spec hhas
    (chunksCount msg.length queue.protocol.maxChunkLength) 0 h hm (by omega) (by omega)
  have heq : queueSend queue msg = ({ queue with
      outbox := mem
      outboxCount := queue.outboxCount +
        chunksCount msg.length queue.protocol.maxChunkLength }, .ok) := by
    rw [queueSend, if_neg (by simpa using hsize)]
    simp only [hzero, if_false, hfull]
    exact hsend
  refine ⟨hhas, hm, UInt16.not_lt.mp hsize.1, mem, heq, ?_, ?_⟩
  · rw [heq]
    exact h.withOutbox hlen h.outboxHead (by omega)
  · rw [heq, chunksOf_eq hm hhas, List.range_eq_range']
    exact hlist

/-! ### Handing chunks to the network -/

/-- A chunk that is offered stays if the network wants it again, or does not say what
became of it; else it is dropped. -/
theorem queuePollTx_cases {queue : Queue} (hne : queue.outboxCount ≠ 0) (hw : HwResult) :
    ∃ attempts, (queuePollTx queue hw).1 =
      if queue.config.sendChunk = true ∧ (hw = .errorResendRequired ∨ hw = .other) then
        { queue with sendAttempts := attempts }
      else { outboxPop queue with sendAttempts := attempts } := by
  rw [queuePollTx, if_neg hne]
  cases queue.config.sendChunk with
  | false => exact ⟨0, by simp⟩
  | true =>
    cases hw with
    | ok => exact ⟨0, by simp⟩
    | errorNonRecoverable => exact ⟨0, by simp⟩
    | other => exact ⟨queue.sendAttempts, by simp⟩
    | errorResendRequired =>
      simp only [if_true, true_and, true_or]
      split_ifs
      · exact ⟨0, rfl⟩
      · exact ⟨queue.sendAttempts + 1, rfl⟩

/-- **Polling the outbox**: an empty one is left alone; else its first chunk is
offered, which leaves the outbox if the network took it or cannot send it. -/
theorem queuePollTx_spec {queue : Queue} (h : queue.Ok) (hw : HwResult) :
    (queuePollTx queue hw).1.Ok ∧ (queuePollTx queue hw).1.protocol = queue.protocol ∧
      (queuePollTx queue hw).1.config = queue.config ∧
      (queuePollTx queue hw).1.storage = queue.storage ∧
      (queuePollTx queue hw).1.inboxList = queue.inboxList ∧
      (queue.outboxList = [] ∧ queue.outboxFront = none ∧
          queuePollTx queue hw = (queue, .pollingTxBufferEmpty) ∨
        ∃ chunk rest, queue.outboxList = chunk :: rest ∧ queue.outboxFront = some chunk ∧
          (queuePollTx queue hw).1.outboxList =
            if queue.config.sendChunk = true ∧ (hw = .errorResendRequired ∨ hw = .other)
              then chunk :: rest else rest) := by
  by_cases hempty : queue.outboxCount = 0
  · have heq : queuePollTx queue hw = (queue, .pollingTxBufferEmpty) := by
      rw [queuePollTx, if_pos hempty]
    rw [heq]
    refine ⟨h, rfl, rfl, rfl, rfl, Or.inl ⟨?_, ?_, rfl⟩⟩
    · rw [Queue.outboxList, hempty, ringList_zero]
    · rw [Queue.outboxFront, if_pos hempty]
  obtain ⟨n, hn⟩ := Nat.exists_eq_succ_of_ne_zero hempty
  obtain ⟨chunk, hchunk, hlist⟩ := ringList_pop n
    (show queue.outboxHead < queue.outbox.length by rw [h.length_outbox]; exact h.outboxHead)
  have hcount := h.outboxCount
  have hsize : 0 < queue.storage.outboxSize := Nat.zero_lt_of_lt h.outboxHead
  have hfull : queue.outboxList = chunk ::
      ringList queue.outbox ((queue.outboxHead + 1) % queue.outbox.length) n := by
    rw [Queue.outboxList, hn]
    exact hlist
  have hfront : queue.outboxFront = some chunk := by
    rw [Queue.outboxFront, if_neg hempty, hchunk]
  obtain ⟨attempts, hafter⟩ := queuePollTx_cases hempty hw
  rw [hafter]
  split_ifs
  · -- the chunk is offered again by the next poll
    exact ⟨h.withOutbox rfl h.outboxHead h.outboxCount, rfl, rfl, rfl, rfl,
      Or.inr ⟨chunk, _, hfull, hfront, hfull⟩⟩
  · refine ⟨h.withOutbox rfl (Nat.mod_lt _ hsize) ?_, rfl, rfl, rfl, rfl,
      Or.inr ⟨chunk, _, hfull, hfront, ?_⟩⟩
    · change queue.outboxCount - 1 ≤ queue.storage.outboxSize
      omega
    · simp only [Queue.outboxList, outboxPop, h.length_outbox, hn, Nat.succ_eq_add_one,
        Nat.add_sub_cancel]

/-! ### Receiving -/

/-- A message whose data, if it has any, is a block of its length. -/
structure Msg.Whole (msg : Msg) : Prop where
  data : msg.data = if msg.length = 0 then none else some msg.bytes
  length : msg.bytes.length = msg.length.toNat

/-- What a receiver delivers is whole, and within its limit. -/
theorem receiver_message_whole {ctx : Ctx} (h : Inv ctx) {call : Call} {msg : Msg}
    (hm : (receiver.step ctx call).2.message = some msg) :
    msg.Whole ∧ (ctx.setup.Limited → msg.length ≤ ctx.maxPayload) := by
  have hown := (receiver_step_spec h call).own
  have hpair : (Pair.step ctx.setup (decide (ctx.Room (channelSig call.chunk.id)))
      (ctx.inProgress (channelSig call.chunk.id)) call).2.2 = some msg := by
    rw [← hown]; exact hm
  obtain ⟨htakes, hroom, r, hadvance, rfl⟩ := Pair.step_eq_message hpair
  rw [Setup.takes, Bool.and_eq_true, decide_eq_true_eq] at htakes
  obtain ⟨i, hi, hsame, -, -, -, hbecame, -⟩ := rxAddChunk_spec h call.alloc htakes.1 htakes.2
    (of_decide_eq_true hroom)
  rw [hadvance] at hbecame
  obtain ⟨-, -, hlive, hfull, -⟩ := hbecame
  have hbytes : r.msg.bytes = r.data := by
    unfold Msg.bytes Reassembly.msg
    by_cases h0 : r.expectedLength = 0
    · have hnil : r.data = [] := List.eq_nil_of_length_eq_zero (by rw [hfull, h0]; rfl)
      simp [h0, hnil]
    · simp only [h0, if_false, Option.getD_some]
      exact List.take_of_length_le (Nat.le_of_eq hfull)
  have hsetup := hsame.setup.trans (rxViewRelease_spec h).setup
  have hexp : ((rxAddChunk call.alloc ctx call.chunk).ctx.buffer i).expectedLength =
      r.expectedLength := congrArg Reassembly.expectedLength hlive.reassembly
  refine ⟨⟨by rw [hbytes]; rfl, by rw [hbytes]; exact hfull⟩, fun hlimited => ?_⟩
  have hlimit := hlive.live.limit (by rw [hsetup]; exact hlimited)
  have hmax : (rxAddChunk call.alloc ctx call.chunk).ctx.maxPayload = ctx.maxPayload :=
    congrArg Setup.maxPayload hsetup
  rw [hexp, hmax] at hlimit
  exact hlimit

/-- An element keeps its message when only the part of another cell is written. -/
theorem InboxEntry.Ok.msg_congr {entry : InboxEntry} {maxPayload : UInt16} {i tail : ℕ}
    (h : entry.Ok maxPayload i) (hi : i ≠ tail) {mem mem' : List UInt8}
    (hmem : ∀ k, k < tail * maxPayload.toNat ∨ (tail + 1) * maxPayload.toNat ≤ k →
      mem'[k]? = mem[k]?) : entry.msg mem' = entry.msg mem := by
  have hle := UInt16.le_iff_toNat_le.mp h.length_le
  unfold InboxEntry.msg
  rw [h.dataAt]
  by_cases hpos : entry.length > 0
  · simp only [hpos, if_true, Option.map_some, Msg.mk.injEq, true_and, Option.some.injEq]
    exact readAt_slot_congr hi hle hmem
  · simp only [hpos, if_false, Option.map_none]

/-- The memory of the inbox after a message was copied into cell `tail`. -/
def inboxWrite (mem : List UInt8) (maxPayload : UInt16) (tail : ℕ) (msg : Msg) : List UInt8 :=
  if msg.length > 0 then
    writeAt mem (tail * maxPayload.toNat) ((msg.data.getD []).take msg.length.toNat)
  else mem

/-- The element for a message in cell `tail`. -/
def inboxEntry (maxPayload : UInt16) (tail : ℕ) (msg : Msg) : InboxEntry where
  messageId := msg.messageId
  addressFrom := msg.addressFrom
  addressTo := msg.addressTo
  priorityInverted := msg.priorityInverted
  length := msg.length
  dataAt := if msg.length > 0 then some (tail * maxPayload.toNat) else none

section Push

variable {mem : List UInt8} {maxPayload : UInt16} {tail n : ℕ} {msg : Msg}

theorem inboxWrite_spec (hmem : n * maxPayload.toNat ≤ mem.length) (htail : tail < n)
    (hmsg : msg.Whole) (hle : msg.length ≤ maxPayload) :
    (inboxWrite mem maxPayload tail msg).length = mem.length ∧
      (∀ k, k < tail * maxPayload.toNat ∨ (tail + 1) * maxPayload.toNat ≤ k →
        (inboxWrite mem maxPayload tail msg)[k]? = mem[k]?) ∧
      (inboxEntry maxPayload tail msg).msg (inboxWrite mem maxPayload tail msg) = msg := by
  have hle' := UInt16.le_iff_toNat_le.mp hle
  have hmul : (tail + 1) * maxPayload.toNat ≤ n * maxPayload.toNat := Nat.mul_le_mul_right _ htail
  have hsucc := Nat.succ_mul tail maxPayload.toNat
  simp only [Nat.succ_eq_add_one] at hsucc
  have hdata := hmsg.data
  have hlen : ((msg.data.getD []).take msg.length.toNat).length = msg.length.toNat := hmsg.length
  unfold inboxWrite inboxEntry InboxEntry.msg
  by_cases hpos : msg.length > 0
  · have hne : msg.length ≠ 0 := UInt16.pos_iff_ne_zero.mp hpos
    have hin : tail * maxPayload.toNat + ((msg.data.getD []).take msg.length.toNat).length ≤
        mem.length := by omega
    simp only [hpos, if_true, Option.map_some]
    refine ⟨length_writeAt hin, fun k hk => ?_, ?_⟩
    · rw [getElem?_writeAt hin]
      split_ifs <;> first | rfl | omega
    · have hin' : tail * maxPayload.toNat + 0 +
          ((msg.data.getD []).take msg.length.toNat).length ≤ mem.length := by omega
      have hread := readAt_writeAt_append hin'
      rw [hlen, Nat.add_zero, Nat.zero_add, readAt_zero, List.nil_append] at hread
      rw [hread]
      rw [if_neg hne] at hdata
      exact congrArg (fun d => Msg.mk msg.messageId msg.addressFrom msg.addressTo
        msg.priorityInverted msg.length d) hdata.symm
  · have h0 : msg.length = 0 := by
      by_contra hne
      exact hpos (UInt16.pos_iff_ne_zero.mpr hne)
    rw [if_pos h0] at hdata
    simp only [hpos, if_false, Option.map_none]
    exact ⟨trivial, fun _ _ => trivial, congrArg (fun d => Msg.mk msg.messageId msg.addressFrom
      msg.addressTo msg.priorityInverted msg.length d) hdata.symm⟩

end Push

/-- **A message is appended to the inbox**, with a copy of its data, unless the inbox
is full. -/
theorem inboxPush_spec {queue : Queue} (h : queue.Ok) {msg : Msg} (hmsg : msg.Whole)
    (hle : msg.length ≤ queue.storage.maxPayload) :
    if queue.inboxCount < queue.storage.inboxSize then
      ∃ inbox payload, inboxPush queue msg = some { queue with
          inbox := inbox, inboxPayload := payload, inboxCount := queue.inboxCount + 1 } ∧
        Queue.Ok { queue with
          inbox := inbox, inboxPayload := payload, inboxCount := queue.inboxCount + 1 } ∧
        Queue.inboxList { queue with
          inbox := inbox, inboxPayload := payload, inboxCount := queue.inboxCount + 1 } =
            queue.inboxList ++ [msg]
    else inboxPush queue msg = none := by
  by_cases hfull : queue.inboxCount < queue.storage.inboxSize
  · rw [if_pos hfull]
    set tail := (queue.inboxHead + queue.inboxCount) % queue.storage.inboxSize with htail
    have hlt : tail < queue.storage.inboxSize := Nat.mod_lt _ (by omega)
    obtain ⟨hlen, hkeep, hmsg'⟩ := inboxWrite_spec h.inboxPayload hlt hmsg hle
    set entry := inboxEntry queue.storage.maxPayload tail msg
    set mem := inboxWrite queue.inboxPayload queue.storage.maxPayload tail msg
    have hself : (queue.inbox.set tail entry).getD tail {} = entry := by
      rw [List.getD_eq_getElem _ _ (by rw [List.length_set, h.length_inbox]; exact hlt),
        List.getElem_set_self]
    have hother : ∀ i, i ≠ tail →
        (queue.inbox.set tail entry).getD i {} = queue.inbox.getD i {} := by
      intro i hi
      rw [List.getD_eq_getElem?_getD, List.getElem?_set_ne (Ne.symm hi),
        List.getD_eq_getElem?_getD]
    have hnotin := tail_notMem_ringPlaces queue.inboxHead hfull
    rw [← htail] at hnotin
    have hplaces : ringPlaces queue.storage.inboxSize queue.inboxHead (queue.inboxCount + 1) =
        ringPlaces queue.storage.inboxSize queue.inboxHead queue.inboxCount ++ [tail] :=
      ringPlaces_succ
    refine ⟨queue.inbox.set tail entry, mem, ?_, ?_, ?_⟩
    · rw [inboxPush, if_neg (Nat.not_le.mpr hfull)]
      rfl
    · refine ⟨h.protocol, h.rxStatic, h.maxPayload, List.length_set.trans h.length_inbox,
        by simp only; rw [hlen]; exact h.inboxPayload, h.inboxHead, hfull, fun i hi => ?_,
        h.length_outbox, h.outboxHead, h.outboxCount⟩
      simp only at hi ⊢
      rw [hplaces, List.mem_append, List.mem_singleton] at hi
      rcases hi with hold | rfl
      · rw [hother i fun he => hnotin (he ▸ hold)]
        exact h.entries i hold
      · rw [hself]
        exact ⟨hle, rfl⟩
    · rw [Queue.inboxList]
      simp only
      rw [hplaces, List.map_append, List.map_singleton]
      congr 1
      · refine List.map_congr_left fun i hi => ?_
        have hne : i ≠ tail := fun he => hnotin (he ▸ hi)
        simp only [Queue.inboxMsg]
        rw [hother i hne]
        exact (h.entries i hi).msg_congr hne hkeep
      · simp only [Queue.inboxMsg]
        rw [hself, hmsg']
  · rw [if_neg hfull, inboxPush, if_pos (Nat.le_of_not_lt hfull)]

/-- The call a queue makes for a chunk. -/
def queueCall (chunk : CanMessage) : Call := ⟨.addChunkView true true, chunk, .heapless⟩

/-- Only the protocol makes a step. -/
theorem Queue.Ok.withProtocol {queue : Queue} (h : queue.Ok) (chunk : CanMessage) :
    Queue.Ok { queue with protocol := (receiver.step queue.protocol (queueCall chunk)).1 } where
  protocol := h.protocol.step _
  rxStatic := by
    have hsetup := (receiver_step_spec h.protocol (queueCall chunk)).setup
    exact (congrArg Setup.rxStatic hsetup).trans h.rxStatic
  maxPayload := by
    have hsetup := (receiver_step_spec h.protocol (queueCall chunk)).setup
    exact (congrArg Setup.maxPayload hsetup).trans h.maxPayload
  length_inbox := h.length_inbox
  inboxPayload := h.inboxPayload
  inboxHead := h.inboxHead
  inboxCount := h.inboxCount
  entries := h.entries
  length_outbox := h.length_outbox
  outboxHead := h.outboxHead
  outboxCount := h.outboxCount

/-- An answer of the protocol changes the inbox only. -/
theorem queueTakeReply_spec {queue : Queue} {protocol : Ctx} {reply : Reply}
    (h : Queue.Ok { queue with protocol := protocol })
    (hwhole : ∀ msg, reply.message = some msg →
      msg.Whole ∧ msg.length ≤ queue.storage.maxPayload) :
    (queueTakeReply queue protocol reply).1.Ok ∧
      (queueTakeReply queue protocol reply).1.protocol = protocol ∧
      (queueTakeReply queue protocol reply).1.config = queue.config ∧
      (queueTakeReply queue protocol reply).1.storage = queue.storage ∧
      (queueTakeReply queue protocol reply).1.outboxList = queue.outboxList ∧
      ((queueTakeReply queue protocol reply).2,
          (queueTakeReply queue protocol reply).1.inboxList) =
        match reply.message with
        | none => (reply.result, queue.inboxList)
        | some msg =>
            if queue.inboxCount < queue.storage.inboxSize
            then (reply.result, queue.inboxList ++ [msg])
            else (.addingChunkCantSaveMessage, queue.inboxList) := by
  unfold queueTakeReply
  cases hmessage : reply.message with
  | none => exact ⟨h, rfl, rfl, rfl, rfl, rfl⟩
  | some msg =>
    obtain ⟨hmsg, hle⟩ := hwhole msg hmessage
    have hpush := inboxPush_spec h hmsg hle
    by_cases hroom : queue.inboxCount < queue.storage.inboxSize
    · rw [if_pos hroom] at hpush
      obtain ⟨inbox, payload, hsome, hok, hlist⟩ := hpush
      simp only [hsome, hroom, if_true]
      exact ⟨hok, trivial, trivial, trivial, rfl, congrArg (Prod.mk reply.result) hlist⟩
    · rw [if_neg hroom] at hpush
      simp only [hpush, hroom, if_false]
      exact ⟨h, trivial, trivial, trivial, rfl, rfl⟩

/-- **Adding a chunk**: the protocol makes a step, and a message that it completes is
appended to the inbox, or lost if the inbox is full. -/
theorem queueAddChunk_spec {queue : Queue} (h : queue.Ok) (chunk : CanMessage) :
    (queueAddChunk queue chunk).1.Ok ∧
      (queueAddChunk queue chunk).1.protocol =
        (receiver.step queue.protocol (queueCall chunk)).1 ∧
      (queueAddChunk queue chunk).1.config = queue.config ∧
      (queueAddChunk queue chunk).1.storage = queue.storage ∧
      (queueAddChunk queue chunk).1.outboxList = queue.outboxList ∧
      ((queueAddChunk queue chunk).2, (queueAddChunk queue chunk).1.inboxList) =
        match (receiver.step queue.protocol (queueCall chunk)).2.message with
        | none => ((receiver.step queue.protocol (queueCall chunk)).2.result, queue.inboxList)
        | some msg =>
            if queue.inboxCount < queue.storage.inboxSize then
              ((receiver.step queue.protocol (queueCall chunk)).2.result, queue.inboxList ++ [msg])
            else (.addingChunkCantSaveMessage, queue.inboxList) := by
  have hwhole : ∀ msg, (receiver.step queue.protocol (queueCall chunk)).2.message = some msg →
      msg.Whole ∧ msg.length ≤ queue.storage.maxPayload := by
    intro msg hmsg
    obtain ⟨hwhole, hle⟩ := receiver_message_whole h.protocol hmsg
    rw [h.maxPayload] at hle
    exact ⟨hwhole, hle (Or.inr h.rxStatic)⟩
  exact queueTakeReply_spec (h.withProtocol chunk) hwhole

/-- **Polling the inbox**: its first message is passed on and leaves it. -/
theorem queuePollNew_spec {queue : Queue} (h : queue.Ok) :
    (queuePollNew queue).1.Ok ∧ (queuePollNew queue).1.protocol = queue.protocol ∧
      (queuePollNew queue).1.config = queue.config ∧
      (queuePollNew queue).1.storage = queue.storage ∧
      (queuePollNew queue).1.outboxList = queue.outboxList ∧
      (queue.inboxList = [] ∧ queuePollNew queue = (queue, .pollingNewNoNewMessages, none) ∨
        ∃ msg rest, queue.inboxList = msg :: rest ∧ (queuePollNew queue).1.inboxList = rest ∧
          (queuePollNew queue).2 = (.ok, if queue.config.rxEvent then some msg else none)) := by
  by_cases hempty : queue.inboxCount = 0
  · have heq : queuePollNew queue = (queue, .pollingNewNoNewMessages, none) := by
      rw [queuePollNew, if_pos hempty]
    rw [heq]
    refine ⟨h, rfl, rfl, rfl, rfl, Or.inl ⟨?_, rfl⟩⟩
    rw [Queue.inboxList, hempty]
    rfl
  · obtain ⟨n, hn⟩ := Nat.exists_eq_succ_of_ne_zero hempty
    have hplaces : ringPlaces queue.storage.inboxSize queue.inboxHead queue.inboxCount =
        queue.inboxHead :: ringPlaces queue.storage.inboxSize
          ((queue.inboxHead + 1) % queue.storage.inboxSize) n := by
      rw [hn]
      exact ringPlaces_cons h.inboxHead
    have hcount : queue.inboxCount - 1 = n := by omega
    have heq : queuePollNew queue = (inboxPop queue, .ok,
        if queue.config.rxEvent then some (queue.inboxMsg queue.inboxHead) else none) := by
      rw [queuePollNew, if_neg hempty]
    rw [heq]
    refine ⟨?_, rfl, rfl, rfl, rfl, Or.inr ⟨queue.inboxMsg queue.inboxHead,
      (ringPlaces queue.storage.inboxSize ((queue.inboxHead + 1) % queue.storage.inboxSize) n).map
        queue.inboxMsg, ?_, ?_, rfl⟩⟩
    · -- the cells that are left are cells that were there
      have hle := h.inboxCount
      have hlt := h.inboxHead
      refine ⟨h.protocol, h.rxStatic, h.maxPayload, h.length_inbox, h.inboxPayload,
        Nat.mod_lt _ (by omega), show queue.inboxCount - 1 ≤ queue.storage.inboxSize by omega,
        fun i hi => ?_, h.length_outbox, h.outboxHead, h.outboxCount⟩
      simp only [inboxPop] at hi
      rw [hcount] at hi
      exact h.entries i (by rw [hplaces]; exact List.mem_cons_of_mem _ hi)
    · rw [Queue.inboxList, hplaces, List.map_cons]
    · simp only [Queue.inboxList, inboxPop]
      rw [hcount]
      rfl

/-! ### Runs -/

/-- A call to a queue, with what the network answers. -/
inductive QueueCall
  /-- `uni_can_protoplexer_queue_send`. -/
  | send (msg : Msg) (readable : msg.Readable)
  /-- `uni_can_protoplexer_queue_add_chunk`. -/
  | addChunk (chunk : CanMessage)
  /-- `uni_can_protoplexer_queue_poll_rx`. -/
  | pollRx (frame : Option CanMessage)
  /-- `uni_can_protoplexer_queue_poll_tx`. -/
  | pollTx (hw : HwResult)
  /-- `uni_can_protoplexer_queue_poll_new`. -/
  | pollNew

/-- A queue as a machine. -/
def queueMachine : Machine Queue QueueCall Result where
  step queue
    | .send msg _ => queueSend queue msg
    | .addChunk chunk => queueAddChunk queue chunk
    | .pollRx frame => queuePollRx queue frame
    | .pollTx hw => queuePollTx queue hw
    | .pollNew => ((queuePollNew queue).1, (queuePollNew queue).2.1)

theorem queuePollRx_eq (queue : Queue) (frame : Option CanMessage) :
    queuePollRx queue frame = (queue, .pollingRxHwRxEmpty) ∨
      ∃ chunk, frame = some chunk ∧ queuePollRx queue frame = queueAddChunk queue chunk := by
  unfold queuePollRx
  split_ifs
  · exact Or.inl rfl
  · cases frame with
    | none => exact Or.inl rfl
    | some chunk => exact Or.inr ⟨chunk, rfl, rfl⟩

/-- Every call keeps the invariant. -/
theorem Queue.Ok.step {queue : Queue} (h : queue.Ok) (call : QueueCall) :
    (queueMachine.step queue call).1.Ok := by
  cases call with
  | send msg readable =>
    rcases queueSend_spec h readable with ⟨hsame, -⟩ | ⟨-, -, -, mem, -, hok, -⟩
    · exact hsame.symm ▸ h
    · exact hok
  | addChunk chunk => exact (queueAddChunk_spec h chunk).1
  | pollRx frame =>
    rcases queuePollRx_eq queue frame with heq | ⟨chunk, -, heq⟩
    · simp only [queueMachine, heq]
      exact h
    · simp only [queueMachine, heq]
      exact (queueAddChunk_spec h chunk).1
  | pollTx hw => exact (queuePollTx_spec h hw).1
  | pollNew => exact (queuePollNew_spec h).1

/-- Memory for one message of up to two bytes on the way in, and for two chunks on
the way out. -/
def smallStorage : Storage where
  rxBuffers := true
  rxPayload := some [0, 0]
  maxChannels := 1
  maxPayload := 2
  inbox := some [{}]
  inboxPayload := some [0, 0]
  inboxSize := 1
  outbox := some [{}, {}]
  outboxSize := 2
  rxPayload_length := by intro mem h; cases h; decide
  inbox_length := by intro mem h; cases h; rfl
  inboxPayload_length := by intro mem h; cases h; decide
  outbox_length := by intro mem h; cases h; rfl

/-- A queue of the device `address` with this memory. -/
def smallQueueConfig (address : UInt16) : QueueConfig where
  ownAddress := address
  maxChunkLength := 8
  monitoring := false
  sendAttempts := 1
  storage := some smallStorage
  sendChunk := true
  receiveChunk := true
  rxEvent := true

/-- The queue that is set up with it. -/
def smallQueue (address : UInt16) : Queue where
  config := smallQueueConfig address
  storage := smallStorage
  protocol := {
    ownAddress := address &&& 0x0FFF
    maxChunkLength := 8
    monitoring := false
    maxChannels := 1
    rx := [{}]
    maxPayload := 2
    rxPayload := [0, 0]
    rxStatic := true
    rxView := none
    heapAllocs := 0
    heapFrees := 0 }
  inbox := [{}]
  inboxPayload := [0, 0]
  inboxHead := 0
  inboxCount := 0
  outbox := [{}, {}]
  outboxHead := 0
  outboxCount := 0
  sendAttempts := 0

theorem queueInit_smallQueue (address : UInt16) :
    queueInit (smallQueueConfig address) = some (smallQueue address) := rfl

/-- A queue after some calls. -/
def Queue.Reachable (queue : Queue) : Prop :=
  ∃ cfg queue₀, queueInit cfg = some queue₀ ∧ queueMachine.Reachable queue₀ queue

theorem smallQueue_reachable (address : UInt16) : (smallQueue address).Reachable :=
  ⟨_, _, queueInit_smallQueue address, [], rfl⟩

theorem Queue.Reachable.ok {queue : Queue} (h : queue.Reachable) : queue.Ok := by
  obtain ⟨cfg, queue₀, hinit, calls, rfl⟩ := h
  exact queueMachine.final_of_step calls (queueInit_ok hinit).1 fun _ call _ h => h.step call

end Protoplexer
end UniCan
