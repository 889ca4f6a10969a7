import UniCan.Foundation.Fifo
import UniCan.Protoplexer.Boxes

/-!
# The inbox is first in, first out, also from within its event

`queuePollNew` passes the oldest message to `rx_event` before it drops it, and the
application may use the queue from there: add chunks, poll the network, send.  The
message it was given must not change under its hands, and no other may be dropped.

## Main definitions

* `InnerCall` — the calls `rx_event` may make.
* `queuePollNewDuring` — polling the inbox, with the calls `rx_event` makes meanwhile.
* `eventMachine` — a queue whose event handler uses it.
* `messagesStored`, `messagesTaken` — the messages a call puts into the inbox, and the one
  it takes out.

## Main results

* `inner_spec` — an inner call leaves the messages that wait alone.
* `queuePollNewDuring_spec` — **the message that is handed over stays as it is**, and only
  it is dropped.
* `inbox_fifo` — **the inbox is a queue of owned copies.**
-/

namespace UniCan
namespace Protoplexer

/-! ### Calls from within the event -/

/-- A call to a queue, but for `queuePollNew`. -/
inductive InnerCall
  /-- `uni_can_protoplexer_queue_send`. -/
  | send (msg : Msg) (readable : msg.Readable)
  /-- `uni_can_protoplexer_queue_add_chunk`. -/
  | addChunk (chunk : CanMessage)
  /-- `uni_can_protoplexer_queue_poll_rx`. -/
  | pollRx (frame : Option CanMessage)
  /-- `uni_can_protoplexer_queue_poll_tx`. -/
  | pollTx (hw : HwResult)

/-- A queue as a machine for these calls. -/
def innerMachine : Machine Queue InnerCall Result where
  step queue
    | .send msg _ => queueSend queue msg
    | .addChunk chunk => queueAddChunk queue chunk
    | .pollRx frame => queuePollRx queue frame
    | .pollTx hw => queuePollTx queue hw

/-- `uni_can_protoplexer_queue_poll_new`, with the calls `rx_event` makes on the queue
before it returns, and the message it is given. -/
def queuePollNewDuring (queue : Queue) (during : List InnerCall) : Queue × Result × Option Msg :=
  if queue.inboxCount = 0 then (queue, .pollingNewNoNewMessages, none)
  else if queue.config.rxEvent then
    (inboxPop (innerMachine.final queue during), .ok, some (queue.inboxMsg queue.inboxHead))
  else (inboxPop queue, .ok, none)

/-- An event handler that does not use the queue. -/
theorem queuePollNewDuring_nil (queue : Queue) :
    queuePollNewDuring queue [] = queuePollNew queue := by
  unfold queuePollNewDuring queuePollNew
  split_ifs <;> rfl

/-- A call to a queue whose event handler uses it. -/
inductive EventCall
  /-- A call from outside the event. -/
  | inner (call : InnerCall)
  /-- `uni_can_protoplexer_queue_poll_new`, with the calls of the event handler. -/
  | pollNew (during : List InnerCall)

/-- A queue whose event handler uses it, as a machine. -/
def eventMachine : Machine Queue EventCall Result where
  step queue
    | .inner call => innerMachine.step queue call
    | .pollNew during =>
        ((queuePollNewDuring queue during).1, (queuePollNewDuring queue during).2.1)

/-! ### One inner call -/

/-- The message a call completes, as the protocol delivers it. -/
def messageCompleted (queue : Queue) : InnerCall → Option Msg
  | .addChunk chunk => (receiver.step queue.protocol (queueCall chunk)).2.message
  | .pollRx (some chunk) =>
      if queue.config.receiveChunk then
        (receiver.step queue.protocol (queueCall chunk)).2.message
      else none
  | _ => none

/-- The message a call puts into the inbox: the one it completes, if there is room. -/
def messagesStored (queue : Queue) (call : InnerCall) : List Msg :=
  if queue.inboxCount < queue.storage.inboxSize then (messageCompleted queue call).toList else []

/-- What an inner call does: it keeps the head of the inbox where it is, and appends the
message it completes, or reports that there is no room for it. -/
structure InnerSpec (queue : Queue) (call : InnerCall) (queue' : Queue) (result : Result) :
    Prop where
  ok : queue'.Ok
  config : queue'.config = queue.config
  storage : queue'.storage = queue.storage
  inboxHead : queue'.inboxHead = queue.inboxHead
  inboxList : queue'.inboxList = queue.inboxList ++ messagesStored queue call
  full : messageCompleted queue call ≠ none → ¬ queue.inboxCount < queue.storage.inboxSize →
    result = .addingChunkCantSaveMessage

theorem inboxPush_inboxHead {queue queue' : Queue} {msg : Msg}
    (h : inboxPush queue msg = some queue') : queue'.inboxHead = queue.inboxHead := by
  unfold inboxPush at h
  split at h
  · exact absurd h (by simp)
  · rw [← Option.some.inj h]

theorem queueAddChunk_inboxHead (queue : Queue) (chunk : CanMessage) :
    (queueAddChunk queue chunk).1.inboxHead = queue.inboxHead := by
  unfold queueAddChunk queueTakeReply
  simp only
  split
  · rfl
  · split
    · rfl
    · rename_i hpush
      exact (inboxPush_inboxHead hpush).trans rfl

theorem queuePollTx_inboxHead (queue : Queue) (hw : HwResult) :
    (queuePollTx queue hw).1.inboxHead = queue.inboxHead := by
  unfold queuePollTx
  split
  · rfl
  · split
    · simp only
      split_ifs <;> rfl
    · rfl
    · rfl
    · rfl

/-- A chunk that comes in. -/
theorem InnerSpec.of_addChunk {queue : Queue} (h : queue.Ok) {call : InnerCall}
    {chunk : CanMessage} (hmsg : messageCompleted queue call =
      (receiver.step queue.protocol (queueCall chunk)).2.message) :
    InnerSpec queue call (queueAddChunk queue chunk).1 (queueAddChunk queue chunk).2 := by
  obtain ⟨hok, -, hconfig, hstorage, -, hboth⟩ := queueAddChunk_spec h chunk
  rw [← hmsg] at hboth
  have hhead := queueAddChunk_inboxHead queue chunk
  cases hcompleted : messageCompleted queue call with
  | none =>
    rw [hcompleted] at hboth
    obtain ⟨-, hlist⟩ := Prod.mk.inj hboth
    refine ⟨hok, hconfig, hstorage, hhead, ?_, fun hne => absurd hcompleted hne⟩
    rw [hlist, messagesStored, hcompleted]
    split_ifs <;> simp
  | some msg =>
    rw [hcompleted] at hboth
    by_cases hroom : queue.inboxCount < queue.storage.inboxSize
    · simp only [hroom, if_true] at hboth
      obtain ⟨-, hlist⟩ := Prod.mk.inj hboth
      refine ⟨hok, hconfig, hstorage, hhead, ?_, fun _ hfull => absurd hroom hfull⟩
      rw [hlist, messagesStored, if_pos hroom, hcompleted]
      rfl
    · simp only [hroom, if_false] at hboth
      obtain ⟨hresult, hlist⟩ := Prod.mk.inj hboth
      refine ⟨hok, hconfig, hstorage, hhead, ?_, fun _ _ => hresult⟩
      rw [hlist, messagesStored, if_neg hroom, List.append_nil]

/-- A call that completes no message and leaves the inbox alone. -/
theorem InnerSpec.of_same {queue queue' : Queue} {call : InnerCall} {result : Result}
    (h : queue'.Ok) (hconfig : queue'.config = queue.config)
    (hstorage : queue'.storage = queue.storage) (hhead : queue'.inboxHead = queue.inboxHead)
    (hlist : queue'.inboxList = queue.inboxList) (hnone : messageCompleted queue call = none) :
    InnerSpec queue call queue' result := by
  refine ⟨h, hconfig, hstorage, hhead, ?_, fun hne => absurd hnone hne⟩
  rw [hlist, messagesStored, hnone]
  split_ifs <;> simp

/-- **An inner call leaves the messages that wait alone.** -/
theorem inner_spec {queue : Queue} (h : queue.Ok) (call : InnerCall) :
    InnerSpec queue call (innerMachine.step queue call).1 (innerMachine.step queue call).2 := by
  cases call with
  | send msg readable =>
    rcases queueSend_spec h readable with ⟨hsame, -⟩ | ⟨-, -, -, mem, heq, hok, -⟩
    · simp only [innerMachine, hsame]
      exact .of_same h rfl rfl rfl rfl rfl
    · simp only [innerMachine]
      refine .of_same hok ?_ ?_ ?_ ?_ rfl <;> rw [heq]
      rfl
  | addChunk chunk => exact .of_addChunk h rfl
  | pollRx frame =>
    simp only [innerMachine, queuePollRx]
    cases hreceive : queue.config.receiveChunk with
    | false =>
      refine .of_same h rfl rfl rfl rfl ?_
      cases frame <;> simp [messageCompleted, hreceive]
    | true =>
      cases frame with
      | none => exact .of_same h rfl rfl rfl rfl rfl
      | some chunk => exact .of_addChunk h (by simp [messageCompleted, hreceive])
  | pollTx hw =>
    obtain ⟨hok, -, hconfig, hstorage, hlist, -⟩ := queuePollTx_spec h hw
    exact .of_same hok hconfig hstorage (queuePollTx_inboxHead queue hw) hlist rfl

/-! ### The event -/

/-- Every inner call treats the inbox as a queue from which nothing is taken. -/
theorem inner_fifo :
    innerMachine.Fifo Queue.inboxList messagesStored (fun _ _ => []) Queue.Ok where
  inv _ call h := (inner_spec h call).ok
  step _ call h := (inner_spec h call).inboxList

/-- The first message of the inbox is in the cell at its head. -/
theorem Queue.Ok.inboxList_cons {queue : Queue} (h : queue.Ok) (hne : queue.inboxCount ≠ 0) :
    ∃ rest, queue.inboxList = queue.inboxMsg queue.inboxHead :: rest := by
  obtain ⟨n, hn⟩ := Nat.exists_eq_succ_of_ne_zero hne
  rw [Queue.inboxList, hn, ringPlaces_cons h.inboxHead, List.map_cons]
  exact ⟨_, rfl⟩

theorem Queue.inboxList_eq_nil_iff {queue : Queue} :
    queue.inboxList = [] ↔ queue.inboxCount = 0 := by
  rw [← List.length_eq_zero_iff, Queue.inboxList, List.length_map, length_ringPlaces]

/-- What the calls of the event handler leave alone: the head of the inbox, and the
message in it. -/
theorem inner_run {queue : Queue} (h : queue.Ok) (calls : List InnerCall) :
    (innerMachine.final queue calls).Ok ∧
      (innerMachine.final queue calls).config = queue.config ∧
      (innerMachine.final queue calls).storage = queue.storage ∧
      (innerMachine.final queue calls).inboxHead = queue.inboxHead := by
  refine innerMachine.final_of_step (P := fun q => q.Ok ∧ q.config = queue.config ∧
    q.storage = queue.storage ∧ q.inboxHead = queue.inboxHead) calls ⟨h, rfl, rfl, rfl⟩ ?_
  rintro q call - ⟨hok, hconfig, hstorage, hhead⟩
  have hspec := inner_spec hok call
  exact ⟨hspec.ok, hspec.config.trans hconfig, hspec.storage.trans hstorage,
    hspec.inboxHead.trans hhead⟩

/-- **The message the event handler was given stays as it is**, in the cell it was given
in, as long as the handler runs. -/
theorem inner_run_inboxMsg {queue : Queue} (h : queue.Ok) (hne : queue.inboxCount ≠ 0)
    (calls : List InnerCall) :
    (innerMachine.final queue calls).inboxMsg queue.inboxHead =
      queue.inboxMsg queue.inboxHead := by
  obtain ⟨hok, -, -, hhead⟩ := inner_run h calls
  obtain ⟨rest, hrest⟩ := h.inboxList_cons hne
  have hlist := inner_fifo.run_of_out_nil h calls
  rw [hrest, List.cons_append] at hlist
  have hne' : (innerMachine.final queue calls).inboxCount ≠ 0 := by
    rw [Ne, ← Queue.inboxList_eq_nil_iff, hlist]
    exact List.cons_ne_nil _ _
  -- the messages are appended, so the first one is where it was
  obtain ⟨rest', hrest'⟩ := hok.inboxList_cons hne'
  rw [hrest', hhead] at hlist
  exact (List.cons.inj hlist).1

/-- Dropping the first message. -/
theorem inboxPop_spec {queue : Queue} (h : queue.Ok) (hne : queue.inboxCount ≠ 0) :
    (inboxPop queue).Ok ∧
      queue.inboxList = queue.inboxMsg queue.inboxHead :: (inboxPop queue).inboxList := by
  have heq : (queuePollNew queue).1 = inboxPop queue := by rw [queuePollNew, if_neg hne]
  obtain ⟨hok, -, -, -, -, ⟨hnil, -⟩ | ⟨msg, rest, hlist, hrest, -⟩⟩ := queuePollNew_spec h
  · exact absurd (Queue.inboxList_eq_nil_iff.mp hnil) hne
  · obtain ⟨rest', hrest'⟩ := h.inboxList_cons hne
    rw [heq] at hok hrest
    refine ⟨hok, ?_⟩
    rw [hrest, hlist, (List.cons.inj (hlist.symm.trans hrest')).1]

/-- The messages a call puts into the inbox, with those of the event handler. -/
def eventStored (queue : Queue) : EventCall → List Msg
  | .inner call => messagesStored queue call
  | .pollNew during =>
      if queue.inboxCount ≠ 0 ∧ queue.config.rxEvent = true then
        innerMachine.trace messagesStored queue during
      else []

/-- The message a call takes out of the inbox. -/
def messagesTaken (queue : Queue) : EventCall → List Msg
  | .inner _ => []
  | .pollNew _ => queue.inboxList.take 1

/-- **Polling the inbox**: its first message is passed on, stays as it is while the event
handler uses the queue, and leaves the inbox then; what the handler put in is behind the
others. -/
theorem queuePollNewDuring_spec {queue : Queue} (h : queue.Ok) (during : List InnerCall) :
    (queuePollNewDuring queue during).1.Ok ∧
      (queue.inboxList = [] ∧
          queuePollNewDuring queue during = (queue, .pollingNewNoNewMessages, none) ∨
        ∃ msg rest, queue.inboxList = msg :: rest ∧
          (queuePollNewDuring queue during).2 =
            (.ok, if queue.config.rxEvent then some msg else none) ∧
          (queuePollNewDuring queue during).1.inboxList =
            rest ++ eventStored queue (.pollNew during)) := by
  by_cases hempty : queue.inboxCount = 0
  · rw [queuePollNewDuring, if_pos hempty]
    exact ⟨h, Or.inl ⟨Queue.inboxList_eq_nil_iff.mpr hempty, rfl⟩⟩
  obtain ⟨rest, hrest⟩ := h.inboxList_cons hempty
  cases hevent : queue.config.rxEvent with
  | false =>
    obtain ⟨hok, hpop⟩ := inboxPop_spec h hempty
    rw [queuePollNewDuring, if_neg hempty, hevent, if_neg (by simp)]
    refine ⟨hok, Or.inr ⟨_, _, hpop, rfl, ?_⟩⟩
    simp [eventStored, hevent]
  | true =>
    -- the handler runs first, on a queue that still has the message
    obtain ⟨hok', -, -, hhead⟩ := inner_run h during
    have hlist := inner_fifo.run_of_out_nil h during
    rw [hrest, List.cons_append] at hlist
    have hne' : (innerMachine.final queue during).inboxCount ≠ 0 := by
      rw [Ne, ← Queue.inboxList_eq_nil_iff, hlist]
      exact List.cons_ne_nil _ _
    obtain ⟨hok, hpop⟩ := inboxPop_spec hok' hne'
    rw [queuePollNewDuring, if_neg hempty, hevent, if_pos rfl]
    refine ⟨hok, Or.inr ⟨_, rest, hrest, rfl, ?_⟩⟩
    rw [hlist] at hpop
    rw [← (List.cons.inj hpop).2, eventStored, if_pos ⟨hempty, hevent⟩]

/-! ### Every run -/

/-- **Every call treats the inbox as a queue**, whatever the event handler does. -/
theorem event_fifo : eventMachine.Fifo Queue.inboxList eventStored messagesTaken Queue.Ok where
  inv queue call h := by
    cases call with
    | inner call => exact (inner_spec h call).ok
    | pollNew during => exact (queuePollNewDuring_spec h during).1
  step queue call h := by
    cases call with
    | inner call => exact (inner_spec h call).inboxList
    | pollNew during =>
      simp only [eventMachine, messagesTaken]
      obtain ⟨-, ⟨hnil, heq⟩ | ⟨msg, rest, hlist, -, hafter⟩⟩ := queuePollNewDuring_spec h during
      · rw [heq, hnil, eventStored, if_neg fun hne => hne.1 (Queue.inboxList_eq_nil_iff.mp hnil)]
        rfl
      · rw [hafter, hlist]
        rfl

/-- The messages of the inbox are within the limit, and their data is theirs. -/
theorem Queue.Ok.length_le {queue : Queue} (h : queue.Ok) :
    ∀ msg ∈ queue.inboxList, msg.length ≤ queue.storage.maxPayload := by
  intro msg hmsg
  obtain ⟨i, hi, rfl⟩ := List.mem_map.mp hmsg
  exact (h.entries i hi).length_le

/-- **The inbox is a queue of owned copies, also under re-entrance.**  In every state a
queue gets into by any calls, of which those that poll the inbox may have the event
handler make more: the inbox holds at most as many messages as it has cells, each within
the limit; a call that completes a message appends it, or reports that there is no room
and leaves the inbox alone, and other calls leave it alone; and polling the inbox passes
on the oldest message, which stays as it is at every moment the event handler runs, and
then drops this message and no other.  Over every run, the messages that were taken and
those that wait are the ones that were stored, as they were delivered, in order. -/
theorem inbox_fifo {cfg : QueueConfig} {queue₀ : Queue} (hinit : queueInit cfg = some queue₀)
    (calls : List EventCall) {queue : Queue} (hqueue : eventMachine.final queue₀ calls = queue) :
    (queue.inboxCount ≤ queue.storage.inboxSize ∧ queue.inboxList.length = queue.inboxCount ∧
      ∀ msg ∈ queue.inboxList, msg.length ≤ queue.storage.maxPayload) ∧
    (∀ call : InnerCall,
      match messageCompleted queue call with
      | none => (innerMachine.step queue call).1.inboxList = queue.inboxList
      | some msg =>
          if queue.inboxCount < queue.storage.inboxSize then
            (innerMachine.step queue call).1.inboxList = queue.inboxList ++ [msg]
          else
            (innerMachine.step queue call).1.inboxList = queue.inboxList ∧
              (innerMachine.step queue call).2 = .addingChunkCantSaveMessage) ∧
    (∀ during : List InnerCall,
      queue.inboxList = [] ∧
          queuePollNewDuring queue during = (queue, .pollingNewNoNewMessages, none) ∨
        ∃ msg rest, queue.inboxList = msg :: rest ∧
          (queuePollNewDuring queue during).2 =
            (.ok, if queue.config.rxEvent then some msg else none) ∧
          (∀ before after, during = before ++ after →
            (innerMachine.final queue before).inboxMsg queue.inboxHead = msg) ∧
          (queuePollNewDuring queue during).1.inboxList =
            rest ++ eventStored queue (.pollNew during)) ∧
    eventMachine.trace messagesTaken queue₀ calls ++ queue.inboxList =
      eventMachine.trace eventStored queue₀ calls := by
  obtain ⟨hok₀, -, hempty⟩ := queueInit_ok hinit
  have h : queue.Ok := by
    rw [← hqueue]
    exact eventMachine.final_of_step calls hok₀ fun q call _ hq => event_fifo.inv q call hq
  refine ⟨⟨h.inboxCount, ?_, h.length_le⟩, fun call => ?_, fun during => ?_, ?_⟩
  · rw [Queue.inboxList, List.length_map, length_ringPlaces]
  · have hspec := inner_spec h call
    have hlist := hspec.inboxList
    have hfull := hspec.full
    unfold messagesStored at hlist
    cases hcompleted : messageCompleted queue call with
    | none =>
      rw [hcompleted] at hlist
      simpa using hlist
    | some msg =>
      rw [hcompleted] at hlist hfull
      simp only
      split_ifs with hroom
      · rw [if_pos hroom] at hlist
        exact hlist
      · rw [if_neg hroom, List.append_nil] at hlist
        exact ⟨hlist, hfull (by simp) hroom⟩
  · obtain ⟨-, hnil | ⟨msg, rest, hlist, hresult, hafter⟩⟩ := queuePollNewDuring_spec h during
    · exact Or.inl hnil
    · have hne : queue.inboxCount ≠ 0 := by
        rw [Ne, ← Queue.inboxList_eq_nil_iff, hlist]
        exact List.cons_ne_nil _ _
      obtain ⟨rest', hrest'⟩ := h.inboxList_cons hne
      refine Or.inr ⟨msg, rest, hlist, hresult, fun before after _ => ?_, hafter⟩
      rw [inner_run_inboxMsg h hne before]
      exact (List.cons.inj (hrest'.symm.trans hlist)).1
  · have hrun := event_fifo.run hok₀ calls
    rw [hempty, List.nil_append, hqueue] at hrun
    exact hrun

/-- A message that arrives while another one is handled finds no room, and does not
disturb it. -/
theorem inbox_fifo_smallQueue :
    eventMachine.trace messagesTaken (smallQueue 2)
        [.inner (.addChunk (smallCall 5 8).chunk),
          .pollNew [.addChunk (smallCall 6 8).chunk, .pollTx .ok]] ++
      (eventMachine.final (smallQueue 2)
        [.inner (.addChunk (smallCall 5 8).chunk),
          .pollNew [.addChunk (smallCall 6 8).chunk, .pollTx .ok]]).inboxList =
      eventMachine.trace eventStored (smallQueue 2)
        [.inner (.addChunk (smallCall 5 8).chunk),
          .pollNew [.addChunk (smallCall 6 8).chunk, .pollTx .ok]] :=
  (inbox_fifo (queueInit_smallQueue 2) _ rfl).2.2.2

end Protoplexer
end UniCan
