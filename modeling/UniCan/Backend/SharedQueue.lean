import Mathlib.Tactic.Common
import UniCan.Foundation.Fifo

/-!
# The queue of received messages

The thread of a backend puts the messages it receives into a queue, and the application takes
them out from other threads.  The queue is guarded by a mutex; who finds it empty in `pop`
waits on a condition variable, and `push` wakes one of those that wait, `common_queue.h`.
`ReceiveMessage` looks first whether the queue is empty, and pops if it is not, with the mutex
given back in between, `can_channel_base.cpp`.

What is done while the mutex is held is one step.  There may be any number of threads.

## Main definitions

* `SharedQueue`, `sharedQueue` — the queue with the threads in its functions, as a machine.
* `SharedQueue.Quiet` — a step that takes nothing away from a thread that has looked.

## Main results

* `sharedQueue_exactly_once` — **every message is handed out once and in order, or cleared.**
* `receiveMessage_waits_iff` — **when a thread may come to wait.**
-/

namespace UniCan
namespace Backend

variable {κ α : Type*}

/-! ### The queue and its threads -/

/-- `SharedQueue`, with the threads that are in `ReceiveMessage`. -/
structure SharedQueue (κ α : Type*) where
  /-- `_queue`. -/
  queue : List α := []
  /-- The threads in `pop` that do not wait; they go on when they get the mutex. -/
  popping : List κ := []
  /-- The threads that wait on `_condvar`. -/
  waiting : List κ := []
  deriving DecidableEq

/-- What may happen. -/
inductive QueueAction (κ α : Type*)
  /-- A message is pushed; of the threads that wait the one with this index is woken. -/
  | push (value : α) (choice : ℕ)
  | clear
  /-- A thread calls `ReceiveMessage`, which looks whether the queue is empty. -/
  | receive (thread : κ)
  /-- A thread in `pop` gets the mutex. -/
  | pop (thread : κ)
  /-- A thread that waits wakes up by itself. -/
  | wakeUp (thread : κ)
  deriving DecidableEq

/-- What `ReceiveMessage` returns to a thread. -/
structure Returned (κ α : Type*) where
  thread : κ
  value : Option α
  deriving DecidableEq

namespace SharedQueue

/-- `notify_one`. -/
def notifyOne (q : SharedQueue κ α) (choice : ℕ) : SharedQueue κ α :=
  match q.waiting[choice % q.waiting.length]? with
  | none => q
  | some thread =>
      { q with
        popping := q.popping ++ [thread]
        waiting := q.waiting.eraseIdx (choice % q.waiting.length) }

/-- `SharedQueue::push`. -/
def push (q : SharedQueue κ α) (value : α) (choice : ℕ) : SharedQueue κ α :=
  { q with queue := q.queue ++ [value] }.notifyOne choice

/-- `SharedQueue::clear`. -/
def clear (q : SharedQueue κ α) : SharedQueue κ α := { q with queue := [] }

variable [DecidableEq κ]

/-- The beginning of `CanChannelBase::ReceiveMessage`, for a thread that is not in it. -/
def receive (q : SharedQueue κ α) (thread : κ) : SharedQueue κ α × Option (Returned κ α) :=
  if thread ∈ q.popping ∨ thread ∈ q.waiting then (q, none)
  else if q.queue.isEmpty then (q, some ⟨thread, none⟩)
  else ({ q with popping := q.popping ++ [thread] }, none)

/-- `SharedQueue::pop`, from where the thread gets the mutex. -/
def pop (q : SharedQueue κ α) (thread : κ) : SharedQueue κ α × Option (Returned κ α) :=
  if thread ∉ q.popping then (q, none)
  else
    match q.queue with
    | [] => ({ q with popping := q.popping.erase thread, waiting := q.waiting ++ [thread] }, none)
    | value :: queue =>
        ({ q with queue, popping := q.popping.erase thread }, some ⟨thread, some value⟩)

/-- A wake-up without a notify. -/
def wakeUp (q : SharedQueue κ α) (thread : κ) : SharedQueue κ α :=
  if thread ∈ q.waiting then
    { q with popping := q.popping ++ [thread], waiting := q.waiting.erase thread }
  else q

end SharedQueue

/-- The queue as a machine; it puts out what `ReceiveMessage` returns. -/
def sharedQueue [DecidableEq κ] :
    Machine (SharedQueue κ α) (QueueAction κ α) (Option (Returned κ α)) where
  step q
    | .push value choice => (q.push value choice, none)
    | .clear => (q.clear, none)
    | .receive thread => q.receive thread
    | .pop thread => q.pop thread
    | .wakeUp thread => (q.wakeUp thread, none)

namespace SharedQueue

/-- What `pop` can do. -/
theorem pop_cases [DecidableEq κ] (q : SharedQueue κ α) (thread : κ) :
    (thread ∉ q.popping ∧ q.pop thread = (q, none)) ∨
      (thread ∈ q.popping ∧ q.queue = [] ∧ q.pop thread =
        ({ q with popping := q.popping.erase thread, waiting := q.waiting ++ [thread] }, none)) ∨
      ∃ value queue, thread ∈ q.popping ∧ q.queue = value :: queue ∧ q.pop thread =
        ({ q with queue, popping := q.popping.erase thread }, some ⟨thread, some value⟩) := by
  by_cases hin : thread ∈ q.popping
  · right
    cases hqueue : q.queue with
    | nil => exact Or.inl ⟨hin, rfl, by simp [pop, hin, hqueue]⟩
    | cons value queue => exact Or.inr ⟨value, queue, hin, rfl, by simp [pop, hin, hqueue]⟩
  · exact Or.inl ⟨hin, by simp [pop, hin]⟩

/-! ### Every message once -/

section Once

variable (q : SharedQueue κ α)

theorem queue_notifyOne (choice : ℕ) : (q.notifyOne choice).queue = q.queue := by
  unfold notifyOne
  split <;> rfl

/-- What a step puts into the queue. -/
def pushed (_ : SharedQueue κ α) : QueueAction κ α → List α
  | .push value _ => [value]
  | _ => []

variable [DecidableEq κ]

/-- What a step takes out of the queue, and for whom. -/
def removed (q : SharedQueue κ α) : QueueAction κ α → List (Option κ × α)
  | .clear => q.queue.map (none, ·)
  | .pop thread => if thread ∈ q.popping then q.queue.head?.toList.map (some thread, ·) else []
  | _ => []

/-- What a step hands out. -/
def handedOut (returned : Option (Returned κ α)) : Option (κ × α) :=
  returned.bind fun r => r.value.map (r.thread, ·)

theorem queue_receive (thread : κ) : (q.receive thread).1.queue = q.queue := by
  unfold receive
  split_ifs <;> rfl

theorem queue_wakeUp (thread : κ) : (q.wakeUp thread).queue = q.queue := by
  unfold wakeUp
  split_ifs <;> rfl

/-- **A step takes from the front and puts to the back.** -/
theorem removed_step (a : QueueAction κ α) :
    (q.removed a).map Prod.snd ++ (sharedQueue.step q a).1.queue = q.queue ++ q.pushed a := by
  cases a with
  | push value choice => exact queue_notifyOne _ choice
  | clear => simp [removed, sharedQueue, clear, pushed, Function.comp_def]
  | receive thread =>
    simp only [pushed, List.append_nil]
    exact q.queue_receive thread
  | wakeUp thread =>
    simp only [pushed, List.append_nil]
    exact q.queue_wakeUp thread
  | pop thread =>
    rcases q.pop_cases thread with ⟨hout, heq⟩ | ⟨-, hqueue, heq⟩ |
      ⟨value, queue, hin, hqueue, heq⟩
    · simp [removed, sharedQueue, heq, pushed, hout]
    · simp [removed, sharedQueue, heq, pushed, hqueue]
    · simp [removed, sharedQueue, heq, pushed, hin, hqueue]

/-- What a step hands out is what it takes out for a thread. -/
theorem handedOut_step (a : QueueAction κ α) :
    (handedOut (sharedQueue.step q a).2).toList =
      (q.removed a).filterMap fun r => r.1.map (·, r.2) := by
  cases a with
  | push value choice => rfl
  | clear =>
    rw [removed, List.filterMap_map]
    exact (List.filterMap_eq_nil_iff.mpr fun _ _ => rfl).symm
  | wakeUp thread => rfl
  | receive thread =>
    simp only [sharedQueue, receive, removed]
    split_ifs <;> rfl
  | pop thread =>
    rcases q.pop_cases thread with ⟨hout, heq⟩ | ⟨-, hqueue, heq⟩ |
      ⟨value, queue, hin, hqueue, heq⟩
    · simp [removed, sharedQueue, heq, handedOut, hout]
    · simp [removed, sharedQueue, heq, handedOut, hqueue]
    · simp [removed, sharedQueue, heq, handedOut, hin, hqueue]

/-- What a run hands out is what it takes out for threads. -/
theorem handedOut_run (actions : List (QueueAction κ α)) :
    (sharedQueue.outputs q actions).filterMap handedOut =
      (sharedQueue.trace removed q actions).filterMap fun r => r.1.map (·, r.2) := by
  induction actions generalizing q with
  | nil => rfl
  | cons a actions ih =>
    rw [Machine.outputs_cons, Machine.trace_cons, List.filterMap_append, ← ih, ← q.handedOut_step]
    cases hout : handedOut (sharedQueue.step q a).2 with
    | none => rw [List.filterMap_cons_none hout, Option.toList_none, List.nil_append]
    | some v => rw [List.filterMap_cons_some hout, Option.toList_some, List.singleton_append]

/-- The queue is one, in the sense of `Machine.Fifo`. -/
theorem fifo : (sharedQueue (κ := κ) (α := α)).Fifo SharedQueue.queue pushed
    (fun q a => (q.removed a).map Prod.snd) (fun _ => True) where
  inv _ _ _ := trivial
  step q a _ := q.removed_step a

end Once

/-! ### No lost wake-up -/

/-- **No wake-up is lost**: while a thread waits, there is a thread on its way for every
message in the queue. -/
def Attended (q : SharedQueue κ α) : Prop :=
  q.waiting = [] ∨ q.queue.length ≤ q.popping.length

/-- Nobody waits, and there is a message for every thread on its way. -/
def Served (q : SharedQueue κ α) : Prop :=
  q.waiting = [] ∧ q.popping.length ≤ q.queue.length

/-- A notify wakes one of the threads that wait, if there is one. -/
theorem notifyOne_cases (q : SharedQueue κ α) (choice : ℕ) :
    (q.waiting = [] ∧ q.notifyOne choice = q) ∨
      ∃ thread waiting, thread ∈ q.waiting ∧ q.notifyOne choice =
        { q with popping := q.popping ++ [thread], waiting } := by
  cases hwaiting : q.waiting with
  | nil =>
    refine Or.inl ⟨rfl, ?_⟩
    simp [notifyOne, hwaiting]
  | cons first rest =>
    have hlt : choice % q.waiting.length < q.waiting.length :=
      Nat.mod_lt _ (by simp [hwaiting])
    refine Or.inr ⟨q.waiting[choice % q.waiting.length],
      q.waiting.eraseIdx (choice % q.waiting.length), ?_, ?_⟩
    · rw [← hwaiting]
      exact List.getElem_mem hlt
    · simp only [notifyOne, List.getElem?_eq_getElem hlt]

theorem Served.push {q : SharedQueue κ α} (h : q.Served) (value : α) (choice : ℕ) :
    (q.push value choice).Served := by
  obtain ⟨hwaiting, hle⟩ := h
  have heq : q.push value choice = { q with queue := q.queue ++ [value] } := by
    simp [SharedQueue.push, notifyOne, hwaiting]
  rw [heq]
  refine ⟨hwaiting, ?_⟩
  simp only [List.length_append]
  omega

section Threads

variable [DecidableEq κ] {q : SharedQueue κ α}

theorem Attended.step (h : q.Attended) (a : QueueAction κ α) :
    (sharedQueue.step q a).1.Attended := by
  cases a with
  | push value choice =>
    rcases notifyOne_cases { q with queue := q.queue ++ [value] } choice with
      ⟨hnone, heq⟩ | ⟨thread, waiting, hmem, heq⟩
    · exact Or.inl (by simp only [sharedQueue, push]; rw [heq]; exact hnone)
    · -- the thread that is woken is the one for the new message
      have hle := h.resolve_left (List.ne_nil_of_mem hmem)
      refine Or.inr ?_
      simp only [sharedQueue, push]
      rw [heq]
      simp only [List.length_append, List.length_singleton]
      omega
  | clear => exact Or.inr (Nat.zero_le _)
  | receive thread =>
    simp only [sharedQueue, receive]
    split_ifs
    · exact h
    · exact h
    · refine h.imp_right fun hle => ?_
      simp only [List.length_append]
      omega
  | pop thread =>
    simp only [sharedQueue]
    rcases q.pop_cases thread with ⟨-, heq⟩ | ⟨-, hqueue, heq⟩ |
      ⟨value, queue, hin, hqueue, heq⟩
    · rw [heq]
      exact h
    · rw [heq]
      exact Or.inr (by simp [hqueue])
    · rw [heq]
      refine h.imp_right fun hle => ?_
      have hlen := List.length_erase_of_mem hin
      rw [hqueue, List.length_cons] at hle
      simp only
      omega
  | wakeUp thread =>
    simp only [sharedQueue, wakeUp]
    split_ifs with hin
    · refine Or.inr ?_
      have hle := h.resolve_left (List.ne_nil_of_mem hin)
      simp only [List.length_append]
      omega
    · exact h

/-! ### Who may come to wait -/

/-- **A step that takes nothing away from a thread on its way**: the queue is not cleared
while there is one, and a thread that looks leaves a message for each of the others. -/
def Quiet (q : SharedQueue κ α) : QueueAction κ α → Prop
  | .clear => q.popping = []
  | .receive thread => thread ∈ q.popping ∨ thread ∈ q.waiting ∨ q.queue = [] ∨
      q.popping.length < q.queue.length
  | _ => True

/-- **Quiet steps leave nobody waiting, and others do not.** -/
theorem Served.step_iff (h : q.Served) (a : QueueAction κ α) :
    (sharedQueue.step q a).1.Served ↔ q.Quiet a := by
  obtain ⟨hwaiting, hle⟩ := h
  cases a with
  | push value choice => exact iff_of_true (Served.push ⟨hwaiting, hle⟩ value choice) trivial
  | clear => simp [sharedQueue, clear, Served, Quiet, hwaiting]
  | receive thread =>
    simp only [sharedQueue, receive, Quiet, hwaiting, List.not_mem_nil, or_false, false_or,
      List.isEmpty_iff]
    split_ifs with hin hempty
    · exact iff_of_true ⟨hwaiting, hle⟩ (Or.inl hin)
    · exact iff_of_true ⟨hwaiting, hle⟩ (Or.inr (Or.inl hempty))
    · simp only [Served, List.length_append, List.length_singleton, true_and, hin, hempty, false_or]
      exact Nat.lt_iff_add_one_le.symm
  | pop thread =>
    refine iff_of_true ?_ trivial
    simp only [sharedQueue]
    rcases q.pop_cases thread with ⟨-, heq⟩ | ⟨hin, hqueue, heq⟩ |
      ⟨value, queue, hin, hqueue, heq⟩
    · rw [heq]
      exact ⟨hwaiting, hle⟩
    · -- the message for this thread would be missing
      have hpos := List.length_pos_of_mem hin
      rw [hqueue, List.length_nil] at hle
      omega
    · rw [heq]
      have hlen := List.length_erase_of_mem hin
      rw [hqueue, List.length_cons] at hle
      refine ⟨hwaiting, ?_⟩
      simp only
      omega
  | wakeUp thread =>
    refine iff_of_true ?_ trivial
    simp only [sharedQueue, wakeUp, hwaiting, List.not_mem_nil, if_false]
    exact ⟨hwaiting, hle⟩

/-- **Who waits when all threads on their way have popped**: those for whom there was no
message. -/
theorem length_waiting_pops (popping : List κ) {q : SharedQueue κ α} (h : q.popping = popping) :
    (sharedQueue.final q (popping.map .pop)).waiting.length =
      q.waiting.length + (popping.length - q.queue.length) := by
  induction popping generalizing q with
  | nil => simp
  | cons thread popping ih =>
    rw [List.map_cons, Machine.final_cons]
    have hin : thread ∈ q.popping := by
      rw [h]
      exact List.mem_cons_self
    have herase : q.popping.erase thread = popping := by
      rw [h]
      exact List.erase_cons_head ..
    cases hqueue : q.queue with
    | nil =>
      have hstep : (sharedQueue.step q (.pop thread)).1 =
          { q with popping, waiting := q.waiting ++ [thread] } := by
        simp [sharedQueue, pop, hin, hqueue, herase]
      rw [hstep, ih rfl]
      simp only [hqueue, List.length_append, List.length_cons, List.length_nil]
      omega
    | cons value queue =>
      have hstep : (sharedQueue.step q (.pop thread)).1 = { q with queue, popping } := by
        simp [sharedQueue, pop, hin, hqueue, herase]
      rw [hstep, ih rfl]
      simp only [List.length_cons]
      omega

/-- The threads on their way can all pop without waiting. -/
def Unblocked (q : SharedQueue κ α) : Prop :=
  q.waiting = [] ∧ (sharedQueue.final q (q.popping.map .pop)).waiting = []

theorem unblocked_iff : q.Unblocked ↔ q.Served := by
  refine and_congr_right fun hwaiting => ?_
  rw [← List.length_eq_zero_iff, length_waiting_pops q.popping rfl, hwaiting, List.length_nil]
  omega

/-- One thread receives, and the queue is not cleared while it does. -/
def Alone (thread : κ) (q : SharedQueue κ α) : QueueAction κ α → Prop
  | .clear => q.popping = []
  | .receive thread' => thread' = thread
  | _ => True

/-- At most this thread is on its way. -/
def OnlyPopping (thread : κ) (q : SharedQueue κ α) : Prop :=
  q.popping = [] ∨ q.popping = [thread]

/-- **A receiver that is alone is quiet**, and stays alone. -/
theorem Alone.quiet {thread : κ} {a : QueueAction κ α} (h : Alone thread q a) (hserved : q.Served)
    (honly : q.OnlyPopping thread) :
    q.Quiet a ∧ (sharedQueue.step q a).1.OnlyPopping thread := by
  cases a with
  | push value choice =>
    have heq : q.push value choice = { q with queue := q.queue ++ [value] } := by
      simp [SharedQueue.push, notifyOne, hserved.1]
    refine ⟨trivial, ?_⟩
    simp only [sharedQueue]
    rw [heq]
    exact honly
  | clear => exact ⟨h, honly⟩
  | receive thread' =>
    obtain rfl : thread' = thread := h
    rcases honly with hnone | hone
    · refine ⟨?_, ?_⟩
      · rw [Quiet, hnone, List.length_nil, List.length_pos_iff]
        exact Or.inr (Or.inr (em _))
      · simp only [sharedQueue, receive]
        split_ifs
        · exact Or.inl hnone
        · exact Or.inl hnone
        · exact Or.inr (by simp [hnone])
    · have hin : thread' ∈ q.popping := by
        rw [hone]
        exact List.mem_cons_self
      refine ⟨Or.inl hin, Or.inr ?_⟩
      simp [sharedQueue, receive, hone]
  | pop thread' =>
    refine ⟨trivial, ?_⟩
    simp only [sharedQueue]
    have herase : thread' ∈ q.popping → q.popping.erase thread' = [] := by
      intro hin
      have hone := honly.resolve_left (List.ne_nil_of_mem hin)
      rw [hone] at hin ⊢
      rw [List.mem_singleton.mp hin]
      exact List.erase_cons_head ..
    rcases q.pop_cases thread' with ⟨-, heq⟩ | ⟨hin, -, heq⟩ | ⟨value, queue, hin, -, heq⟩
    · rw [heq]
      exact honly
    · rw [heq]
      exact Or.inl (herase hin)
    · rw [heq]
      exact Or.inl (herase hin)
  | wakeUp thread' =>
    refine ⟨trivial, ?_⟩
    simp only [sharedQueue, wakeUp, hserved.1, List.not_mem_nil, if_false]
    exact honly

end Threads

end SharedQueue

/-- **Every message is handed out once and in order, or cleared**, in every run and with any
number of threads that push, receive and clear: the messages that were pushed are those that
were taken out, in order, and those still in the queue; `ReceiveMessage` returns those that
were not cleared, each to one thread.  And while a thread waits, there is another on its way
for every message in the queue. -/
theorem sharedQueue_exactly_once [DecidableEq κ] (actions : List (QueueAction κ α)) :
    let q := sharedQueue.final {} actions
    let removed := sharedQueue.trace SharedQueue.removed {} actions
    removed.map Prod.snd ++ q.queue = sharedQueue.trace SharedQueue.pushed {} actions ∧
      (sharedQueue.outputs {} actions).filterMap SharedQueue.handedOut =
        (removed.filterMap fun r => r.1.map (·, r.2)) ∧
      (q.waiting = [] ∨ q.queue.length ≤ q.popping.length) := by
  refine ⟨?_, ?_, ?_⟩
  · have hrun := SharedQueue.fifo.run (s := ({} : SharedQueue κ α)) trivial actions
    rw [Machine.trace_map] at hrun
    exact hrun
  · exact SharedQueue.handedOut_run _ actions
  · exact sharedQueue.final_of_step (P := SharedQueue.Attended) actions (Or.inl rfl)
      fun _ a _ h => h.step a

/-- **When a thread may come to wait** in `ReceiveMessage`, although it looks first: all
threads that are in it can finish after every step of a run exactly if each step is quiet, so
that no message is cleared or promised to another thread after one has looked.  That is so if
only one thread receives and the queue is not cleared meanwhile. -/
theorem receiveMessage_waits_iff [DecidableEq κ] (actions : List (QueueAction κ α)) :
    (sharedQueue.Along SharedQueue.Quiet {} actions ↔
        ∀ n, (sharedQueue.final {} (actions.take n)).Unblocked) ∧
      ∀ thread, sharedQueue.Along (SharedQueue.Alone thread) {} actions →
        ∀ n, (sharedQueue.final {} (actions.take n)).Unblocked := by
  have hserved : ({} : SharedQueue κ α).Served := ⟨rfl, Nat.le_refl _⟩
  have hiff : sharedQueue.Along SharedQueue.Quiet ({} : SharedQueue κ α) actions ↔
      ∀ n, (sharedQueue.final ({} : SharedQueue κ α) (actions.take n)).Unblocked := by
    simp only [SharedQueue.unblocked_iff]
    exact sharedQueue.along_iff_of_step_iff hserved (fun q a hq => (hq.step_iff a).symm) actions
  refine ⟨hiff, fun thread halone => hiff.mp ?_⟩
  exact sharedQueue.along_of_step (I := fun q => q.Served ∧ q.OnlyPopping thread)
    ⟨hserved, Or.inl rfl⟩ (fun q a hq ha =>
      have hquiet := SharedQueue.Alone.quiet ha hq.1 hq.2
      ⟨hquiet.1, (hq.1.step_iff a).mpr hquiet.1, hquiet.2⟩) halone

end Backend
end UniCan
