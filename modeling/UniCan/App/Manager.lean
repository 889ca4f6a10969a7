import Mathlib.Data.List.Basic
import Mathlib.Logic.Relation
import Mathlib.Tactic.Common

/-!
# The thread of the CAN manager

While the manager is connected, a thread takes the received messages from the channel and
puts the queued ones on it.  When there is nothing left to do it waits on a condition
variable, and whoever has something for it notifies it: `SendMessage` and `SendProtoPlexer`
after a push, the channel after a message has arrived, `Disconnect` after it has set the
flag that ends the thread.  The thread does not look again before it waits, and a notify
reaches it only while it waits, `can_mgr.cpp`.

The channel is there from before the thread starts until after its end.

## Main definitions

* `Worker`, `Sender`, `Disconnecting` — where each party is.
* `CanManager`, `step` — what they share, and everything that may happen next.
* `Lost` — the thread waits, nobody is about to notify it, and there is something to do.
* `Heard` — what happens does not fall into the gap before the thread waits.

## Main results

* `Inv.step` — what has to be done is known to the thread, or somebody is about to notify it.
* `not_lost_of_heard` — **no wake-up is lost in a run whose notifies are all heard**, and every
  notify that is not heard may be a lost wake-up.
-/

namespace UniCan.App

/-! ### The parties -/

/-- Where the thread is, `threadFunction` and `threadFunctionOperating`. -/
inductive Worker
  /-- Started, before it resets the flag. -/
  | start
  /-- At the test of the outer loop. -/
  | test
  /-- Behind the test, before it waits. -/
  | enter
  /-- Waiting on the condition variable. -/
  | waiting
  /-- At the test of the inner loop. -/
  | look (again : Bool)
  /-- Before it takes a received message. -/
  | receive
  /-- Before it takes the queue. -/
  | drain (again : Bool)
  /-- Returned. -/
  | done
  deriving DecidableEq, Repr

/-- How far the holder of the queue's mutex is, in `SendMessage` or `SendProtoPlexer`. -/
inductive Sender (π : Type*)
  /-- It has the mutex, and a packet to push. -/
  | locked (packet : π)
  /-- It has pushed the packet. -/
  | pushed
  /-- It has notified the thread. -/
  | notified
  deriving DecidableEq, Repr

/-- How far `Disconnect` is. -/
inductive Disconnecting
  | idle
  /-- It has set the flag. -/
  | abortSet
  /-- It has notified the thread and waits for its end. -/
  | joining
  | joined
  deriving DecidableEq, Repr

/-- What the parties share.  Any number of threads may send; one of them at most holds the
mutex. -/
structure CanManager (π : Type*) where
  worker : Worker
  /-- `m_thread_abort`. -/
  threadAbort : Bool
  /-- `m_tx_queue`. -/
  txQueue : List π
  /-- The holder of `m_tx_queue_mtx`, if it is a sender. -/
  sender : Option (Sender π)
  /-- Messages that the channel has received and not handed over. -/
  received : ℕ
  /-- Receptions the thread has not been notified of. -/
  arrivals : ℕ
  disconnecting : Disconnecting
  deriving DecidableEq, Repr

/-- What may happen. -/
inductive Action (π : Type*)
  /-- The thread resets the flag. -/
  | reset
  /-- It tests the flag in the outer loop. -/
  | test
  /-- It starts to wait. -/
  | wait
  /-- It wakes up although nobody has notified it, as condition variables do. -/
  | wakeUp
  /-- It tests whether to go round the inner loop. -/
  | look
  /-- It takes a received message, if there is one. -/
  | receive
  /-- It takes the queue, under the mutex, and transmits what can be transmitted. -/
  | drain
  /-- A sender gets the mutex. -/
  | lock (packet : π)
  /-- It pushes its packet. -/
  | push
  /-- It notifies the thread. -/
  | notify
  /-- It gives the mutex back. -/
  | unlock
  /-- The channel receives a message. -/
  | arrive
  /-- The channel notifies the thread. -/
  | notifyReceived
  /-- `Disconnect` sets the flag. -/
  | abort
  /-- `Disconnect` notifies the thread. -/
  | notifyAbort
  /-- `Disconnect` has waited for the end of the thread. -/
  | join
  deriving DecidableEq, Repr

/-! ### What may happen -/

namespace CanManager

variable {π : Type*}

/-- A connection at its beginning: the thread has been started, and the flag is still set by
the `Disconnect` that `Connect` begins with. -/
def initial : CanManager π := ⟨.start, true, [], none, 0, 0, .idle⟩

/-- `ThreadNotify`: the thread is woken if it waits. -/
def threadNotify (s : CanManager π) : CanManager π :=
  { s with worker := if s.worker = .waiting then .look true else s.worker }

/-- **What happens next**, if it can.  Of a packet it matters whether it can be transmitted:
one that cannot does not send the thread round the loop again. -/
def step (transmits : π → Bool) (s : CanManager π) : Action π → Option (CanManager π)
  | .reset =>
    if s.worker = .start then some { s with worker := .test, threadAbort := false } else none
  | .test =>
    if s.worker = .test then
      some { s with worker := if s.threadAbort then .done else .enter }
    else none
  | .wait => if s.worker = .enter then some { s with worker := .waiting } else none
  | .wakeUp => if s.worker = .waiting then some { s with worker := .look true } else none
  | .look =>
    match s.worker with
    | .look again =>
      some { s with worker := if again && !s.threadAbort then .receive else .test }
    | _ => none
  | .receive =>
    if s.worker = .receive then
      some { s with worker := .drain (decide (0 < s.received)), received := s.received - 1 }
    else none
  | .drain =>
    match s.worker, s.sender with
    | .drain again, none =>
      some { s with worker := .look (again || s.txQueue.any transmits), txQueue := [] }
    | _, _ => none
  | .lock packet =>
    match s.sender with
    | none => some { s with sender := some (.locked packet) }
    | some _ => none
  | .push =>
    match s.sender with
    | some (.locked packet) =>
      some { s with txQueue := s.txQueue ++ [packet], sender := some .pushed }
    | _ => none
  | .notify =>
    match s.sender with
    | some .pushed => some { s.threadNotify with sender := some .notified }
    | _ => none
  | .unlock =>
    match s.sender with
    | some .notified => some { s with sender := none }
    | _ => none
  | .arrive => some { s with received := s.received + 1, arrivals := s.arrivals + 1 }
  | .notifyReceived =>
    if 0 < s.arrivals then some { s.threadNotify with arrivals := s.arrivals - 1 } else none
  | .abort =>
    match s.disconnecting with
    | .idle => some { s with threadAbort := true, disconnecting := .abortSet }
    | _ => none
  | .notifyAbort =>
    match s.disconnecting with
    | .abortSet => some { s.threadNotify with disconnecting := .joining }
    | _ => none
  | .join =>
    match s.disconnecting, s.worker with
    | .joining, .done => some { s with disconnecting := .joined }
    | _, _ => none

/-- Something happens. -/
def Moves (transmits : π → Bool) (s s' : CanManager π) : Prop :=
  ∃ a, s.step transmits a = some s'

/-! ### Lost wake-ups -/

/-- Everyone who has something for the thread has notified it. -/
def Settled (s : CanManager π) : Prop :=
  s.sender ≠ some .pushed ∧ s.arrivals = 0 ∧ s.disconnecting ≠ .abortSet

/-- **A lost wake-up**: the thread waits, everyone has notified it, and yet there is a packet
to transmit, a message to take, or a `Disconnect` that waits for it. -/
def Lost (s : CanManager π) : Prop :=
  s.worker = .waiting ∧ s.Settled ∧
    (s.txQueue ≠ [] ∨ 0 < s.received ∨ s.disconnecting = .joining)

/-- The thread is going to wait, unless `Disconnect` sets the flag in time; it has looked at
the queue for the last time. -/
def WillWait (s : CanManager π) : Prop :=
  s.worker = .start ∨ s.worker = .enter ∨
    (s.worker = .test ∨ s.worker = .look false) ∧ s.threadAbort = false

/-- The packet that a sender is about to push. -/
def coming (s : CanManager π) : List π :=
  match s.sender with
  | some (.locked packet) => [packet]
  | _ => []

/-- The thread is going to wait, and has looked for a received message for the last time: it
has found none, and no packet will send it round the loop again. -/
def WillWaitReceived (transmits : π → Bool) (s : CanManager π) : Prop :=
  s.WillWait ∨ s.worker = .drain false ∧ s.threadAbort = false ∧
    ∀ p ∈ s.txQueue ++ s.coming, transmits p = false

/-- **What happens does not fall into the gap**: no notify while the thread has looked for
the last time before it waits, and no flag set before the thread resets it. -/
def Heard (transmits : π → Bool) (s : CanManager π) : Action π → Prop
  | .notify => ¬ s.WillWait
  | .notifyReceived => 0 < s.received → ¬ s.WillWaitReceived transmits
  | .abort => s.worker ≠ .start
  | .notifyAbort => ¬ s.WillWait
  | _ => True

/-- Something happens that does not fall into the gap. -/
def MovesHeard (transmits : π → Bool) (s s' : CanManager π) : Prop :=
  ∃ a, s.Heard transmits a ∧ s.step transmits a = some s'

/-! ### Where the thread will not look -/

/-- The thread does not look at the queue before it is woken. -/
def Away (s : CanManager π) : Prop := s.worker = .waiting ∨ s.WillWait

/-- It does not look for a received message before it is woken. -/
def AwayReceived (transmits : π → Bool) (s : CanManager π) : Prop :=
  s.worker = .waiting ∨ s.WillWaitReceived transmits

section Steps

variable {transmits : π → Bool} {s s' : CanManager π} {a : Action π}

/-- **The thread turns its back on the queue only when it is empty.** -/
theorem away_step (h : s.step transmits a = some s') (haway : s'.Away) :
    s.Away ∨ s'.txQueue = [] := by
  cases a with
  | drain =>
    -- it has just taken what was there
    simp only [step] at h
    split at h
    · cases h
      exact Or.inr rfl
    · cases h
  | _ =>
    -- the way to the wait has no other beginning, and nobody leads the thread to it
    refine Or.inl ?_
    simp only [step] at h
    grind [Away, WillWait, threadNotify]

/-- **And on the channel only when it has nothing.** -/
theorem awayReceived_step (h : s.step transmits a = some s') (haway : s'.AwayReceived transmits) :
    s.AwayReceived transmits ∨ s'.received = 0 := by
  cases a with
  | receive =>
    -- it has found nothing, or else it goes round once more
    simp only [step] at h
    split at h
    · cases h
      by_cases hpos : 0 < s.received
      · simp [AwayReceived, WillWaitReceived, WillWait, hpos] at haway
      · exact Or.inr (by simp only; omega)
    · cases h
  | _ =>
    -- behind the receipt, it stays on its way until somebody gives it something to send
    refine Or.inl ?_
    simp only [step] at h
    grind [AwayReceived, WillWaitReceived, WillWait, threadNotify, coming]

/-- A notify does nothing to a thread that does not wait. -/
theorem threadNotify_of_ne (h : s.worker ≠ .waiting) : s.threadNotify = s := by
  rw [threadNotify, if_neg h]

/-- **A notify that is heard brings the thread back.** -/
theorem not_away_threadNotify (h : ¬ s.WillWait) : ¬ s.threadNotify.Away := by
  by_cases hwait : s.worker = .waiting
  · simp [Away, WillWait, threadNotify, hwait]
  · rw [threadNotify_of_ne hwait]
    exact not_or.mpr ⟨hwait, h⟩

theorem not_awayReceived_threadNotify (h : ¬ s.WillWaitReceived transmits) :
    ¬ s.threadNotify.AwayReceived transmits := by
  by_cases hwait : s.worker = .waiting
  · simp [AwayReceived, WillWaitReceived, WillWait, threadNotify, hwait]
  · rw [threadNotify_of_ne hwait]
    exact not_or.mpr ⟨hwait, h⟩

/-- A packet in the queue was there before, or has just been pushed. -/
theorem txQueue_step (h : s.step transmits a = some s') (hne : s'.txQueue ≠ []) :
    s.txQueue ≠ [] ∨ s'.sender = some .pushed := by
  cases a <;> simp only [step] at h <;> grind [threadNotify]

/-- Who has pushed a packet notifies the thread next. -/
theorem pushed_step (h : s.step transmits a = some s') (hpushed : s.sender = some .pushed) :
    s'.sender = some .pushed ∨ a = .notify := by
  cases a <;> simp only [step] at h <;> grind [threadNotify]

/-- A received message was there before, or has just arrived. -/
theorem received_step (h : s.step transmits a = some s') (hpos : 0 < s'.received) :
    0 < s.received ∨ 0 < s'.arrivals := by
  cases a <;> simp only [step] at h <;> grind [threadNotify]

/-- An arrival is followed by a notify. -/
theorem arrivals_step (h : s.step transmits a = some s') (hpos : 0 < s.arrivals) :
    0 < s'.arrivals ∨ a = .notifyReceived := by
  cases a <;> simp only [step] at h <;> grind [threadNotify]

/-! ### The invariant -/

/-- **What has to be done is known to the thread, or somebody is about to notify it.** -/
structure Inv (transmits : π → Bool) (s : CanManager π) : Prop where
  queue : s.txQueue ≠ [] → s.sender = some .pushed ∨ ¬ s.Away
  received : 0 < s.received → 0 < s.arrivals ∨ ¬ s.AwayReceived transmits
  abortSet : s.disconnecting = .abortSet → s.threadAbort = true ∧ s.worker ≠ .start
  joining : s.disconnecting = .joining →
    s.threadAbort = true ∧ s.worker ≠ .start ∧ s.worker ≠ .enter ∧ s.worker ≠ .waiting

theorem Inv.initial : Inv transmits (initial : CanManager π) where
  queue h := absurd rfl h
  received h := absurd h (Nat.lt_irrefl 0)
  abortSet h := nomatch h
  joining h := nomatch h

/-- After a notify of a sender that is heard, the thread is not away. -/
theorem not_away_of_notify (hheard : s.Heard transmits .notify)
    (h : s.step transmits .notify = some s') : ¬ s'.Away := by
  simp only [step] at h
  split at h
  · cases h
    exact not_away_threadNotify hheard
  · cases h

theorem Inv.queue_step (hinv : s.Inv transmits) (hheard : s.Heard transmits a)
    (h : s.step transmits a = some s') (hne : s'.txQueue ≠ []) :
    s'.sender = some .pushed ∨ ¬ s'.Away := by
  rcases txQueue_step h hne with hold | hpushed
  · rcases hinv.queue hold with hpushed | haway
    · rcases pushed_step h hpushed with hpushed' | rfl
      · exact Or.inl hpushed'
      · exact Or.inr (not_away_of_notify hheard h)
    · -- the thread was not away, and does not turn its back on a packet
      refine Or.inr fun haway' => ?_
      rcases away_step h haway' with hback | hnil
      · exact haway hback
      · exact hne hnil
  · exact Or.inl hpushed

/-- After a notify of the channel that is heard, the thread is not away. -/
theorem not_awayReceived_of_notify (hheard : s.Heard transmits .notifyReceived)
    (h : s.step transmits .notifyReceived = some s') (hpos : 0 < s'.received) :
    ¬ s'.AwayReceived transmits := by
  simp only [step] at h
  split at h
  · cases h
    exact not_awayReceived_threadNotify (hheard hpos)
  · cases h

theorem Inv.received_step (hinv : s.Inv transmits) (hheard : s.Heard transmits a)
    (h : s.step transmits a = some s') (hpos : 0 < s'.received) :
    0 < s'.arrivals ∨ ¬ s'.AwayReceived transmits := by
  rcases CanManager.received_step h hpos with hold | harrived
  · rcases hinv.received hold with harrived | haway
    · rcases arrivals_step h harrived with harrived' | rfl
      · exact Or.inl harrived'
      · exact Or.inr (not_awayReceived_of_notify hheard h hpos)
    · refine Or.inr fun haway' => ?_
      rcases awayReceived_step h haway' with hback | hzero
      · exact haway hback
      · omega
  · exact Or.inl harrived

/-- The flag stays set until the thread has ended. -/
theorem Inv.abort_step (hinv : s.Inv transmits) (hheard : s.Heard transmits a)
    (h : s.step transmits a = some s') :
    (s'.disconnecting = .abortSet → s'.threadAbort = true ∧ s'.worker ≠ .start) ∧
      (s'.disconnecting = .joining → s'.threadAbort = true ∧ s'.worker ≠ .start ∧
        s'.worker ≠ .enter ∧ s'.worker ≠ .waiting) := by
  have hset := hinv.abortSet
  have hjoin := hinv.joining
  cases a <;> simp only [step] at h <;> grind [Heard, threadNotify, WillWait]

/-- **Nothing that is heard breaks the invariant.** -/
theorem Inv.step (hinv : s.Inv transmits) (hheard : s.Heard transmits a)
    (h : s.step transmits a = some s') : s'.Inv transmits where
  queue := hinv.queue_step hheard h
  received := hinv.received_step hheard h
  abortSet := (hinv.abort_step hheard h).1
  joining := (hinv.abort_step hheard h).2

/-- A state with the invariant is no lost wake-up. -/
theorem Inv.not_lost (hinv : s.Inv transmits) : ¬ s.Lost := by
  rintro ⟨hwait, ⟨hsender, harrivals, -⟩, hqueue | hreceived | hjoining⟩
  · rcases hinv.queue hqueue with hpushed | haway
    · exact hsender hpushed
    · exact haway (Or.inl hwait)
  · rcases hinv.received hreceived with harrived | haway
    · omega
    · exact haway (Or.inl hwait)
  · exact (hinv.joining hjoining).2.2.2 hwait

/-- The invariant holds after a run whose notifies are all heard. -/
theorem inv_of_movesHeard (h : Relation.ReflTransGen (MovesHeard transmits) CanManager.initial s) :
    s.Inv transmits := by
  induction h with
  | refl => exact Inv.initial
  | tail _ hmove ih =>
    obtain ⟨a, hheard, hstep⟩ := hmove
    exact ih.step hheard hstep

end Steps

/-! ### Notifies that are not heard -/

section Unheard

open Relation (ReflTransGen)

variable {transmits : π → Bool} {s s' : CanManager π} {a : Action π}

theorem moves (a : Action π) (h : s.step transmits a = some s') :
    ReflTransGen (Moves transmits) s s' := .single ⟨a, h⟩

/-- A sender finishes while the thread is busy. -/
theorem moves_sender (hwait : s.worker ≠ .waiting) :
    ReflTransGen (Moves transmits) s
      { s with sender := none, txQueue := s.txQueue ++ s.coming } := by
  obtain ⟨worker, threadAbort, txQueue, sender, received, arrivals, disconnecting⟩ := s
  have hunlock : ∀ queue : List π, ReflTransGen (Moves transmits)
      ⟨worker, threadAbort, queue, some .notified, received, arrivals, disconnecting⟩
      ⟨worker, threadAbort, queue, none, received, arrivals, disconnecting⟩ :=
    fun queue => moves .unlock rfl
  have hnotify : ∀ queue : List π, ReflTransGen (Moves transmits)
      ⟨worker, threadAbort, queue, some .pushed, received, arrivals, disconnecting⟩
      ⟨worker, threadAbort, queue, none, received, arrivals, disconnecting⟩ := by
    intro queue
    refine (moves .notify ?_).trans (hunlock queue)
    simp only [step, threadNotify, if_neg hwait]
  cases sender with
  | none => simpa [coming] using ReflTransGen.refl
  | some sender =>
    cases sender with
    | locked packet => exact (moves .push rfl).trans (hnotify _)
    | pushed => simpa [coming] using hnotify txQueue
    | notified => simpa [coming] using hunlock txQueue

/-- The channel notifies a busy thread of everything that has arrived. -/
theorem moves_arrivals (hwait : s.worker ≠ .waiting) :
    ReflTransGen (Moves transmits) s { s with arrivals := 0 } := by
  obtain ⟨worker, threadAbort, txQueue, sender, received, arrivals, disconnecting⟩ := s
  induction arrivals with
  | zero => exact .refl
  | succ n ih =>
    refine (moves .notifyReceived ?_).trans (ih hwait)
    simp only [step, threadNotify, if_neg hwait, if_pos n.succ_pos, Nat.add_sub_cancel]

/-- `Disconnect` notifies a busy thread. -/
theorem moves_disconnect (hwait : s.worker ≠ .waiting) :
    ReflTransGen (Moves transmits) s { s with
      disconnecting := if s.disconnecting = .abortSet then .joining else s.disconnecting } := by
  obtain ⟨worker, threadAbort, txQueue, sender, received, arrivals, disconnecting⟩ := s
  by_cases hset : disconnecting = .abortSet
  · subst hset
    refine moves .notifyAbort ?_
    simp only [step, threadNotify, if_neg hwait, reduceIte]
  · rw [if_neg hset]

/-- Everyone who is about to notify the thread has done so, and the mutex is free. -/
def settle (s : CanManager π) : CanManager π :=
  { s with
    sender := none
    txQueue := s.txQueue ++ s.coming
    arrivals := 0
    disconnecting := if s.disconnecting = .abortSet then .joining else s.disconnecting }

/-- **Others may finish what they do while the thread is busy**, and their notifies do not
reach it. -/
theorem moves_settle (hwait : s.worker ≠ .waiting) :
    ReflTransGen (Moves transmits) s s.settle :=
  ((moves_sender hwait).trans (moves_arrivals hwait)).trans (moves_disconnect hwait)

theorem settled_settle (s : CanManager π) : s.settle.Settled := by
  refine ⟨by simp [settle], rfl, ?_⟩
  simp only [settle]
  split_ifs with hset
  · simp
  · exact hset

/-- A thread that is going to wait, waits. -/
theorem moves_wait (transmits : π → Bool) (hwill : s.WillWait) :
    ∃ b, ReflTransGen (Moves transmits) s { s with worker := .waiting, threadAbort := b } := by
  obtain ⟨worker, threadAbort, txQueue, sender, received, arrivals, disconnecting⟩ := s
  have henter : ∀ b, ReflTransGen (Moves transmits)
      ⟨.enter, b, txQueue, sender, received, arrivals, disconnecting⟩
      ⟨.waiting, b, txQueue, sender, received, arrivals, disconnecting⟩ :=
    fun b => moves .wait rfl
  have htest : ReflTransGen (Moves transmits)
      ⟨.test, false, txQueue, sender, received, arrivals, disconnecting⟩
      ⟨.waiting, false, txQueue, sender, received, arrivals, disconnecting⟩ :=
    (moves .test rfl).trans (henter false)
  rcases hwill with hstart | henter' | ⟨htest' | hlook, habort⟩
  · cases hstart
    exact ⟨false, (moves .reset rfl).trans htest⟩
  · cases henter'
    exact ⟨threadAbort, henter threadAbort⟩
  · cases htest'
    cases habort
    exact ⟨false, htest⟩
  · cases hlook
    cases habort
    exact ⟨false, (moves .look rfl).trans htest⟩

/-- **A thread that is going to wait loses what is there when everyone has notified it.** -/
theorem lost_of_willWait (transmits : π → Bool) (hwill : s.WillWait)
    (htodo : s.txQueue ≠ [] ∨ 0 < s.received ∨ s.disconnecting = .joining) :
    ∃ t, ReflTransGen (Moves transmits) s t ∧ t.Lost := by
  have hwait : s.worker ≠ .waiting := by
    rcases hwill with h | h | ⟨h | h, -⟩ <;> simp [h]
  have hwill' : s.settle.WillWait := hwill
  obtain ⟨b, hmoves⟩ := moves_wait transmits hwill'
  refine ⟨_, (moves_settle hwait).trans hmoves, rfl, settled_settle s, ?_⟩
  rcases htodo with hqueue | hreceived | hjoining
  · exact Or.inl (by simp [settle, hqueue])
  · exact Or.inr (Or.inl hreceived)
  · exact Or.inr (Or.inr (by simp [settle, hjoining]))

/-- A thread that has found no message and will send none loses one that arrives late. -/
theorem lost_of_willWaitReceived (hwill : s.WillWaitReceived transmits) (hpos : 0 < s.received) :
    ∃ t, ReflTransGen (Moves transmits) s t ∧ t.Lost := by
  rcases hwill with hwill | ⟨hdrain, habort, hnone⟩
  · exact lost_of_willWait transmits hwill (Or.inr (Or.inl hpos))
  · have hwait : s.worker ≠ .waiting := by simp [hdrain]
    have hany : s.settle.txQueue.any transmits = false := by
      simpa [settle, or_imp, forall_and] using hnone
    have hstep : s.settle.step transmits .drain =
        some { s.settle with worker := .look false, txQueue := [] } := by
      simp only [step, hany]
      simp [settle, hdrain]
    obtain ⟨t, hmoves, hlost⟩ := lost_of_willWait transmits
      (s := { s.settle with worker := .look false, txQueue := [] })
      (Or.inr (Or.inr ⟨Or.inr rfl, habort⟩)) (Or.inr (Or.inl hpos))
    exact ⟨t, ((moves_settle hwait).trans (moves .drain hstep)).trans hmoves, hlost⟩

/-- The queue is taken only while no sender has the mutex. -/
theorem txQueue_step_pushed (hold : s.sender = some .pushed → s.txQueue ≠ [])
    (hstep : s.step transmits a = some s') (hpushed : s'.sender = some .pushed) :
    s'.txQueue ≠ [] := by
  cases a with
  | push =>
    simp only [step] at hstep
    split at hstep
    · cases hstep
      exact List.append_ne_nil_of_right_ne_nil _ (List.cons_ne_nil _ _)
    · cases hstep
  | _ =>
    simp only [step] at hstep
    grind [threadNotify]

/-- A sender that has pushed a packet still has it in the queue. -/
theorem txQueue_of_pushed (h : ReflTransGen (Moves transmits) initial s)
    (hpushed : s.sender = some .pushed) : s.txQueue ≠ [] := by
  induction h with
  | refl => cases hpushed
  | tail _ hmove ih =>
    obtain ⟨a, hstep⟩ := hmove
    exact txQueue_step_pushed ih hstep hpushed

/-- **A notify that is not heard** may be a lost wake-up: from there on, the thread may get to
wait although everyone has notified it and there is something to do. -/
theorem lost_of_unheard (h : ReflTransGen (Moves transmits) initial s)
    (hheard : ¬ s.Heard transmits a) (hstep : s.step transmits a = some s') :
    ∃ t, ReflTransGen (Moves transmits) s' t ∧ t.Lost := by
  have hbusy : s.WillWait → s.worker ≠ .waiting := by
    rintro (hw | hw | ⟨hw | hw, -⟩) <;> simp [hw]
  cases a with
  | notify =>
    have hwill : s.WillWait := not_not.mp hheard
    simp only [step] at hstep
    split at hstep
    · rename_i hpushed
      have hqueue := txQueue_of_pushed h hpushed
      rw [threadNotify_of_ne (hbusy hwill), Option.some.injEq] at hstep
      subst hstep
      exact lost_of_willWait transmits hwill (Or.inl hqueue)
    · cases hstep
  | notifyReceived =>
    obtain ⟨hpos, hwill⟩ : 0 < s.received ∧ s.WillWaitReceived transmits := by
      simpa [Heard] using hheard
    have hwait : s.worker ≠ .waiting := by
      rcases hwill with hwill | ⟨hdrain, -⟩
      · exact hbusy hwill
      · simp [hdrain]
    simp only [step, threadNotify_of_ne hwait] at hstep
    split at hstep
    · rw [Option.some.injEq] at hstep
      subst hstep
      exact lost_of_willWaitReceived hwill hpos
    · cases hstep
  | abort =>
    have hstart : s.worker = .start := not_not.mp hheard
    simp only [step] at hstep
    split at hstep
    · rw [Option.some.injEq] at hstep
      subst hstep
      -- the thread resets the flag, and `Disconnect` waits for a thread that waits
      have hwait : s.worker ≠ .waiting := by simp [hstart]
      obtain ⟨t, hmoves, hlost⟩ := lost_of_willWait transmits
        (s := { s with threadAbort := true, disconnecting := .joining }) (Or.inl hstart)
        (Or.inr (Or.inr rfl))
      exact ⟨t, (moves_disconnect (s := { s with threadAbort := true, disconnecting := .abortSet })
        hwait).trans hmoves, hlost⟩
    · cases hstep
  | notifyAbort =>
    have hwill : s.WillWait := not_not.mp hheard
    simp only [step] at hstep
    split at hstep
    · rw [threadNotify_of_ne (hbusy hwill), Option.some.injEq] at hstep
      subst hstep
      exact lost_of_willWait transmits hwill (Or.inr (Or.inr rfl))
    · cases hstep
  | _ => exact absurd trivial hheard

/-- **No wake-up is lost in a run whose notifies are all heard.**  And every step of any run
that is not heard may be what loses one: from there on, the thread may get to wait although
everyone has notified it and there is something to do. -/
theorem not_lost_of_heard (transmits : π → Bool) (s : CanManager π) :
    (ReflTransGen (MovesHeard transmits) CanManager.initial s → ¬ s.Lost) ∧
      ∀ (a : Action π) (s' : CanManager π), ReflTransGen (Moves transmits) CanManager.initial s →
        ¬ s.Heard transmits a → s.step transmits a = some s' →
          ∃ t, ReflTransGen (Moves transmits) s' t ∧ t.Lost := by
  refine ⟨fun h => (inv_of_movesHeard h).not_lost, fun a s' h hheard hstep => ?_⟩
  exact lost_of_unheard h hheard hstep

end Unheard

/-- A packet is sent while the thread waits; and one while it is going to. -/
theorem not_lost_of_late_send :
    ¬ (⟨.look true, false, ["on"], none, 0, 0, .idle⟩ : CanManager String).Lost ∧
      ∃ t, Relation.ReflTransGen (Moves fun _ => true)
          (⟨.enter, false, ["on"], some .notified, 0, 0, .idle⟩ : CanManager String) t ∧
        t.Lost := by
  constructor
  · exact (not_lost_of_heard (fun _ => true) _).1 <|
      .head ⟨.reset, trivial, rfl⟩ <| .head ⟨.test, trivial, rfl⟩ <|
      .head ⟨.wait, trivial, rfl⟩ <| .head ⟨.lock "on", trivial, rfl⟩ <|
      .head ⟨.push, trivial, rfl⟩ <| .head ⟨.notify, by simp [Heard, WillWait], rfl⟩ <|
      .single ⟨.unlock, trivial, rfl⟩
  · exact (not_lost_of_heard (fun _ => true) ⟨.enter, false, ["on"], some .pushed, 0, 0, .idle⟩).2
      .notify _ (.head ⟨.reset, rfl⟩ <| .head ⟨.test, rfl⟩ <| .head ⟨.lock "on", rfl⟩ <|
        .single ⟨.push, rfl⟩) (by simp [Heard, WillWait]) rfl

/-- A packet is sent between the test of the flag and the wait: the thread waits, and the
packet stays in the queue. -/
theorem lost_of_early_send :
    Relation.ReflTransGen (Moves fun _ => true) CanManager.initial
        ⟨.waiting, false, ["on"], none, 0, 0, .idle⟩ ∧
      (⟨.waiting, false, ["on"], none, 0, 0, .idle⟩ : CanManager String).Lost :=
  ⟨.head ⟨.reset, rfl⟩ <| .head ⟨.test, rfl⟩ <| .head ⟨.lock "on", rfl⟩ <|
    .head ⟨.push, rfl⟩ <| .head ⟨.notify, rfl⟩ <| .head ⟨.unlock, rfl⟩ <| .single ⟨.wait, rfl⟩,
    rfl, ⟨by decide, rfl, by decide⟩, Or.inl (by decide)⟩

end CanManager

end UniCan.App
