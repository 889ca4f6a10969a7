import UniCan.Foundation.Fifo
import UniCan.Protoplexer.Boxes

/-!
# Asking for a chunk again

The network may ask for a chunk again, and again: the chunk stays at the head of the
outbox, and every time the number of requests exceeds the configured one the caller is
told.  The queue counts in 32 bits.

## Main definitions

* `headAnswers` — what the network answers about the head of the outbox.
* `resends` — how often it asked for the chunk that is the head now.
* `ResendAccounted` — what the caller of a poll should be told.

## Main results

* `Queue.Counts.step` — every call keeps the counter in step with the history.
* `resend_accounting_iff` — **the accounting is right unless the counter wraps.**
-/

namespace UniCan
namespace Protoplexer

/-- The answer takes the chunk out of the outbox. -/
def HwResult.removes : HwResult → Bool
  | .ok | .errorNonRecoverable => true
  | .errorResendRequired | .other => false

/-- What becomes of the head of the outbox in a call: the answer of the network, and
without a network there is none. -/
def headAnswers (queue : Queue) : QueueCall → List HwResult
  | .pollTx hw =>
      if queue.outboxFront.isSome then
        [if queue.config.sendChunk then hw else .errorNonRecoverable]
      else []
  | _ => []

/-- How often the network asked for the chunk that is the head after these answers. -/
def resends (answers : List HwResult) : ℕ :=
  (answers.reverse.takeWhile fun hw => !hw.removes).count .errorResendRequired

/-- After some calls, a poll that is answered with a request is told that there were too
many exactly when the requests for this chunk, with this one, are a multiple of what is
configured and one more; else it is fine.  In both cases the chunk stays where it is. -/
def ResendAccounted (queue : Queue) (calls : List QueueCall) : Prop :=
  let now := queueMachine.final queue calls
  let requests :=
    resends (queueMachine.trace headAnswers queue (calls ++ [.pollTx .errorResendRequired]))
  (queuePollTx now .errorResendRequired).2 =
      (if now.config.sendAttempts.toNat + 1 ∣ requests then .hwSendTooManyAttempts else .ok) ∧
    (queuePollTx now .errorResendRequired).1.outboxList = now.outboxList

/-! ### Counting -/

@[simp] theorem resends_nil : resends [] = 0 := rfl

theorem resends_append (answers : List HwResult) (hw : HwResult) :
    resends (answers ++ [hw]) =
      if hw.removes then 0
      else if hw = .errorResendRequired then resends answers + 1 else resends answers := by
  rw [resends, List.reverse_append, List.reverse_singleton, List.singleton_append,
    List.takeWhile_cons]
  cases hw <;> simp [HwResult.removes, resends]

/-- The counter of a queue that is configured to `cfg`, when the network asked `n` times
for its head. -/
structure Queue.Counts (cfg : QueueConfig) (queue : Queue) (n : ℕ) : Prop where
  ok : queue.Ok
  config : queue.config = cfg
  attempts : queue.sendAttempts.toNat = n % (cfg.sendAttempts.toNat + 1)

section Counts

variable {cfg : QueueConfig} {queue : Queue} {n : ℕ}

/-- Nothing but a poll of the outbox touches the counter. -/
theorem queueMachine_step_frame (h : queue.Ok) {call : QueueCall}
    (hcall : ∀ hw, call ≠ .pollTx hw) :
    (queueMachine.step queue call).1.config = queue.config ∧
      (queueMachine.step queue call).1.sendAttempts = queue.sendAttempts := by
  have hadd : ∀ chunk, (queueAddChunk queue chunk).1.sendAttempts = queue.sendAttempts := by
    intro chunk
    simp only [queueAddChunk, queueTakeReply]
    cases (addChunkView .heapless queue.protocol chunk true true).2.message with
    | none => rfl
    | some msg =>
      simp only [inboxPush]
      by_cases hfull : queue.inboxCount ≥ queue.storage.inboxSize
      · simp only [if_pos hfull]
      · simp only [if_neg hfull]
  cases call with
  | send msg readable =>
    rcases queueSend_spec h readable with ⟨hsame, -⟩ | ⟨-, -, -, mem, heq, -⟩
    · simp only [queueMachine, hsame, and_self]
    · simp only [queueMachine, heq, and_self]
  | addChunk chunk => exact ⟨(queueAddChunk_spec h chunk).2.2.1, hadd chunk⟩
  | pollRx frame =>
    rcases queuePollRx_eq queue frame with heq | ⟨chunk, -, heq⟩
    · simp only [queueMachine, heq, and_self]
    · simp only [queueMachine, heq]
      exact ⟨(queueAddChunk_spec h chunk).2.2.1, hadd chunk⟩
  | pollTx hw => exact absurd rfl (hcall hw)
  | pollNew =>
    simp only [queueMachine, queuePollNew]
    split_ifs <;> exact ⟨rfl, rfl⟩

/-- The head of an outbox. -/
theorem Queue.Ok.isSome_outboxFront_iff (h : queue.Ok) :
    queue.outboxFront.isSome = true ↔ queue.outboxCount ≠ 0 := by
  rw [Queue.outboxFront]
  by_cases hempty : queue.outboxCount = 0
  · simp [hempty]
  · have hlt : queue.outboxHead < queue.outbox.length := by
      rw [h.length_outbox]
      exact h.outboxHead
    simp [hempty, hlt]

/-- The counter after a poll that found a chunk. -/
theorem queuePollTx_attempts (hne : queue.outboxCount ≠ 0) (hw : HwResult) :
    (queuePollTx queue hw).1.sendAttempts =
      match if queue.config.sendChunk then hw else .errorNonRecoverable with
      | .errorResendRequired =>
          if queue.sendAttempts + 1 > queue.config.sendAttempts then 0
          else queue.sendAttempts + 1
      | .other => queue.sendAttempts
      | _ => 0 := by
  rw [queuePollTx, if_neg hne]
  cases (if queue.config.sendChunk then hw else .errorNonRecoverable) with
  | errorResendRequired => simp only; split_ifs <;> rfl
  | ok => rfl
  | errorNonRecoverable => rfl
  | other => rfl

/-- One more request: the counter goes up by one, or starts again; it tells the caller so,
unless it wraps. -/
theorem next_attempts {attempts limit : UInt32} {n : ℕ}
    (h : attempts.toNat = n % (limit.toNat + 1)) :
    (if attempts + 1 > limit then 0 else attempts + 1).toNat = (n + 1) % (limit.toNat + 1) ∧
      (attempts + 1 > limit ↔ limit.toNat + 1 ∣ n + 1 ∧ limit.toNat + 1 < 2 ^ 32) := by
  have hlimit := limit.toNat_lt
  have hlt : n % (limit.toNat + 1) < limit.toNat + 1 := Nat.mod_lt n (Nat.succ_pos _)
  have hnext : (attempts + 1).toNat = (n % (limit.toNat + 1) + 1) % 2 ^ 32 := by
    rw [UInt32.toNat_add, h]
    rfl
  have hsplit : n + 1 = (limit.toNat + 1) * (n / (limit.toNat + 1)) +
      (n % (limit.toNat + 1) + 1) := by
    have := Nat.div_add_mod n (limit.toNat + 1)
    omega
  have hmod : (n + 1) % (limit.toNat + 1) =
      if n % (limit.toNat + 1) = limit.toNat then 0 else n % (limit.toNat + 1) + 1 := by
    rw [hsplit, Nat.mul_add_mod]
    split_ifs with hlast
    · rw [hlast, Nat.mod_self]
    · exact Nat.mod_eq_of_lt (by omega)
  have hgt : attempts + 1 > limit ↔
      n % (limit.toNat + 1) = limit.toNat ∧ limit.toNat + 1 < 2 ^ 32 := by
    rw [gt_iff_lt, UInt32.lt_iff_toNat_lt, hnext]
    omega
  have hdvd : limit.toNat + 1 ∣ n + 1 ↔ n % (limit.toNat + 1) = limit.toNat := by
    rw [Nat.dvd_iff_mod_eq_zero, hmod]
    split_ifs with hlast
    · simp [hlast]
    · simp [hlast]
  refine ⟨?_, by rw [hgt, hdvd]⟩
  rw [hmod]
  split_ifs with htold hlast hlast
  · rfl
  · exact absurd (hgt.mp htold).1 hlast
  · -- the counter has wrapped
    have htop : ¬ limit.toNat + 1 < 2 ^ 32 := fun htop => htold (hgt.mpr ⟨hlast, htop⟩)
    omega
  · omega

/-- **Every call keeps the counter in step with the history.** -/
theorem Queue.Counts.step {answers : List HwResult}
    (h : queue.Counts cfg (resends answers)) (call : QueueCall) :
    (queueMachine.step queue call).1.Counts cfg (resends (answers ++ headAnswers queue call)) := by
  by_cases htx : ∃ hw, call = .pollTx hw
  · obtain ⟨hw, rfl⟩ := htx
    have hspec := queuePollTx_spec h.ok hw
    refine ⟨hspec.1, hspec.2.2.1.trans h.config, ?_⟩
    by_cases hempty : queue.outboxCount = 0
    · have hnone : queue.outboxFront.isSome = false := by
        rw [← Bool.not_eq_true, h.ok.isSome_outboxFront_iff]
        exact not_not.mpr hempty
      simp only [queueMachine, headAnswers, hnone, Bool.false_eq_true, if_false, List.append_nil]
      rw [queuePollTx, if_pos hempty]
      exact h.attempts
    · have hsome := h.ok.isSome_outboxFront_iff.mpr hempty
      simp only [queueMachine, headAnswers, hsome, if_true]
      rw [queuePollTx_attempts hempty, resends_append]
      cases (if queue.config.sendChunk then hw else .errorNonRecoverable) with
      | errorResendRequired =>
        simp only [HwResult.removes, Bool.false_eq_true, if_false, if_true, h.config]
        exact (next_attempts h.attempts).1
      | other =>
        simp only [HwResult.removes, Bool.false_eq_true, if_false, reduceCtorEq]
        exact h.attempts
      | ok => exact (Nat.zero_mod _).symm
      | errorNonRecoverable => exact (Nat.zero_mod _).symm
  · obtain ⟨hconfig, hattempts⟩ := queueMachine_step_frame h.ok fun hw heq => htx ⟨hw, heq⟩
    have hnil : headAnswers queue call = [] := by
      cases call with
      | pollTx hw => exact absurd ⟨hw, rfl⟩ htx
      | _ => rfl
    rw [hnil, List.append_nil]
    exact ⟨h.ok.step call, hconfig.trans h.config, hattempts ▸ h.attempts⟩

/-- And so does every run. -/
theorem Queue.Counts.final (hinit : queueInit cfg = some queue) (calls : List QueueCall) :
    (queueMachine.final queue calls).Counts cfg
      (resends (queueMachine.trace headAnswers queue calls)) := by
  induction calls using List.reverseRecOn with
  | nil =>
    obtain ⟨storage, -, -, hconfig, -, -, -, -, -, -, -, -, -, -, -, hzero⟩ :=
      queueInit_spec hinit
    refine ⟨(queueInit_ok hinit).1, hconfig, ?_⟩
    rw [Machine.final_nil, hzero]
    exact (Nat.zero_mod _).symm
  | append_singleton calls call ih =>
    rw [Machine.final_append, Machine.trace_append, Machine.trace_cons, Machine.trace_nil,
      List.append_nil]
    exact ih.step call

/-- A poll that is answered with a request: what it returns, and that the chunk stays. -/
theorem queuePollTx_resend (h : queue.Ok) (hnet : queue.config.sendChunk = true)
    (hne : queue.outboxList ≠ []) :
    queue.outboxFront.isSome = true ∧
      (queuePollTx queue .errorResendRequired).2 =
        (if queue.sendAttempts + 1 > queue.config.sendAttempts then .hwSendTooManyAttempts
          else .ok) ∧
      (queuePollTx queue .errorResendRequired).1.outboxList = queue.outboxList := by
  have hcount : queue.outboxCount ≠ 0 := by
    intro hzero
    rw [Queue.outboxList, hzero, ringList_zero] at hne
    exact hne rfl
  refine ⟨h.isSome_outboxFront_iff.mpr hcount, ?_, ?_⟩
  · rw [queuePollTx, if_neg hcount, hnet, if_pos rfl]
    simp only
    split_ifs <;> rfl
  · obtain ⟨-, -, -, -, -, ⟨hnil, -⟩ | ⟨chunk, rest, hlist, -, hafter⟩⟩ :=
      queuePollTx_spec h .errorResendRequired
    · exact absurd hnil hne
    · rw [hafter, if_pos ⟨hnet, Or.inl rfl⟩, hlist]

/-- The history of a poll that is answered with a request. -/
theorem resends_trace_append (calls : List QueueCall)
    (hnet : (queueMachine.final queue calls).config.sendChunk = true)
    (hfront : (queueMachine.final queue calls).outboxFront.isSome = true) :
    resends (queueMachine.trace headAnswers queue (calls ++ [.pollTx .errorResendRequired])) =
      resends (queueMachine.trace headAnswers queue calls) + 1 := by
  rw [Machine.trace_append, Machine.trace_cons, Machine.trace_nil, List.append_nil, headAnswers,
    if_pos hfront, hnet, if_pos rfl, resends_append]
  rfl

/-- When a poll is accounted for, in terms of the requests before it. -/
theorem resendAccounted_iff (hinit : queueInit cfg = some queue) (hnet : cfg.sendChunk = true)
    (calls : List QueueCall) (hhead : (queueMachine.final queue calls).outboxList ≠ []) :
    ResendAccounted queue calls ↔ cfg.sendAttempts.toNat + 1 < 2 ^ 32 ∨
      ¬ 2 ^ 32 ∣ resends (queueMachine.trace headAnswers queue calls) + 1 := by
  have h := Queue.Counts.final hinit calls
  have hnet' : (queueMachine.final queue calls).config.sendChunk = true := by
    rw [h.config]
    exact hnet
  obtain ⟨hfront, hresult, hlist⟩ := queuePollTx_resend h.ok hnet' hhead
  have hgt := (next_attempts h.attempts).2
  unfold ResendAccounted
  simp only [resends_trace_append calls hnet' hfront, hresult, hlist, and_true]
  rw [h.config]
  set n := resends (queueMachine.trace headAnswers queue calls)
  have hlimit := cfg.sendAttempts.toNat_lt
  by_cases htop : cfg.sendAttempts.toNat + 1 < 2 ^ 32
  · simp only [hgt, htop, and_true, true_or]
  · have heq : cfg.sendAttempts.toNat + 1 = 2 ^ 32 := by omega
    have hno : ¬ (queueMachine.final queue calls).sendAttempts + 1 > cfg.sendAttempts :=
      fun hyes => htop (hgt.mp hyes).2
    rw [if_neg hno, heq]
    constructor
    · intro hok
      refine Or.inr fun hdvd => ?_
      rw [if_pos hdvd] at hok
      exact absurd hok (by simp)
    · rintro (hlt | hdvd)
      · exact absurd hlt (Nat.lt_irrefl _)
      · rw [if_neg hdvd]

end Counts

/-- **The accounting is right unless the counter wraps.**  A poll that is answered with a
request reports too many attempts exactly at the multiples of `N + 1`, where `N` is the
configured number, and leaves the chunk where it is, if and only if `N` is not the largest
32-bit number or the requests for the chunk, with this one, are no multiple of `2 ^ 32`. -/
theorem resend_accounting_iff {cfg : QueueConfig} {queue : Queue}
    (hinit : queueInit cfg = some queue) (hnet : cfg.sendChunk = true) (calls : List QueueCall)
    (hhead : (queueMachine.final queue calls).outboxList ≠ []) :
    ResendAccounted queue calls ↔ cfg.sendAttempts.toNat < 2 ^ 32 - 1 ∨
      ¬ 2 ^ 32 ∣ resends (queueMachine.trace headAnswers queue calls) + 1 := by
  rw [resendAccounted_iff hinit hnet calls hhead]
  refine or_congr_left ?_
  omega

/-- The third request in a row, with one that is allowed. -/
theorem resend_accounting_smallQueue :
    ResendAccounted (smallQueue 1)
      [.send (smallMsg 5) (smallMsg_readable 5), .pollTx .errorResendRequired,
        .pollTx .errorResendRequired] :=
  (resend_accounting_iff (queueInit_smallQueue 1) rfl _ (by decide)).mpr (Or.inl (by decide))

/-! ### The counter wraps -/

/-- Any number of requests in a row for one chunk. -/
theorem resend_run {queue : Queue} (h : queue.Ok) (hnet : queue.config.sendChunk = true)
    (hne : queue.outboxList ≠ []) (n : ℕ) :
    (queueMachine.final queue (List.replicate n (.pollTx .errorResendRequired))).outboxList =
        queue.outboxList ∧
      queueMachine.trace headAnswers queue (List.replicate n (.pollTx .errorResendRequired)) =
        List.replicate n .errorResendRequired := by
  induction n generalizing queue with
  | zero => exact ⟨rfl, rfl⟩
  | succ n ih =>
    obtain ⟨hfront, -, hlist⟩ := queuePollTx_resend h hnet hne
    have hspec := queuePollTx_spec h .errorResendRequired
    have hnext : (queuePollTx queue .errorResendRequired).1.config.sendChunk = true := by
      rw [hspec.2.2.1]
      exact hnet
    obtain ⟨hfinal, htrace⟩ := ih hspec.1 hnext (by rw [hlist]; exact hne)
    refine ⟨hfinal.trans hlist, ?_⟩
    rw [List.replicate_succ, Machine.trace_cons, List.replicate_succ, headAnswers, if_pos hfront,
      hnet, if_pos rfl, List.singleton_append]
    exact congrArg _ htrace

/-- A queue that should never tell, and does not even when it should: its limit is the
largest number of its counter. -/
def patientQueue : Queue :=
  { smallQueue 1 with config := { smallQueueConfig 1 with sendAttempts := 0xFFFFFFFF } }

theorem smallMsg_five_readable : (smallMsg 5).Readable := smallMsg_readable 5

/-- One message, and requests for its chunk. -/
def patientCalls (n : ℕ) : List QueueCall :=
  .send (smallMsg 5) smallMsg_five_readable :: List.replicate n (.pollTx .errorResendRequired)

/-- The chunk is still the head, and every request was for it. -/
theorem patientCalls_spec (n : ℕ) :
    (queueMachine.final patientQueue (patientCalls n)).outboxList ≠ [] ∧
      resends (queueMachine.trace headAnswers patientQueue (patientCalls n)) = n := by
  have hinit : queueInit { smallQueueConfig 1 with sendAttempts := 0xFFFFFFFF } =
      some patientQueue := rfl
  have hok : (queueSend patientQueue (smallMsg 5)).1.Ok :=
    (queueInit_ok hinit).1.step (.send (smallMsg 5) (smallMsg_readable 5))
  have hne : (queueSend patientQueue (smallMsg 5)).1.outboxList ≠ [] := by decide
  obtain ⟨hfinal, htrace⟩ := resend_run hok (by decide) hne n
  constructor
  · exact hfinal.symm ▸ hne
  · have hall : queueMachine.trace headAnswers patientQueue (patientCalls n) =
        List.replicate n .errorResendRequired := htrace
    rw [hall, resends, List.reverse_replicate, List.takeWhile_replicate,
      if_pos (by decide), List.count_replicate_self]

/-- The request number `2 ^ 32` is not reported, though the limit allows one less. -/
theorem resend_not_accounted : ¬ ResendAccounted patientQueue (patientCalls (2 ^ 32 - 1)) := by
  obtain ⟨hne, hcount⟩ := patientCalls_spec (2 ^ 32 - 1)
  have hinit : queueInit { smallQueueConfig 1 with sendAttempts := 0xFFFFFFFF } =
      some patientQueue := rfl
  rw [resendAccounted_iff hinit rfl _ hne, hcount]
  rintro (hlt | hdvd)
  · exact absurd hlt (by decide)
  · exact hdvd (Nat.dvd_refl _)

end Protoplexer
end UniCan
