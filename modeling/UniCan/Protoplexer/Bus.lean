import Mathlib.Data.Fintype.Card
import UniCan.Protoplexer.Link
import UniCan.Protoplexer.Outbox

/-!
# Many queues on a bus

Any number of queues are on one bus.  Each sends messages to any of the others, the
chunks of a queue are seen by all others, and a queue gets the chunks of different
senders mixed in any order.  It still passes on what each of them sent to it, as if
each had a wire of its own.

## Main definitions

* `Bus` — the queues and the chunks on their way, with the history of what was sent,
  taken and passed on.
* `busMachine` — the bus as a machine.
* `Account` — what became of the messages from one queue to another.
* `PairOk`, `Bus.Ok` — the invariant of two queues, and of a bus.

## Main results

* `PairProgress.step` — the next chunk of a sender, whatever the others have in progress.
* `bus_end_to_end` — **from end to end on a bus.**
-/

namespace UniCan
namespace Protoplexer

variable {ι : Type*}

/-! ### The bus -/

/-- Some queues and a bus. -/
structure Bus (ι : Type*) where
  station : ι → Queue
  /-- The chunks of a queue that another one has not taken yet. -/
  link : ι → ι → List CanMessage
  /-- History: the messages a queue accepted. -/
  sent : ι → List Msg
  /-- History: the chunks of a queue another one took, with the results of these polls. -/
  taken : ι → ι → List (CanMessage × Result)
  /-- History: the messages a queue passed to its application. -/
  passed : ι → List Msg

namespace Bus

/-- Queues that were just set up. -/
def initial (station : ι → Queue) : Bus ι := ⟨station, fun _ _ => [], fun _ => [],
  fun _ _ => [], fun _ => []⟩

/-- The chunks of `p` on their way to `q`. -/
def flight (bus : Bus ι) (p q : ι) : List CanMessage :=
  bus.link p q ++ (bus.station p).outboxList

/-- The messages `q` has got. -/
def got (bus : Bus ι) (q : ι) : List Msg := bus.passed q ++ (bus.station q).inboxList

end Bus

/-- A message that `p` may send: its fields are in range, it bears the address of `p`,
and if it is for one of the queues it is not too long for it. -/
structure Posts (station : ι → Queue) (p : ι) (msg : Msg) : Prop where
  readable : msg.Readable
  addressed : msg.Addressed
  addressFrom : msg.addressFrom = (station p).protocol.ownAddress
  fits : ∀ q, msg.addressTo = (station q).protocol.ownAddress →
    msg.length ≤ (station q).storage.maxPayload

/-- What can happen on a bus. -/
inductive BusAction (station : ι → Queue)
  /-- A queue is asked to send a message, to one of the others or to nobody. -/
  | send (p : ι) (msg : Msg) (posts : Posts station p msg)
  /-- The outbox of a queue is polled; the bus takes the chunk or wants it again. -/
  | pollTx (p : ι) (accepted : Bool)
  /-- `q` takes the next chunk of `p`. -/
  | pollRx (p q : ι)
  /-- A queue passes on a message. -/
  | pollNew (q : ι)

section Machine

variable [DecidableEq ι]

/-- `q` has taken the next chunk of `p`. -/
def Bus.take (bus : Bus ι) (p q : ι) (queue : Queue) (result : Result) : Bus ι :=
  { bus with
    station := Function.update bus.station q queue
    link := fun x y => if x = p ∧ y = q then (bus.link x y).tail else bus.link x y
    taken := fun x y => if x = p ∧ y = q then bus.taken x y ++
      (bus.link x y).head?.toList.map fun chunk => (chunk, result) else bus.taken x y }

/-- The bus as a machine, whose outputs are the results of the calls. -/
def busMachine (station : ι → Queue) : Machine (Bus ι) (BusAction station) Result where
  step bus
    | .send p msg _ =>
        let r := queueSend (bus.station p) msg
        ({ bus with
            station := Function.update bus.station p r.1
            sent := fun x => if x = p ∧ r.2 = .ok then bus.sent x ++ [msg] else bus.sent x }, r.2)
    | .pollTx p accepted =>
        let r := queuePollTx (bus.station p) (if accepted then .ok else .errorResendRequired)
        ({ bus with
            station := Function.update bus.station p r.1
            link := fun x y => if x = p ∧ y ≠ p ∧ accepted
              then bus.link x y ++ (bus.station p).outboxFront.toList else bus.link x y }, r.2)
    | .pollRx p q =>
        let r := queuePollRx (bus.station q) (bus.link p q).head?
        (bus.take p q r.1 r.2, r.2)
    | .pollNew q =>
        let r := queuePollNew (bus.station q)
        ({ bus with
            station := Function.update bus.station q r.1
            passed := fun x => if x = q then bus.passed x ++ r.2.2.toList else bus.passed x },
          r.2.1)

end Machine

/-! ### The messages of a pair -/

/-- The messages to the address `t`. -/
def toAddress (t : UInt16) (msgs : List Msg) : List Msg := msgs.filter fun msg => msg.addressTo = t

/-- The messages from the address `f`. -/
def fromAddress (f : UInt16) (msgs : List Msg) : List Msg :=
  msgs.filter fun msg => msg.addressFrom = f

/-- The chunks to the address `t`. -/
def chunksTo (t : UInt16) (chunks : List CanMessage) : List CanMessage :=
  chunks.filter fun chunk => canidGetTo chunk.id = t

/-- The polls that took a chunk to the address `t`. -/
def pollsTo (t : UInt16) (taken : List (CanMessage × Result)) : List (CanMessage × Result) :=
  taken.filter fun c => canidGetTo c.1.id = t

section Filters

variable {t f : UInt16} {msg : Msg} {msgs : List Msg} {chunk : CanMessage} {result : Result}
  {polled : List (CanMessage × Result)}

theorem toAddress_concat (h : msg.addressTo = t) :
    toAddress t (msgs ++ [msg]) = toAddress t msgs ++ [msg] := by simp [toAddress, h]

theorem toAddress_concat_of_ne (h : msg.addressTo ≠ t) :
    toAddress t (msgs ++ [msg]) = toAddress t msgs := by simp [toAddress, h]

theorem fromAddress_concat (h : msg.addressFrom = f) :
    fromAddress f (msgs ++ [msg]) = fromAddress f msgs ++ [msg] := by simp [fromAddress, h]

theorem fromAddress_concat_of_ne (h : msg.addressFrom ≠ f) :
    fromAddress f (msgs ++ [msg]) = fromAddress f msgs := by simp [fromAddress, h]

theorem chunksTo_append (chunks chunks' : List CanMessage) :
    chunksTo t (chunks ++ chunks') = chunksTo t chunks ++ chunksTo t chunks' :=
  List.filter_append ..

theorem pollsTo_concat (h : canidGetTo chunk.id = t) :
    pollsTo t (polled ++ [(chunk, result)]) = pollsTo t polled ++ [(chunk, result)] := by
  simp [pollsTo, h]

theorem pollsTo_concat_of_ne (h : canidGetTo chunk.id ≠ t) :
    pollsTo t (polled ++ [(chunk, result)]) = pollsTo t polled := by simp [pollsTo, h]

end Filters

/-- An account of what happened between a queue with the address `f`, which cuts its
messages into chunks of up to `m` bytes, and one with the address `t`.  Of the messages
to `t`, the messages `done` are those whose chunks were all taken, with the result of the
last poll; of the messages `rest`, `j` chunks were taken, not all of the first one, and
the others are on their way.  The messages from `f` that were got are those that were
done and did not find the inbox full, and the chunks for others were turned away. -/
structure Account (f t m : UInt16) (posted : List Msg) (polled : List (CanMessage × Result))
    (flying : List CanMessage) (news : List Msg) (done : List (Msg × Result)) (rest : List Msg)
    (j : ℕ) : Prop where
  sent : toAddress t posted = done.map Prod.fst ++ rest
  taken : pollsTo t polled = done.flatMap (answered m) ++
    ((rest.flatMap fun msg => chunksOf msg m).take j).map fun chunk => (chunk, Result.ok)
  lt : ∀ msg ∈ rest.head?, j < (chunksOf msg m).length
  flight : (rest.flatMap fun msg => chunksOf msg m).drop j = chunksTo t flying
  results : ∀ p ∈ done, p.2 = .ok ∨ p.2 = .addingChunkCantSaveMessage
  others : ∀ c ∈ polled, canidGetTo c.1.id ≠ t → c.2 = .addingChunkUnrelatedAddressTo
  got : (fromAddress f news).map Msg.content =
    (done.filter fun p => p.2 = .ok).map fun p => p.1.content

/-- What the receiver holds of a sender when it has taken `j` chunks of the first of the
messages `rest`: their data. -/
def PairProgress (setup : Setup) (t : UInt16) {m : UInt16} (hm : ChunkLengthOk m)
    (r : Option Reassembly) (rest : List Msg) : ℕ → Prop
  | 0 => r = none
  | j + 1 => ∃ msg later r', ∃ h : Carries setup t msg,
      rest = msg :: later ∧ (h.transfer hm).Partial (j + 1) true r' ∧ r = some r'

/-- The invariant of two queues, the second of which has the message `r` of the first one
in progress. -/
structure PairOk (setup : Setup) (f t : UInt16) {m : UInt16} (hm : ChunkLengthOk m)
    (r : Option Reassembly) (posted : List Msg) (polled : List (CanMessage × Result))
    (flying : List CanMessage) (news : List Msg) (done : List (Msg × Result)) (rest : List Msg)
    (j : ℕ) : Prop extends Account f t m posted polled flying news done rest j where
  carries : ∀ msg ∈ rest, Carries setup t msg ∧ msg.addressFrom = f
  progress : PairProgress setup t hm r rest j
  len : ∀ chunk ∈ flying, chunk.len.toNat ≤ maxLen

/-! ### A chunk of a pair -/

/-- The chunks of a message bear its addresses, and are short enough. -/
theorem of_mem_chunksOf {msg : Msg} {m : UInt16} (hm : ChunkLengthOk m) (hdata : msg.HasData)
    (h : msg.Addressed) {chunk : CanMessage} (hchunk : chunk ∈ chunksOf msg m) :
    canidGetTo chunk.id = msg.addressTo ∧ chunk.len.toNat ≤ maxLen := by
  rw [chunksOf_eq hm hdata] at hchunk
  obtain ⟨i, -, rfl⟩ := List.mem_map.mp hchunk
  refine ⟨(canidGet_canidCreate h.addressFrom h.addressTo _ _).2, ?_⟩
  rw [toNat_len_chunkAt hm]
  exact le_trans (Nat.min_le_left _ _) hm.2

section Chunk

variable {setup : Setup} {t m : UInt16} {hm : ChunkLengthOk m} {ctx : Ctx} {msg : Msg}
  {later : List Msg} {j : ℕ} {r : Option Reassembly}

/-- The next chunk extends what the receiver holds. -/
theorem PairProgress.advance (hp : PairProgress setup t hm r (msg :: later) j)
    (h : Carries setup t msg) (hj : j < (chunksOf msg m).length) :
    ∃ r', (h.transfer hm).Partial (j + 1) true r' ∧
      Pair.advance setup .heapless r ((h.transfer hm).call j).chunk = Pair.finish r' := by
  cases j with
  | zero => exact (h.transfer hm).advance_first h.addressed.addressFrom h.addressed.addressTo _
  | succ j =>
    obtain ⟨msg', later', r', h', heq, hpart, rfl⟩ := hp
    cases heq
    rw [h.length_chunksOf hm] at hj
    exact hpart.advance (Nat.succ_pos j) hj

/-- **The next chunk of a sender**, in a table that has a slot for it, whatever the other
slots hold: the poll is fine, and either the message goes on or it is delivered, and the
receiver is free for the next one. -/
theorem PairProgress.step (h : Carries setup t msg)
    (hp : PairProgress setup t hm (ctx.inProgress (pairSig msg.addressFrom t)) (msg :: later) j)
    (hinv : Inv ctx) (hsetup : ctx.setup = setup) (hroom : ctx.Room (pairSig msg.addressFrom t))
    (hown : setup.ownAddress = t) (hj : j < (chunksOf msg m).length) :
    (receiver.step ctx ((h.transfer hm).call j)).2.result = .ok ∧
      if j + 1 = (chunksOf msg m).length then
        (receiver.step ctx ((h.transfer hm).call j)).2.message.map Msg.content =
            some msg.content ∧
          (receiver.step ctx ((h.transfer hm).call j)).1.inProgress
            (pairSig msg.addressFrom t) = none
      else
        (receiver.step ctx ((h.transfer hm).call j)).2.message = none ∧
          PairProgress setup t hm ((receiver.step ctx ((h.transfer hm).call j)).1.inProgress
            (pairSig msg.addressFrom t)) (msg :: later) (j + 1) := by
  obtain rfl := h.addressTo
  have hf := h.addressed.addressFrom
  have ht := h.addressed.addressTo
  have hcount := h.length_chunksOf hm
  have hspec := receiver_step_spec hinv ((h.transfer hm).call j)
  have hsig : channelSig ((h.transfer hm).call j).chunk.id =
      pairSig msg.addressFrom msg.addressTo := by
    obtain ⟨hfrom, hto⟩ := (h.transfer hm).pair_call hf ht j
    rw [channelSig, hfrom, hto, pairSig]
  have hmachine := hspec.own_machine fun _ => by rw [hsig]; exact hroom
  rw [hsig, hsetup] at hmachine
  obtain ⟨r', hpart, hadvance⟩ := hp.advance h hj
  obtain ⟨hanswer, hmore, hlast⟩ := hpart.machine_step hf ht (Or.inr hown)
    (by rw [← hcount]; exact hj) hadvance
  have hstate := congrArg Prod.fst hmachine
  have hreply := (congrArg (fun p => seen p.2) hmachine).trans
    (hanswer.trans (h.answer_transfer hm j))
  have hmessage := congrArg Prod.snd hreply
  simp only [seen, Reply.answer] at hmessage
  refine ⟨congrArg Prod.fst hreply, ?_⟩
  split_ifs with hend
  · rw [if_pos hend] at hmessage
    exact ⟨hmessage, hstate.trans (hlast rfl (by rw [← hcount]; exact hend))⟩
  · rw [if_neg hend, Option.map_eq_none_iff] at hmessage
    exact ⟨hmessage, msg, later, r', h, rfl, hpart, hstate.trans (hmore (by omega))⟩

/-- A chunk for somebody else is turned away, and nothing changes. -/
theorem receiver_step_of_not_takes (hinv : Inv ctx) {chunk : CanMessage}
    (hlen : chunk.len.toNat ≤ maxLen) (hto : canidGetTo chunk.id ≠ ctx.ownAddress)
    (hmonitoring : ctx.monitoring = false) :
    (receiver.step ctx (queueCall chunk)).2.result = .addingChunkUnrelatedAddressTo ∧
      (receiver.step ctx (queueCall chunk)).2.message = none ∧
      ∀ sig, (receiver.step ctx (queueCall chunk)).1.inProgress sig = ctx.inProgress sig := by
  have hspec := receiver_step_spec hinv (queueCall chunk)
  have haccepts : ctx.setup.accepts chunk.id = false := by
    simp [Setup.accepts, Ctx.setup, hto, hmonitoring]
  have hlen' : ¬ (queueCall chunk).chunk.len.toNat > maxLen := Nat.not_lt.mpr hlen
  have hown := hspec.own
  rw [Pair.step, if_neg hlen'] at hown
  simp only [queueCall, haccepts, Bool.not_false, if_true, Prod.mk.injEq] at hown
  obtain ⟨hsame, hresult, hmessage⟩ := hown
  refine ⟨hresult, hmessage, fun sig => ?_⟩
  by_cases hsig : sig = channelSig chunk.id
  · rw [hsig]
    exact hsame
  · exact hspec.other sig hsig

end Chunk

/-! ### What happens to a pair -/

section Pair

variable {setup : Setup} {f t m : UInt16} {hm : ChunkLengthOk m} {r : Option Reassembly}
  {posted : List Msg} {polled : List (CanMessage × Result)} {flying : List CanMessage}
  {news : List Msg} {done : List (Msg × Result)} {rest : List Msg} {j : ℕ} {chunk : CanMessage}
  {msg : Msg} {later : List Msg}

theorem PairOk.le_length (h : PairOk setup f t hm r posted polled flying news done rest j) :
    j ≤ (rest.flatMap fun msg => chunksOf msg m).length := by
  cases rest with
  | nil =>
    cases j with
    | zero => exact Nat.zero_le _
    | succ j =>
      obtain ⟨msg, later, r, -, heq, -⟩ := h.progress
      exact absurd heq (by simp)
  | cons msg later =>
    have hlt := h.lt msg rfl
    rw [List.flatMap_cons, List.length_append]
    omega

/-- **A message that is sent** joins those on their way, if it is for `t`. -/
theorem PairOk.send (h : PairOk setup f t hm r posted polled flying news done rest j)
    (addressed : msg.Addressed) (hdata : msg.HasData) (hfrom : msg.addressFrom = f)
    (hstatic : setup.rxStatic = true) (hfits : msg.addressTo = t → msg.length ≤ setup.maxPayload) :
    ∃ rest', PairOk setup f t hm r (posted ++ [msg]) polled (flying ++ chunksOf msg m) news done
      rest' j := by
  have hchunks : ∀ chunk ∈ chunksOf msg m,
      canidGetTo chunk.id = msg.addressTo ∧ chunk.len.toNat ≤ maxLen :=
    fun chunk hchunk => of_mem_chunksOf hm hdata addressed hchunk
  have hlen : ∀ chunk ∈ flying ++ chunksOf msg m, chunk.len.toNat ≤ maxLen := by
    intro chunk hchunk
    rcases List.mem_append.mp hchunk with hold | hnew
    · exact h.len chunk hold
    · exact (hchunks chunk hnew).2
  by_cases hto : msg.addressTo = t
  · have hcarries : Carries setup t msg := ⟨hstatic, hdata, addressed, hto, hfits hto⟩
    have hj := h.le_length
    have hflat : ((rest ++ [msg]).flatMap fun msg => chunksOf msg m) =
        (rest.flatMap fun msg => chunksOf msg m) ++ chunksOf msg m := by
      rw [List.flatMap_append, List.flatMap_singleton]
    have hkeep : chunksTo t (chunksOf msg m) = chunksOf msg m :=
      List.filter_eq_self.mpr fun chunk hchunk => by
        simpa using (hchunks chunk hchunk).1.trans hto
    refine ⟨rest ++ [msg], ⟨?_, ?_, ?_, ?_, h.results, h.others, h.got⟩, ?_, ?_, hlen⟩
    · rw [toAddress_concat hto, h.sent, List.append_assoc]
    · rw [hflat, List.take_append_of_le_length hj]
      exact h.taken
    · intro first hfirst
      cases rest with
      | nil =>
        obtain rfl : msg = first := by simpa using hfirst
        obtain rfl : j = 0 := by simpa using hj
        exact hcarries.length_chunksOf_pos hm
      | cons msg' later => exact h.lt first hfirst
    · rw [hflat, List.drop_append_of_le_length hj, h.flight, chunksTo_append, hkeep]
    · intro msg' hmsg'
      rcases List.mem_append.mp hmsg' with hold | hnew
      · exact h.carries msg' hold
      · rw [List.mem_singleton.mp hnew]
        exact ⟨hcarries, hfrom⟩
    · cases j with
      | zero => exact h.progress
      | succ j =>
        obtain ⟨msg', later, r', hc, rfl, hrest⟩ := h.progress
        exact ⟨msg', later ++ [msg], r', hc, rfl, hrest⟩
  · -- a message for somebody else
    have hdrop : chunksTo t (chunksOf msg m) = [] :=
      List.filter_eq_nil_iff.mpr fun chunk hchunk => by
        rw [(hchunks chunk hchunk).1]
        simpa using hto
    refine ⟨rest, ⟨?_, h.taken, h.lt, ?_, h.results, h.others, h.got⟩, h.carries, h.progress, hlen⟩
    · rw [toAddress_concat_of_ne hto]
      exact h.sent
    · rw [h.flight, chunksTo_append, hdrop, List.append_nil]

/-- The messages of other senders are not in the account. -/
theorem PairOk.withNews {news' : List Msg}
    (h : PairOk setup f t hm r posted polled flying news done rest j)
    (hnews : fromAddress f news' = fromAddress f news) :
    PairOk setup f t hm r posted polled flying news' done rest j :=
  ⟨⟨h.sent, h.taken, h.lt, h.flight, h.results, h.others, by rw [hnews]; exact h.got⟩, h.carries,
    h.progress, h.len⟩

/-- **A chunk for somebody else** that is turned away. -/
theorem PairOk.skip (h : PairOk setup f t hm r posted polled (chunk :: flying) news done rest j)
    (hto : canidGetTo chunk.id ≠ t) :
    PairOk setup f t hm r posted (polled ++ [(chunk, .addingChunkUnrelatedAddressTo)]) flying news
      done rest j := by
  refine ⟨⟨h.sent, ?_, h.lt, ?_, h.results, ?_, h.got⟩, h.carries, h.progress,
    fun c hc => h.len c (List.mem_cons_of_mem chunk hc)⟩
  · rw [pollsTo_concat_of_ne hto]
    exact h.taken
  · rw [h.flight, chunksTo, List.filter_cons_of_neg (by simpa using hto)]
    rfl
  · intro c hc hne
    rcases List.mem_append.mp hc with hold | hnew
    · exact h.others c hold hne
    · rw [List.mem_singleton.mp hnew]

/-- The first chunk for `t` is the next one of the first message on its way. -/
theorem PairOk.next (h : PairOk setup f t hm r posted polled (chunk :: flying) news done rest j)
    (hto : canidGetTo chunk.id = t) :
    (rest.flatMap fun msg => chunksOf msg m)[j]? = some chunk ∧
      (rest.flatMap fun msg => chunksOf msg m).drop (j + 1) = chunksTo t flying ∧
      ∃ msg later, ∃ hc : Carries setup t msg, rest = msg :: later ∧ msg.addressFrom = f ∧
        (chunksOf msg m)[j]? = some chunk ∧ queueCall chunk = (hc.transfer hm).call j := by
  have hflight := h.flight
  rw [chunksTo, List.filter_cons_of_pos (by simpa using hto)] at hflight
  have hget : (rest.flatMap fun msg => chunksOf msg m)[j]? = some chunk := by
    rw [← List.head?_drop, hflight]
    rfl
  refine ⟨hget, by rw [← List.tail_drop, hflight]; rfl, ?_⟩
  cases rest with
  | nil => exact absurd hflight (by simp)
  | cons msg later =>
    have hlt := h.lt msg rfl
    obtain ⟨hc, hfrom⟩ := h.carries msg List.mem_cons_self
    rw [List.flatMap_cons, List.getElem?_append_left hlt] at hget
    refine ⟨msg, later, hc, rfl, hfrom, hget, ?_⟩
    rw [hc.getElem?_chunksOf hm hlt, Option.some.injEq] at hget
    rw [← hget]
    rfl

/-- **The last chunk of a message**: it is done, and was got unless the inbox was full. -/
theorem PairOk.last
    (h : PairOk setup f t hm r posted polled (chunk :: flying) news done (msg :: later) j)
    (hto : canidGetTo chunk.id = t) (hend : j + 1 = (chunksOf msg m).length)
    (hchunk : (chunksOf msg m)[j]? = some chunk)
    (hflight : ((msg :: later).flatMap fun msg => chunksOf msg m).drop (j + 1) =
      chunksTo t flying) {result : Result}
    (hresult : result = .ok ∨ result = .addingChunkCantSaveMessage) {news' : List Msg}
    (hnews : (fromAddress f news').map Msg.content = (fromAddress f news).map Msg.content ++
      if result = .ok then [msg.content] else []) :
    PairOk setup f t hm none posted (polled ++ [(chunk, result)]) flying news'
      (done ++ [(msg, result)]) later 0 where
  sent := by
    rw [h.sent, List.map_append, List.append_assoc]
    rfl
  taken := by
    rw [pollsTo_concat hto, h.taken, List.flatMap_append, List.flatMap_singleton,
      answered_eq hend hchunk, List.flatMap_cons, List.take_append_of_le_length (by omega),
      List.append_assoc]
    simp
  lt first hfirst :=
    (h.carries first (List.mem_cons_of_mem msg (List.mem_of_head? hfirst))).1.length_chunksOf_pos hm
  flight := by
    rw [← hflight, List.flatMap_cons, hend, List.drop_left, List.drop_zero]
  results p hp := by
    rcases List.mem_append.mp hp with hold | hnew
    · exact h.results p hold
    · rw [List.mem_singleton.mp hnew]
      exact hresult
  others c hc hne := by
    rcases List.mem_append.mp hc with hold | hnew
    · exact h.others c hold hne
    · rw [List.mem_singleton.mp hnew] at hne
      exact absurd hto hne
  got := by
    rw [hnews, h.got, List.filter_append, List.map_append]
    by_cases hok : result = .ok <;> simp [hok]
  carries first hfirst := h.carries first (List.mem_cons_of_mem msg hfirst)
  progress := rfl
  len c hc := h.len c (List.mem_cons_of_mem chunk hc)

/-- **Another chunk of a message.** -/
theorem PairOk.more {r' : Option Reassembly}
    (h : PairOk setup f t hm r posted polled (chunk :: flying) news done (msg :: later) j)
    (hto : canidGetTo chunk.id = t) (hend : j + 1 ≠ (chunksOf msg m).length)
    (hget : ((msg :: later).flatMap fun msg => chunksOf msg m)[j]? = some chunk)
    (hflight : ((msg :: later).flatMap fun msg => chunksOf msg m).drop (j + 1) =
      chunksTo t flying)
    (hprogress : PairProgress setup t hm r' (msg :: later) (j + 1)) :
    PairOk setup f t hm r' posted (polled ++ [(chunk, .ok)]) flying news done (msg :: later)
      (j + 1) where
  sent := h.sent
  taken := by
    rw [pollsTo_concat hto, h.taken, List.take_add_one, hget, List.append_assoc]
    simp
  lt first hfirst := by
    have hlt := h.lt first hfirst
    obtain rfl : msg = first := by simpa using hfirst
    omega
  flight := hflight
  results := h.results
  others c hc hne := by
    rcases List.mem_append.mp hc with hold | hnew
    · exact h.others c hold hne
    · rw [List.mem_singleton.mp hnew] at hne
      exact absurd hto hne
  got := h.got
  carries := h.carries
  progress := hprogress
  len c hc := h.len c (List.mem_cons_of_mem chunk hc)

end Pair

/-! ### The invariant of a bus -/

/-- A queue that was set up as `first` was. -/
structure Queue.Alike (queue first : Queue) : Prop where
  ok : queue.Ok
  config : queue.config = first.config
  storage : queue.storage = first.storage
  setup : queue.protocol.setup = first.protocol.setup
  slots : queue.protocol.rx.length = first.protocol.rx.length
  chunkLength : queue.protocol.maxChunkLength = first.protocol.maxChunkLength

theorem Queue.Alike.of_protocol {queue queue' first : Queue} (h : queue.Alike first)
    (hok : queue'.Ok) (hprotocol : queue'.protocol = queue.protocol)
    (hconfig : queue'.config = queue.config) (hstorage : queue'.storage = queue.storage) :
    queue'.Alike first where
  ok := hok
  config := hconfig.trans h.config
  storage := hstorage.trans h.storage
  setup := by
    rw [hprotocol]
    exact h.setup
  slots := by
    rw [hprotocol]
    exact h.slots
  chunkLength := by
    rw [hprotocol]
    exact h.chunkLength

theorem Queue.Alike.addChunk {queue first : Queue} (h : queue.Alike first) (chunk : CanMessage) :
    (queueAddChunk queue chunk).1.Alike first := by
  obtain ⟨hok, hprotocol, hconfig, hstorage, -, -⟩ := queueAddChunk_spec h.ok chunk
  have hspec := receiver_step_spec h.ok.protocol (queueCall chunk)
  refine ⟨hok, hconfig.trans h.config, hstorage.trans h.storage, ?_, ?_, ?_⟩ <;> rw [hprotocol]
  · exact hspec.setup.trans h.setup
  · exact hspec.length_rx.trans h.slots
  · exact (receiver_step_maxChunkLength _).trans h.chunkLength

/-- The address of a queue. -/
def Queue.address (queue : Queue) : UInt16 := queue.protocol.ownAddress

section Invariant

variable [DecidableEq ι] [Fintype ι] {station : ι → Queue}
  {hm : ∀ p, ChunkLengthOk (station p).protocol.maxChunkLength} {bus bus' : Bus ι} {p q : ι}

/-- The pairs of the other queues with `q`. -/
def pairsTo (station : ι → Queue) (q : ι) : Finset UInt32 :=
  (Finset.univ.erase q).image fun p => pairSig (station p).address (station q).address

/-- The invariant of a bus whose queues were set up as `station`. -/
structure Bus.Ok (station : ι → Queue)
    (hm : ∀ p, ChunkLengthOk (station p).protocol.maxChunkLength) (bus : Bus ι) : Prop where
  alike : ∀ p, (bus.station p).Alike (station p)
  within : ∀ q, (bus.station q).protocol.Within (pairsTo station q)
  self : ∀ p, bus.link p p = []
  known : ∀ q, ∀ msg ∈ bus.got q, ∃ p, p ≠ q ∧ msg.addressFrom = (station p).address
  pair : ∀ p q, p ≠ q → ∃ done rest j, PairOk (station q).protocol.setup (station p).address
    (station q).address (hm p) ((bus.station q).protocol.inProgress
      (pairSig (station p).address (station q).address)) (bus.sent p) (bus.taken p q)
    (bus.flight p q) (bus.got q) done rest j

/-- What becomes of a bus when nothing is taken from it. -/
theorem Bus.Ok.of_protocol (h : bus.Ok station hm)
    (halike : ∀ x, (bus'.station x).Alike (station x))
    (hprotocol : ∀ x, (bus'.station x).protocol = (bus.station x).protocol)
    (hself : ∀ x, bus'.link x x = []) (hgot : ∀ x, bus'.got x = bus.got x)
    (htaken : bus'.taken = bus.taken)
    (hpair : ∀ x y, x ≠ y → ∀ {r done rest j}, PairOk (station y).protocol.setup
      (station x).address (station y).address (hm x) r (bus.sent x) (bus.taken x y)
      (bus.flight x y) (bus.got y) done rest j → ∃ rest', PairOk (station y).protocol.setup
        (station x).address (station y).address (hm x) r (bus'.sent x) (bus.taken x y)
        (bus'.flight x y) (bus.got y) done rest' j) : bus'.Ok station hm where
  alike := halike
  within x := by
    rw [hprotocol]
    exact h.within x
  self := hself
  known x := by
    rw [hgot]
    exact h.known x
  pair x y hxy := by
    obtain ⟨done, rest, j, hold⟩ := h.pair x y hxy
    obtain ⟨rest', hnew⟩ := hpair x y hxy hold
    rw [hprotocol, hgot, htaken]
    exact ⟨done, rest', j, hnew⟩

theorem Bus.Ok.alike_update (h : bus.Ok station hm) {queue : Queue}
    (hq : queue.Alike (station p)) (x : ι) :
    (Function.update bus.station p queue x).Alike (station x) :=
  (Function.forall_update_iff _ fun x (queue : Queue) => queue.Alike (station x)).mpr
    ⟨hq, fun y _ => h.alike y⟩ x

omit [Fintype ι] in
theorem Bus.protocol_update {queue : Queue} (hq : queue.protocol = (bus.station p).protocol)
    (x : ι) : (Function.update bus.station p queue x).protocol = (bus.station x).protocol :=
  (Function.forall_update_iff _ fun x (queue : Queue) =>
    queue.protocol = (bus.station x).protocol).mpr ⟨hq, fun _ _ => rfl⟩ x

/-- **A message is sent.** -/
theorem Bus.Ok.send (h : bus.Ok station hm) {msg : Msg} (posts : Posts station p msg) :
    ((busMachine station).step bus (.send p msg posts)).1.Ok station hm := by
  have halike := h.alike p
  rcases queueSend_spec halike.ok posts.readable with
    ⟨hsame, hres⟩ | ⟨hhas, -, -, mem, heq, hok, hlist⟩
  · simp only [busMachine, hsame, hres, and_false, if_false, Function.update_eq_self]
    exact h
  set queue := (queueSend (bus.station p) msg).1 with hqueue
  have hres : (queueSend (bus.station p) msg).2 = .ok := congrArg Prod.snd heq
  have hfst := congrArg Prod.fst heq
  simp only [← hqueue] at hfst
  have hprotocol : queue.protocol = (bus.station p).protocol := by rw [hfst]
  simp only [busMachine, hres, and_true, ← hqueue]
  refine h.of_protocol ?_ ?_ h.self ?_ rfl ?_
  · exact h.alike_update (halike.of_protocol hok hprotocol (by rw [hfst]) (by rw [hfst]))
  · exact Bus.protocol_update hprotocol
  · exact (Function.forall_update_iff _ fun x (queue : Queue) =>
      bus.passed x ++ queue.inboxList = bus.got x).mpr ⟨by rw [hfst]; rfl, fun _ _ => rfl⟩
  · intro x y hxy r done rest j hpair
    by_cases hx : x = p
    · subst hx
      have hfits : msg.addressTo = (station y).address →
          msg.length ≤ (station y).protocol.setup.maxPayload := by
        intro hto
        have hmax := (h.alike y).ok.maxPayload
        have hsetup := congrArg Setup.maxPayload (h.alike y).setup
        simp only [Ctx.setup] at hsetup ⊢
        rw [← hsetup, hmax, (h.alike y).storage]
        exact posts.fits y hto
      have hstatic : (station y).protocol.setup.rxStatic = true := by
        rw [← (h.alike y).setup]
        exact (h.alike y).ok.rxStatic
      simp only [Bus.flight, Function.update_self, if_true, hlist]
      rw [← List.append_assoc, halike.chunkLength]
      exact hpair.send posts.addressed hhas posts.addressFrom hstatic hfits
    · simp only [Bus.flight, Function.update_of_ne hx, if_neg hx]
      exact ⟨rest, hpair⟩

/-- **The outbox of a queue is polled**: a chunk that the bus takes is on its way to all
others. -/
theorem Bus.Ok.pollTx (h : bus.Ok station hm) (hsend : (station p).config.sendChunk = true)
    (accepted : Bool) : ((busMachine station).step bus (.pollTx p accepted)).1.Ok station hm := by
  have halike := h.alike p
  obtain ⟨hok, hprotocol, hconfig, hstorage, hinbox, hlist⟩ :=
    queuePollTx_spec halike.ok (if accepted then .ok else .errorResendRequired)
  refine h.of_protocol ?_ ?_ (fun x => ?_) ?_ rfl ?_
  · exact h.alike_update (halike.of_protocol hok hprotocol hconfig hstorage)
  · exact Bus.protocol_update hprotocol
  · simp only [busMachine]
    rw [if_neg fun hx => hx.2.1 hx.1]
    exact h.self x
  · exact (Function.forall_update_iff _ fun x (queue : Queue) =>
      bus.passed x ++ queue.inboxList = bus.got x).mpr
        ⟨congrArg (bus.passed p ++ ·) hinbox, fun _ _ => rfl⟩
  · -- what is on the way stays on the way
    intro x y hxy r done rest j hpair
    have hflight : (((busMachine station).step bus (.pollTx p accepted)).1).flight x y =
        bus.flight x y := by
      simp only [busMachine, Bus.flight]
      by_cases hx : x = p
      · subst hx
        rw [Function.update_self]
        rcases hlist with ⟨hempty, hfront, heq⟩ | ⟨chunk, later, hfull, hfront, heq⟩
        · rw [heq, hfront]
          simp
        · rw [heq, hfull, hfront, halike.config, hsend]
          cases accepted <;> simp [Ne.symm hxy]
      · rw [Function.update_of_ne hx, if_neg fun hp => hx hp.1]
    rw [hflight]
    exact ⟨rest, hpair⟩

/-- **A message is passed on.** -/
theorem Bus.Ok.pollNew (h : bus.Ok station hm) (hevent : (station q).config.rxEvent = true) :
    ((busMachine station).step bus (.pollNew q)).1.Ok station hm := by
  have halike := h.alike q
  obtain ⟨hok, hprotocol, hconfig, hstorage, houtbox, hlist⟩ := queuePollNew_spec halike.ok
  refine h.of_protocol ?_ ?_ h.self (fun x => ?_) rfl ?_
  · exact h.alike_update (halike.of_protocol hok hprotocol hconfig hstorage)
  · exact Bus.protocol_update hprotocol
  · simp only [busMachine, Bus.got]
    by_cases hx : x = q
    · subst hx
      rw [Function.update_self, if_pos rfl]
      rcases hlist with ⟨hempty, heq⟩ | ⟨msg, later, hfull, hlater, heq⟩
      · rw [heq]
        simp
      · rw [hlater, heq, hfull, halike.config, hevent]
        simp
    · rw [Function.update_of_ne hx, if_neg hx]
  · intro x y hxy r done rest j hpair
    have hflight : (((busMachine station).step bus (.pollNew q)).1).flight x y =
        bus.flight x y := by
      simp only [busMachine, Bus.flight]
      by_cases hx : x = q
      · subst hx
        rw [Function.update_self, houtbox]
      · rw [Function.update_of_ne hx]
    rw [hflight]
    exact ⟨rest, hpair⟩

/-- What becomes of a bus when `q` takes a chunk of `p`. -/
theorem Bus.Ok.take (h : bus.Ok station hm)
    (haddress : Function.Injective fun x => (station x).address) (hne : p ≠ q)
    {chunk : CanMessage} {later : List CanMessage} (hlink : bus.link p q = chunk :: later)
    {queue : Queue} {result : Result} (hq : queue.Alike (station q))
    (houtbox : queue.outboxList = (bus.station q).outboxList)
    (hwithin : queue.protocol.Within (pairsTo station q))
    (hother : ∀ x, x ≠ p → queue.protocol.inProgress
      (pairSig (station x).address (station q).address) =
        (bus.station q).protocol.inProgress (pairSig (station x).address (station q).address))
    (hinbox : queue.inboxList = (bus.station q).inboxList ∨ ∃ msg,
      queue.inboxList = (bus.station q).inboxList ++ [msg] ∧
        msg.addressFrom = (station p).address)
    (hpair : ∃ done rest j, PairOk (station q).protocol.setup (station p).address
      (station q).address (hm p)
      (queue.protocol.inProgress (pairSig (station p).address (station q).address)) (bus.sent p)
      (bus.taken p q ++ [(chunk, result)]) (later ++ (bus.station p).outboxList)
      (bus.passed q ++ queue.inboxList) done rest j) :
    (bus.take p q queue result).Ok station hm where
  alike := h.alike_update hq
  within x := (Function.forall_update_iff bus.station fun x (queue : Queue) =>
    queue.protocol.Within (pairsTo station x)).mpr ⟨hwithin, fun y _ => h.within y⟩ x
  self x := by
    simp only [Bus.take]
    rw [if_neg fun hx => hne (hx.1.symm.trans hx.2)]
    exact h.self x
  known x msg hmsg := by
    by_cases hx : x = q
    · subst hx
      simp only [Bus.got, Bus.take, Function.update_self] at hmsg
      rcases hinbox with hsame | ⟨new, hnew, hfrom⟩
      · rw [hsame] at hmsg
        exact h.known x msg hmsg
      · rw [hnew, ← List.append_assoc] at hmsg
        rcases List.mem_append.mp hmsg with hold | hlast
        · exact h.known x msg hold
        · rw [List.mem_singleton.mp hlast]
          exact ⟨p, hne, hfrom⟩
    · simp only [Bus.got, Bus.take, Function.update_of_ne hx] at hmsg
      exact h.known x msg hmsg
  pair x y hxy := by
    have hflight : ∀ z, (Function.update bus.station q queue z).outboxList =
        (bus.station z).outboxList :=
      (Function.forall_update_iff bus.station fun z (queue : Queue) =>
        queue.outboxList = (bus.station z).outboxList).mpr ⟨houtbox, fun _ _ => rfl⟩
    by_cases hy : y = q
    · subst hy
      by_cases hx : x = p
      · -- the pair of the chunk
        subst hx
        simp only [Bus.take, Bus.flight, Bus.got, Function.update_self, hflight, and_self, if_true,
          hlink, List.tail_cons, List.head?_cons, Option.toList_some, List.map_cons, List.map_nil]
        exact hpair
      · -- another sender
        obtain ⟨done, rest, j, hold⟩ := h.pair x y hxy
        simp only [Bus.take, Bus.flight, Bus.got, Function.update_self, hflight, hx, false_and,
          if_false]
        rw [hother x hx]
        refine ⟨done, rest, j, hold.withNews ?_⟩
        rcases hinbox with hsame | ⟨new, hnew, hfrom⟩
        · rw [hsame]
          rfl
        · have hfrom' : new.addressFrom ≠ (station x).address := fun he =>
            hx (haddress (he.symm.trans hfrom))
          rw [hnew, ← List.append_assoc, fromAddress_concat_of_ne hfrom']
          rfl
    · -- another receiver
      simp only [Bus.take, Bus.flight, Bus.got, Function.update_of_ne hy, hflight, hy, and_false,
        if_false]
      exact h.pair x y hxy

/-- What is assumed of the queues on a bus: they have different addresses, take only what
is for them, have a slot for each of the others, and all their callbacks. -/
structure Stations (station : ι → Queue) : Prop where
  address : Function.Injective fun p => (station p).address
  address_lt : ∀ p, (station p).address.toNat < 4096
  monitoring : ∀ p, (station p).protocol.monitoring = false
  slots : ∀ p, Fintype.card ι ≤ (station p).protocol.rx.length + 1
  sendChunk : ∀ p, (station p).config.sendChunk = true
  receiveChunk : ∀ p, (station p).config.receiveChunk = true
  rxEvent : ∀ p, (station p).config.rxEvent = true

omit [Fintype ι] in
/-- An empty poll leaves the bus as it is. -/
theorem Bus.take_of_nil (h : bus.link p q = []) (result : Result) :
    bus.take p q (bus.station q) result = bus := by
  have hlink : (fun x y => if x = p ∧ y = q then (bus.link x y).tail else bus.link x y) =
      bus.link := by
    funext x y
    split_ifs with hxy
    · rw [hxy.1, hxy.2, h]
      rfl
    · rfl
  have htaken : (fun x y => if x = p ∧ y = q then bus.taken x y ++
      (bus.link x y).head?.toList.map fun chunk => (chunk, result) else bus.taken x y) =
      bus.taken := by
    funext x y
    split_ifs with hxy
    · rw [hxy.1, hxy.2, h]
      simp
    · rfl
  rw [Bus.take, hlink, htaken, Function.update_eq_self]

/-- There is a slot for each of the other queues. -/
theorem Bus.Ok.room (h : bus.Ok station hm) (hst : Stations station) (hne : p ≠ q) :
    (bus.station q).protocol.Room (pairSig (station p).address (station q).address) := by
  refine (h.within q).room (h.alike q).ok.protocol ?_ ?_
  · have hslots := hst.slots q
    have hcard : (pairsTo station q).card ≤ (Finset.univ.erase q).card := Finset.card_image_le
    rw [Finset.card_erase_of_mem (Finset.mem_univ q), Finset.card_univ] at hcard
    rw [(h.alike q).slots]
    omega
  · exact Finset.mem_image.mpr ⟨p, Finset.mem_erase.mpr ⟨hne, Finset.mem_univ p⟩, rfl⟩

/-- **A chunk is taken** that is for somebody else. -/
theorem Bus.Ok.pollRx_other (h : bus.Ok station hm) (hst : Stations station) (hne : p ≠ q)
    {chunk : CanMessage} {later : List CanMessage} (hlink : bus.link p q = chunk :: later)
    (hto : canidGetTo chunk.id ≠ (station q).address) :
    (bus.take p q (queueAddChunk (bus.station q) chunk).1
      (queueAddChunk (bus.station q) chunk).2).Ok station hm := by
  have halike := h.alike q
  have hinv := halike.ok.protocol
  obtain ⟨done, rest, j, hpair⟩ := h.pair p q hne
  rw [Bus.flight, hlink, List.cons_append] at hpair
  have hlen := hpair.len chunk List.mem_cons_self
  have hown : (bus.station q).protocol.ownAddress = (station q).address :=
    congrArg Setup.ownAddress halike.setup
  have hmonitoring : (bus.station q).protocol.monitoring = false :=
    (congrArg Setup.monitoring halike.setup).trans (hst.monitoring q)
  obtain ⟨-, hprotocol, -, -, houtbox, hlist⟩ := queueAddChunk_spec halike.ok chunk
  obtain ⟨hresult, hmessage, hsame⟩ := receiver_step_of_not_takes hinv hlen
    (by rw [hown]; exact hto) hmonitoring
  rw [hmessage, hresult] at hlist
  obtain ⟨hres, hinbox⟩ := Prod.mk.inj hlist
  refine h.take hst.address hne hlink (halike.addChunk chunk) houtbox ?_ ?_ (Or.inl hinbox) ?_
  · intro sig r hr
    rw [hprotocol, hsame] at hr
    exact h.within q sig r hr
  · intro x _
    rw [hprotocol]
    exact hsame _
  · rw [hprotocol, hsame, hres, hinbox]
    exact ⟨done, rest, j, hpair.skip hto⟩

/-- **A chunk is taken** that is for this queue. -/
theorem Bus.Ok.pollRx_own (h : bus.Ok station hm) (hst : Stations station) (hne : p ≠ q)
    {chunk : CanMessage} {later : List CanMessage} (hlink : bus.link p q = chunk :: later)
    (hto : canidGetTo chunk.id = (station q).address) :
    (bus.take p q (queueAddChunk (bus.station q) chunk).1
      (queueAddChunk (bus.station q) chunk).2).Ok station hm := by
  have halike := h.alike q
  have hinv := halike.ok.protocol
  obtain ⟨done, rest, j, hpair⟩ := h.pair p q hne
  rw [Bus.flight, hlink, List.cons_append] at hpair
  obtain ⟨hget, hflight, msg, rest', hc, rfl, hfrom, hchunk, hcall⟩ := hpair.next hto
  have hlt := hpair.lt msg rfl
  have hprogress := hpair.progress
  have hroom := h.room hst hne
  have hsig : channelSig (queueCall chunk).chunk.id =
      pairSig (station p).address (station q).address := by
    obtain ⟨hcfrom, hcto⟩ :=
      (hc.transfer (hm p)).pair_call hc.addressed.addressFrom hc.addressed.addressTo j
    rw [hcall, channelSig, hcfrom, hcto, ← pairSig, hfrom, hc.addressTo]
  rw [← hfrom] at hprogress hroom
  obtain ⟨hresult, hstep⟩ := PairProgress.step hc hprogress hinv halike.setup hroom rfl hlt
  rw [← hcall, hfrom] at hstep
  rw [← hcall] at hresult
  obtain ⟨-, hprotocol, -, -, houtbox, hlist⟩ := queueAddChunk_spec halike.ok chunk
  have hspec := receiver_step_spec hinv (queueCall chunk)
  have hwithin : (queueAddChunk (bus.station q) chunk).1.protocol.Within (pairsTo station q) := by
    rw [hprotocol]
    refine (h.within q).step hinv fun _ => ?_
    rw [hsig]
    exact Finset.mem_image.mpr ⟨p, Finset.mem_erase.mpr ⟨hne, Finset.mem_univ p⟩, rfl⟩
  have hother : ∀ x, x ≠ p → (queueAddChunk (bus.station q) chunk).1.protocol.inProgress
      (pairSig (station x).address (station q).address) =
        (bus.station q).protocol.inProgress (pairSig (station x).address (station q).address) := by
    intro x hx
    rw [hprotocol, hspec.other _ fun he => ?_]
    rw [hsig, pairSig_left_inj (hst.address_lt x) (hst.address_lt p) (hst.address_lt q)] at he
    exact hx (hst.address he)
  rw [hresult] at hlist
  rw [← hprotocol] at hstep
  by_cases hend : j + 1 = (chunksOf msg (station p).protocol.maxChunkLength).length
  · -- the message is delivered, if the inbox has room for it
    rw [if_pos hend] at hstep
    obtain ⟨hmessage, hfree⟩ := hstep
    obtain ⟨whole, hwhole, hcontent⟩ := Option.map_eq_some_iff.mp hmessage
    have hwholeFrom : whole.addressFrom = (station p).address :=
      (congrArg Content.addressFrom hcontent).trans hfrom
    rw [hwhole] at hlist
    simp only at hlist
    split_ifs at hlist <;> obtain ⟨hres, hinbox⟩ := Prod.mk.inj hlist
    · refine h.take hst.address hne hlink (halike.addChunk chunk) houtbox hwithin hother
        (Or.inr ⟨whole, hinbox, hwholeFrom⟩) ?_
      rw [hfree]
      refine ⟨_, _, _, hpair.last hto hend hchunk hflight (Or.inl hres) ?_⟩
      rw [hinbox, ← List.append_assoc, fromAddress_concat hwholeFrom, List.map_append, if_pos hres,
        List.map_singleton, hcontent]
      rfl
    · refine h.take hst.address hne hlink (halike.addChunk chunk) houtbox hwithin hother
        (Or.inl hinbox) ?_
      rw [hfree]
      refine ⟨_, _, _, hpair.last hto hend hchunk hflight (Or.inr hres) ?_⟩
      rw [hinbox, hres]
      simp [Bus.got]
  · rw [if_neg hend] at hstep
    obtain ⟨hmessage, hgoes⟩ := hstep
    rw [hmessage] at hlist
    obtain ⟨hres, hinbox⟩ := Prod.mk.inj hlist
    refine h.take hst.address hne hlink (halike.addChunk chunk) houtbox hwithin hother
      (Or.inl hinbox) ?_
    rw [hres, hinbox]
    exact ⟨_, _, _, hpair.more hto hend hget hflight hgoes⟩

/-- A chunk is taken, or there is none. -/
theorem Bus.Ok.pollRx (h : bus.Ok station hm) (hst : Stations station) (p q : ι) :
    ((busMachine station).step bus (.pollRx p q)).1.Ok station hm := by
  have hreceive : (bus.station q).config.receiveChunk = true := by
    rw [(h.alike q).config]
    exact hst.receiveChunk q
  simp only [busMachine]
  cases hlink : bus.link p q with
  | nil =>
    have heq : queuePollRx (bus.station q) none = (bus.station q, .pollingRxHwRxEmpty) := by
      rw [queuePollRx, hreceive]
      rfl
    rw [List.head?_nil, heq, Bus.take_of_nil hlink]
    exact h
  | cons chunk later =>
    have hrx : queuePollRx (bus.station q) (some chunk) = queueAddChunk (bus.station q) chunk := by
      rw [queuePollRx, hreceive]
      rfl
    have hne : p ≠ q := by
      rintro rfl
      rw [h.self] at hlink
      exact absurd hlink (by simp)
    rw [List.head?_cons, hrx]
    by_cases hto : canidGetTo chunk.id = (station q).address
    · exact h.pollRx_own hst hne hlink hto
    · exact h.pollRx_other hst hne hlink hto

/-- Every action keeps the invariant. -/
theorem Bus.Ok.step (h : bus.Ok station hm) (hst : Stations station) (action : BusAction station) :
    ((busMachine station).step bus action).1.Ok station hm := by
  cases action with
  | send p msg posts => exact h.send posts
  | pollTx p accepted => exact h.pollTx (hst.sendChunk p) accepted
  | pollRx p q => exact h.pollRx hst p q
  | pollNew q => exact h.pollNew (hst.rxEvent q)

/-- It holds when all queues were just set up. -/
theorem Bus.Ok.initial {cfg : ι → QueueConfig}
    (hinit : ∀ p, queueInit (cfg p) = some (station p)) :
    (Bus.initial station).Ok station hm where
  alike p := ⟨(queueInit_ok (hinit p)).1, rfl, rfl, rfl, rfl, rfl⟩
  within q sig r hr := by
    obtain ⟨storage, -, -, -, -, -, -, -, -, -, hproto, -⟩ := queueInit_spec (hinit q)
    have hfirst : (station q).protocol.Initial := ⟨_, Or.inl hproto⟩
    simp only [Bus.initial] at hr
    rw [hfirst.inProgress] at hr
    exact absurd hr (by simp)
  self _ := rfl
  known q msg hmsg := by
    simp only [Bus.got, Bus.initial, (queueInit_ok (hinit q)).2.2, List.append_nil] at hmsg
    exact absurd hmsg (by simp)
  pair p q _ := by
    obtain ⟨storage, -, -, -, -, -, -, -, -, -, hproto, -⟩ := queueInit_spec (hinit q)
    have hfirst : (station q).protocol.Initial := ⟨_, Or.inl hproto⟩
    have hflight : (Bus.initial station).flight p q = [] := (queueInit_ok (hinit p)).2.1
    have hgot : (Bus.initial station).got q = [] := (queueInit_ok (hinit q)).2.2
    rw [hflight, hgot]
    exact ⟨[], [], 0, ⟨rfl, rfl, fun _ h => absurd h (by simp), rfl, fun _ h => absurd h (by simp),
      fun _ h => absurd h (by simp [Bus.initial]), rfl⟩, fun _ h => absurd h (by simp),
      hfirst.inProgress _, fun _ h => absurd h (by simp)⟩

omit [DecidableEq ι] in
/-- Queues that were set up with different addresses, each with a slot for all others. -/
theorem Stations.of_init {cfg : ι → QueueConfig}
    (hinit : ∀ p, queueInit (cfg p) = some (station p))
    (haddress : Function.Injective fun p => (station p).address)
    (hmonitoring : ∀ p, (cfg p).monitoring = false)
    (hslots : ∀ p, Fintype.card ι ≤ (station p).storage.maxChannels.toNat + 1)
    (hsend : ∀ p, (cfg p).sendChunk = true) (hreceive : ∀ p, (cfg p).receiveChunk = true)
    (hevent : ∀ p, (cfg p).rxEvent = true) : Stations station := by
  have hspec : ∀ p, (station p).config = cfg p ∧
      (station p).protocol.setup =
        ⟨(cfg p).ownAddress &&& 0x0FFF, (cfg p).monitoring, (station p).storage.maxPayload, true⟩ ∧
      (station p).protocol.rx.length = (station p).storage.maxChannels.toNat := by
    intro p
    obtain ⟨storage, -, rfl, hconfig, -, -, -, -, -, -, hproto, -⟩ := queueInit_spec (hinit p)
    obtain ⟨hrx, -, -, hsetup, hchannels⟩ := initStatic_spec hproto
    refine ⟨hconfig, hsetup, ?_⟩
    rw [hrx, List.length_replicate, hchannels]
    rfl
  refine ⟨haddress, fun p => ?_, fun p => ?_, fun p => ?_, fun p => ?_, fun p => ?_, fun p => ?_⟩
  · have hown : (station p).address = (cfg p).ownAddress &&& 0x0FFF :=
      congrArg Setup.ownAddress (hspec p).2.1
    have hmask : (0x0FFF : UInt16).toNat = 2 ^ 12 - 1 := rfl
    rw [hown, UInt16.toNat_and, hmask, Nat.and_two_pow_sub_one_eq_mod]
    exact Nat.mod_lt _ (by decide)
  · exact (congrArg Setup.monitoring (hspec p).2.1).trans (hmonitoring p)
  · rw [(hspec p).2.2]
    exact hslots p
  · rw [(hspec p).1]
    exact hsend p
  · rw [(hspec p).1]
    exact hreceive p
  · rw [(hspec p).1]
    exact hevent p

/-- **From end to end on a bus.**  Any number of queues were set up with different
addresses, each with a slot for every other one and with all callbacks, none of which is
monitoring, and are on a bus that loses nothing.  They send to each other and to nobody, and
take the chunks of each other in any order.  What they are asked to send is theirs and can
arrive: the identifier is not the one of errors, the addresses are valid, the sender is the
queue itself, the priority is in range, and the data is there and not longer than the
receiver, if there is one, has room for.
Then a queue has got messages of the others only, and for each of the others there is an
account: what was got of it, in order, are the messages it sent to this queue whose last
chunk was taken, but for those that found the inbox full at that poll.  No poll that took
one of their chunks has failed otherwise, all others were turned away for their address,
and if nothing is on its way no message is. -/
theorem bus_end_to_end {cfg : ι → QueueConfig} {station : ι → Queue}
    (hinit : ∀ p, queueInit (cfg p) = some (station p))
    (haddress : Function.Injective fun p => (station p).address)
    (hmonitoring : ∀ p, (cfg p).monitoring = false)
    (hslots : ∀ p, Fintype.card ι ≤ (station p).storage.maxChannels.toNat + 1)
    (hsend : ∀ p, (cfg p).sendChunk = true) (hreceive : ∀ p, (cfg p).receiveChunk = true)
    (hevent : ∀ p, (cfg p).rxEvent = true) {bus : Bus ι}
    (hbus : (busMachine station).Reachable (Bus.initial station) bus) (q : ι) :
    (∀ msg ∈ bus.got q, ∃ p, p ≠ q ∧ msg.addressFrom = (station p).address) ∧
      ∀ p, p ≠ q → ∃ done rest j, Account (station p).address (station q).address
        (station p).protocol.maxChunkLength (bus.sent p) (bus.taken p q) (bus.flight p q)
        (bus.got q) done rest j ∧
          (chunksTo (station q).address (bus.flight p q) = [] → rest = []) := by
  have hst := Stations.of_init hinit haddress hmonitoring hslots hsend hreceive hevent
  have hm : ∀ p, ChunkLengthOk (station p).protocol.maxChunkLength := by
    intro p
    obtain ⟨storage, -, -, -, -, -, -, -, -, -, hproto, -⟩ := queueInit_spec (hinit p)
    exact chunkLengthOk_of_initStatic hproto
  obtain ⟨actions, rfl⟩ := hbus
  have hok := (busMachine station).final_of_step (P := Bus.Ok station hm) actions
    (Bus.Ok.initial hinit) fun _ action _ h => h.step hst action
  refine ⟨hok.known q, fun p hne => ?_⟩
  obtain ⟨done, rest, j, hpair⟩ := hok.pair p q hne
  refine ⟨done, rest, j, hpair.toAccount, fun hempty => ?_⟩
  -- the first message on its way has chunks that were not taken
  cases rest with
  | nil => rfl
  | cons msg later =>
    have hlt := hpair.lt msg rfl
    have hflight := hpair.flight
    rw [hempty, List.drop_eq_nil_iff, List.flatMap_cons, List.length_append] at hflight
    omega

end Invariant

/-! ### Three queues -/

/-- The places of three queues. -/
inductive Place
  | left
  | middle
  | right
  deriving DecidableEq

instance : Fintype Place where
  elems := {.left, .middle, .right}
  complete p := by cases p <;> decide

/-- Memory for the messages of two senders. -/
def sharedStorage : Storage where
  rxBuffers := true
  rxPayload := some [0, 0, 0, 0]
  maxChannels := 2
  maxPayload := 2
  inbox := some [{}, {}]
  inboxPayload := some [0, 0, 0, 0]
  inboxSize := 2
  outbox := some [{}, {}, {}]
  outboxSize := 3
  rxPayload_length := by intro mem h; cases h; decide
  inbox_length := by intro mem h; cases h; rfl
  inboxPayload_length := by intro mem h; cases h; decide
  outbox_length := by intro mem h; cases h; rfl

/-- Their addresses. -/
def sharedAddress : Place → UInt16
  | .left => 1
  | .middle => 2
  | .right => 3

/-- Their setups: they cut their messages into chunks of up to six bytes. -/
def sharedConfig (p : Place) : QueueConfig :=
  { smallQueueConfig (sharedAddress p) with
    maxChunkLength := 6
    storage := some sharedStorage }

/-- The three queues. -/
def sharedQueue (p : Place) : Queue :=
  { smallQueue (sharedAddress p) with
    config := sharedConfig p
    storage := sharedStorage
    protocol := { (smallQueue (sharedAddress p)).protocol with
      maxChunkLength := 6
      maxChannels := 2
      rx := [{}, {}]
      rxPayload := [0, 0, 0, 0] }
    inbox := [{}, {}]
    inboxPayload := [0, 0, 0, 0]
    outbox := [{}, {}, {}] }

/-- A message to the queue in the middle. -/
def sharedMsg (addressFrom messageId : UInt16) : Msg :=
  { smallMsg messageId with addressFrom := addressFrom }

theorem queueInit_sharedQueue (p : Place) : queueInit (sharedConfig p) = some (sharedQueue p) := by
  cases p <;> rfl

theorem sharedMsg_posts {p : Place} {addressFrom messageId : UInt16}
    (hfrom : addressFrom = (sharedQueue p).address) (haddress : addressValid addressFrom = true)
    (hid : messageId ≠ errorId) : Posts sharedQueue p (sharedMsg addressFrom messageId) where
  readable := smallMsg_readable messageId
  addressed := ⟨hid, haddress, (by decide : addressValid 2 = true),
    (by decide : (7 : UInt8) ≤ priorityMinimal)⟩
  addressFrom := hfrom
  fits _ _ := UInt16.le_refl 2

/-- The chunks of two messages come in one after the other in turn. -/
def sharedActions : List (BusAction sharedQueue) :=
  [.send .left (sharedMsg 1 5) (sharedMsg_posts rfl (by decide) (by decide)),
    .send .right (sharedMsg 3 6) (sharedMsg_posts rfl (by decide) (by decide)),
    .pollTx .left true, .pollTx .right true, .pollRx .right .middle, .pollRx .left .middle,
    .pollTx .right true, .pollTx .left true, .pollRx .left .middle, .pollRx .right .middle,
    .pollRx .left .right, .pollNew .middle]

/-- The queue in the middle gets both. -/
theorem bus_end_to_end_sharedQueue :
    (((busMachine sharedQueue).final (Bus.initial sharedQueue) sharedActions).got .middle).map
        Msg.content = [(sharedMsg 1 5).content, (sharedMsg 3 6).content] ∧
      ∃ done rest j, Account 3 2 6
        (((busMachine sharedQueue).final (Bus.initial sharedQueue) sharedActions).sent .right)
        (((busMachine sharedQueue).final (Bus.initial sharedQueue) sharedActions).taken .right
          .middle)
        (((busMachine sharedQueue).final (Bus.initial sharedQueue) sharedActions).flight .right
          .middle)
        (((busMachine sharedQueue).final (Bus.initial sharedQueue) sharedActions).got .middle)
        done rest j := by
  have haddress : Function.Injective fun p => (sharedQueue p).address := by
    intro p q hpq
    cases p <;> cases q <;> first | rfl | exact absurd hpq (by decide)
  obtain ⟨-, hpairs⟩ := bus_end_to_end queueInit_sharedQueue haddress
    (fun _ => rfl) (fun _ => Nat.le_refl 3) (fun _ => rfl) (fun _ => rfl) (fun _ => rfl)
    ⟨sharedActions, rfl⟩ .middle
  obtain ⟨done, rest, j, haccount, -⟩ := hpairs .right (by decide)
  exact ⟨by decide, done, rest, j, haccount⟩

end Protoplexer
end UniCan
