import UniCan.Protoplexer.Acceptance

/-!
# Two queues and a wire

A queue `a` sends to a queue `b` over a wire that keeps the order and loses
nothing.  The application of `a` sends messages, both queues are polled in any
order, and the wire asks `a` to try again as often as it likes.

## Main definitions

* `Link` — the two queues and the wire, with the history of what was sent, taken
  and passed on.
* `link` — the link as a machine.
* `Link.Progress` — what the receiver of `b` holds: the chunks taken of the message
  it is at.
* `Link.Ok` — the invariant of a link.

## Main results

* `link_end_to_end` — **from end to end**: the messages `b` passes on, and those in
  its inbox, are the messages that were sent and whose last chunk was taken, but
  for those that found the inbox full.
-/

namespace UniCan
namespace Protoplexer

/-! ### The link -/

/-- Two queues and the wire between them. -/
structure Link where
  a : Queue
  b : Queue
  /-- The chunks on the wire. -/
  wire : List CanMessage
  /-- History: the messages `a` accepted. -/
  sent : List Msg
  /-- History: the chunks `b` took, with the results of these polls. -/
  taken : List (CanMessage × Result)
  /-- History: the messages `b` passed to its application. -/
  passed : List Msg

/-- What can happen on a link to the address `t`. -/
inductive LinkAction (t : UInt16)
  /-- `a` is asked to send a message to `b`. -/
  | send (msg : Msg) (readable : msg.Readable) (addressed : msg.Addressed)
      (addressTo : msg.addressTo = t)
  /-- The outbox of `a` is polled; the wire takes the chunk or wants it again. -/
  | pollTx (accepted : Bool)
  /-- `b` takes a chunk from the wire. -/
  | pollRx
  /-- `b` passes on a message. -/
  | pollNew

/-- The link as a machine, whose outputs are the results of the calls. -/
def link (t : UInt16) : Machine Link (LinkAction t) Result where
  step s
    | .send msg _ _ _ =>
        let r := queueSend s.a msg
        ({ s with
            a := r.1
            sent := if r.2 = .ok then s.sent ++ [msg] else s.sent }, r.2)
    | .pollTx accepted =>
        let r := queuePollTx s.a (if accepted then .ok else .errorResendRequired)
        ({ s with
            a := r.1
            wire := if accepted then s.wire ++ s.a.outboxFront.toList else s.wire }, r.2)
    | .pollRx =>
        let r := queuePollRx s.b s.wire.head?
        ({ s with
            b := r.1
            wire := s.wire.tail
            taken := s.taken ++ s.wire.head?.toList.map fun chunk => (chunk, r.2) }, r.2)
    | .pollNew =>
        let r := queuePollNew s.b
        ({ s with
            b := r.1
            passed := s.passed ++ r.2.2.toList }, r.2.1)

/-- Two queues that were just set up. -/
def Link.start (a b : Queue) : Link := ⟨a, b, [], [], [], []⟩

/-- The polls that take the chunks of a message: all are fine, and the last one has
the given result. -/
def answered (m : UInt16) (p : Msg × Result) : List (CanMessage × Result) :=
  (chunksOf p.1 m).zipIdx.map fun c =>
    (c.1, if c.2 + 1 = (chunksOf p.1 m).length then p.2 else .ok)

/-! ### The messages of a link -/

/-- A message that a context with this setup can take, for the address `t`. -/
structure Carries (setup : Setup) (t : UInt16) (msg : Msg) : Prop where
  rxStatic : setup.rxStatic = true
  hasData : msg.HasData
  addressed : msg.Addressed
  addressTo : msg.addressTo = t
  length_le : msg.length ≤ setup.maxPayload

/-- The calls of a queue that take its chunks. -/
def Carries.transfer {setup : Setup} {t m : UInt16} {msg : Msg} (h : Carries setup t msg)
    (hm : ChunkLengthOk m) : Transfer setup msg.addressFrom msg.addressTo :=
  h.addressed.transfer (fun _ => .addChunkView true true) (fun _ => .heapless) h.hasData hm
    (fun _ => h.length_le)
    fun _ => ⟨fun hs => absurd (h.rxStatic.symm.trans hs) (by simp),
      fun _ h => absurd h (by simp)⟩

section Message

variable {setup : Setup} {t m : UInt16} {msg : Msg} (h : Carries setup t msg)
  (hm : ChunkLengthOk m)

include h hm

theorem Carries.length_chunksOf : (chunksOf msg m).length = (h.transfer hm).count :=
  UniCan.Protoplexer.length_chunksOf hm h.hasData

theorem Carries.length_chunksOf_pos : 0 < (chunksOf msg m).length := by
  rw [h.length_chunksOf hm]
  exact chunksCount_pos hm msg.length

/-- The chunk with index `j`. -/
theorem Carries.getElem?_chunksOf {j : ℕ} (hj : j < (chunksOf msg m).length) :
    (chunksOf msg m)[j]? = some ((h.transfer hm).call j).chunk := by
  rw [h.length_chunksOf hm] at hj
  rw [chunksOf_eq hm h.hasData, List.getElem?_map, List.getElem?_range (by exact hj)]
  rfl

/-- The answer to it. -/
theorem Carries.answer_transfer (j : ℕ) :
    (h.transfer hm).answer (true && j + 1 == (h.transfer hm).count) j =
      (.ok, if j + 1 = (chunksOf msg m).length then some msg.content else none) := by
  have hwants : ((h.transfer hm).api j).wantsMessage = true := rfl
  rw [Transfer.answer, Transfer.length_chunks, ← h.length_chunksOf hm, hwants]
  simp only [Bool.true_and, Bool.and_true, Bool.and_self, beq_iff_eq]
  rfl

omit h hm in
/-- The polls of a message: all but the last one, and the last one. -/
theorem answered_eq {j : ℕ} {chunk : CanMessage} (hj : j + 1 = (chunksOf msg m).length)
    (hchunk : (chunksOf msg m)[j]? = some chunk) (result : Result) :
    answered m (msg, result) =
      ((chunksOf msg m).take j).map (fun c => (c, Result.ok)) ++ [(chunk, result)] := by
  obtain ⟨hlt, hget⟩ := List.getElem?_eq_some_iff.mp hchunk
  have hlast : chunksOf msg m = (chunksOf msg m).take j ++ [chunk] := by
    rw [← hget, List.take_concat_get' _ _ hlt, List.take_of_length_le (by omega)]
  have hlen : ((chunksOf msg m).take j).length = j := by
    rw [List.length_take]
    omega
  have hzip : (chunksOf msg m).zipIdx = ((chunksOf msg m).take j).zipIdx ++ [(chunk, j)] := by
    rw [hlast, List.take_left' hlen, List.zipIdx_append, hlen, Nat.zero_add]
    rfl
  unfold answered
  simp only
  rw [hzip, List.map_append, ← hj, List.map_singleton, if_pos rfl]
  congr 1
  apply List.ext_getElem (by simp)
  intro i hi hi'
  have hne : i ≠ j := by
    rw [List.length_map, List.length_zipIdx, hlen] at hi
    omega
  simp [hne]

end Message

/-! ### The receiving end -/

/-- What the receiver holds when it has taken `j` chunks of the first of the messages
`rest`: their data, and nothing of anybody else. -/
def Link.Progress (setup : Setup) (t : UInt16) {m : UInt16} (hm : ChunkLengthOk m) (ctx : Ctx)
    (rest : List Msg) : ℕ → Prop
  | 0 => ∀ sig, ctx.inProgress sig = none
  | j + 1 => ∃ msg later r, ∃ h : Carries setup t msg,
      rest = msg :: later ∧ j + 1 < (chunksOf msg m).length ∧
        (h.transfer hm).Partial (j + 1) true r ∧
        ctx.inProgress (pairSig msg.addressFrom msg.addressTo) = some r ∧
        ∀ sig, sig ≠ pairSig msg.addressFrom msg.addressTo → ctx.inProgress sig = none

/-- If nobody else has a message in progress there is a slot. -/
theorem Ctx.room_of_alone {ctx : Ctx} (h : Inv ctx) (hpos : 0 < ctx.rx.length) {sig : UInt32}
    (halone : ∀ sig', sig' ≠ sig → ctx.inProgress sig' = none) : ctx.Room sig := by
  refine ⟨0, hpos, fun ⟨huse, hview, hne⟩ => ?_⟩
  have hsome : ctx.inProgress (ctx.buffer 0).channelSignature = some (ctx.reassembly 0) :=
    (Ctx.inProgress_eq_some h).mpr ⟨0, ⟨hpos, huse, rfl, hview⟩, rfl⟩
  rw [halone _ hne] at hsome
  exact absurd hsome (by simp)

section Step

variable {setup : Setup} {t m : UInt16} {hm : ChunkLengthOk m} {ctx : Ctx} {msg : Msg}
  {later : List Msg} {j : ℕ}

theorem Link.Progress.alone (hp : Link.Progress setup t hm ctx (msg :: later) j) {sig : UInt32}
    (hne : sig ≠ pairSig msg.addressFrom msg.addressTo) : ctx.inProgress sig = none := by
  cases j with
  | zero => exact hp sig
  | succ j =>
    obtain ⟨msg', later', r, h, heq, -, -, -, hother⟩ := hp
    cases heq
    exact hother sig hne

/-- The next chunk extends what the receiver holds. -/
theorem Link.Progress.advance (hp : Link.Progress setup t hm ctx (msg :: later) j)
    (h : Carries setup t msg) (hj : j < (chunksOf msg m).length) :
    ∃ r, (h.transfer hm).Partial (j + 1) true r ∧
      Pair.advance setup .heapless (ctx.inProgress (pairSig msg.addressFrom msg.addressTo))
        ((h.transfer hm).call j).chunk = Pair.finish r := by
  have hf := h.addressed.addressFrom
  have ht := h.addressed.addressTo
  cases j with
  | zero => exact (h.transfer hm).advance_first hf ht _
  | succ j =>
    obtain ⟨msg', later', r, h', heq, -, hpart, hr, -⟩ := hp
    cases heq
    rw [h.length_chunksOf hm] at hj
    rw [hr]
    exact hpart.advance (Nat.succ_pos j) hj

/-- **A chunk that is taken**: the poll is fine, and either the message goes on or it
is delivered, and the receiver is free for the next one. -/
theorem Link.Progress.step (hp : Link.Progress setup t hm ctx (msg :: later) j) (hinv : Inv ctx)
    (hsetup : ctx.setup = setup) (hpos : 0 < ctx.rx.length)
    (hown : setup.monitoring = true ∨ setup.ownAddress = t) (h : Carries setup t msg)
    (hj : j < (chunksOf msg m).length) :
    (receiver.step ctx ((h.transfer hm).call j)).2.result = .ok ∧
      if j + 1 = (chunksOf msg m).length then
        ((receiver.step ctx ((h.transfer hm).call j)).2.message.map Msg.content =
            some msg.content) ∧
          ∀ rest, Link.Progress setup t hm (receiver.step ctx ((h.transfer hm).call j)).1 rest 0
      else
        (receiver.step ctx ((h.transfer hm).call j)).2.message = none ∧
          Link.Progress setup t hm (receiver.step ctx ((h.transfer hm).call j)).1 (msg :: later)
            (j + 1) := by
  have hf := h.addressed.addressFrom
  have ht := h.addressed.addressTo
  have hown' : setup.monitoring = true ∨ setup.ownAddress = msg.addressTo := by
    rw [h.addressTo]
    exact hown
  have hcount := h.length_chunksOf hm
  have hspec := receiver_step_spec hinv ((h.transfer hm).call j)
  have hsig : channelSig ((h.transfer hm).call j).chunk.id =
      pairSig msg.addressFrom msg.addressTo := by
    obtain ⟨hfrom, hto⟩ := (h.transfer hm).pair_call hf ht j
    rw [channelSig, hfrom, hto, pairSig]
  have hmachine := hspec.own_machine fun _ =>
    Ctx.room_of_alone hinv hpos fun sig hne => hp.alone (by rwa [← hsig])
  rw [hsig, hsetup] at hmachine
  obtain ⟨r, hpart, hadvance⟩ := hp.advance h hj
  obtain ⟨hanswer, hmore, hlast⟩ := hpart.machine_step hf ht hown' (by rw [← hcount]; exact hj)
    hadvance
  have hstate := congrArg Prod.fst hmachine
  have hreply := (congrArg (fun p => seen p.2) hmachine).trans
    (hanswer.trans (h.answer_transfer hm j))
  have hmessage := congrArg Prod.snd hreply
  simp only [seen, Reply.answer] at hmessage
  have hnone : ∀ sig, sig ≠ pairSig msg.addressFrom msg.addressTo →
      (receiver.step ctx ((h.transfer hm).call j)).1.inProgress sig = none := fun sig hne => by
    rw [hspec.other sig (by rwa [hsig])]
    exact hp.alone hne
  refine ⟨congrArg Prod.fst hreply, ?_⟩
  split_ifs with hend
  · rw [if_pos hend] at hmessage
    refine ⟨hmessage, fun _ sig => ?_⟩
    by_cases hsig' : sig = pairSig msg.addressFrom msg.addressTo
    · rw [hsig']
      exact hstate.trans (hlast rfl (by rw [← hcount]; exact hend))
    · exact hnone sig hsig'
  · rw [if_neg hend, Option.map_eq_none_iff] at hmessage
    exact ⟨hmessage, msg, later, r, h, rfl, by omega, hpart,
      hstate.trans (hmore (by omega)), hnone⟩

end Step

/-! ### The invariant -/

/-- An account of what happened on a link: the messages `done` are those whose chunks
were all taken, with the result of the last poll; of the messages `rest`, `j` chunks
were taken, not all of the first one, and the others are on their way. -/
structure Link.Account (m : UInt16) (s : Link) (done : List (Msg × Result)) (rest : List Msg)
    (j : ℕ) : Prop where
  sent : s.sent = done.map Prod.fst ++ rest
  taken : s.taken = done.flatMap (answered m) ++
    ((rest.flatMap fun msg => chunksOf msg m).take j).map fun chunk => (chunk, Result.ok)
  lt : ∀ msg ∈ rest.head?, j < (chunksOf msg m).length
  flight : (rest.flatMap fun msg => chunksOf msg m).drop j = s.wire ++ s.a.outboxList
  results : ∀ p ∈ done, p.2 = .ok ∨ p.2 = .addingChunkCantSaveMessage
  passed : (s.passed ++ s.b.inboxList).map Msg.content =
    (done.filter fun p => p.2 = .ok).map fun p => p.1.content

/-- The invariant of a link. -/
structure Link.Ok (setup : Setup) (t : UInt16) {m : UInt16} (hm : ChunkLengthOk m) (s : Link)
    (done : List (Msg × Result)) (rest : List Msg) (j : ℕ) : Prop
    extends Link.Account m s done rest j where
  a : s.a.Ok
  chunkLength : s.a.protocol.maxChunkLength = m
  maxPayload : s.a.storage.maxPayload ≤ setup.maxPayload
  sendChunk : s.a.config.sendChunk = true
  b : s.b.Ok
  sameSetup : s.b.protocol.setup = setup
  slots : 0 < s.b.protocol.rx.length
  receiveChunk : s.b.config.receiveChunk = true
  rxEvent : s.b.config.rxEvent = true
  carries : ∀ msg ∈ rest, Carries setup t msg
  progress : Link.Progress setup t hm s.b.protocol rest j

section Invariant

variable {setup : Setup} {t m : UInt16} {hm : ChunkLengthOk m} {s : Link}
  {done : List (Msg × Result)} {rest : List Msg} {j : ℕ}

theorem Link.Ok.le_length (h : s.Ok setup t hm done rest j) :
    j ≤ (rest.flatMap fun msg => chunksOf msg m).length := by
  cases rest with
  | nil =>
    cases j with
    | zero => exact Nat.zero_le _
    | succ j =>
      obtain ⟨msg, later, r, -, heq, -⟩ := h.progress
      exact absurd heq (by simp)
  | cons msg later =>
    have hlt := h.lt msg rfl
    rw [List.flatMap_cons, List.length_append]
    omega

/-- A message that is sent joins those on their way. -/
theorem Link.Ok.send (h : s.Ok setup t hm done rest j) {msg : Msg} (readable : msg.Readable)
    (addressed : msg.Addressed) (addressTo : msg.addressTo = t) :
    ∃ rest', Link.Ok setup t hm
      ((link t).step s (.send msg readable addressed addressTo)).1 done rest' j := by
  rcases queueSend_spec h.a readable with ⟨hsame, hres⟩ | ⟨hhas, -, hle, mem, heq, hok, hlist⟩
  · refine ⟨rest, ?_⟩
    simp only [link, hsame, if_neg hres]
    exact h
  have hcarries : Carries setup t msg :=
    ⟨by rw [← h.sameSetup]; exact h.b.rxStatic, hhas, addressed, addressTo,
      UInt16.le_trans hle h.maxPayload⟩
  have hj := h.le_length
  have hflat : ((rest ++ [msg]).flatMap fun msg => chunksOf msg m) =
      (rest.flatMap fun msg => chunksOf msg m) ++ chunksOf msg m := by
    rw [List.flatMap_append, List.flatMap_singleton]
  rw [h.chunkLength] at hlist
  refine ⟨rest ++ [msg], ?_⟩
  simp only [link, heq, if_true]
  rw [heq] at hok hlist
  refine ⟨⟨?_, ?_, ?_, ?_, h.results, h.passed⟩, hok, h.chunkLength, h.maxPayload, h.sendChunk, h.b,
    h.sameSetup, h.slots, h.receiveChunk, h.rxEvent, ?_, ?_⟩
  · simp only
    rw [h.sent, List.append_assoc]
  · simp only
    rw [hflat, List.take_append_of_le_length hj]
    exact h.taken
  · intro first hfirst
    cases rest with
    | nil =>
      obtain rfl : msg = first := by simpa using hfirst
      obtain rfl : j = 0 := by simpa using hj
      exact hcarries.length_chunksOf_pos hm
    | cons msg' later => exact h.lt first hfirst
  · simp only
    rw [hflat, List.drop_append_of_le_length hj, h.flight, hlist, List.append_assoc]
  · intro msg' hmsg'
    rcases List.mem_append.mp hmsg' with hold | hnew
    · exact h.carries msg' hold
    · rw [List.mem_singleton.mp hnew]
      exact hcarries
  · cases j with
    | zero => exact h.progress
    | succ j =>
      obtain ⟨msg', later, r, hc, rfl, hrest⟩ := h.progress
      exact ⟨msg', later ++ [msg], r, hc, rfl, hrest⟩

/-- A chunk that the wire takes moves from the outbox to the wire. -/
theorem Link.Ok.pollTx (h : s.Ok setup t hm done rest j) (accepted : Bool) :
    Link.Ok setup t hm ((link t).step s (.pollTx accepted)).1 done rest j := by
  obtain ⟨hok, hprotocol, hconfig, hstorage, -, hlist⟩ :=
    queuePollTx_spec h.a (if accepted then .ok else .errorResendRequired)
  have hflight : s.wire ++ s.a.outboxList =
      (if accepted then s.wire ++ s.a.outboxFront.toList else s.wire) ++
        (queuePollTx s.a (if accepted then .ok else .errorResendRequired)).1.outboxList := by
    rcases hlist with ⟨hempty, hfront, heq⟩ | ⟨chunk, later, hfull, hfront, heq⟩
    · rw [heq, hfront]
      cases accepted <;> simp
    · rw [heq, hfull, hfront, h.sendChunk]
      cases accepted <;> simp
  simp only [link]
  exact ⟨⟨h.sent, h.taken, h.lt, h.flight.trans hflight, h.results, h.passed⟩, hok,
    by rw [hprotocol]; exact h.chunkLength, by rw [hstorage]; exact h.maxPayload,
    by rw [hconfig]; exact h.sendChunk, h.b, h.sameSetup, h.slots, h.receiveChunk, h.rxEvent,
    h.carries, h.progress⟩

/-- A message that `b` passes on leaves its inbox. -/
theorem Link.Ok.pollNew (h : s.Ok setup t hm done rest j) :
    Link.Ok setup t hm ((link t).step s .pollNew).1 done rest j := by
  obtain ⟨hok, hprotocol, hconfig, -, -, hlist⟩ := queuePollNew_spec h.b
  have hpassed : s.passed ++ s.b.inboxList =
      (s.passed ++ (queuePollNew s.b).2.2.toList) ++ (queuePollNew s.b).1.inboxList := by
    rcases hlist with ⟨hempty, heq⟩ | ⟨msg, later, hfull, hlater, heq⟩
    · rw [heq]
      simp
    · rw [hlater, heq, hfull, h.rxEvent]
      simp
  simp only [link]
  exact ⟨⟨h.sent, h.taken, h.lt, h.flight, h.results, by rw [← hpassed]; exact h.passed⟩, h.a,
    h.chunkLength, h.maxPayload, h.sendChunk, hok, by rw [hprotocol]; exact h.sameSetup,
    by rw [hprotocol]; exact h.slots, by rw [hconfig]; exact h.receiveChunk,
    by rw [hconfig]; exact h.rxEvent, h.carries, by rw [hprotocol]; exact h.progress⟩

/-- The first chunk on the wire is the next one of the first message that is on its
way. -/
theorem Link.Ok.next (h : s.Ok setup t hm done rest j) {chunk : CanMessage}
    {wire : List CanMessage} (hwire : s.wire = chunk :: wire) :
    (rest.flatMap fun msg => chunksOf msg m)[j]? = some chunk ∧
      (rest.flatMap fun msg => chunksOf msg m).drop (j + 1) = wire ++ s.a.outboxList ∧
      ∃ msg later, ∃ hc : Carries setup t msg, rest = msg :: later ∧
        (chunksOf msg m)[j]? = some chunk ∧ queueCall chunk = (hc.transfer hm).call j := by
  have hflight := h.flight
  rw [hwire, List.cons_append] at hflight
  have hget : (rest.flatMap fun msg => chunksOf msg m)[j]? = some chunk := by
    rw [← List.head?_drop, hflight]
    rfl
  refine ⟨hget, by rw [← List.tail_drop, hflight]; rfl, ?_⟩
  cases rest with
  | nil => exact absurd hflight (by simp)
  | cons msg later =>
    have hlt := h.lt msg rfl
    have hc := h.carries msg List.mem_cons_self
    rw [List.flatMap_cons, List.getElem?_append_left hlt] at hget
    refine ⟨msg, later, hc, rfl, hget, ?_⟩
    rw [hc.getElem?_chunksOf hm hlt, Option.some.injEq] at hget
    rw [← hget]
    rfl

/-- The account after the last chunk of a message. -/
theorem Link.Account.last {s' : Link} {msg : Msg} {later : List Msg} {chunk : CanMessage}
    {result : Result} (h : s.Account m done (msg :: later) j)
    (hend : j + 1 = (chunksOf msg m).length) (hchunk : (chunksOf msg m)[j]? = some chunk)
    (hpos : ∀ first ∈ later, 0 < (chunksOf first m).length) (hsent : s'.sent = s.sent)
    (htaken : s'.taken = s.taken ++ [(chunk, result)])
    (hflight : ((msg :: later).flatMap fun msg => chunksOf msg m).drop (j + 1) =
      s'.wire ++ s'.a.outboxList)
    (hresult : result = .ok ∨ result = .addingChunkCantSaveMessage)
    (hpassed : (s'.passed ++ s'.b.inboxList).map Msg.content =
      (s.passed ++ s.b.inboxList).map Msg.content ++
        if result = .ok then [msg.content] else []) :
    s'.Account m (done ++ [(msg, result)]) later 0 where
  sent := by
    rw [hsent, h.sent, List.map_append, List.append_assoc]
    rfl
  taken := by
    rw [htaken, h.taken, List.flatMap_append, List.flatMap_singleton, answered_eq hend hchunk,
      List.flatMap_cons, List.take_append_of_le_length (by omega), List.append_assoc]
    simp
  lt first hfirst := hpos first (List.mem_of_head? hfirst)
  flight := by
    rw [← hflight, List.flatMap_cons, hend, List.drop_left, List.drop_zero]
  results p hp := by
    rcases List.mem_append.mp hp with hold | hnew
    · exact h.results p hold
    · rw [List.mem_singleton.mp hnew]
      exact hresult
  passed := by
    rw [hpassed, h.passed, List.filter_append, List.map_append]
    by_cases hok : result = .ok <;> simp [hok]

/-- The account after another chunk. -/
theorem Link.Account.more {s' : Link} {msg : Msg} {later : List Msg} {chunk : CanMessage}
    (h : s.Account m done (msg :: later) j) (hend : j + 1 ≠ (chunksOf msg m).length)
    (hget : ((msg :: later).flatMap fun msg => chunksOf msg m)[j]? = some chunk)
    (hsent : s'.sent = s.sent) (htaken : s'.taken = s.taken ++ [(chunk, .ok)])
    (hflight : ((msg :: later).flatMap fun msg => chunksOf msg m).drop (j + 1) =
      s'.wire ++ s'.a.outboxList)
    (hpassed : s'.passed ++ s'.b.inboxList = s.passed ++ s.b.inboxList) :
    s'.Account m done (msg :: later) (j + 1) where
  sent := hsent.trans h.sent
  taken := by
    rw [htaken, h.taken, List.take_add_one, hget, List.append_assoc]
    simp
  lt first hfirst := by
    have hlt := h.lt first hfirst
    obtain rfl : msg = first := by simpa using hfirst
    omega
  flight := hflight
  results := h.results
  passed := by
    rw [hpassed]
    exact h.passed

/-- Every poll that took a chunk was fine, or found the inbox full. -/
theorem Link.Account.taken_result (h : s.Account m done rest j) {c : CanMessage × Result}
    (hc : c ∈ s.taken) : c.2 = .ok ∨ c.2 = .addingChunkCantSaveMessage := by
  rw [h.taken] at hc
  rcases List.mem_append.mp hc with hdone | hrest
  · obtain ⟨p, hp, hc⟩ := List.mem_flatMap.mp hdone
    obtain ⟨k, -, rfl⟩ := List.mem_map.mp hc
    simp only
    split_ifs
    · exact h.results p hp
    · exact Or.inl rfl
  · obtain ⟨chunk, -, rfl⟩ := List.mem_map.mp hrest
    exact Or.inl rfl

/-- A chunk that `b` takes from the wire: if it is the last one of its message, the
message is done. -/
theorem Link.Ok.pollRx (h : s.Ok setup t hm done rest j)
    (hown : setup.monitoring = true ∨ setup.ownAddress = t) :
    ∃ done' rest' j', Link.Ok setup t hm ((link t).step s .pollRx).1 done' rest' j' := by
  cases hwire : s.wire with
  | nil =>
    refine ⟨done, rest, j, ?_⟩
    have heq : queuePollRx s.b none = (s.b, .pollingRxHwRxEmpty) := by
      rw [queuePollRx, h.receiveChunk]
      rfl
    simp only [link, hwire, List.head?_nil, List.tail_nil, Option.toList_none, List.map_nil,
      List.append_nil, heq]
    rw [← hwire]
    exact h
  | cons chunk wire =>
    obtain ⟨hget, hflight, msg, later, hc, rfl, hchunk, hcall⟩ := h.next hwire
    have hlt := h.lt msg rfl
    have hrx : queuePollRx s.b (some chunk) = queueAddChunk s.b chunk := by
      rw [queuePollRx, h.receiveChunk]
      rfl
    obtain ⟨hok, hprotocol, hconfig, -, -, hlist⟩ := queueAddChunk_spec h.b chunk
    obtain ⟨hresult, hstep⟩ := h.progress.step h.b.protocol h.sameSetup h.slots hown hc hlt
    have hspec := receiver_step_spec h.b.protocol (queueCall chunk)
    rw [← hcall] at hresult hstep
    rw [hresult] at hlist
    simp only [link, hwire, List.head?_cons, List.tail_cons, hrx, Option.toList_some, List.map_cons,
      List.map_nil]
    set s' : Link := { s with
      b := (queueAddChunk s.b chunk).1
      wire := wire
      taken := s.taken ++ [(chunk, (queueAddChunk s.b chunk).2)] }
    have hrest : ∀ {done' rest' j'}, s'.Account m done' rest' j' →
        (∀ msg' ∈ rest', msg' ∈ msg :: later) →
        Link.Progress setup t hm (receiver.step s.b.protocol (queueCall chunk)).1 rest' j' →
        Link.Ok setup t hm s' done' rest' j' :=
      fun haccount hsub hprogress => ⟨haccount, h.a, h.chunkLength, h.maxPayload, h.sendChunk, hok,
        by rw [hprotocol]; exact hspec.setup.trans h.sameSetup,
        by rw [hprotocol, hspec.length_rx]; exact h.slots,
        by rw [hconfig]; exact h.receiveChunk, by rw [hconfig]; exact h.rxEvent,
        fun msg' hmsg' => h.carries msg' (hsub msg' hmsg'), by rw [hprotocol]; exact hprogress⟩
    by_cases hend : j + 1 = (chunksOf msg m).length
    · rw [if_pos hend] at hstep
      obtain ⟨hcontent, hfree⟩ := hstep
      obtain ⟨whole, hwhole, hcontent⟩ := Option.map_eq_some_iff.mp hcontent
      rw [hwhole] at hlist
      have hpos : ∀ first ∈ later, 0 < (chunksOf first m).length := fun first hfirst =>
        (h.carries first (List.mem_cons_of_mem msg hfirst)).length_chunksOf_pos hm
      refine ⟨_, later, 0, hrest (h.last hend hchunk hpos rfl rfl hflight ?_ ?_)
        (fun _ h => List.mem_cons_of_mem msg h) (hfree later)⟩
      · simp only at hlist
        split_ifs at hlist
        · exact Or.inl (congrArg Prod.fst hlist)
        · exact Or.inr (congrArg Prod.fst hlist)
      · -- the inbox may have no room for it
        simp only at hlist
        split_ifs at hlist <;> obtain ⟨hres, hinbox⟩ := Prod.mk.inj hlist <;>
          simp [s', hres, hinbox, hcontent]
    · rw [if_neg hend] at hstep
      obtain ⟨hnone, hprogress⟩ := hstep
      rw [hnone] at hlist
      obtain ⟨hres, hinbox⟩ := Prod.mk.inj hlist
      refine ⟨done, msg :: later, j + 1, hrest (h.more hend hget rfl ?_ hflight ?_)
        (fun _ h => h) hprogress⟩
      · simp only [s', hres]
      · simp only [s', hinbox]

end Invariant

/-- The result of a poll. -/
theorem Link.Ok.pollRx_result {setup : Setup} {t m : UInt16} {hm : ChunkLengthOk m} {s : Link}
    {done : List (Msg × Result)} {rest : List Msg} {j : ℕ} (h : s.Ok setup t hm done rest j)
    (hown : setup.monitoring = true ∨ setup.ownAddress = t) :
    if s.wire = [] then ((link t).step s .pollRx).2 = .pollingRxHwRxEmpty
    else ((link t).step s .pollRx).2 = .ok ∨
      ((link t).step s .pollRx).2 = .addingChunkCantSaveMessage := by
  cases hwire : s.wire with
  | nil =>
    simp only [if_true, link, hwire, List.head?_nil]
    rw [queuePollRx, h.receiveChunk]
    rfl
  | cons chunk wire =>
    -- the result is in the history of the next state
    obtain ⟨done', rest', j', h'⟩ := h.pollRx hown
    rw [if_neg (by simp)]
    refine h'.taken_result (c := (chunk, ((link t).step s .pollRx).2)) ?_
    simp [link, hwire]

/-- Every action keeps the invariant. -/
theorem Link.Ok.step {setup : Setup} {t m : UInt16} {hm : ChunkLengthOk m} {s : Link}
    (h : ∃ done rest j, Link.Ok setup t hm s done rest j)
    (hown : setup.monitoring = true ∨ setup.ownAddress = t) (action : LinkAction t) :
    ∃ done rest j, Link.Ok setup t hm ((link t).step s action).1 done rest j := by
  obtain ⟨done, rest, j, h⟩ := h
  cases action with
  | send msg readable addressed addressTo =>
    obtain ⟨rest', h'⟩ := h.send readable addressed addressTo
    exact ⟨done, rest', j, h'⟩
  | pollTx accepted => exact ⟨done, rest, j, h.pollTx accepted⟩
  | pollRx => exact h.pollRx hown
  | pollNew => exact ⟨done, rest, j, h.pollNew⟩

/-- It holds when both queues were just set up. -/
theorem Link.Ok.start {cfgA cfgB : QueueConfig} {a b : Queue} (ha : queueInit cfgA = some a)
    (hb : queueInit cfgB = some b) (hpayload : a.storage.maxPayload ≤ b.storage.maxPayload)
    (hsend : cfgA.sendChunk = true) (hreceive : cfgB.receiveChunk = true)
    (hevent : cfgB.rxEvent = true) (t : UInt16) : ∃ hm : ChunkLengthOk a.protocol.maxChunkLength,
      Link.Ok b.protocol.setup t hm (Link.start a b) [] [] 0 := by
  obtain ⟨storage, -, -, hconfigA, -, -, -, -, -, -, hprotoA, -⟩ := queueInit_spec ha
  obtain ⟨storageB, -, -, hconfigB, -, -, -, -, -, -, hprotoB, -⟩ := queueInit_spec hb
  obtain ⟨haok, haout, -⟩ := queueInit_ok ha
  obtain ⟨hbok, -, hbin⟩ := queueInit_ok hb
  have hinitial : b.protocol.Initial := ⟨_, Or.inl hprotoB⟩
  refine ⟨chunkLengthOk_of_initStatic hprotoA, ⟨rfl, rfl, fun _ h => absurd h (by simp), ?_,
    fun _ h => absurd h (by simp), ?_⟩, haok, rfl, ?_, by rw [← hsend, ← hconfigA]; rfl, hbok, rfl,
    hinitial.length_pos, by rw [← hreceive, ← hconfigB]; rfl, by rw [← hevent, ← hconfigB]; rfl,
    fun _ h => absurd h (by simp), hinitial.inProgress⟩
  · simp [Link.start, haout]
  · simp [Link.start, hbin]
  · have hmax := hbok.maxPayload
    simp only [Ctx.setup, Link.start]
    rw [hmax]
    exact hpayload

/-- **From end to end.**  Two queues were set up, the second with a limit no lower
than that of the first, and the first sends messages to the address of the second
over a wire that loses nothing.  After any actions there is an account of what
happened: what the second queue passed on, and what waits in its inbox, are the
messages that were sent and whose last chunk it took, in order, but for those that
found its inbox full at that poll.  No other poll of the second queue fails, unless
there is nothing on the wire. -/
theorem link_end_to_end {cfgA cfgB : QueueConfig} {a b : Queue} (ha : queueInit cfgA = some a)
    (hb : queueInit cfgB = some b) (hpayload : a.storage.maxPayload ≤ b.storage.maxPayload)
    (hsend : cfgA.sendChunk = true) (hreceive : cfgB.receiveChunk = true)
    (hevent : cfgB.rxEvent = true) {s : Link}
    (hs : (link b.protocol.ownAddress).Reachable (Link.start a b) s) :
    (∃ done rest j, s.Account a.protocol.maxChunkLength done rest j) ∧
      if s.wire = [] then
        ((link b.protocol.ownAddress).step s .pollRx).2 = .pollingRxHwRxEmpty
      else ((link b.protocol.ownAddress).step s .pollRx).2 = .ok ∨
        ((link b.protocol.ownAddress).step s .pollRx).2 = .addingChunkCantSaveMessage := by
  obtain ⟨hm, hstart⟩ := Link.Ok.start ha hb hpayload hsend hreceive hevent b.protocol.ownAddress
  obtain ⟨actions, rfl⟩ := hs
  obtain ⟨done, rest, j, hok⟩ :=
    (link b.protocol.ownAddress).final_of_step
      (P := fun s => ∃ done rest j, Link.Ok b.protocol.setup b.protocol.ownAddress hm s done rest j)
      actions ⟨[], [], 0, hstart⟩ fun _ action _ h => Link.Ok.step h (Or.inr rfl) action
  exact ⟨⟨done, rest, j, hok.toAccount⟩, hok.pollRx_result (Or.inr rfl)⟩

/-- Two messages are sent, and the inbox of `b` has room for one. -/
def smallActions : List (LinkAction (smallQueue 2).protocol.ownAddress) :=
  [.send (smallMsg 5) (smallMsg_readable 5) (by decide) rfl, .pollTx false, .pollTx true, .pollRx,
    .send (smallMsg 6) (smallMsg_readable 6) (by decide) rfl, .pollTx true, .pollRx, .pollNew]

/-- The second message is the one that is lost. -/
theorem link_end_to_end_smallQueue :
    ((link 2).final (Link.start (smallQueue 1) (smallQueue 2)) smallActions).passed.map
        Msg.content = [(smallMsg 5).content] ∧
      ∃ done rest j, Link.Account 8
        ((link 2).final (Link.start (smallQueue 1) (smallQueue 2)) smallActions) done rest j :=
  ⟨by decide, (link_end_to_end (queueInit_smallQueue 1) (queueInit_smallQueue 2)
    (UInt16.le_refl 2) rfl rfl rfl ⟨smallActions, rfl⟩).1⟩

end Protoplexer
end UniCan
