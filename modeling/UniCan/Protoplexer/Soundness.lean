import UniCan.Protoplexer.Isolation

/-!
# Nothing is made up

Whatever chunks a receiver gets, a message it delivers is one its pair announced
and sent: the last header before the delivery has the fields of the message, the
bytes since then are its data, and the checksum of the header is theirs.

## Main definitions

* `heard` — the chunks of a pair among some calls.
* `Announced` — a reassembly is what its pair sent since a header.
* `Spent` — no message can come from this reassembly any more.

## Main results

* `receiver_heard` — after every run, the messages in progress are as announced.
* `receiver_sound` — **soundness of delivered messages**: they are as announced,
  and a header brings about one delivery at most, and none after a wrong checksum.
-/

namespace UniCan
namespace Protoplexer

/-- The chunks of the pair `p` among `calls`, but for the over-long ones. -/
def heard (p : UInt16 × UInt16) (calls : List Call) : List CanMessage :=
  (calls.filter fun call => pairOf call.chunk.id = p ∧ call.chunk.len.toNat ≤ maxLen).map
    Call.chunk

/-- The reassembly `r` is what the pair `p` sent since the header `H`: the header,
and the chunks of `post`. -/
structure Announced (setup : Setup) (p : UInt16 × UInt16) (H : CanMessage)
    (post : List CanMessage) (r : Reassembly) : Prop where
  isFirst : canidGetIsFirst H.id = true
  later : ∀ c ∈ post, canidGetIsFirst c.id = false
  pair : pairOf H.id = p
  accepts : setup.accepts H.id = true
  messageId : r.messageId = headerWord H 0
  messageId_ne : headerWord H 0 ≠ errorId
  addressFrom : r.addressFrom = p.1
  addressTo : r.addressTo = p.2
  validFrom : addressValid p.1 = true
  validTo : addressValid p.2 = true
  priorityInverted : r.priorityInverted = canidGetPriorityInverted H.id
  expectedLength : r.expectedLength = headerWord H 2
  expectedCrc : r.expectedCrc = headerWord H 4
  limit : setup.Limited → headerWord H 2 ≤ setup.maxPayload
  data : r.data = H.bytes.drop headerSize ++ post.flatMap CanMessage.bytes

/-- There is such a header in a list of chunks: the last of its first chunks. -/
def AnnouncedIn (setup : Setup) (p : UInt16 × UInt16) (chunks : List CanMessage)
    (r : Reassembly) : Prop :=
  ∃ pre H post, chunks = pre ++ H :: post ∧ Announced setup p H post r

/-- No message can come from this reassembly: all bytes are there, and the checksum
is wrong. -/
def Spent (r : Reassembly) : Prop :=
  r.data.length = r.expectedLength.toNat ∧ crc16 r.data r.expectedLength.toNat ≠ r.expectedCrc

/-! ### One pair -/

section Pair

variable {setup : Setup} {p : UInt16 × UInt16} {chunks : List CanMessage}

/-- The reassembly a chunk leaves, complete or not. -/
def Pair.Progress.reassembly : Pair.Progress → Option Reassembly
  | .refused _ => none
  | .kept r _ => some r
  | .complete r => some r

theorem Pair.finish_reassembly (r : Reassembly) : (Pair.finish r).reassembly = some r := by
  unfold Pair.finish
  split_ifs <;> rfl

theorem Pair.finish_eq_complete {r r' : Reassembly} (h : Pair.finish r = .complete r') :
    r' = r ∧ r.data.length = r.expectedLength.toNat ∧
      crc16 r.data r.expectedLength.toNat = r.expectedCrc := by
  unfold Pair.finish at h
  split_ifs at h with hlen hcrc
  exact ⟨(Pair.Progress.complete.inj h).symm, hlen, not_not.mp hcrc⟩

theorem Setup.accepts_congr {a b : UInt32} (h : pairOf a = pairOf b) :
    setup.accepts a = setup.accepts b := by
  have hto : canidGetTo a = canidGetTo b := congrArg Prod.snd h
  rw [Setup.accepts, Setup.accepts, hto]

/-- A first chunk that is not refused starts the reassembly of its header. -/
theorem Pair.first_eq_finish {alloc : Alloc} {chunk : CanMessage} {r : Reassembly}
    (h : (Pair.first setup alloc chunk).reassembly = some r) :
    Pair.first setup alloc chunk = Pair.finish r ∧ r = Pair.header chunk ∧
      addressValid (canidGetFrom chunk.id) = true ∧ addressValid (canidGetTo chunk.id) = true ∧
      headerWord chunk 0 ≠ errorId ∧ setup.refuses alloc (headerWord chunk 2) = false := by
  unfold Pair.first at h ⊢
  have hrefused : ∀ result, ¬ (Pair.Progress.refused result).reassembly = some r := by
    simp [Pair.Progress.reassembly]
  split_ifs at h ⊢ with hshort haddr hover hrefuse hid
  · exact absurd h (hrefused _)
  · exact absurd h (hrefused _)
  · exact absurd h (hrefused _)
  · exact absurd h (hrefused _)
  · exact absurd h (hrefused _)
  · rw [Pair.finish_reassembly, Option.some.injEq] at h
    subst h
    simp only [Bool.or_eq_true, Bool.not_eq_true', not_or, Bool.not_eq_false] at haddr
    exact ⟨rfl, rfl, haddr.2, haddr.1, hid, eq_false_of_ne_true hrefuse⟩

/-- A chunk that follows and is not refused extends the reassembly. -/
theorem Pair.next_eq_finish {chunk : CanMessage} {s : Option Reassembly} {r : Reassembly}
    (h : (Pair.next s chunk).reassembly = some r) :
    Pair.next s chunk = Pair.finish r ∧ ∃ r₀, s = some r₀ ∧
      r₀.data.length + chunk.len.toNat ≤ r₀.expectedLength.toNat ∧
      r = { r₀ with data := r₀.data ++ chunk.bytes } := by
  unfold Pair.next at h ⊢
  cases s with
  | none => exact absurd h (by simp [Pair.Progress.reassembly])
  | some r₀ =>
    simp only at h ⊢
    split_ifs at h ⊢ with hover
    · exact absurd h (by simp [Pair.Progress.reassembly])
    · rw [Pair.finish_reassembly, Option.some.injEq] at h
      subst h
      exact ⟨rfl, r₀, rfl, Nat.le_of_not_lt hover, rfl⟩

theorem Pair.advance_eq_finish {alloc : Alloc} {chunk : CanMessage} {s : Option Reassembly}
    {r : Reassembly} (h : (Pair.advance setup alloc s chunk).reassembly = some r) :
    Pair.advance setup alloc s chunk = Pair.finish r := by
  unfold Pair.advance at h ⊢
  split_ifs at h ⊢
  · exact (Pair.first_eq_finish h).1
  · exact (Pair.next_eq_finish h).1

/-- A first chunk that is not refused announces its reassembly. -/
theorem Pair.first_announced {alloc : Alloc} {chunk : CanMessage} {r : Reassembly}
    (hfirst : canidGetIsFirst chunk.id = true) (hpair : pairOf chunk.id = p)
    (haccepts : setup.accepts chunk.id = true)
    (h : (Pair.first setup alloc chunk).reassembly = some r) :
    Announced setup p chunk [] r := by
  obtain ⟨-, rfl, hfrom, hto, hid, hrefuse⟩ := Pair.first_eq_finish h
  subst hpair
  exact ⟨hfirst, fun c hc => absurd hc List.not_mem_nil, rfl, haccepts, rfl, hid, rfl, rfl,
    hfrom, hto, rfl, rfl, rfl, Setup.le_of_not_refuses hrefuse, by simp [Pair.header]⟩

/-- A chunk that follows is part of what was announced. -/
theorem Announced.next {H chunk : CanMessage} {post : List CanMessage} {r : Reassembly}
    (h : Announced setup p H post r) (hfirst : canidGetIsFirst chunk.id = false) :
    Announced setup p H (post ++ [chunk]) { r with data := r.data ++ chunk.bytes } := by
  refine ⟨h.isFirst, fun c hc => ?_, h.pair, h.accepts, h.messageId, h.messageId_ne,
    h.addressFrom, h.addressTo, h.validFrom, h.validTo, h.priorityInverted, h.expectedLength,
    h.expectedCrc, h.limit, by simp [h.data]⟩
  rcases List.mem_append.mp hc with hpost | hnew
  · exact h.later c hpost
  · rw [List.mem_singleton.mp hnew]
    exact hfirst

/-- **A chunk of the pair keeps what is in progress as announced.** -/
theorem Pair.advance_announced {alloc : Alloc} {chunk : CanMessage} {s : Option Reassembly}
    {r : Reassembly} (hs : ∀ r, s = some r → AnnouncedIn setup p chunks r)
    (hpair : pairOf chunk.id = p) (haccepts : setup.accepts chunk.id = true)
    (h : (Pair.advance setup alloc s chunk).reassembly = some r) :
    AnnouncedIn setup p (chunks ++ [chunk]) r := by
  unfold Pair.advance at h
  cases hfirst : canidGetIsFirst chunk.id with
  | true =>
    rw [hfirst, if_pos rfl] at h
    exact ⟨chunks, chunk, [], rfl, Pair.first_announced hfirst hpair haccepts h⟩
  | false =>
    rw [hfirst, if_neg (by simp)] at h
    obtain ⟨-, r₀, hr₀, -, rfl⟩ := Pair.next_eq_finish h
    obtain ⟨pre, H, post, hchunks, hann⟩ := hs r₀ hr₀
    exact ⟨pre, H, post ++ [chunk], by rw [hchunks]; simp, hann.next hfirst⟩

/-- A call that gets past the checks and finds a slot. -/
theorem Pair.step_of_takes {room : Bool} {s : Option Reassembly} {call : Call}
    (htakes : setup.takes call.chunk = true) (hroom : room = true) :
    Pair.step setup room s call =
      match Pair.advance setup call.alloc s call.chunk with
      | .refused result => (none, result, none)
      | .kept r result => (some r, result, none)
      | .complete r => (none, Pair.deliver call r) := by
  rw [Setup.takes, Bool.and_eq_true, decide_eq_true_eq] at htakes
  rw [hroom]
  exact Pair.step_of_accepts htakes.1 htakes.2

/-- A call that finds no slot. -/
theorem Pair.step_of_not_room (setup : Setup) (s : Option Reassembly) (call : Call) :
    (Pair.step setup false s call).1 = s ∧ (Pair.step setup false s call).2.2 = none ∧
      (Pair.step setup false s call).2.1 ≠ .addingChunkWrongCrc := by
  unfold Pair.step
  split_ifs <;> simp_all

theorem Pair.step_ignored (room : Bool) (s : Option Reassembly) {call : Call}
    (htakes : setup.takes call.chunk = false) :
    (Pair.step setup room s call).1 = s ∧ (Pair.step setup room s call).2.2 = none ∧
      (Pair.step setup room s call).2.1 ≠ .addingChunkWrongCrc := by
  have hsame : Pair.step setup room s call = Pair.step setup false s call :=
    (Pair.step_of_not_takes htakes room).trans (Pair.step_of_not_takes htakes false).symm
  rw [hsame]
  exact Pair.step_of_not_room _ _ _

theorem Pair.deliver_spec {call : Call} {r : Reassembly} :
    (∀ m, (Pair.deliver call r).2 = some m → m = r.msg) ∧
      (Pair.deliver call r).1 ≠ .addingChunkWrongCrc := by
  unfold Pair.deliver
  cases call.api with
  | addChunk outMsg =>
    cases outMsg with
    | true => dsimp only; split_ifs <;> simp [eq_comm]
    | false => simp
  | addChunkView outMsg outComplete => dsimp only; split_ifs <;> simp [eq_comm]

/-- A message that is delivered is a complete reassembly. -/
theorem Pair.step_eq_message {room : Bool} {s : Option Reassembly} {call : Call} {m : Msg}
    (h : (Pair.step setup room s call).2.2 = some m) :
    setup.takes call.chunk = true ∧ room = true ∧ ∃ r,
      Pair.advance setup call.alloc s call.chunk = .complete r ∧ m = r.msg := by
  cases htakes : setup.takes call.chunk with
  | false =>
    rw [(Pair.step_ignored room s htakes).2.1] at h
    exact absurd h (by simp)
  | true =>
    cases room with
    | false =>
      rw [(Pair.step_of_not_room setup s call).2.1] at h
      exact absurd h (by simp)
    | true =>
      rw [Pair.step_of_takes htakes rfl] at h
      cases hadvance : Pair.advance setup call.alloc s call.chunk with
      | refused result => rw [hadvance] at h; exact absurd h (by simp)
      | kept r result => rw [hadvance] at h; exact absurd h (by simp)
      | complete r =>
        rw [hadvance] at h
        exact ⟨rfl, rfl, r, rfl, Pair.deliver_spec.1 m h⟩

theorem heard_singleton {call : Call} (hpair : pairOf call.chunk.id = p) :
    heard p [call] = if call.chunk.len.toNat ≤ maxLen then [call.chunk] else [] := by
  by_cases hlen : call.chunk.len.toNat ≤ maxLen <;> simp [heard, hpair, hlen]

/-- **One call of the pair**: what is in progress after it is as announced, and what
it delivers is complete. -/
theorem Pair.step_announced {room : Bool} {call : Call} {s : Option Reassembly}
    (hs : ∀ r, s = some r → AnnouncedIn setup p chunks r) (hpair : pairOf call.chunk.id = p)
    (hroom : s ≠ none → room = true) :
    (∀ r, (Pair.step setup room s call).1 = some r →
        AnnouncedIn setup p (chunks ++ heard p [call]) r) ∧
      (∀ m, (Pair.step setup room s call).2.2 = some m → ∃ r,
        AnnouncedIn setup p (chunks ++ heard p [call]) r ∧
          r.data.length = r.expectedLength.toNat ∧
          crc16 r.data r.expectedLength.toNat = r.expectedCrc ∧ m = r.msg) := by
  cases htakes : setup.takes call.chunk with
  | false =>
    obtain ⟨hstate, hmessage, -⟩ := Pair.step_ignored room s htakes
    rw [hstate, hmessage]
    refine ⟨fun r hr => ?_, fun m hm => absurd hm (by simp)⟩
    -- a pair with a message in progress is one the receiver takes chunks of
    obtain ⟨pre, H, post, hchunks, hann⟩ := hs r hr
    have haccepts : setup.accepts call.chunk.id = true :=
      (Setup.accepts_congr (hpair.trans hann.pair.symm)).trans hann.accepts
    have hlen : ¬ call.chunk.len.toNat ≤ maxLen := by simpa [Setup.takes, haccepts] using htakes
    rw [heard_singleton hpair, if_neg hlen, List.append_nil]
    exact ⟨pre, H, post, hchunks, hann⟩
  | true =>
    cases room with
    | false =>
      obtain ⟨hstate, hmessage, -⟩ := Pair.step_of_not_room setup s call
      rw [hstate, hmessage]
      exact ⟨fun r hr => absurd (hroom (by simp [hr])) (by simp), fun m hm => absurd hm (by simp)⟩
    | true =>
      rw [Pair.step_of_takes htakes rfl]
      rw [Setup.takes, Bool.and_eq_true, decide_eq_true_eq] at htakes
      have hstep : ∀ r, (Pair.advance setup call.alloc s call.chunk).reassembly = some r →
          AnnouncedIn setup p (chunks ++ heard p [call]) r := by
        rw [heard_singleton hpair, if_pos htakes.1]
        exact fun r hr => Pair.advance_announced hs hpair htakes.2 hr
      cases hadvance : Pair.advance setup call.alloc s call.chunk with
      | refused result =>
        exact ⟨fun r hr => absurd hr (by simp), fun m hm => absurd hm (by simp)⟩
      | kept r result =>
        refine ⟨fun r' hr => ?_, fun m hm => absurd hm (by simp)⟩
        exact hstep r' (by rw [hadvance]; exact hr)
      | complete r =>
        refine ⟨fun r' hr => absurd hr (by simp), fun m hm => ⟨r, ?_⟩⟩
        have hreassembly : (Pair.advance setup call.alloc s call.chunk).reassembly = some r := by
          rw [hadvance]; rfl
        have hfinish := Pair.advance_eq_finish hreassembly
        obtain ⟨-, hfull, hcrc⟩ := Pair.finish_eq_complete (hfinish.symm.trans hadvance)
        exact ⟨hstep r hreassembly, hfull, hcrc, Pair.deliver_spec.1 m hm⟩

/-! ### After a delivery, and after a wrong checksum -/

theorem Pair.finish_wrongCrc {r : Reassembly} (h : Pair.finish r = .kept r .addingChunkWrongCrc) :
    Spent r := by
  unfold Pair.finish at h
  split_ifs at h with hlen hcrc
  · exact ⟨hlen, hcrc⟩
  · exact absurd h (by simp)

/-- A delivery and a wrong checksum leave nothing a message could come from. -/
theorem Pair.step_spent (setup : Setup) (room : Bool) (call : Call) (s : Option Reassembly)
    (h : (Pair.step setup room s call).2.2 ≠ none ∨
      (Pair.step setup room s call).2.1 = .addingChunkWrongCrc) :
    ∀ r, (Pair.step setup room s call).1 = some r → Spent r := by
  cases htakes : setup.takes call.chunk with
  | false =>
    obtain ⟨-, hmessage, hresult⟩ := Pair.step_ignored room s htakes
    exact absurd h (by simp [hmessage, hresult])
  | true =>
    cases room with
    | false =>
      obtain ⟨-, hmessage, hresult⟩ := Pair.step_of_not_room setup s call
      exact absurd h (by simp [hmessage, hresult])
    | true =>
      rw [Pair.step_of_takes htakes rfl] at h ⊢
      cases hadvance : Pair.advance setup call.alloc s call.chunk with
      | refused result => exact fun r hr => absurd hr (by simp)
      | complete r => exact fun r hr => absurd hr (by simp)
      | kept r result =>
        rw [hadvance] at h
        obtain rfl : result = .addingChunkWrongCrc := by simpa using h
        intro r' hr
        obtain rfl : r = r' := Option.some.inj hr
        have hreassembly : (Pair.advance setup call.alloc s call.chunk).reassembly = some r := by
          rw [hadvance]; rfl
        have hfinish := Pair.advance_eq_finish hreassembly
        exact Pair.finish_wrongCrc (hfinish.symm.trans hadvance)

/-- Without a new header, such a pair delivers nothing. -/
theorem Pair.step_of_spent (setup : Setup) (room : Bool) {call : Call} {s : Option Reassembly}
    (hs : ∀ r, s = some r → Spent r)
    (hno : ¬ (canidGetIsFirst call.chunk.id = true ∧ call.chunk.len.toNat ≤ maxLen)) :
    (∀ r, (Pair.step setup room s call).1 = some r → Spent r) ∧
      (Pair.step setup room s call).2.2 = none := by
  cases htakes : setup.takes call.chunk with
  | false =>
    obtain ⟨hstate, hmessage, -⟩ := Pair.step_ignored room s htakes
    rw [hstate, hmessage]
    exact ⟨hs, rfl⟩
  | true =>
    cases room with
    | false =>
      obtain ⟨hstate, hmessage, -⟩ := Pair.step_of_not_room setup s call
      rw [hstate, hmessage]
      exact ⟨hs, rfl⟩
    | true =>
      rw [Pair.step_of_takes htakes rfl]
      rw [Setup.takes, Bool.and_eq_true, decide_eq_true_eq] at htakes
      have hfirst : ¬ canidGetIsFirst call.chunk.id = true := fun hf => hno ⟨hf, htakes.1⟩
      rw [Pair.advance, if_neg hfirst]
      -- only an empty chunk fits, and it changes nothing
      have hnext : ∀ r, (Pair.next s call.chunk).reassembly = some r → Spent r := by
        intro r hr
        obtain ⟨-, r₀, hr₀, hfits, rfl⟩ := Pair.next_eq_finish hr
        have hspent := hs r₀ hr₀
        have hzero : call.chunk.len.toNat = 0 := by
          have hlen := hspent.1
          omega
        have hnil : call.chunk.bytes = [] := by rw [CanMessage.bytes, hzero, List.take_zero]
        rw [hnil, List.append_nil]
        exact hspent
      cases hprogress : Pair.next s call.chunk with
      | refused result => exact ⟨fun r hr => absurd hr (by simp), rfl⟩
      | kept r result =>
        refine ⟨fun r' hr => ?_, rfl⟩
        exact hnext r' (by rw [hprogress]; exact hr)
      | complete r =>
        have hreassembly : (Pair.next s call.chunk).reassembly = some r := by rw [hprogress]; rfl
        have hfinish := (Pair.next_eq_finish hreassembly).1
        obtain ⟨-, hfull, hcrc⟩ := Pair.finish_eq_complete (hfinish.symm.trans hprogress)
        exact absurd hcrc (hnext r hreassembly).2

end Pair

/-! ### The receiver -/

/-- A pair with a message in progress has a slot. -/
theorem Ctx.room_of_inProgress {ctx : Ctx} (h : Inv ctx) {sig : UInt32}
    (hr : ctx.inProgress sig ≠ none) : ctx.Room sig := by
  obtain ⟨r, hr⟩ := Option.ne_none_iff_exists'.mp hr
  obtain ⟨i, hs, -⟩ := (Ctx.inProgress_eq_some h).mp hr
  exact ⟨i, hs.lt, fun hf => hf.2.2 hs.signature⟩

theorem heard_append (p : UInt16 × UInt16) (calls calls' : List Call) :
    heard p (calls ++ calls') = heard p calls ++ heard p calls' := by
  rw [heard, heard, heard, List.filter_append, List.map_append]

theorem heard_of_ne {p : UInt16 × UInt16} {call : Call} (h : pairOf call.chunk.id ≠ p) :
    heard p [call] = [] := by
  simp [heard, h]

/-- The pair of a call makes its step. -/
theorem receiver_step_own {ctx : Ctx} (h : Inv ctx) {canId : UInt32} {call : Call}
    (hpair : pairOf call.chunk.id = pairOf canId) :
    ((receiver.step ctx call).1.inProgress (channelSig canId), (receiver.step ctx call).2.result,
        (receiver.step ctx call).2.message) =
      Pair.step ctx.setup (decide (ctx.Room (channelSig canId)))
        (ctx.inProgress (channelSig canId)) call := by
  rw [← (channelSig_eq_iff _ _).mpr hpair]
  exact (receiver_step_spec h call).own

theorem receiver_step_other {ctx : Ctx} (h : Inv ctx) {canId : UInt32} {call : Call}
    (hpair : pairOf call.chunk.id ≠ pairOf canId) :
    (receiver.step ctx call).1.inProgress (channelSig canId) =
      ctx.inProgress (channelSig canId) := by
  refine (receiver_step_spec h call).other _ fun he => hpair ?_
  exact ((channelSig_eq_iff _ _).mp he).symm

/-- **The messages in progress are as announced**, after any calls. -/
theorem receiver_heard {ctx : Ctx} (h : ctx.Initial) (calls : List Call) :
    Inv (receiver.final ctx calls) ∧ (receiver.final ctx calls).setup = ctx.setup ∧
      ∀ canId r, (receiver.final ctx calls).inProgress (channelSig canId) = some r →
        AnnouncedIn ctx.setup (pairOf canId) (heard (pairOf canId) calls) r := by
  refine receiver.final_history (P := fun calls c => Inv c ∧ c.setup = ctx.setup ∧
    ∀ canId r, c.inProgress (channelSig canId) = some r →
      AnnouncedIn ctx.setup (pairOf canId) (heard (pairOf canId) calls) r) ?_ ?_ calls
  · exact ⟨h.inv, rfl, fun canId r hr => absurd hr (by simp [h.inProgress])⟩
  · rintro calls c call ⟨hinv, hsetup, hann⟩
    refine ⟨hinv.step call, (receiver_step_spec hinv call).setup.trans hsetup,
      fun canId r hr => ?_⟩
    rw [heard_append]
    by_cases hpair : pairOf call.chunk.id = pairOf canId
    · have hown := receiver_step_own hinv hpair
      rw [hsetup] at hown
      refine (Pair.step_announced (hann canId) hpair (fun hne => decide_eq_true
        (Ctx.room_of_inProgress hinv hne))).1 r ?_
      rw [← hown]
      exact hr
    · rw [heard_of_ne hpair, List.append_nil]
      rw [receiver_step_other hinv hpair] at hr
      exact hann canId r hr

/-- A message that is delivered is a complete reassembly that was announced. -/
theorem receiver_message_announced {ctx : Ctx} (h : ctx.Initial) (calls : List Call) (call : Call)
    {m : Msg} (hm : (receiver.step (receiver.final ctx calls) call).2.message = some m) :
    ∃ r, AnnouncedIn ctx.setup (pairOf call.chunk.id)
        (heard (pairOf call.chunk.id) (calls ++ [call])) r ∧
      r.data.length = r.expectedLength.toNat ∧
      crc16 r.data r.expectedLength.toNat = r.expectedCrc ∧ m = r.msg := by
  obtain ⟨hinv, hsetup, hann⟩ := receiver_heard h calls
  have hown := receiver_step_own hinv (rfl : pairOf call.chunk.id = pairOf call.chunk.id)
  rw [hsetup] at hown
  rw [heard_append]
  exact (Pair.step_announced (hann call.chunk.id) rfl (fun hne => decide_eq_true
    (Ctx.room_of_inProgress hinv hne))).2 m (by rw [← hown]; exact hm)

/-- As long as there is no new header, a pair without a message in progress, or with
one that has a wrong checksum, delivers nothing. -/
theorem receiver_spent {ctx : Ctx} (h : Inv ctx) {canId : UInt32}
    (hs : ∀ r, ctx.inProgress (channelSig canId) = some r → Spent r) (calls : List Call)
    (hno : ∀ call ∈ calls, ¬ (pairOf call.chunk.id = pairOf canId ∧
      canidGetIsFirst call.chunk.id = true ∧ call.chunk.len.toNat ≤ maxLen)) :
    ∀ r, (receiver.final ctx calls).inProgress (channelSig canId) = some r → Spent r := by
  have hrun := receiver.final_of_step (P := fun c => Inv c ∧
    ∀ r, c.inProgress (channelSig canId) = some r → Spent r) calls ⟨h, hs⟩ ?_
  · exact hrun.2
  · rintro c call hmem ⟨hinv, hspent⟩
    refine ⟨hinv.step call, ?_⟩
    by_cases hpair : pairOf call.chunk.id = pairOf canId
    · have hown := receiver_step_own hinv hpair
      have hstep := (Pair.step_of_spent c.setup
        (decide (c.Room (channelSig canId))) hspent
        fun hfirst => hno call hmem ⟨hpair, hfirst⟩).1
      rw [← hown] at hstep
      exact hstep
    · rw [receiver_step_other hinv hpair]
      exact hspent

/-- **Soundness of delivered messages.**  After any calls to a context that was set
up: when a call delivers a message, the last header of its pair announced it, the
chunks since then are its data, and the checksum is right.  And between a delivery
or a wrong checksum and the next delivery of the pair, there is a new header. -/
theorem receiver_sound {ctx : Ctx} (h : ctx.Initial) (calls : List Call) (call : Call) :
    (∀ m, (receiver.step (receiver.final ctx calls) call).2.message = some m →
      ∃ pre H post, heard (pairOf call.chunk.id) (calls ++ [call]) = pre ++ H :: post ∧
        canidGetIsFirst H.id = true ∧ (∀ c ∈ post, canidGetIsFirst c.id = false) ∧
        m.addressFrom = canidGetFrom call.chunk.id ∧ addressValid m.addressFrom = true ∧
        m.addressTo = canidGetTo call.chunk.id ∧ addressValid m.addressTo = true ∧
        m.priorityInverted = canidGetPriorityInverted H.id ∧
        m.messageId = headerWord H 0 ∧ m.messageId ≠ errorId ∧
        m.length = headerWord H 2 ∧ (ctx.setup.Limited → m.length ≤ ctx.maxPayload) ∧
        m.data.getD [] = H.bytes.drop headerSize ++ post.flatMap CanMessage.bytes ∧
        (m.data.getD []).length = m.length.toNat ∧
        crc16 (m.data.getD []) m.length.toNat = headerWord H 4) ∧
    (∀ (later : List Call) (call' : Call), pairOf call'.chunk.id = pairOf call.chunk.id →
      ((receiver.step (receiver.final ctx calls) call).2.message ≠ none ∨
        (receiver.step (receiver.final ctx calls) call).2.result = .addingChunkWrongCrc) →
      (receiver.step (receiver.final ctx (calls ++ call :: later)) call').2.message ≠ none →
        ∃ c ∈ later ++ [call'], pairOf c.chunk.id = pairOf call.chunk.id ∧
          canidGetIsFirst c.chunk.id = true ∧ c.chunk.len.toNat ≤ maxLen) := by
  obtain ⟨hinv, -, -⟩ := receiver_heard h calls
  have hown := receiver_step_own hinv (rfl : pairOf call.chunk.id = pairOf call.chunk.id)
  refine ⟨fun m hm => ?_, fun later call' hpair hfirst hdeliver => ?_⟩
  · obtain ⟨r, ⟨pre, H, post, hchunks, ha⟩, hfull, hcrc, rfl⟩ :=
      receiver_message_announced h calls call hm
    have hdata : r.msg.data.getD [] = r.data := by
      unfold Reassembly.msg
      by_cases h0 : r.expectedLength = 0
      · have hnil : r.data = [] := List.eq_nil_of_length_eq_zero (by rw [hfull, h0]; rfl)
        simp [h0, hnil]
      · simp [h0]
    refine ⟨pre, H, post, hchunks, ha.isFirst, ha.later,
      ha.addressFrom, ?_, ha.addressTo, ?_, ha.priorityInverted, ha.messageId, ?_,
      ha.expectedLength, ?_, hdata.trans ha.data, by rw [hdata]; exact hfull, ?_⟩
    · have hvalid := ha.validFrom
      rw [← ha.addressFrom] at hvalid
      exact hvalid
    · have hvalid := ha.validTo
      rw [← ha.addressTo] at hvalid
      exact hvalid
    · have hne := ha.messageId_ne
      rw [← ha.messageId] at hne
      exact hne
    · have hlimit := ha.limit
      rw [← ha.expectedLength] at hlimit
      exact hlimit
    · rw [hdata, ← ha.expectedCrc]
      exact hcrc
  · -- without a header nothing could be delivered
    by_contra hno
    have hno' : ∀ c ∈ later ++ [call'], ¬ (pairOf c.chunk.id = pairOf call.chunk.id ∧
        canidGetIsFirst c.chunk.id = true ∧ c.chunk.len.toNat ≤ maxLen) :=
      fun c hc hheader => hno ⟨c, hc, hheader⟩
    have hspent : ∀ r, (receiver.step (receiver.final ctx calls) call).1.inProgress
        (channelSig call.chunk.id) = some r → Spent r := by
      have hstep := Pair.step_spent (receiver.final ctx calls).setup
        (decide ((receiver.final ctx calls).Room (channelSig call.chunk.id))) call
        ((receiver.final ctx calls).inProgress (channelSig call.chunk.id))
        (by rw [← hown]; exact hfirst)
      rw [← hown] at hstep
      exact hstep
    have hlater := receiver_spent (hinv.step call) hspent later fun c hc =>
      hno' c (List.mem_append_left _ hc)
    rw [receiver.final_append, receiver.final_cons] at hdeliver
    have hinv' := (hinv.step call).final later
    have hlast := (Pair.step_of_spent
      (receiver.final (receiver.step (receiver.final ctx calls) call).1 later).setup
      (decide ((receiver.final (receiver.step (receiver.final ctx calls) call).1 later).Room
        (channelSig call.chunk.id))) hlater
      fun hheader => hno' call' (by simp) ⟨hpair, hheader⟩).2
    rw [← receiver_step_own hinv' hpair] at hlast
    exact hdeliver hlast

/-- Calls with the first two chunks of a message of three.  In between are the chunks of another
sender, those of a third one, who finds no slot, and a header with the identifier of errors. -/
def mixedCalls : List Call :=
  [longCall 1 5 0, longCall 3 6 0, longCall 4 7 0, longCall 3 6 1, longCall 1 5 1, longCall 4 7 1,
    longCall 3 6 2, ⟨.addChunk true, chunkAt (longMsg 4 errorId) 6 0, .ample⟩]

/-- The message of the first sender goes back to its header, and no chunk of the others is
in it. -/
theorem receiver_sound_monitor :
    (receiver.outputs Ctx.monitor mixedCalls).map Reply.result =
        [.ok, .ok, .addingChunkCantAllocateNewMsg, .ok, .ok, .addingChunkCantAllocateNewMsg, .ok,
          .addingChunkReceivedErrorId] ∧
      ∃ pre H post, heard (1, 2) (mixedCalls ++ [longCall 1 5 2]) = pre ++ H :: post ∧
        canidGetIsFirst H.id = true ∧ (∀ c ∈ post, canidGetIsFirst c.id = false) ∧
        (5 : UInt16) = headerWord H 0 ∧
        [1, 2, 3, 4, 5, 6, 7, 8, 9, 10] =
          H.bytes.drop headerSize ++ post.flatMap CanMessage.bytes := by
  refine ⟨by decide, ?_⟩
  obtain ⟨pre, H, post, hchunks, hfirst, hlater, -, -, -, -, -, hid, -, -, -, hdata, -⟩ :=
    (receiver_sound Ctx.monitor_initial mixedCalls (longCall 1 5 2)).1 (longMsg 1 5) (by decide)
  exact ⟨pre, H, post, hchunks, hfirst, hlater, hid, hdata⟩

end Protoplexer
end UniCan
