import UniCan.Imp.Session

/-!
# What a call does to a device

A call of a context moves at most one of its sessions.  The calls are listed here
like the cases of a session, and the invariant of a context follows: its sessions
keep their invariant, and no copy leaves its buffer.

## Main definitions

* `Heading` — what the identifier of a frame says.
* `Ctx.Ok` — the invariant of a context.
* `Handles` — a session handles a frame.
* `Ctx.Does` — what a call does to a context.

## Main results

* `startSend_spec`, `addFrame_spec`, `process_spec`, `device_step_does` — **what the calls
  do.**
* `device_invariant` — **the invariant holds in every run**, whatever the allocator
  does, and the accesses of every call are in bounds.
-/

namespace UniCan
namespace Imp

/-! ### The table -/

namespace Ctx

variable {ctx : Ctx} {i j : ℕ} {s : Session}

@[simp] theorem setSession_ownAddress : (ctx.setSession i s).ownAddress = ctx.ownAddress := rfl

@[simp] theorem setSession_maxMessageSize :
    (ctx.setSession i s).maxMessageSize = ctx.maxMessageSize := rfl

@[simp] theorem setSession_messageValidator :
    (ctx.setSession i s).messageValidator = ctx.messageValidator := rfl

@[simp] theorem length_setSession : (ctx.setSession i s).sessions.length = ctx.sessions.length :=
  List.length_set

theorem session_setSession (hi : i < ctx.sessions.length) :
    (ctx.setSession i s).session j = if j = i then s else ctx.session j := by
  unfold session setSession
  simp only
  rw [List.getD_eq_getElem?_getD, List.getElem?_set, List.getD_eq_getElem?_getD]
  split_ifs with h1 h2 h3
  · rfl
  · exact absurd h1.symm h2
  · exact absurd h3.symm h1
  · rfl

theorem setSession_session : ctx.setSession i (ctx.session i) = ctx := by
  have hset : ctx.sessions.set i (ctx.sessions.getD i {}) = ctx.sessions := by
    by_cases hi : i < ctx.sessions.length
    · rw [List.getD_eq_getElem _ _ hi, List.set_getElem_self]
    · exact List.set_eq_of_length_le (Nat.le_of_not_lt hi)
  unfold setSession session
  rw [hset]

/-- The invariant of a context. -/
structure Ok (ctx : Ctx) : Prop where
  ownAddress : ctx.ownAddress.toNat < 31
  length_sessions : ctx.sessions.length = ctx.maxSessions.toNat
  sessions : ∀ i, (ctx.session i).Ok ctx.ownAddress ctx.maxMessageSize

theorem Ok.setSession (h : ctx.Ok) (hi : i < ctx.sessions.length)
    (hs : s.Ok ctx.ownAddress ctx.maxMessageSize) : (ctx.setSession i s).Ok where
  ownAddress := h.ownAddress
  length_sessions := length_setSession.trans h.length_sessions
  sessions j := by
    rw [session_setSession hi]
    split_ifs
    · exact hs
    · exact h.sessions j

end Ctx

section Find

variable {ctx : Ctx} {i : ℕ} {p : Session → Bool}

theorem Ctx.getElem_sessions (ctx : Ctx) (hi : i < ctx.sessions.length) :
    ctx.sessions[i] = ctx.session i :=
  (List.getD_eq_getElem _ _ hi).symm

theorem Ctx.session_of_getElem? {s : Session} (h : ctx.sessions[i]? = some s) :
    ctx.session i = s := by
  rw [Ctx.session, List.getD_eq_getElem?_getD, h]
  rfl

theorem Ctx.session_mem (hi : i < ctx.sessions.length) : ctx.session i ∈ ctx.sessions := by
  rw [← ctx.getElem_sessions hi]
  exact List.getElem_mem hi

/-- A session that is found in the table. -/
theorem Ctx.findIdx?_eq_some (h : ctx.sessions.findIdx? p = some i) :
    i < ctx.sessions.length ∧ p (ctx.session i) = true := by
  rw [List.findIdx?_eq_some_iff_getElem] at h
  obtain ⟨hi, hp, -⟩ := h
  refine ⟨hi, ?_⟩
  rw [← ctx.getElem_sessions hi]
  exact hp

/-- No session is found. -/
theorem Ctx.findIdx?_eq_none (h : ctx.sessions.findIdx? p = none) (hi : i < ctx.sessions.length) :
    p (ctx.session i) = false := by
  rw [List.findIdx?_eq_none_iff] at h
  exact h _ (Ctx.session_mem hi)

end Find

/-- Session `i` is in use for a transfer. -/
structure Ctx.Serves (ctx : Ctx) (i : ℕ) (peerAddress localAddress sessionId : UInt8) : Prop where
  lt : i < ctx.sessions.length
  live : (ctx.session i).state ≠ .free
  peerAddress : (ctx.session i).peerAddress = peerAddress
  localAddress : (ctx.session i).localAddress = localAddress
  sessionId : (ctx.session i).sessionId = sessionId

section FindSession

variable {ctx : Ctx} {i : ℕ} {peerAddress localAddress sessionId : UInt8}

theorem findSession_eq_some (h : findSession ctx peerAddress localAddress sessionId = some i) :
    ctx.Serves i peerAddress localAddress sessionId := by
  obtain ⟨hi, hp⟩ := Ctx.findIdx?_eq_some h
  simp only [Bool.and_eq_true, bne_iff_ne, ne_eq, beq_iff_eq] at hp
  exact ⟨hi, hp.1.1.1, hp.1.1.2, hp.1.2, hp.2⟩

theorem findSession_eq_none (h : findSession ctx peerAddress localAddress sessionId = none) :
    ¬ ctx.Serves i peerAddress localAddress sessionId := by
  intro hs
  have hp := Ctx.findIdx?_eq_none h hs.lt
  simp [hs.live, hs.peerAddress, hs.localAddress, hs.sessionId] at hp

theorem findFreeSession_eq_some (h : findFreeSession ctx peerAddress = some i) :
    i < ctx.sessions.length ∧ (ctx.session i).state = .free ∧
      sessionAccepts (ctx.session i) peerAddress = true := by
  obtain ⟨hi, hp⟩ := Ctx.findIdx?_eq_some h
  simp only [Bool.and_eq_true, beq_iff_eq] at hp
  exact ⟨hi, hp.1, hp.2⟩

end FindSession

/-! ### Sending -/

/-- The session of a transfer that was started. -/
structure Started (ctx : Ctx) (i : ℕ) (msg : Msg) (sessionId : UInt8) (s : Session) : Prop where
  addressMask : s.addressMask = (ctx.session i).addressMask
  peerAddress : s.peerAddress = msg.addressTo
  localAddress : s.localAddress = ctx.ownAddress
  sessionId : s.sessionId = sessionId
  mode : s.mode = if msg.addressTo = deviceIdAll then .withoutAck else msg.mode
  state : s.state = if s.mode = .withoutAck then .txWithoutAck else .txWaitStartAck
  payloadOffset : s.payloadOffset = 0
  payloadSize : s.payloadSize = msg.length
  data : s.data = msg.bytes
  ok : s.Ok ctx.ownAddress ctx.maxMessageSize

/-- The payload is copied, or there is no memory for it. -/
theorem sessionCopyPayload_spec (env : Env) (session : Session) {output : Output}
    {data : List UInt8} {length : UInt16} (hpayload : session.payload = none)
    (hsize : session.payloadSize = 0) (hcapacity : session.payloadCapacity = 0)
    (hdata : length.toNat ≤ data.length) (hsafe : output.Safe) :
    (sessionCopyPayload env session output data length).2.1.Safe ∧
      (sessionCopyPayload env session output data length).2.1.frame = output.frame ∧
      (sessionCopyPayload env session output data length).2.1.receivedMessage =
        output.receivedMessage ∧
      (sessionCopyPayload env session output data length).2.1.event = output.event ∧
      ((sessionCopyPayload env session output data length).2.2 = .cantAllocate ∧
          (sessionCopyPayload env session output data length).1 = session ∨
        (sessionCopyPayload env session output data length).2.2 = .ok ∧
          ∃ payload, (sessionCopyPayload env session output data length).1 =
              { session with
                payload := payload, payloadSize := length, payloadCapacity := length } ∧
            payload.getD [] = data.take length.toNat) := by
  unfold sessionCopyPayload
  by_cases hzero : length = 0
  · subst hzero
    rw [if_pos rfl]
    refine ⟨hsafe, rfl, rfl, rfl, .inr ⟨rfl, none, ?_, rfl⟩⟩
    cases session
    simp_all
  rw [if_neg hzero]
  cases env.payload with
  | none => exact ⟨hsafe, rfl, rfl, rfl, .inl ⟨rfl, rfl⟩⟩
  | some fresh =>
    have hlen : ((List.range length.toNat).map fresh).length = length.toNat := by simp
    refine ⟨hsafe.copy (by simp [Copy.Inside]), rfl, rfl, rfl, .inr ⟨rfl, _, rfl, ?_⟩⟩
    -- the copy fills the whole block
    have htake : (data.take length.toNat).length = length.toNat := by
      rw [List.length_take]
      omega
    have hin : 0 + 0 + (data.take length.toNat).length ≤
        ((List.range length.toNat).map fresh).length := by
      rw [hlen, htake, Nat.zero_add]
    have hwrite := readAt_writeAt_append hin
    rw [htake, Nat.zero_add, readAt_zero, List.nil_append, readAt, List.drop_zero,
      List.take_of_length_le] at hwrite
    · exact hwrite
    · rw [length_writeAt (by rw [hlen, htake, Nat.zero_add]), hlen]
      omega

theorem toNat_startSessionId (ctx : Ctx) (addressTo : UInt8) {u : ℕ} (hu : u < 8) :
    (startSessionId ctx addressTo u).toNat =
      2 * u + if ctx.ownAddress > addressTo then 1 else 0 := by
  have hodd : ∀ u : Fin 8, ((UInt8.ofNat u <<< 1) ||| 1).toNat = 2 * u.val + 1 := by decide
  have heven : ∀ u : Fin 8, ((UInt8.ofNat u <<< 1) ||| 0).toNat = 2 * u.val + 0 := by decide
  unfold startSessionId
  split_ifs
  · exact hodd ⟨u, hu⟩
  · exact heven ⟨u, hu⟩

/-- A transfer that was just started keeps the invariant. -/
theorem Session.ok_started {own : UInt8} {limit : UInt16} {session : Session} {msg : Msg}
    {payload : Option (List UInt8)} {u : ℕ} (haccepts : sessionAccepts session msg.addressTo = true)
    (hpeer : session.peerAddress = msg.addressTo) (hlocal : session.localAddress = own)
    (hid : session.sessionId.toNat = 2 * u + if own > msg.addressTo then 1 else 0) (hu : u < 8)
    (hmode : msg.addressTo = deviceIdAll → session.mode = .withoutAck)
    (hoffset : session.payloadOffset = 0)
    (hto : addressValid msg.addressTo = true) (hown : msg.addressTo ≠ own)
    (hlen : msg.length ≤ limit) (hpayload : (payload.getD []).length = msg.length.toNat) :
    Session.Ok own limit { session with
      payload := payload
      payloadSize := msg.length
      payloadCapacity := msg.length
      state := if session.mode = .withoutAck then .txWithoutAck else .txWaitStartAck } := by
  have hstate : ∀ state : SessionState,
      (if session.mode = .withoutAck then SessionState.txWithoutAck else .txWaitStartAck) = state →
        state = .txWithoutAck ∨ state = .txWaitStartAck := by
    intro state h
    split_ifs at h
    · exact .inl h.symm
    · exact .inr h.symm
  refine ⟨fun h => ?_, fun _ => by rw [hpeer]; exact haccepts, ?_, ?_, hpayload, UInt16.le_refl _,
    hlen, fun h => ?_,
    fun _ => ⟨hlocal, by rw [hpeer]; exact hown, ⟨u, hu, by rw [hpeer]; exact hid⟩,
      rfl, ?_, ?_, fun h => ?_, fun _ => hoffset, fun h => ?_⟩⟩
  · rcases hstate _ h with h | h <;> exact absurd h (by simp)
  · rw [hpeer]
    exact (addressValid_iff _).mp hto
  · rw [hid]
    split_ifs <;> omega
  · rcases hstate _ h with h | h <;> exact absurd h (by simp)
  · rw [hoffset, UInt16.le_iff_toNat_le]
    exact Nat.zero_le _
  · simp only
    split_ifs with h <;> simp [h]
  · rw [hpeer] at h
    exact if_pos (hmode h)
  · rcases hstate _ h with h | h <;> exact absurd h (by simp)

/-- The transfer in its session: it is started, or the session stays free. -/
theorem startSession_spec {ctx : Ctx} (h : ctx.Ok) (env : Env) {i u : ℕ} {msg : Msg}
    (nowMs : UInt32) (hto : addressValid msg.addressTo = true)
    (hown : msg.addressTo ≠ ctx.ownAddress) (hlen : msg.length ≤ ctx.maxMessageSize)
    (hdata : msg.length.toNat ≤ (msg.data.getD []).length)
    (hfree : (ctx.session i).state = .free)
    (haccepts : sessionAccepts (ctx.session i) msg.addressTo = true) (hu : u < 8) :
    ∃ r, startSession ctx env (ctx.session i) (startSessionId ctx msg.addressTo u) msg nowMs {} =
        r ∧
      r.2.1.Safe ∧ r.2.1.event = .none ∧ r.2.1.receivedMessage = none ∧
      (r.2.2 = .cantAllocate ∧ r.1 = ctx.session i ∧ r.2.1.frame = none ∨
        r.2.2 = .ok ∧ r.1.lastActivityMs = nowMs ∧
          Started ctx i msg (startSessionId ctx msg.addressTo u) r.1 ∧
          r.2.1.frame = some (frameTo ctx.ownAddress msg.addressTo
            (startSessionId ctx msg.addressTo u)
            (if r.1.mode = .withoutAck then .startWa else .start) []) ∧
          r.2.1.peerAddress = msg.addressTo ∧
          r.2.1.sessionId = startSessionId ctx msg.addressTo u) := by
  refine ⟨_, rfl, ?_⟩
  set session : Session := {
    addressMask := (ctx.session i).addressMask
    peerAddress := msg.addressTo
    localAddress := ctx.ownAddress
    sessionId := startSessionId ctx msg.addressTo u
    mode := if msg.addressTo = deviceIdAll then .withoutAck else msg.mode
    lastActivityMs := nowMs } with hsession
  obtain ⟨hsafe, hframe, hmessage, hevent, hcopy⟩ := sessionCopyPayload_spec env session
    rfl rfl rfl hdata Output.safe_empty
  unfold startSession
  simp only
  rw [← hsession]
  rcases hcopy with ⟨hres, hsame⟩ | ⟨hres, payload, hnew, hpayload⟩
  · rw [if_pos (by rw [hres]; simp), hres, hsame]
    refine ⟨hsafe, hevent, hmessage, .inl ⟨rfl, ?_, hframe⟩⟩
    exact ((h.sessions i).free hfree).symm
  · rw [if_neg (by rw [hres]; simp), hnew]
    have hbytes : payload.getD [] = msg.bytes := hpayload
    have hlength : msg.bytes.length = msg.length.toNat := by
      rw [Msg.bytes, List.length_take]
      omega
    refine ⟨⟨hsafe.copies, hsafe.words⟩, hevent, hmessage, .inr ⟨rfl, rfl, ?_,
      answer_frame ctx (sessionCopyPayload env session {} (msg.data.getD []) msg.length).2.1 _ _,
      rfl, rfl⟩⟩
    refine ⟨rfl, rfl, rfl, rfl, rfl, rfl, rfl, rfl, ?_, ?_⟩
    · rw [Session.data, hbytes]
      exact List.take_of_length_le (Nat.le_of_eq hlength)
    · exact Session.ok_started haccepts rfl rfl (toNat_startSessionId ctx _ hu) hu
        (fun h => if_pos h) rfl hto hown hlen (by rw [hbytes]; exact hlength)

/-- What a call says when it does not move a session. -/
structure Output.Quiet (output : Output) : Prop where
  safe : output.Safe
  event : output.event = .none
  message : output.receivedMessage = none

theorem Output.quiet_empty : Output.Quiet {} := ⟨Output.safe_empty, rfl, rfl⟩

/-- All of a message can be read. -/
theorem Msg.Readable.length_le {msg : Msg} (h : msg.Readable)
    (hdata : msg.length > 0 → msg.data ≠ none) :
    msg.length.toNat ≤ (msg.data.getD []).length := by
  cases hsome : msg.data with
  | some data => exact h data hsome
  | none =>
    have h0 : ¬ msg.length > 0 := fun hpos => hdata hpos hsome
    rw [gt_iff_lt, UInt16.lt_iff_toNat_lt] at h0
    exact Nat.le_of_not_lt h0

/-- What `startSend` does when it starts a transfer: it gets the first id that is not
in use for its address. -/
structure StartSend (ctx : Ctx) (msg : Msg) (i : ℕ) (u : ℕ) (s : Session) (output : Output) :
    Prop extends Started ctx i msg (startSessionId ctx msg.addressTo u) s where
  addressFrom : msg.addressFrom = ctx.ownAddress
  known : msg.mode ≠ .other
  valid : addressValid msg.addressTo = true
  other : msg.addressTo ≠ ctx.ownAddress
  readable : msg.length.toNat ≤ (msg.data.getD []).length
  lt : i < ctx.sessions.length
  free : (ctx.session i).state = .free
  u_lt : u < 8
  reserved : reservedIds ctx msg.addressTo u = false
  frame : output.frame = some (frameTo ctx.ownAddress msg.addressTo
    (startSessionId ctx msg.addressTo u) (if s.mode = .withoutAck then .startWa else .start) [])
  outPeer : output.peerAddress = msg.addressTo
  outId : output.sessionId = startSessionId ctx msg.addressTo u

theorem StartSend.sessionId_lt {ctx : Ctx} {msg : Msg} {i u : ℕ} {s : Session} {output : Output}
    (hs : StartSend ctx msg i u s output) : (startSessionId ctx msg.addressTo u).toNat < 16 :=
  hs.sessionId ▸ hs.ok.sessionId

theorem StartSend.addressTo_lt {ctx : Ctx} {msg : Msg} {i u : ℕ} {s : Session} {output : Output}
    (hs : StartSend ctx msg i u s output) : msg.addressTo.toNat < 32 :=
  (addressValid_iff _).mp hs.valid

/-- **Sending**: a transfer is started in a free session, or nothing happens. -/
theorem startSend_spec {ctx : Ctx} (h : ctx.Ok) {msg : Msg} (readable : msg.Readable)
    (nowMs : UInt32) (env : Env) :
    ∃ r, startSend ctx env msg nowMs = r ∧ r.2.1.Quiet ∧
      (r.1 = ctx ∧ r.2.1.frame = none ∧ r.2.2 ≠ .ok ∨
        r.2.2 = .ok ∧ ∃ i u s, r.1 = ctx.setSession i s ∧ StartSend ctx msg i u s r.2.1 ∧
          s.lastActivityMs = nowMs) := by
  refine ⟨_, rfl, ?_⟩
  unfold startSend
  by_cases hmode : msg.mode = .other
  · rw [if_pos hmode]
    exact ⟨Output.quiet_empty, .inl ⟨rfl, rfl, by simp⟩⟩
  rw [if_neg hmode]
  by_cases hbad : (msg.addressFrom != ctx.ownAddress || !addressValid msg.addressTo ||
      msg.addressTo == ctx.ownAddress || decide (msg.length > ctx.maxMessageSize) ||
      (decide (msg.length > 0) && msg.data.isNone)) = true
  · rw [if_pos hbad]
    refine ⟨Output.quiet_empty, .inl ⟨rfl, rfl, ?_⟩⟩
    simp only
    split_ifs <;> simp
  rw [if_neg hbad]
  simp only [Bool.or_eq_true, bne_iff_ne, ne_eq, Bool.not_eq_true', beq_iff_eq, decide_eq_true_eq,
    Bool.and_eq_true, not_or, not_not, Bool.not_eq_false, not_and] at hbad
  obtain ⟨⟨⟨⟨hfrom, hto⟩, hown⟩, hlen⟩, hdata⟩ := hbad
  have hread : msg.length.toNat ≤ (msg.data.getD []).length :=
    readable.length_le fun hpos hnone => hdata hpos (by rw [hnone]; rfl)
  cases hfind : findFreeSession ctx msg.addressTo with
  | none => exact ⟨Output.quiet_empty, .inl ⟨rfl, rfl, by simp⟩⟩
  | some i =>
    obtain ⟨hi, hfree, haccepts⟩ := findFreeSession_eq_some hfind
    cases hunique : (List.range 8).find? fun u => !reservedIds ctx msg.addressTo u with
    | none => exact ⟨Output.quiet_empty, .inl ⟨rfl, rfl, by simp⟩⟩
    | some u =>
      have hu : u < 8 := List.mem_range.mp (List.mem_of_find?_eq_some hunique)
      have hreserved : reservedIds ctx msg.addressTo u = false := by
        simpa using List.find?_some hunique
      obtain ⟨r, hr, hsafe, hevent, hmessage, hcase⟩ := startSession_spec h env nowMs hto hown
        (UInt16.not_lt.mp hlen) hread hfree haccepts hu
      simp only [hr]
      refine ⟨⟨hsafe, hevent, hmessage⟩, ?_⟩
      rcases hcase with ⟨hres, hsame, hframe⟩ | ⟨hres, hnow, hstarted, hframe, hpeer, hid⟩
      · refine .inl ⟨?_, hframe, by rw [hres]; simp⟩
        rw [hsame]
        exact Ctx.setSession_session
      · exact .inr ⟨hres, i, u, r.1, rfl, ⟨hstarted, hfrom, hmode, hto, hown, hread, hi, hfree, hu,
          hreserved, hframe, hpeer, hid⟩, hnow⟩

/-! ### Receiving -/

/-- What the identifier of a frame says. -/
structure Heading where
  addressFrom : UInt8
  addressTo : UInt8
  sessionId : UInt8
  command : Cmd

/-- The heading of a frame that gets past the checks of `addFrame`. -/
def heading (ownAddress : UInt8) (frame : CanMessage) : Option Heading :=
  if frame.len.toNat > maxLen then none
  else if (canidGetTo frame.id != ownAddress && canidGetTo frame.id != deviceIdAll) ||
      !sourceAddressValid (canidGetFrom frame.id) then none
  else
    match Cmd.ofCode? (canidGetCommand frame.id) with
    | none => none
    | some command =>
        if canidGetTo frame.id == deviceIdAll && !command.withoutAck then none
        else some ⟨canidGetFrom frame.id, canidGetTo frame.id, canidGetSessionId frame.id, command⟩

/-- What a frame that gets past the checks is. -/
theorem heading_eq_some {ownAddress : UInt8} {frame : CanMessage} {h : Heading}
    (hh : heading ownAddress frame = some h) :
    frame.len.toNat ≤ maxLen ∧ h.addressFrom = canidGetFrom frame.id ∧
      h.addressTo = canidGetTo frame.id ∧ h.sessionId = canidGetSessionId frame.id ∧
      Cmd.ofCode? (canidGetCommand frame.id) = some h.command ∧ h.addressFrom.toNat < 31 ∧
      h.sessionId.toNat < 16 ∧
      (h.addressTo = ownAddress ∨ h.addressTo = deviceIdAll) ∧
      (h.addressTo = deviceIdAll → h.command.withoutAck = true) := by
  unfold heading at hh
  split_ifs at hh with hlen haddress
  cases hcmd : Cmd.ofCode? (canidGetCommand frame.id) with
  | none => rw [hcmd] at hh; exact absurd hh (by simp)
  | some command =>
    rw [hcmd] at hh
    simp only at hh
    split_ifs at hh with hall
    obtain rfl := Option.some.inj hh
    simp only [Bool.or_eq_true, Bool.and_eq_true, bne_iff_ne, ne_eq, Bool.not_eq_true', not_or,
      not_and, not_not, Bool.not_eq_false] at haddress
    simp only [Bool.and_eq_true, beq_iff_eq, Bool.not_eq_true', not_and, Bool.not_eq_false] at hall
    refine ⟨Nat.le_of_not_lt hlen, rfl, rfl, rfl, rfl, (sourceAddressValid_iff _).mp haddress.2, ?_,
      ?_, hall⟩
    · rw [toNat_canidGetSessionId]
      exact Nat.mod_lt _ (by decide)
    · by_cases hown : canidGetTo frame.id = ownAddress
      · exact .inl hown
      · exact .inr (haddress.1 hown)

/-- **A frame that does not get past the checks is ignored**; another one is a command
for a session. -/
theorem addFrame_eq (ctx : Ctx) (env : Env) (frame : CanMessage) (nowMs : UInt32) :
    match heading ctx.ownAddress frame with
    | none => ∃ res, addFrame ctx env frame nowMs = (ctx, {}, res)
    | some h => addFrame ctx env frame nowMs =
        addCommand ctx env frame h.addressFrom h.addressTo h.sessionId h.command nowMs := by
  unfold heading addFrame
  by_cases hlen : frame.len.toNat > maxLen
  · simp only [if_pos hlen]
    exact ⟨_, rfl⟩
  simp only [if_neg hlen]
  by_cases haddress : ((canidGetTo frame.id != ctx.ownAddress && canidGetTo frame.id != deviceIdAll)
      || !sourceAddressValid (canidGetFrom frame.id)) = true
  · simp only [if_pos haddress]
    exact ⟨_, rfl⟩
  simp only [if_neg haddress]
  cases hcmd : Cmd.ofCode? (canidGetCommand frame.id) with
  | none => exact ⟨_, rfl⟩
  | some command =>
    simp only
    by_cases hall : (canidGetTo frame.id == deviceIdAll && !command.withoutAck) = true
    · simp only [if_pos hall]
      exact ⟨_, rfl⟩
    · simp only [if_neg hall]

/-- Session `i` handles a frame: it is `s`, found for the frame or opened by it, and
it becomes `s'`. -/
structure Handles (ctx : Ctx) (h : Heading) (bytes : List UInt8) (nowMs : UInt32) (i : ℕ)
    (s s' : Session) (reply : Option (Cmd × List UInt8)) (kind : Event) (received : Option Msg) :
    Prop where
  found : frameSession ctx h.addressFrom h.addressTo h.sessionId h.command nowMs = some (i, s)
  moves : sessionIsTx s = true ∧ received = none ∧ TxCase s nowMs h.command s' reply kind ∨
    s.state = .rx ∧ RxCase ctx s bytes nowMs h.command s' reply kind received

/-- The session a START opens keeps the invariant. -/
theorem Session.ok_open {own : UInt8} {limit : UInt16} {session : Session} {h : Heading}
    {nowMs : UInt32} (haccepts : sessionAccepts session h.addressFrom = true)
    (hfrom : h.addressFrom.toNat < 31) (hid : h.sessionId.toNat < 16)
    (hto : h.addressTo = own ∨ h.addressTo = deviceIdAll) :
    Session.Ok own limit
      (openSession session h.addressFrom h.addressTo h.sessionId h.command nowMs) where
  free h := absurd h (by simp [openSession])
  accepts _ := haccepts
  peerAddress := Nat.lt_succ_of_lt hfrom
  sessionId := hid
  buffer := rfl
  size_le := UInt16.le_refl 0
  capacity_le := by
    rw [UInt16.le_iff_toNat_le]
    exact Nat.zero_le _
  rx _ := hto
  tx h := absurd h (by simp [openSession, sessionIsTx])

/-- The session a frame is for: it has the addresses and the id of the frame. -/
structure FrameSession (ctx : Ctx) (h : Heading) (nowMs : UInt32) (i : ℕ) (s : Session) : Prop where
  lt : i < ctx.sessions.length
  live : s.state ≠ .free
  addressMask : s.addressMask = (ctx.session i).addressMask
  peerAddress : s.peerAddress = h.addressFrom
  localAddress : s.localAddress = h.addressTo
  sessionId : s.sessionId = h.sessionId
  origin : s = ctx.session i ∨
    (ctx.session i).state = .free ∧ (h.command = .start ∨ h.command = .startWa) ∧
      (∀ j, ¬ ctx.Serves j h.addressFrom h.addressTo h.sessionId) ∧
      sessionAccepts (ctx.session i) h.addressFrom = true ∧
      s = openSession (ctx.session i) h.addressFrom h.addressTo h.sessionId h.command nowMs

theorem frameSession_eq_some {ctx : Ctx} {h : Heading} {nowMs : UInt32} {i : ℕ} {s : Session}
    (hs : frameSession ctx h.addressFrom h.addressTo h.sessionId h.command nowMs = some (i, s)) :
    FrameSession ctx h nowMs i s := by
  unfold frameSession at hs
  cases hfind : findSession ctx h.addressFrom h.addressTo h.sessionId with
  | some j =>
    rw [hfind] at hs
    obtain ⟨rfl, rfl⟩ := Prod.mk.inj (Option.some.inj hs)
    have hserves := findSession_eq_some hfind
    exact ⟨hserves.lt, hserves.live, rfl, hserves.peerAddress, hserves.localAddress,
      hserves.sessionId, .inl rfl⟩
  | none =>
    rw [hfind] at hs
    simp only at hs
    split_ifs at hs with hcommand
    obtain ⟨j, hfree, heq⟩ := Option.map_eq_some_iff.mp hs
    obtain ⟨rfl, rfl⟩ := Prod.mk.inj heq
    obtain ⟨hlt, hstate, haccepts⟩ := findFreeSession_eq_some hfree
    exact ⟨hlt, by simp [openSession], rfl, rfl, rfl, rfl,
      .inr ⟨hstate, by simpa using hcommand, fun k => findSession_eq_none hfind, haccepts, rfl⟩⟩

theorem FrameSession.ok {ctx : Ctx} {h : Heading} {nowMs : UInt32} {i : ℕ} {s : Session}
    (hs : FrameSession ctx h nowMs i s) (hctx : ctx.Ok) (hfrom : h.addressFrom.toNat < 31)
    (hid : h.sessionId.toNat < 16)
    (hto : h.addressTo = ctx.ownAddress ∨ h.addressTo = deviceIdAll) :
    s.Ok ctx.ownAddress ctx.maxMessageSize := by
  rcases hs.origin with rfl | ⟨-, -, -, haccepts, rfl⟩
  · exact hctx.sessions i
  · exact Session.ok_open haccepts hfrom hid hto

/-- A session that sends was there before the frame. -/
theorem FrameSession.eq_of_isTx {ctx : Ctx} {h : Heading} {nowMs : UInt32} {i : ℕ} {s : Session}
    (hs : FrameSession ctx h nowMs i s) (htx : sessionIsTx s = true) : s = ctx.session i := by
  rcases hs.origin with hs | ⟨-, -, -, -, rfl⟩
  · exact hs
  · exact absurd htx (by simp [sessionIsTx, openSession])

/-- **Receiving**: a session handles the frame, and the others stay; or there is no
session for it, and its sender may be told so. -/
theorem addFrame_spec {ctx : Ctx} (hctx : ctx.Ok) (frame : CanMessage) (nowMs : UInt32)
    (env : Env) :
    ∃ r, addFrame ctx env frame nowMs = r ∧
      (heading ctx.ownAddress frame = none ∧ r.1 = ctx ∧ r.2.1 = {} ∨
        ∃ h, heading ctx.ownAddress frame = some h ∧
          (frameSession ctx h.addressFrom h.addressTo h.sessionId h.command nowMs = none ∧
              r.1 = ctx ∧ r.2.1.Quiet ∧ r.2.1.frame =
                (if h.command.withoutAck = true then none else
                  some (frameTo ctx.ownAddress h.addressFrom h.sessionId .abortWa [])) ∨
            ∃ i s s' reply kind received,
              Handles ctx h frame.bytes nowMs i s s' reply kind received ∧
                s'.Ok ctx.ownAddress ctx.maxMessageSize ∧
                r.1 = ctx.setSession i s' ∧
                Reacts ctx.ownAddress s (s', r.2.1) s' reply kind received)) := by
  refine ⟨_, rfl, ?_⟩
  have heq := addFrame_eq ctx env frame nowMs
  cases hh : heading ctx.ownAddress frame with
  | none =>
    rw [hh] at heq
    obtain ⟨res, hres⟩ := heq
    rw [hres]
    exact .inl ⟨rfl, rfl, rfl⟩
  | some h =>
    rw [hh] at heq
    obtain ⟨hlen, -, -, -, -, hfrom, hid, hto, -⟩ := heading_eq_some hh
    refine .inr ⟨h, rfl, ?_⟩
    simp only at heq
    rw [heq, addCommand]
    cases hs : frameSession ctx h.addressFrom h.addressTo h.sessionId h.command nowMs with
    | none =>
      refine .inl ⟨rfl, rfl, ?_⟩
      simp only
      split_ifs
      · exact ⟨Output.quiet_empty, rfl⟩
      · exact ⟨⟨answer_safe ctx { peerAddress := h.addressFrom, sessionId := h.sessionId } .abortWa
          Output.safe_empty, rfl, rfl⟩,
          answer_frame ctx {} { peerAddress := h.addressFrom, sessionId := h.sessionId } .abortWa⟩
    | some p =>
      obtain ⟨i, s⟩ := p
      right
      have hsession := frameSession_eq_some hs
      have hok := hsession.ok hctx hfrom hid hto
      simp only
      by_cases htx : sessionIsTx s = true
      · simp only [htx, if_true]
        obtain ⟨s', reply, kind, hcase, hreacts⟩ := handleTxFrame_spec hok htx h.command nowMs
        have hstate := hreacts.session
        simp only at hstate
        refine ⟨i, s, s', reply, kind, none, ⟨hs, .inl ⟨htx, rfl, hcase⟩⟩, hcase.ok hok htx, ?_, ?_⟩
        · rw [hstate]
        · rw [← hstate] at hreacts ⊢
          exact hreacts
      · have hrx : s.state = .rx := by
          rw [Session.isTx_iff, not_and_or, not_not, not_not] at htx
          exact htx.resolve_left hsession.live
        simp only [htx, Bool.false_eq_true, if_false]
        obtain ⟨s', reply, kind, received, hcase, hreacts⟩ :=
          handleRxFrame_spec hok hlen env h.command nowMs
        have hstate := hreacts.session
        simp only at hstate
        refine ⟨i, s, s', reply, kind, received, ⟨hs, .inr ⟨hrx, hcase⟩⟩, hcase.ok hok hrx, ?_, ?_⟩
        · rw [hstate]
        · rw [← hstate] at hreacts ⊢
          exact hreacts

/-! ### Processing -/

/-- **Processing**: the first session that has waited too long is released; if there is
none, the first transfer without acknowledgement sends its next frame. -/
theorem process_spec {ctx : Ctx} (h : ctx.Ok) (nowMs : UInt32) :
    ∃ r, process ctx nowMs = r ∧ r.2.2 = .ok ∧
      (r.1 = ctx ∧ r.2.1 = {} ∨
        ∃ i s' reply kind, i < ctx.sessions.length ∧
          (timedOut ctx nowMs (ctx.session i) = true ∧
              s' = sessionRelease (ctx.session i) ∧ reply = none ∧
              kind = (if (ctx.session i).state = .rx then .rxTimeout else .txTimeout) ∨
            (ctx.session i).state = .txWithoutAck ∧
              ∃ frame, reply = some frame ∧ EmitCase (ctx.session i) s' frame kind) ∧
          s'.Ok ctx.ownAddress ctx.maxMessageSize ∧ r.1 = ctx.setSession i s' ∧
          Reacts ctx.ownAddress (ctx.session i) (s', r.2.1) s' reply kind none) := by
  refine ⟨_, rfl, ?_⟩
  unfold process
  cases htime : ctx.sessions.findIdx? (timedOut ctx nowMs) with
  | some i =>
    obtain ⟨hi, htimed⟩ := Ctx.findIdx?_eq_some htime
    exact ⟨rfl, .inr ⟨i, _, none, _, hi, .inl ⟨htimed, rfl, rfl, rfl⟩, Session.ok_release, rfl,
      Reacts.ended rfl rfl Output.safe_empty⟩⟩
  | none =>
    cases hemit : ctx.sessions.findIdx? fun session => session.state == .txWithoutAck with
    | none => exact ⟨rfl, .inl ⟨rfl, rfl⟩⟩
    | some i =>
      obtain ⟨hi, hstate⟩ := Ctx.findIdx?_eq_some hemit
      have hstate' : (ctx.session i).state = .txWithoutAck := by simpa using hstate
      obtain ⟨s', frame, kind, hcase, hreacts⟩ := processSession_spec (h.sessions i) hstate'
      have hsession := hreacts.session
      refine ⟨rfl, .inr ⟨i, s', some frame, kind, hi, .inr ⟨hstate', frame, rfl, hcase⟩,
        hcase.ok (h.sessions i) hstate', ?_, ?_⟩⟩
      · simp only
        rw [hsession]
      · rw [← hsession] at hreacts ⊢
        exact hreacts

/-! ### Every call -/

/-- What a call does to a context, and what it puts out. -/
inductive Ctx.Does (ctx : Ctx) : Call → Ctx → Output → Prop
  /-- No session moves; the sender of a frame for no session may be told so. -/
  | nothing {call : Call} {output : Output} (hquiet : output.Quiet)
      (hframe : ∀ frame ∈ output.frame, ∃ addressTo sessionId : UInt8, addressTo.toNat < 31 ∧
        sessionId.toNat < 16 ∧ frame = frameTo ctx.ownAddress addressTo sessionId .abortWa []) :
      ctx.Does call ctx output
  /-- A transfer is started in a free session. -/
  | started {msg : Msg} {readable : msg.Readable} {nowMs : UInt32} {env : Env} {i u : ℕ}
      {s : Session} {output : Output} (hquiet : output.Quiet) (hs : StartSend ctx msg i u s output)
      (hnow : s.lastActivityMs = nowMs) :
      ctx.Does (.startSend msg readable nowMs env) (ctx.setSession i s) output
  /-- A session handles a frame. -/
  | handled {frame : CanMessage} {nowMs : UInt32} {env : Env} {hd : Heading} {i : ℕ}
      {s s' : Session} {reply : Option (Cmd × List UInt8)} {kind : Event} {received : Option Msg}
      {output : Output} (hheading : heading ctx.ownAddress frame = some hd)
      (hhandles : Handles ctx hd frame.bytes nowMs i s s' reply kind received)
      (hok : s'.Ok ctx.ownAddress ctx.maxMessageSize)
      (hreacts : Reacts ctx.ownAddress s (s', output) s' reply kind received) :
      ctx.Does (.addFrame frame nowMs env) (ctx.setSession i s') output
  /-- A session has waited too long. -/
  | expired {nowMs : UInt32} {i : ℕ} {output : Output} (hi : i < ctx.sessions.length)
      (htimed : timedOut ctx nowMs (ctx.session i) = true)
      (hreacts : Reacts ctx.ownAddress (ctx.session i) (sessionRelease (ctx.session i), output)
        (sessionRelease (ctx.session i)) none
        (if (ctx.session i).state = .rx then .rxTimeout else .txTimeout) none) :
      ctx.Does (.process nowMs) (ctx.setSession i (sessionRelease (ctx.session i))) output
  /-- A transfer without acknowledgement goes on. -/
  | emitted {nowMs : UInt32} {i : ℕ} {s' : Session} {frame : Cmd × List UInt8} {kind : Event}
      {output : Output} (hi : i < ctx.sessions.length)
      (hstate : (ctx.session i).state = .txWithoutAck)
      (hemit : EmitCase (ctx.session i) s' frame kind)
      (hok : s'.Ok ctx.ownAddress ctx.maxMessageSize)
      (hreacts : Reacts ctx.ownAddress (ctx.session i) (s', output) s' (some frame) kind none) :
      ctx.Does (.process nowMs) (ctx.setSession i s') output

/-- **What every call does.** -/
theorem device_step_does {ctx : Ctx} (h : ctx.Ok) (call : Call) :
    ∃ ctx' output result, device.step ctx call = (ctx', output, result) ∧
      ctx.Does call ctx' output := by
  refine ⟨_, _, _, rfl, ?_⟩
  cases call with
  | startSend msg readable nowMs env =>
    obtain ⟨q, hq, hquiet, hcase⟩ := startSend_spec h readable nowMs env
    simp only [hq]
    rcases hcase with ⟨hsame, hframe, -⟩ | ⟨-, i, u, s, hset, hs, hnow⟩
    · rw [hsame]
      exact .nothing hquiet (by simp [hframe])
    · rw [hset]
      exact .started hquiet hs hnow
  | addFrame frame nowMs env =>
    obtain ⟨q, hq, hcase⟩ := addFrame_spec h frame nowMs env
    simp only [hq]
    rcases hcase with ⟨-, hsame, hout⟩ | ⟨hd, hheading, ⟨-, hsame, hquiet, hframe⟩ |
      ⟨i, s, s', reply, kind, received, hhandles, hok, hset, hreacts⟩⟩
    · rw [hsame, hout]
      exact .nothing Output.quiet_empty (by simp)
    · obtain ⟨-, -, -, -, -, hfrom, hid, -⟩ := heading_eq_some hheading
      rw [hsame]
      refine .nothing hquiet fun f hf => ⟨_, _, hfrom, hid, ?_⟩
      rw [hframe] at hf
      split_ifs at hf
      · exact absurd hf (by simp)
      · exact (Option.some.inj hf).symm
    · rw [hset]
      exact .handled hheading hhandles hok hreacts
  | process nowMs =>
    obtain ⟨q, hq, -, hcase⟩ := process_spec h nowMs
    simp only [hq]
    rcases hcase with ⟨hsame, hout⟩ | ⟨i, s', reply, kind, hi, hcase, hok, hset, hreacts⟩
    · rw [hsame, hout]
      exact .nothing Output.quiet_empty (by simp)
    · rw [hset]
      rcases hcase with ⟨htimed, rfl, rfl, rfl⟩ | ⟨hstate, frame, rfl, hemit⟩
      · exact .expired hi htimed hreacts
      · exact .emitted hi hstate hemit hok hreacts

section Mask

variable {ctx : Ctx} {s s' : Session} {nowMs : UInt32} {bytes : List UInt8} {command : Cmd}
  {reply : Option (Cmd × List UInt8)} {kind : Event} {received : Option Msg}

/-- The peers a session accepts do not change. -/
theorem TxCase.addressMask (h : TxCase s nowMs command s' reply kind) :
    s'.addressMask = s.addressMask := by
  cases h <;> rfl

theorem RxCase.addressMask (h : RxCase ctx s bytes nowMs command s' reply kind received) :
    s'.addressMask = s.addressMask := by
  cases h <;> rfl

theorem EmitCase.addressMask {frame : Cmd × List UInt8} (h : EmitCase s s' frame kind) :
    s'.addressMask = s.addressMask := by
  cases h <;> rfl

end Mask

/-- One session moves, or none. -/
structure Ctx.Moves (ctx ctx' : Ctx) : Prop where
  ok : ctx'.Ok
  ownAddress : ctx'.ownAddress = ctx.ownAddress
  maxSessions : ctx'.maxSessions = ctx.maxSessions
  maxMessageSize : ctx'.maxMessageSize = ctx.maxMessageSize
  messageValidator : ctx'.messageValidator = ctx.messageValidator
  addressMasks : ctx'.sessions.map Session.addressMask = ctx.sessions.map Session.addressMask

theorem Ctx.Moves.refl {ctx : Ctx} (h : ctx.Ok) : ctx.Moves ctx := ⟨h, rfl, rfl, rfl, rfl, rfl⟩

theorem Ctx.Moves.setSession {ctx : Ctx} (h : ctx.Ok) {i : ℕ} {s : Session}
    (hi : i < ctx.sessions.length) (hs : s.Ok ctx.ownAddress ctx.maxMessageSize)
    (hmask : s.addressMask = (ctx.session i).addressMask) : ctx.Moves (ctx.setSession i s) where
  ok := h.setSession hi hs
  ownAddress := rfl
  maxSessions := rfl
  maxMessageSize := rfl
  messageValidator := rfl
  addressMasks := by
    rw [Ctx.setSession, List.map_set, hmask, ← ctx.getElem_sessions hi, ← List.map_set,
      List.set_getElem_self]

/-- Every call moves at most one session, and its accesses are in bounds. -/
theorem device_step_moves {ctx : Ctx} (h : ctx.Ok) (call : Call) :
    ctx.Moves (device.step ctx call).1 ∧ (device.step ctx call).2.1.Safe := by
  obtain ⟨ctx', output, result, hstep, hdoes⟩ := device_step_does h call
  rw [hstep]
  cases hdoes with
  | nothing hquiet => exact ⟨Ctx.Moves.refl h, hquiet.safe⟩
  | started hquiet hs => exact ⟨Ctx.Moves.setSession h hs.lt hs.ok hs.addressMask, hquiet.safe⟩
  | handled _ hhandles hok hreacts =>
    have hsession := frameSession_eq_some hhandles.found
    refine ⟨Ctx.Moves.setSession h hsession.lt hok ?_, hreacts.safe⟩
    rw [← hsession.addressMask]
    rcases hhandles.moves with ⟨-, -, htx⟩ | ⟨-, hrx⟩
    · exact htx.addressMask
    · exact hrx.addressMask
  | expired hi _ hreacts => exact ⟨Ctx.Moves.setSession h hi Session.ok_release rfl, hreacts.safe⟩
  | emitted hi _ hemit hok hreacts =>
    exact ⟨Ctx.Moves.setSession h hi hok hemit.addressMask, hreacts.safe⟩

/-! ### Runs -/

/-- A context that was just set up satisfies the invariant. -/
theorem Ctx.Initial.ok {ctx : Ctx} (h : ctx.Initial) : ctx.Ok := by
  obtain ⟨calloc, cfg, hinit⟩ := h
  unfold init at hinit
  by_cases hown : sourceAddressValid cfg.ownAddress = true
  · cases calloc with
    | false => simp [hown] at hinit
    | true =>
      rw [hown, Bool.not_true] at hinit
      simp only [Bool.false_eq_true, if_false] at hinit
      obtain rfl := Option.some.inj hinit
      refine ⟨(sourceAddressValid_iff _).mp hown, by simp, fun i => ?_⟩
      rw [Ctx.session, List.getD_eq_getElem?_getD, List.getElem?_map]
      cases (List.range _)[i]? with
      | none => exact Session.ok_free _ _ 0
      | some j => exact Session.ok_free _ _ _
  · simp [hown] at hinit

theorem Ctx.Moves.trans {ctx ctx' ctx'' : Ctx} (h : ctx.Moves ctx') (h' : ctx'.Moves ctx'') :
    ctx.Moves ctx'' where
  ok := h'.ok
  ownAddress := h'.ownAddress.trans h.ownAddress
  maxSessions := h'.maxSessions.trans h.maxSessions
  maxMessageSize := h'.maxMessageSize.trans h.maxMessageSize
  messageValidator := h'.messageValidator.trans h.messageValidator
  addressMasks := h'.addressMasks.trans h.addressMasks

/-- Every run keeps the invariant. -/
theorem Ctx.Moves.final {ctx : Ctx} (h : ctx.Ok) (calls : List Call) :
    ctx.Moves (device.final ctx calls) :=
  device.final_of_step (P := ctx.Moves) calls (Ctx.Moves.refl h) fun _ call _ hmoves =>
    hmoves.trans (device_step_moves hmoves.ok call).1

theorem Ctx.Initial.reachable {ctx : Ctx} (h : ctx.Initial) : ctx.Reachable := ⟨ctx, h, [], rfl⟩

theorem Ctx.Reachable.ok {ctx : Ctx} (h : ctx.Reachable) : ctx.Ok := by
  obtain ⟨ctx₀, h₀, calls, rfl⟩ := h
  exact (Ctx.Moves.final h₀.ok calls).ok

/-- **The invariant of the table of sessions** holds in every run, whatever the
allocator, the validator and the frames are; the number of sessions and the peers they
accept do not change; and the next call, whatever it is, stays inside the payloads and
stores no number that does not fit. -/
theorem device_invariant {ctx₀ : Ctx} (h : ctx₀.Initial) (calls : List Call) (call : Call) :
    ctx₀.Moves (device.final ctx₀ calls) ∧
      (device.step (device.final ctx₀ calls) call).2.1.Safe :=
  have hmoves := Ctx.Moves.final h.ok calls
  ⟨hmoves, (device_step_moves hmoves.ok call).2⟩

/-- A configuration for two sessions and messages of up to 16 bytes. -/
def smallConfig (address : UInt8) (messageValidator : Bool) : Config where
  ownAddress := address
  maxSessions := 2
  maxMessageSize := 16
  sessionTimeoutMs := 100
  sessionAddressMasks := none
  messageValidator := messageValidator

/-- The context that is set up with it. -/
def smallDevice (address : UInt8) (messageValidator : Bool) : Ctx where
  ownAddress := address
  maxSessions := 2
  maxMessageSize := 16
  sessionTimeoutMs := 100
  messageValidator := messageValidator
  sessions := [{ addressMask := 0xFFFFFFFF }, { addressMask := 0xFFFFFFFF }]

theorem smallDevice_initial {address : UInt8} (h : sourceAddressValid address = true)
    (messageValidator : Bool) : (smallDevice address messageValidator).Initial := by
  refine ⟨true, smallConfig address messageValidator, ?_⟩
  rw [init, smallConfig, h]
  rfl

/-- After a START of a peer, and while its data comes in. -/
theorem device_invariant_smallDevice :
    (smallDevice 1 false).Moves (device.final (smallDevice 1 false)
        [.addFrame (frameTo 2 1 1 .start []) 0 .ample]) ∧
      (device.step (device.final (smallDevice 1 false)
        [.addFrame (frameTo 2 1 1 .start []) 0 .ample])
          (.addFrame (frameTo 2 1 1 .data [7, 8, 9]) 0 .ample)).2.1.Safe :=
  device_invariant (smallDevice_initial (by decide) false) _ _

/-- Two devices that talk to each other. -/
inductive Side
  | a
  | b
  deriving DecidableEq, Repr

/-- The other device. -/
def Side.other : Side → Side
  | .a => .b
  | .b => .a

/-- Device 1 and device 2, just set up. -/
def smallNode (messageValidator : Bool) : Side → Ctx
  | .a => smallDevice 1 messageValidator
  | .b => smallDevice 2 messageValidator

theorem smallNode_initial (messageValidator : Bool) (side : Side) :
    (smallNode messageValidator side).Initial := by
  cases side
  · exact smallDevice_initial (show sourceAddressValid 1 = true by decide) messageValidator
  · exact smallDevice_initial (show sourceAddressValid 2 = true by decide) messageValidator

end Imp
end UniCan
