import UniCan.Imp.Integrity

/-!
# What the end of a transfer means

A device reports that an acknowledged transfer is finished when it gets the ACK for its
END.  An ACK does not say what it acknowledges, so this means that the message has
arrived only if every ACK is for the frame that the sender waits for.  It is, as long as
an id is not given away again while frames of an earlier transfer with this id are on
their way: then a transfer has one token, which is the frame that has to be acknowledged
and after that its acknowledgement.

## Main definitions

* `traffic`, `answers` — the commands of a transfer on their way to the receiver, and
  the answers on their way back.
* `Token` — where the token of a transfer is.
* `NetAction.Fresh` — an id is not given away too early.

## Main results

* `transfer_agreement` — **a transfer that is finished has been reported** by the other
  device, as it was started.
-/

namespace UniCan
namespace Imp

/-! ### Commands on their way -/

/-- The commands that a sender sends for a transfer. -/
def Cmd.sends : Cmd → Bool
  | .start | .startWa | .data | .dataWa | .end_ | .endWa => true
  | .ack | .nack | .abortWa => false

/-- The commands that answer them. -/
def Cmd.answers : Cmd → Bool
  | .ack | .nack => true
  | _ => false

/-- The commands to an address with an id, among some frames. -/
def commands (frames : List CanMessage) (key : UInt8 × UInt8) : List Cmd :=
  frames.filterMap fun frame =>
    if (canidGetTo frame.id, canidGetSessionId frame.id) = key then
      Cmd.ofCode? (canidGetCommand frame.id)
    else none

/-- The commands of a transfer that are on their way to its receiver. -/
def traffic (frames : List CanMessage) (key : UInt8 × UInt8) : List Cmd :=
  (commands frames key).filter Cmd.sends

/-- The answers that are on their way to the sender of a transfer. -/
def answers (frames : List CanMessage) (key : UInt8 × UInt8) : List Cmd :=
  (commands frames key).filter Cmd.answers

section Commands

variable {frames frames' : List CanMessage} {key : UInt8 × UInt8}
  {own addressTo sessionId : UInt8} {command : Cmd} {bytes : List UInt8}

@[simp] theorem traffic_append (frames frames' : List CanMessage) :
    traffic (frames ++ frames') key = traffic frames key ++ traffic frames' key := by
  rw [traffic, commands, List.filterMap_append, List.filter_append]
  rfl

@[simp] theorem answers_append (frames frames' : List CanMessage) :
    answers (frames ++ frames') key = answers frames key ++ answers frames' key := by
  rw [answers, commands, List.filterMap_append, List.filter_append]
  rfl

theorem commands_frameTo (own : UInt8) (command : Cmd) (bytes : List UInt8)
    (hto : addressTo.toNat < 32) (hid : sessionId.toNat < 16) :
    commands [frameTo own addressTo sessionId command bytes] key =
      if (addressTo, sessionId) = key then [command] else [] := by
  rw [commands, List.filterMap_cons, frameTo, canidGetTo_canidCreate _ _ _ _ hto,
    canidGetSessionId_canidCreate _ _ _ _ hid, canidGetCommand_canidCreate, Cmd.ofCode?_code]
  split_ifs <;> rfl

theorem traffic_frameTo (own : UInt8) (command : Cmd) (bytes : List UInt8)
    (hto : addressTo.toNat < 32) (hid : sessionId.toNat < 16) :
    traffic [frameTo own addressTo sessionId command bytes] key =
      if (addressTo, sessionId) = key ∧ command.sends = true then [command] else [] := by
  rw [traffic, commands_frameTo _ _ _ hto hid]
  split_ifs with hkey hboth hboth
  · rw [List.filter_cons, if_pos hboth.2, List.filter_nil]
  · rw [List.filter_cons, if_neg fun hsends => hboth ⟨hkey, hsends⟩, List.filter_nil]
  · exact absurd hboth.1 hkey
  · rfl

theorem answers_frameTo (own : UInt8) (command : Cmd) (bytes : List UInt8)
    (hto : addressTo.toNat < 32) (hid : sessionId.toNat < 16) :
    answers [frameTo own addressTo sessionId command bytes] key =
      if (addressTo, sessionId) = key ∧ command.answers = true then [command] else [] := by
  rw [answers, commands_frameTo _ _ _ hto hid]
  split_ifs with hkey hboth hboth
  · rw [List.filter_cons, if_pos hboth.2, List.filter_nil]
  · rw [List.filter_cons, if_neg fun hanswers => hboth ⟨hkey, hanswers⟩, List.filter_nil]
  · exact absurd hboth.1 hkey
  · rfl

/-- The answer to a frame that is turned away is of no transfer, and no acknowledgement. -/
theorem traffic_abort (hto : addressTo.toNat < 32) (hid : sessionId.toNat < 16) :
    traffic (if command.withoutAck = true then none else
      some (frameTo own addressTo sessionId .abortWa [])).toList key = [] := by
  split_ifs
  · rfl
  · rw [Option.toList_some, traffic_frameTo _ _ _ hto hid, if_neg fun h => absurd h.2 (by decide)]

theorem answers_abort (hto : addressTo.toNat < 32) (hid : sessionId.toNat < 16) :
    answers (if command.withoutAck = true then none else
      some (frameTo own addressTo sessionId .abortWa [])).toList key = [] := by
  split_ifs
  · rfl
  · rw [Option.toList_some, answers_frameTo _ _ _ hto hid, if_neg fun h => absurd h.2 (by decide)]

/-- Frames that are not of a transfer mean nothing for it. -/
theorem ne_of_traffic_eq_nil (h : traffic frames key = []) : ∀ p ∈ marks frames, p.1 ≠ key := by
  rintro p hp rfl
  obtain ⟨frame, hframe, hmark⟩ := List.mem_filterMap.mp hp
  obtain ⟨command, hcommand, hmap⟩ := Option.bind_eq_some_iff.mp hmark
  obtain ⟨mark, hmark, rfl⟩ := Option.map_eq_some_iff.mp hmap
  have hmem : command ∈ traffic frames (canidGetTo frame.id, canidGetSessionId frame.id) := by
    refine List.mem_filter.mpr ⟨List.mem_filterMap.mpr ⟨frame, hframe, ?_⟩, ?_⟩
    · rw [if_pos rfl, hcommand]
    · cases command <;> first | rfl | cases hmark
  rw [h] at hmem
  exact absurd hmem (by simp)

/-- They leave what is read of it alone. -/
theorem current_append_of_traffic (h : traffic frames' key = []) :
    (scan (marks (frames ++ frames'))).current key = (scan (marks frames)).current key := by
  rw [marks_append]
  exact scan_append_of_ne (ne_of_traffic_eq_nil h)

end Commands

/-! ### The token of a transfer -/

/-- A session waits for an acknowledgement. -/
def Session.Waits (s : Session) : Prop :=
  s.state = .txWaitStartAck ∨ s.state = .txWaitDataAck ∨ s.state = .txWaitEndAck

/-- A session that is free, that receives or that streams does not wait. -/
theorem Session.not_waits {s : Session}
    (h : s.state = .free ∨ s.state = .rx ∨ s.state = .txWithoutAck) : ¬ s.Waits := by
  rcases h with h | h | h <;> simp [Session.Waits, h]

/-- Where the token of a transfer is, whose session is in a state that waits: there are
frames without acknowledgement of an earlier transfer on their way, and behind them the
frame that has to be acknowledged; or its acknowledgement is on its way back; or both are
lost.  When the END has been acknowledged, the transfer is done. -/
inductive Token (state : SessionState) (done : Prop) : List Cmd → List Cmd → Prop
  | lost {w : List Cmd} (hw : ∀ c ∈ w, c.withoutAck = true) : Token state done w []
  | sent {w : List Cmd} {c : Cmd} (hw : ∀ c ∈ w, c.withoutAck = true)
      (hc : c.withoutAck = false) (hend : c = .end_ ↔ state = .txWaitEndAck) :
      Token state done (w ++ [c]) []
  | acked {w : List Cmd} (hw : ∀ c ∈ w, c.withoutAck = true)
      (hdone : state = .txWaitEndAck → done) : Token state done w [.ack]
  | rejected {w : List Cmd} (hw : ∀ c ∈ w, c.withoutAck = true)
      (hend : state = .txWaitEndAck) : Token state done w [.nack]

section Token

variable {state : SessionState} {done done' : Prop} {command : Cmd} {out back : List Cmd}

theorem Token.mono (h : Token state done out back) (hle : done → done') :
    Token state done' out back := by
  cases h with
  | lost hw => exact .lost hw
  | sent hw hc hend => exact .sent hw hc hend
  | acked hw hdone => exact .acked hw fun hend => hle (hdone hend)
  | rejected hw hend => exact .rejected hw hend

/-- The token comes back as an ACK. -/
theorem Token.ack (h : Token state done out (.ack :: back)) :
    back = [] ∧ (∀ c ∈ out, c.withoutAck = true) ∧ (state = .txWaitEndAck → done) := by
  cases h with
  | acked hw hdone => exact ⟨rfl, hw, hdone⟩

/-- It comes back as a NACK only for an END. -/
theorem Token.nack (h : Token state done out (.nack :: back)) : state = .txWaitEndAck := by
  cases h with
  | rejected hw hend => exact hend

/-- A command arrives: it is one of an earlier transfer, or the token. -/
theorem Token.arrive (h : Token state done (command :: out) back) :
    command.withoutAck = true ∧ Token state done out back ∨
      out = [] ∧ back = [] ∧ command.withoutAck = false ∧
        (command = .end_ ↔ state = .txWaitEndAck) := by
  generalize hall : command :: out = all at h
  have htail : ∀ w : List Cmd, command :: out = w → (∀ c ∈ w, c.withoutAck = true) →
      command.withoutAck = true ∧ ∀ c ∈ out, c.withoutAck = true := by
    rintro w rfl hw
    exact ⟨hw _ List.mem_cons_self, fun c hc => hw c (List.mem_cons_of_mem _ hc)⟩
  cases h with
  | lost hw => exact .inl ⟨(htail _ hall hw).1, .lost (htail _ hall hw).2⟩
  | acked hw hdone => exact .inl ⟨(htail _ hall hw).1, .acked (htail _ hall hw).2 hdone⟩
  | rejected hw hend => exact .inl ⟨(htail _ hall hw).1, .rejected (htail _ hall hw).2 hend⟩
  | @sent w c hw hc hend =>
    cases w with
    | nil =>
      obtain ⟨rfl, rfl⟩ := List.cons.inj hall
      exact .inr ⟨rfl, rfl, hc, hend⟩
    | cons c' w =>
      obtain ⟨rfl, rfl⟩ := List.cons.inj hall
      exact .inl ⟨hw _ List.mem_cons_self,
        .sent (fun d hd => hw d (List.mem_cons_of_mem _ hd)) hc hend⟩

/-- At most one command arrives and is not answered: the token is lost with it, or it was
not the token. -/
theorem Token.unanswered {first : List Cmd} (h : Token state done (first ++ out) back)
    (hfirst : first = [] ∨ ∃ c, first = [c]) : Token state done out back := by
  rcases hfirst with rfl | ⟨c, rfl⟩
  · exact h
  · rcases Token.arrive h with ⟨-, hpass⟩ | ⟨rfl, rfl, -⟩
    · exact hpass
    · exact .lost fun c hc => absurd hc (by simp)

end Token

/-! ### Commands of an answer -/

section Answers

variable {own : UInt8} {limit : UInt16} {ctx : Ctx} {s s' : Session} {nowMs : UInt32}
  {bytes : List UInt8} {command : Cmd} {reply : Option (Cmd × List UInt8)} {kind : Event}
  {received : Option Msg} {key : UInt8 × UInt8}

/-- A sender does not answer with an acknowledgement. -/
theorem TxCase.not_answers (h : TxCase s nowMs command s' reply kind) :
    ∀ p ∈ reply, p.1.answers = false := by
  cases h with
  | aborted | finished | ignored => exact fun p hp => absurd hp (by simp)
  | _ => exact fun p hp => Option.some.inj hp ▸ rfl

/-- A sender that waits after a command has got an ACK and sent the next frame, or it has
got a NACK and sent the last one again. -/
theorem TxCase.waits (h : TxCase s nowMs command s' reply kind) (hwaits : s'.Waits) :
    command = .nack ∧ (s.state = .txWaitStartAck ∨ s.state = .txWaitDataAck) ∨
      command = .ack ∧ s.Waits ∧ s'.txKey = s.txKey ∧ s'.sessionId = s.sessionId ∧
        ∃ p, reply = some p ∧ p.1.sends = true ∧ p.1.withoutAck = false ∧
          (p.1 = .end_ ↔ s'.state = .txWaitEndAck) := by
  have hacked : ∀ {offset : UInt16}, s.Acked offset → s.Waits := by
    rintro offset (hstate | hstate)
    · exact .inl hstate
    · exact .inr (.inl hstate)
  cases h with
  | aborted | refused | finished => exact absurd hwaits (Session.not_waits (.inl rfl))
  | resentStart hstate => exact .inl ⟨rfl, .inl hstate⟩
  | resentData hstate => exact .inl ⟨rfl, .inr hstate⟩
  | data h => exact .inr ⟨rfl, hacked h, rfl, rfl, _, rfl, rfl, rfl, by simp⟩
  | end_ h => exact .inr ⟨rfl, hacked h, rfl, rfl, _, rfl, rfl, rfl, by simp⟩
  | ignored hstate => exact absurd hwaits (Session.not_waits (.inr (.inr hstate)))

/-- A receiver sends nothing of a transfer of its own. -/
theorem RxCase.not_sends (h : RxCase ctx s bytes nowMs command s' reply kind received) :
    ∀ p ∈ reply, p.1.sends = false := by
  intro p hp
  rcases h.reply_cases p hp with rfl | rfl | ⟨rfl, -⟩ <;> rfl

/-- A receiver acknowledges what asks for it; it acknowledges an END if it reports the
message, and rejects nothing but an END. -/
theorem RxCase.answers (h : RxCase ctx s bytes nowMs command s' reply kind received) :
    ∀ p ∈ reply, p.1.answers = true → command.sends = true ∧ command.withoutAck = false ∧
      (p.1 = .ack ∧ (command = .end_ → kind = .rxFinished ∧ received = some s.msg) ∨
        p.1 = .nack ∧ command = .end_) := by
  intro p hp hanswers
  cases h with
  | aborted => exact absurd hp (by simp)
  | refused =>
    obtain rfl := Option.some.inj hp
    cases hanswers
  | started hcommand =>
    split_ifs at hp with hstart
    · obtain rfl := Option.some.inj hp
      obtain ⟨rfl, -⟩ := hstart
      exact ⟨rfl, rfl, .inl ⟨rfl, fun h => absurd h (by simp)⟩⟩
    · exact absurd hp (by simp)
  | appended hcommand =>
    split_ifs at hp with hdata
    · obtain rfl := Option.some.inj hp
      subst hdata
      exact ⟨rfl, rfl, .inl ⟨rfl, fun h => absurd h (by simp)⟩⟩
    · exact absurd hp (by simp)
  | dropped | uncreated =>
    split_ifs at hp
    · obtain rfl := Option.some.inj hp
      cases hanswers
    · exact absurd hp (by simp)
  | rejected =>
    split_ifs at hp with hend
    · obtain rfl := Option.some.inj hp
      subst hend
      exact ⟨rfl, rfl, .inr ⟨rfl, rfl⟩⟩
    · exact absurd hp (by simp)
  | finished =>
    split_ifs at hp with hend
    · obtain rfl := Option.some.inj hp
      subst hend
      exact ⟨rfl, rfl, .inl ⟨rfl, fun _ => ⟨rfl, rfl⟩⟩⟩
    · exact absurd hp (by simp)

/-- The commands of an answer. -/
theorem Reacts.commands {r : Session × Output} (h : Reacts own s r s' reply kind received)
    (hok : s.Ok own limit) :
    commands r.2.frame.toList key =
      if s.txKey = key then reply.toList.map Prod.fst else [] := by
  rw [h.frame]
  cases reply with
  | none => simp [UniCan.Imp.commands]
  | some p =>
    rw [Option.map_some, Option.toList_some, commands_frameTo _ _ _ hok.peerAddress hok.sessionId]
    rfl

/-- The command that starts a transfer. -/
theorem StartSend.commands {msg : Msg} {i u : ℕ} {output : Output}
    (hs : StartSend ctx msg i u s output) :
    commands output.frame.toList key = if s.txKey = key then
      [if s.mode = .withoutAck then Cmd.startWa else .start] else [] := by
  rw [hs.frame, Option.toList_some, commands_frameTo _ _ _ hs.addressTo_lt hs.sessionId_lt,
    Session.txKey, hs.peerAddress, hs.sessionId]

/-- An answer that is not of a transfer. -/
theorem Reacts.traffic {r : Session × Output} (h : Reacts own s r s' reply kind received)
    (hok : s.Ok own limit) (hne : ∀ p ∈ reply, p.1.sends = true → s.txKey ≠ key) :
    traffic r.2.frame.toList key = [] := by
  rw [UniCan.Imp.traffic, h.commands hok]
  split_ifs with hkey
  · cases reply with
    | none => rfl
    | some p =>
      have hsends : ¬ p.1.sends = true := fun hsends => hne p rfl hsends hkey
      simp [hsends]
  · rfl

/-- An answer that is no acknowledgement of a transfer. -/
theorem Reacts.not_answers {r : Session × Output} (h : Reacts own s r s' reply kind received)
    (hok : s.Ok own limit) (hne : ∀ p ∈ reply, p.1.answers = true → s.txKey ≠ key) :
    UniCan.Imp.answers r.2.frame.toList key = [] := by
  rw [UniCan.Imp.answers, h.commands hok]
  split_ifs with hkey
  · cases reply with
    | none => rfl
    | some p =>
      have hanswers : ¬ p.1.answers = true := fun hanswers => hne p rfl hanswers hkey
      simp [hanswers]
  · rfl

/-- An acknowledgement of a transfer is the answer of its session. -/
theorem Reacts.of_answers {r : Session × Output} (h : Reacts own s r s' reply kind received)
    (hok : s.Ok own limit) (hne : UniCan.Imp.answers r.2.frame.toList key ≠ []) :
    s.txKey = key ∧ ∃ p ∈ reply, p.1.answers = true := by
  by_contra hcon
  exact hne (h.not_answers hok fun p hp hanswers hkey => hcon ⟨hkey, p, hp, hanswers⟩)

end Answers

/-! ### The invariant of the tokens -/

/-- The other device has reported the transfer of a key. -/
def Done (sent : List CanMessage) (reported : List (Msg × ℕ)) (key : UInt8 × UInt8) : Prop :=
  ∃ r msg, (scan (marks sent)).current key = some r ∧ (msg, r.number) ∈ reported

/-- Every session that waits has a token among the frames `out`, which are on their way
to the other device, and the frames `back`, which are on their way back. -/
def Node.Agrees (own : UInt8) (node : Node) (out back : List CanMessage)
    (reported : List (Msg × ℕ)) : Prop :=
  ∀ i, (node.ctx.session i).Waits →
    Token (node.ctx.session i).state (Done node.sent reported (node.ctx.session i).txKey)
      (traffic out (node.ctx.session i).txKey)
      (answers back (own, (node.ctx.session i).sessionId))

section Agrees

variable {own peer : UInt8} {peerStarted : List (Msg × UInt8)} {node : Node}
  {out back back' frames : List CanMessage} {reported reported' : List (Msg × ℕ)} {i : ℕ}

theorem Session.Waits.isTx {s : Session} (h : s.Waits) : sessionIsTx s = true := by
  rcases h with h | h | h <;> simp [sessionIsTx, h]

/-- A session that waits is for a transfer to the other device. -/
theorem Node.Ok.serves (h : node.Ok own peer peerStarted) (hw : (node.ctx.session i).Waits) :
    node.ctx.Serves i peer own (node.ctx.session i).sessionId := by
  have hlive := (Session.isTx_iff.mp hw.isTx).1
  have hs := (h.ctx.sessions i).tx hw.isTx
  refine ⟨Ctx.lt_of_live hlive, hlive, ?_, hs.localAddress.trans h.ownAddress, rfl⟩
  refine (h.paired i hlive).resolve_right fun hb => ?_
  exact Session.not_waits (.inr (.inr hb.2)) hw

theorem Node.Ok.txKey (h : node.Ok own peer peerStarted) (hw : (node.ctx.session i).Waits) :
    (node.ctx.session i).txKey = (peer, (node.ctx.session i).sessionId) := by
  rw [Session.txKey, (h.serves hw).peerAddress]

/-- A session that has nothing to do with the frames that are sent and those that
arrive. -/
theorem Node.Agrees.keep (h : node.Agrees own out back reported)
    (hw : (node.ctx.session i).Waits)
    (hframes : traffic frames (node.ctx.session i).txKey = [])
    (hback : answers back' (own, (node.ctx.session i).sessionId) =
      answers back (own, (node.ctx.session i).sessionId)) :
    Token (node.ctx.session i).state
      (Done (node.sent ++ frames) reported (node.ctx.session i).txKey)
      (traffic (out ++ frames) (node.ctx.session i).txKey)
      (answers back' (own, (node.ctx.session i).sessionId)) := by
  rw [traffic_append, hframes, List.append_nil, hback, Done, current_append_of_traffic hframes]
  exact h i hw

/-- **A call to send**, with an id that is not given away too early. -/
theorem Node.Agrees.startSend (h : node.Agrees own out back reported)
    (hok : node.Ok own peer peerStarted) {msg : Msg} (readable : msg.Readable) (nowMs : UInt32)
    (env : Env) {r : Node × Output × Result} (hr : node.startSend msg readable nowMs env = r)
    (hfresh : r.2.2 = .ok → msg.mode = .withAck → msg.addressTo ≠ deviceIdAll →
      (∀ c ∈ traffic out (msg.addressTo, r.2.1.sessionId), c.withoutAck = true) ∧
        answers back (own, r.2.1.sessionId) = []) :
    r.1.Agrees own (out ++ r.2.1.frame.toList) back reported := by
  obtain ⟨q, hq, hquiet, hcase⟩ := startSend_spec hok.ctx readable nowMs env
  simp only [Node.startSend, Node.call, device, hq] at hr
  subst hr
  rcases hcase with ⟨hsame, hframe, hres⟩ | ⟨hres, j, u, s, hset, hs, -⟩
  · simp only [hsame, hframe, Option.toList_none, List.append_nil]
    exact h
  simp only at hfresh ⊢
  intro i
  simp only [hset]
  rw [Ctx.session_setSession hs.lt]
  split_ifs with hi
  · -- the session that was started
    intro hw
    have hstate := hs.state
    by_cases hmode : s.mode = .withoutAck
    · rw [if_pos hmode] at hstate
      rcases hw with hw | hw | hw <;> exact absurd (hstate.symm.trans hw) (by simp)
    rw [if_neg hmode] at hstate
    have hall : msg.addressTo ≠ deviceIdAll := by
      intro hall
      rw [hs.mode, if_pos hall] at hmode
      exact hmode rfl
    have hwithAck : msg.mode = .withAck := by
      rw [hs.mode, if_neg hall] at hmode
      have hknown := hs.known
      cases hm : msg.mode with
      | withAck => rfl
      | withoutAck => exact absurd hm hmode
      | other => exact absurd hm hknown
    obtain ⟨hout, hback⟩ := hfresh hres hwithAck hall
    have hkey : s.txKey = (msg.addressTo, q.2.1.sessionId) := by
      rw [Session.txKey, hs.peerAddress, hs.sessionId, hs.outId]
    have hstart : traffic q.2.1.frame.toList s.txKey = [.start] := by
      rw [traffic, hs.commands, if_pos rfl, if_neg hmode]
      rfl
    have hid : s.sessionId = q.2.1.sessionId := by rw [hs.sessionId, hs.outId]
    rw [traffic_append, hstart, hid, hback, hkey]
    exact .sent hout rfl (by simp [hstate])
  · intro hw
    refine h.keep hw ?_ rfl
    rw [traffic, hs.commands, if_neg (hs.txKey_ne hw.isTx).symm]
    rfl

/-- **A call because time has passed.** -/
theorem Node.Agrees.process (h : node.Agrees own out back reported)
    (hok : node.Ok own peer peerStarted) (nowMs : UInt32) :
    (node.process nowMs).1.Agrees own (out ++ (node.process nowMs).2.1.frame.toList) back
      reported := by
  obtain ⟨q, hq, -, hcase⟩ := process_spec hok.ctx nowMs
  simp only [Node.process, Node.call, device, hq]
  rcases hcase with ⟨hsame, hout⟩ | ⟨j, s', reply, kind, hj, hcase, -, hset, hreacts⟩
  · simp only [hsame, hout, Option.toList_none, List.append_nil]
    exact h
  intro i
  simp only [hset]
  rw [Ctx.session_setSession hj]
  split_ifs with hi
  · -- the session does not wait any more, or did not wait before
    intro hw
    exfalso
    rcases hcase with ⟨-, rfl, -⟩ | ⟨hstate, frame, -, hemit⟩
    · exact Session.not_waits (.inl rfl) hw
    · cases hemit with
      | data => exact Session.not_waits (.inr (.inr hstate)) hw
      | end_ => exact Session.not_waits (.inl rfl) hw
  · intro hw
    refine h.keep hw (hreacts.traffic (hok.ctx.sessions j) fun p hp _ => ?_) rfl
    rcases hcase with ⟨-, -, rfl, -⟩ | ⟨hstate, -⟩
    · exact absurd hp (by simp)
    · have htx : sessionIsTx (node.ctx.session j) = true := by simp [sessionIsTx, hstate]
      exact (hok.distinct.txKey_ne hok.ctx htx hw.isTx hi).symm

/-- The frames of the other device are no answers. -/
theorem Node.Agrees.unanswered (h : node.Agrees own out back reported)
    (hframes : ∀ key, answers frames key = []) :
    node.Agrees own out (back ++ frames) reported := by
  intro i hw
  rw [answers_append, hframes, List.append_nil]
  exact h i hw

end Agrees

/-! ### A frame arrives -/

section Arrival

variable {own peer : UInt8} {started peerStarted : List (Msg × UInt8)} {node peerNode : Node}
  {out back : List CanMessage} {reported : List (Msg × ℕ)}
  {addressTo sessionId : UInt8} {command : Cmd} {bytes : List UInt8} {nowMs : UInt32} {env : Env}

/-- The answers on their way, with one more frame. -/
theorem answers_cons {frame : CanMessage} {frames : List CanMessage} {key : UInt8 × UInt8} :
    answers (frame :: frames) key = answers [frame] key ++ answers frames key :=
  answers_append [frame] frames

theorem traffic_cons {frame : CanMessage} {frames : List CanMessage} {key : UInt8 × UInt8} :
    traffic (frame :: frames) key = traffic [frame] key ++ traffic frames key :=
  traffic_append [frame] frames

/-- An answer to a session that waits is for this session, and for no other one. -/
theorem Node.Ok.answered (h : node.Ok own peer peerStarted) {i : ℕ} (command : Cmd)
    (nowMs : UInt32) (hw : (node.ctx.session i).Waits)
    (hkey : (addressTo, sessionId) = (own, (node.ctx.session i).sessionId)) :
    (∃ j s, frameSession node.ctx peer addressTo sessionId command nowMs = some (j, s)) ∧
      ∀ j s, frameSession node.ctx peer addressTo sessionId command nowMs = some (j, s) →
        j = i ∧ s = node.ctx.session i := by
  obtain ⟨rfl, rfl⟩ := Prod.mk.inj hkey
  have hserves := h.serves hw
  have hfind := h.distinct.findSession hserves.lt hserves.live
  rw [hserves.peerAddress, hserves.localAddress] at hfind
  have hsession : frameSession node.ctx peer addressTo (node.ctx.session i).sessionId command
      nowMs = some (i, node.ctx.session i) := by
    rw [frameSession, hfind]
  refine ⟨⟨_, _, hsession⟩, fun j s hjs => ?_⟩
  obtain ⟨rfl, rfl⟩ := Prod.mk.inj (Option.some.inj (hsession.symm.trans hjs))
  exact ⟨rfl, rfl⟩

/-- A sender that gets its token sends the next one. -/
theorem TxCase.token {s s' : Session} {reply : Option (Cmd × List UInt8)} {kind : Event}
    {done : Prop} (done' : Prop) {w rest : List Cmd}
    (h : TxCase s nowMs command s' reply kind) (hw : s'.Waits)
    (htoken : s.Waits →
      Token s.state done w ((if command.answers then [command] else []) ++ rest)) :
    ∃ p, reply = some p ∧ p.1.sends = true ∧ Token s'.state done' (w ++ [p.1]) rest := by
  rcases h.waits hw with ⟨rfl, hstate⟩ | ⟨rfl, hwaits, -, -, p, hp, hsends, hack, hend⟩
  · -- a NACK is for an END, which the sender does not wait for
    exfalso
    have hnack := Token.nack (htoken (hstate.elim .inl fun h => .inr (.inl h)))
    rcases hstate with hstate | hstate <;> exact absurd (hstate.symm.trans hnack) (by simp)
  · obtain ⟨rfl, hout, -⟩ := Token.ack (htoken hwaits)
    exact ⟨p, hp, hsends, .sent hout hack hend⟩

/-- **A frame of the other device**, at the sender. -/
theorem Node.Agrees.addFrame {frame : CanMessage}
    (h : node.Agrees own out (frame :: back) reported) (hok : node.Ok own peer peerStarted)
    (hpeer : peer.toNat < 31) (hwired : Wired peer own frame) (nowMs : UInt32) (env : Env)
    {r : Node × Output × Result} (hr : node.addFrame frame nowMs env = r) :
    r.1.Agrees own (out ++ r.2.1.frame.toList) back reported := by
  obtain ⟨addressTo, sessionId, command, bytes, rfl, hto, hlt, hid, hlen, q, hq, hcase⟩ :=
    hwired.addFrame_cases hok.ctx hok.ownAddress hpeer nowMs env
  simp only [Node.addFrame, Node.call, device, hq] at hr
  subst hr
  -- the other sessions get no answer
  have hback : ∀ i, (node.ctx.session i).Waits →
      ¬ (addressTo, sessionId) = (own, (node.ctx.session i).sessionId) →
      answers back (own, (node.ctx.session i).sessionId) =
        answers (frameTo peer addressTo sessionId command bytes :: back)
          (own, (node.ctx.session i).sessionId) := by
    intro i hw hne
    rw [answers_cons, answers_frameTo _ _ _ hlt hid, if_neg fun h => hne h.1, List.nil_append]
  rcases hcase with ⟨hnosession, hsame, -, hframe⟩ |
    ⟨j, s, s', reply, kind, received, hhandles, hsession, hsok, -, hset, hreacts⟩
  · intro i
    simp only [hsame]
    intro hw
    refine h.keep hw ?_ (hback i hw fun hkey => ?_)
    · rw [hframe]
      exact traffic_abort (Nat.lt_succ_of_lt hpeer) hid
    · obtain ⟨⟨j, s, hjs⟩, -⟩ := hok.answered command nowMs hw hkey
      exact absurd (hjs.symm.trans hnosession) (by simp)
  · intro i
    simp only [hset]
    rw [Ctx.session_setSession hsession.lt]
    split_ifs with hij
    · -- the session that the frame is for
      intro hw
      rcases hhandles.moves with ⟨htx, -, hcase⟩ | ⟨hrx, hcase⟩
      · obtain rfl := hsession.eq_of_isTx htx
        have hkey : s'.txKey = (node.ctx.session j).txKey ∧
            s'.sessionId = (node.ctx.session j).sessionId := by
          rcases hcase.kept htx with hfree | ⟨hkey, -⟩
          · exact absurd hfree (Session.isTx_iff.mp hw.isTx).1
          · obtain ⟨hpeer', hrest⟩ := Prod.mk.inj hkey
            obtain ⟨-, hid'⟩ := Prod.mk.inj hrest
            exact ⟨by rw [Session.txKey, hpeer', hid']; rfl, hid'⟩
        have hlocal : addressTo = own :=
          hsession.localAddress.symm.trans
            (((hok.ctx.sessions j).tx htx).localAddress.trans hok.ownAddress)
        have hmine : (addressTo, sessionId) = (own, (node.ctx.session j).sessionId) :=
          Prod.ext hlocal hsession.sessionId.symm
        obtain ⟨p, rfl, hsends, htoken⟩ := hcase.token
          (Done (node.sent ++ q.2.1.frame.toList) reported s'.txKey) hw fun hwaits => by
            have htoken := h j hwaits
            have hfirst : answers [frameTo peer addressTo sessionId command bytes]
                (own, (node.ctx.session j).sessionId) =
                if command.answers then [command] else [] := by
              rw [answers_frameTo _ _ _ hlt hid, hmine]
              simp
            rw [answers_cons, hfirst] at htoken
            exact htoken
        have htraffic : traffic q.2.1.frame.toList (node.ctx.session j).txKey = [p.1] := by
          have hcommands : commands q.2.1.frame.toList (node.ctx.session j).txKey = [p.1] :=
            (hreacts.commands hsok).trans (if_pos rfl)
          rw [traffic, hcommands, List.filter_cons, if_pos hsends, List.filter_nil]
        rw [hkey.1] at htoken ⊢
        rw [hkey.2, traffic_append, htraffic]
        exact htoken
      · exfalso
        rcases hcase.kept hrx with hfree | ⟨-, -, hiff⟩
        · exact Session.not_waits (.inl hfree) hw
        · exact Session.not_waits (.inr (.inl (hiff.mpr hrx))) hw
    · intro hw
      refine h.keep hw (hreacts.traffic hsok fun p hp hsends heq => ?_) (hback i hw fun hkey => ?_)
      · rcases hhandles.moves with ⟨htx, -, -⟩ | ⟨-, hcase⟩
        · obtain rfl := hsession.eq_of_isTx htx
          exact hok.distinct.txKey_ne hok.ctx htx hw.isTx hij heq.symm
        · rw [hcase.not_sends p hp] at hsends
          exact absurd hsends (by simp)
      · obtain ⟨-, honly⟩ := hok.answered command nowMs hw hkey
        exact hij (honly j s hhandles.found).1.symm

/-- The answer to the token of a transfer is its next place; if it acknowledges the END,
the message is reported. -/
theorem RxCase.token {ctx : Ctx} {s s' : Session} {reply : Option (Cmd × List UInt8)}
    {kind : Event} {received : Option Msg} {state : SessionState} {done : Prop}
    (h : RxCase ctx s bytes nowMs command s' reply kind received)
    (hend : command = .end_ ↔ state = .txWaitEndAck)
    (hdone : kind = .rxFinished → received = some s.msg → done) :
    Token state done [] ((reply.toList.map Prod.fst).filter Cmd.answers) := by
  have hnil : ∀ c ∈ ([] : List Cmd), c.withoutAck = true := fun c hc => absurd hc (by simp)
  cases hreply : reply with
  | none => exact .lost hnil
  | some p =>
    rw [Option.toList_some, List.map_singleton, List.filter_singleton]
    by_cases hanswers : p.1.answers = true
    · rw [hanswers]
      obtain ⟨-, -, ⟨hack, hfinished⟩ | ⟨hnack, hcommand⟩⟩ := h.answers p hreply hanswers
      · rw [hack]
        refine .acked hnil fun hstate => ?_
        obtain ⟨hkind, hreceived⟩ := hfinished (hend.mpr hstate)
        exact hdone hkind hreceived
      · rw [hnack]
        exact .rejected hnil (hend.mp hcommand)
    · rw [Bool.not_eq_true] at hanswers
      rw [hanswers]
      exact .lost hnil

/-- When the last frame of a transfer arrives, it is the transfer that its receiver reads. -/
theorem exists_number_eq {frame : CanMessage} {sent got : List CanMessage} {key : UInt8 × UInt8}
    (hwire : sent = got ++ frame :: out) (hmark : frameMark frame = some (key, .stop))
    (hout : traffic out key = []) {r : Reading MsgMode UInt8}
    (hr : (scan (marks sent)).current key = some r) :
    ∃ r', (scan (marks got)).current key = some r' ∧ r'.number = r.number := by
  have hmark' : frameMark frame = (some Mark.stop).map fun m => (key, m) := hmark
  rw [hwire, List.append_cons, current_append_of_traffic hout,
    scan_marks_concat got hmark', Option.elim_some,
    Scan.current_stop] at hr
  obtain ⟨r', hr', rfl⟩ := Option.map_eq_some_iff.mp hr
  exact ⟨r', hr', rfl⟩

/-- **A frame of the sender**, at the receiver. -/
theorem Node.Agrees.arrive {frame : CanMessage}
    (h : node.Agrees own (frame :: out) back peerNode.reported) (hok : node.Ok own peer peerStarted)
    (hpeer : peerNode.Ok peer own started) (hwired : Wired own peer frame)
    (hwire : node.sent = peerNode.got ++ frame :: out) (nowMs : UInt32) (env : Env)
    {r : Node × Output × Result} (hr : peerNode.addFrame frame nowMs env = r) :
    node.Agrees own out (back ++ r.2.1.frame.toList) r.1.reported := by
  have hown : own.toNat < 31 := hok.ownAddress ▸ hok.ctx.ownAddress
  obtain ⟨addressTo, sessionId, command, bytes, rfl, hto, hlt, hid, hlen, q, hq, hcase⟩ :=
    hwired.addFrame_cases hpeer.ctx hpeer.ownAddress hown nowMs env
  simp only [Node.addFrame, Node.call, device, hq] at hr
  subst hr
  intro i hw
  have hkey := hok.txKey hw
  have htoken := h i hw
  rw [traffic_cons, traffic_frameTo _ _ _ hlt hid] at htoken
  simp only
  rw [answers_append]
  by_cases hne : answers q.2.1.frame.toList (own, (node.ctx.session i).sessionId) = []
  · -- without an answer, what was done stays done
    rw [hne, List.append_nil]
    refine (htoken.unanswered ?_).mono ?_
    · split_ifs <;> simp
    · rintro ⟨rd, msg, hcurrent, hmem⟩
      exact ⟨rd, msg, hcurrent, List.mem_append_left _ hmem⟩
  rcases hcase with ⟨-, -, -, hframe⟩ |
    ⟨j, s, s', reply, kind, received, hhandles, hsession, hsok, -, -, hreacts⟩
  · rw [hframe] at hne
    exact absurd (answers_abort (Nat.lt_succ_of_lt hown) hid) hne
  -- the session that answers is receiving, and the frame had to be acknowledged
  obtain ⟨hback, p, hp, hanswers⟩ := hreacts.of_answers hsok hne
  rcases hhandles.moves with ⟨-, -, htx⟩ | ⟨hrx, hcase⟩
  · exact absurd (htx.not_answers p hp) (by simp [hanswers])
  obtain ⟨hsends, hack, -⟩ := hcase.answers p hp hanswers
  have haddress : addressTo = peer :=
    hto.resolve_right fun hall => absurd (hack.symm.trans hall.2) (by simp)
  have hmine : (addressTo, sessionId) = (node.ctx.session i).txKey := by
    rw [hkey]
    exact Prod.ext haddress (hsession.sessionId.symm.trans (Prod.mk.inj hback).2)
  -- so the frame was the token
  rw [if_pos ⟨hmine, hsends⟩, List.singleton_append] at htoken
  rcases Token.arrive htoken with ⟨hwithoutAck, -⟩ | ⟨hout, hnone, -, hend⟩
  · exact absurd (hwithoutAck.symm.trans hack) (by simp)
  rw [hout, hnone, List.nil_append, answers, hreacts.commands hsok, if_pos hback]
  refine hcase.token hend fun hkind hreceived => ?_
  -- the message is reported with the number of this transfer
  obtain ⟨rd, e, hcurrent, -⟩ := hok.sender.carries i hw.isTx
  have hstop : command.mark bytes = some .stop := by
    rcases hcase.report_cases with hnone | ⟨hstop, -⟩
    · exact absurd (hreceived.symm.trans hnone) (by simp)
    · exact hstop
  have hmark := frameMark_frameTo own command hlt hid hlen
  rw [hstop, Option.map_some, hmine] at hmark
  obtain ⟨rd', hcurrent', hnumber⟩ := exists_number_eq hwire hmark hout hcurrent
  have hrxKey : (s.msg.addressTo, s.msg.sessionId) = (node.ctx.session i).txKey := by
    rw [← hmine]
    exact Prod.ext hsession.localAddress hsession.sessionId
  have harrived : peerNode.arrived s.msg = rd.number := by
    rw [Node.arrived, hrxKey, hcurrent', ← hnumber]
    rfl
  refine ⟨rd, s.msg, hcurrent, List.mem_append_right _ ?_⟩
  rw [Node.report, if_pos (hreacts.event.trans hkind), hreacts.message.trans hreceived,
    Option.toList_some, List.map_singleton, harrived]
  exact List.mem_singleton_self _

end Arrival

/-! ### Both devices -/

/-- An acknowledged transfer gets an id that no frame on the wire has that an earlier
transfer needs acknowledged, and no acknowledgement. -/
def NetAction.Fresh (net : Net) : NetAction → Prop
  | .startSend side msg readable nowMs env =>
      ((net.node side).startSend msg readable nowMs env).2.2 = .ok → msg.mode = .withAck →
        msg.addressTo ≠ deviceIdAll →
        (∀ c ∈ traffic (net.link side)
            (msg.addressTo, ((net.node side).startSend msg readable nowMs env).2.1.sessionId),
          c.withoutAck = true) ∧
        answers (net.link side.other) ((net.node side).ctx.ownAddress,
          ((net.node side).startSend msg readable nowMs env).2.1.sessionId) = []
  | _ => True

/-- The side on which something happens. -/
def NetAction.side : NetAction → Side
  | .startSend side _ _ _ _ | .deliver side _ _ | .process side _ => side

/-- Every session that waits has a token. -/
def Net.Agrees (address : Side → UInt8) (net : Net) : Prop :=
  ∀ x, (net.node x).Agrees (address x) (net.link x) (net.link x.other) (net.node x.other).reported

section Both

variable {address : Side → UInt8} {net : Net}

/-- A START is no answer. -/
theorem startSend_not_answers {ctx : Ctx} (h : ctx.Ok) {msg : Msg} (readable : msg.Readable)
    (nowMs : UInt32) (env : Env) (key : UInt8 × UInt8) :
    answers (startSend ctx env msg nowMs).2.1.frame.toList key = [] := by
  obtain ⟨r, hr, -, hcase⟩ := startSend_spec h readable nowMs env
  rw [hr]
  rcases hcase with ⟨-, hframe, -⟩ | ⟨-, i, u, s, -, hs, -⟩
  · rw [hframe]
    rfl
  · rw [answers, hs.commands]
    split_ifs <;> rfl

/-- A frame that is sent because time has passed is no answer. -/
theorem process_not_answers {ctx : Ctx} (h : ctx.Ok) (nowMs : UInt32) (key : UInt8 × UInt8) :
    answers (process ctx nowMs).2.1.frame.toList key = [] := by
  obtain ⟨r, hr, -, hcase⟩ := process_spec h nowMs
  rw [hr]
  rcases hcase with ⟨-, hout⟩ | ⟨i, s', reply, kind, -, hcase, -, -, hreacts⟩
  · rw [hout]
    rfl
  · refine hreacts.not_answers (h.sessions i) fun p hp hanswers => ?_
    rcases hcase with ⟨-, -, rfl, -⟩ | ⟨-, frame, rfl, hemit⟩
    · exact absurd hp (by simp)
    · obtain rfl := Option.some.inj hp
      cases hemit <;> cases hanswers

/-- **Whatever happens keeps the tokens**, if no id is given away too early. -/
theorem Net.Agrees.step (h : net.Agrees address) (hok : net.Ok address) {action : NetAction}
    (hfresh : action.Fresh net) : (network.step net action).1.Agrees address := by
  cases action with
  | startSend side msg readable nowMs env =>
    intro x
    rcases side.eq_or_other x with rfl | rfl
    · simp only [network, Net.after_node_self, Net.after_node_other, Net.after_link_self,
        Net.after_link_other]
      refine (h x).startSend (hok.node x) readable nowMs env rfl fun hres hmode hall => ?_
      have hboth := hfresh hres hmode hall
      rw [(hok.node x).ownAddress] at hboth
      exact hboth
    · have hside := h side.other
      simp only [network, Side.other_other, Net.after_node_self, Net.after_node_other,
        Net.after_link_self, Net.after_link_other]
      rw [Side.other_other] at hside
      exact hside.unanswered (startSend_not_answers (hok.node side).ctx readable nowMs env)
  | process side nowMs =>
    intro x
    rcases side.eq_or_other x with rfl | rfl
    · simp only [network, Net.after_node_self, Net.after_node_other, Net.after_link_self,
        Net.after_link_other]
      exact (h x).process (hok.node x) nowMs
    · have hside := h side.other
      simp only [network, Side.other_other, Net.after_node_self, Net.after_node_other,
        Net.after_link_self, Net.after_link_other]
      rw [Side.other_other] at hside
      exact hside.unanswered (process_not_answers (hok.node side).ctx nowMs)
  | deliver side nowMs env =>
    simp only [network]
    cases hlink : net.link side.other with
    | nil => exact h
    | cons frame rest =>
      have hwire := hok.wire side.other
      have hother := hok.node side.other
      rw [Side.other_other] at hwire hother
      rw [hlink] at hwire
      have hwired : Wired (address side.other) (address side) frame :=
        hother.wired frame (by rw [hwire]; simp)
      have hlt : (address side.other).toNat < 31 := hother.ownAddress ▸ hother.ctx.ownAddress
      intro x
      rcases side.eq_or_other x with rfl | rfl
      · have hside := h x
        rw [hlink] at hside
        simp only [Net.after_node_self, Net.after_node_other, Net.after_link_self,
          Net.after_link_other, Net.drop_node, Net.drop_link_self, Net.drop_other_link, hlink]
        exact hside.addFrame (hok.node x) hlt hwired nowMs env rfl
      · have hside := h side.other
        rw [Side.other_other, hlink] at hside
        simp only [Side.other_other, Net.after_node_self, Net.after_node_other,
          Net.after_link_self, Net.after_link_other, Net.drop_node, Net.drop_link_self,
          Net.drop_other_link, hlink]
        exact hside.arrive hother (hok.node side) hwired hwire nowMs env rfl

/-- A NACK is on its way only to a sender that waits for the end of its transfer. -/
theorem Net.Agrees.calm (h : net.Agrees address) (hok : net.Ok address) (action : NetAction) :
    action.Calm net := by
  cases action with
  | startSend | process => trivial
  | deliver side nowMs env =>
    intro frame hframe hd hhd hnack i hserves
    have hother := hok.node side.other
    rw [Side.other_other] at hother
    have hlink : net.link side.other = frame :: (net.link side.other).tail :=
      (List.eq_cons_of_mem_head? hframe)
    have hlt : (address side.other).toNat < 31 := hother.ownAddress ▸ hother.ctx.ownAddress
    have hown : (address side).toNat < 31 :=
      (hok.node side).ownAddress ▸ (hok.node side).ctx.ownAddress
    have hwired : Wired (address side.other) (address side) frame := by
      have hwire := hok.wire side.other
      exact hother.wired frame (by rw [hwire, hlink]; simp)
    obtain ⟨hto, hid, hlen, -⟩ := hwired
    rename_i addressTo sessionId command bytes
    rw [(hok.node side).ownAddress, heading_frameTo hlt hto hown hid hlen] at hhd
    obtain rfl := Option.some.inj hhd
    obtain rfl : command = .nack := hnack
    have haddress : addressTo = address side :=
      hto.resolve_right fun hall => absurd hall.2 (by simp [Cmd.withoutAck])
    -- the token of a session that waits would be this NACK
    have hend : ((net.node side).ctx.session i).Waits →
        ((net.node side).ctx.session i).state = .txWaitEndAck := by
      intro hw
      have htoken := h side i hw
      have hlt32 : addressTo.toNat < 32 := haddress ▸ Nat.lt_succ_of_lt hown
      have hanswers : answers [frameTo (address side.other) addressTo sessionId .nack bytes]
          (address side, ((net.node side).ctx.session i).sessionId) = [.nack] := by
        rw [answers_frameTo _ _ _ hlt32 hid, haddress, hserves.sessionId, if_pos ⟨rfl, rfl⟩]
      rw [hlink, answers_cons, hanswers] at htoken
      exact htoken.nack
    refine ⟨fun hstate => ?_, fun hstate => ?_⟩
    · exact absurd (hstate.symm.trans (hend (.inl hstate))) (by simp)
    · exact absurd (hstate.symm.trans (hend (.inr (.inl hstate)))) (by simp)

end Both

/-! ### The end of a transfer -/

/-- The transfer of a session that sends is the last one that was started with its
address and its id. -/
theorem Sender.last {ctx : Ctx} {started : List (Msg × UInt8)} {sent : List CanMessage} {i : ℕ}
    (h : Sender ctx started sent) (htx : sessionIsTx (ctx.session i) = true) :
    ∃ r msg, (scan (marks sent)).current (ctx.session i).txKey = some r ∧
      started[r.number]? = some (msg, (ctx.session i).sessionId) ∧
      msg.addressTo = (ctx.session i).peerAddress ∧
      (entry (msg, (ctx.session i).sessionId)).tag = (ctx.session i).mode ∧
      ∀ m msg', started[m]? = some (msg', (ctx.session i).sessionId) →
        msg'.addressTo = (ctx.session i).peerAddress → m ≤ r.number := by
  obtain ⟨r, e, hr, he, hc⟩ := h.carries i htx
  obtain ⟨-, e', he', hkey, -⟩ := h.follows.entry hr
  obtain rfl := Option.some.inj (he.symm.trans he')
  rw [List.getElem?_map] at he
  obtain ⟨⟨msg, id⟩, hstarted, rfl⟩ := Option.map_eq_some_iff.mp he
  obtain ⟨hto, hid⟩ := Prod.mk.inj hkey
  simp only at hto hid
  subst hid
  refine ⟨r, msg, hr, hstarted, hto, hc.tag, fun m msg' hm hto' => ?_⟩
  have hlt : m < (scan (marks sent)).starts := by
    rw [h.starts]
    exact (List.getElem?_eq_some_iff.mp hm).1
  have hentry : (started.map entry)[m]? = some (entry (msg', (ctx.session i).sessionId)) := by
    rw [List.getElem?_map, hm, Option.map_some]
  obtain ⟨r', hr', hle⟩ := h.follows.last hlt hentry
  have hkey' : (entry (msg', (ctx.session i).sessionId)).key = (ctx.session i).txKey :=
    Prod.ext hto' rfl
  rw [hkey', hr] at hr'
  rw [Option.some.inj hr']
  exact hle

/-- A transfer that an output tells of is the last one that was started with this address
and this id; if it is an acknowledged one, the other device has reported what arrives of
its message, with its number. -/
def Node.Concludes (node : Node) (reported : List (Msg × ℕ)) (output : Output) : Prop :=
  ∃ n msg, node.started[n]? = some (msg, output.sessionId) ∧
    msg.addressTo = output.peerAddress ∧
    (∀ m msg', node.started[m]? = some (msg', output.sessionId) →
      msg'.addressTo = output.peerAddress → m ≤ n) ∧
    (msg.mode = .withAck → msg.addressTo ≠ deviceIdAll →
      (msg.delivered output.sessionId, n) ∈ reported)

/-- A sender finishes with the ACK for its END. -/
theorem TxCase.of_finished {s s' : Session} {nowMs : UInt32} {command : Cmd}
    {reply : Option (Cmd × List UInt8)} (h : TxCase s nowMs command s' reply .txFinished) :
    command = .ack ∧ s.state = .txWaitEndAck := by
  cases h with
  | finished hstate => exact ⟨rfl, hstate⟩

section Concludes

variable {own peer : UInt8} {peerStarted : List (Msg × UInt8)} {node : Node}
  {out back : List CanMessage} {reported : List (Msg × ℕ)}

/-- A transfer that ends because time has passed is not an acknowledged one. -/
theorem Node.Ok.process_concludes (h : node.Ok own peer peerStarted) (nowMs : UInt32)
    (hevent : (node.process nowMs).2.1.event = .txFinished) :
    node.Concludes reported (node.process nowMs).2.1 := by
  obtain ⟨r, hr, -, hcase⟩ := process_spec h.ctx nowMs
  simp only [Node.process, Node.call, device, hr] at hevent ⊢
  rcases hcase with ⟨-, hempty⟩ | ⟨i, s', reply, kind, -, hcase, -, -, hreacts⟩
  · rw [hempty] at hevent
    exact absurd hevent (by simp)
  have hkind : kind = .txFinished := hreacts.event.symm.trans hevent
  obtain ⟨hpeer, hid⟩ := hreacts.peer (by simp [hkind])
  simp only at hpeer hid
  rcases hcase with ⟨-, -, -, htimeout⟩ | ⟨hstate, -⟩
  · rw [hkind] at htimeout
    split_ifs at htimeout
  · have htx : sessionIsTx (node.ctx.session i) = true := by simp [sessionIsTx, hstate]
    obtain ⟨rd, msg, -, hstarted, hto, htag, hlast⟩ := h.sender.last htx
    rw [Node.Concludes, hpeer, hid]
    refine ⟨rd.number, msg, hstarted, hto, hlast, fun hmode hall => ?_⟩
    have hwithout := ((h.ctx.sessions i).tx htx).mode_iff.mpr hstate
    rw [hwithout, entry, if_neg hall, hmode] at htag
    exact absurd htag (by simp)

/-- A transfer that ends with an ACK has been reported. -/
theorem Node.Agrees.addFrame_concludes {frame : CanMessage}
    (h : node.Agrees own out (frame :: back) reported) (hok : node.Ok own peer peerStarted)
    (hpeer : peer.toNat < 31) (hwired : Wired peer own frame)
    {sc : Scan (UInt8 × UInt8) MsgMode UInt8}
    (hreports : Reports node.started sc reported) (nowMs : UInt32) (env : Env)
    (hevent : (node.addFrame frame nowMs env).2.1.event = .txFinished) :
    node.Concludes reported (node.addFrame frame nowMs env).2.1 := by
  obtain ⟨addressTo, sessionId, command, bytes, rfl, hto, hlt, hid, hlen, r, hr, hcase⟩ :=
    hwired.addFrame_cases hok.ctx hok.ownAddress hpeer nowMs env
  simp only [Node.addFrame, Node.call, device, hr] at hevent ⊢
  rcases hcase with ⟨-, -, hquiet, -⟩ |
    ⟨i, s, s', reply, kind, received, hhandles, hsession, -, -, -, hreacts⟩
  · exact absurd (hevent.symm.trans hquiet.event) (by simp)
  obtain rfl : kind = .txFinished := hreacts.event.symm.trans hevent
  obtain ⟨hpeer', hsid⟩ := hreacts.peer (by simp)
  simp only at hpeer' hsid
  rcases hhandles.moves with ⟨htx, -, hcase⟩ | ⟨-, hcase⟩
  · obtain rfl := hsession.eq_of_isTx htx
    obtain ⟨rd, msg, hcurrent, hstarted, hmsg, -, hlast⟩ := hok.sender.last htx
    rw [Node.Concludes, hpeer', hsid]
    refine ⟨rd.number, msg, hstarted, hmsg, hlast, fun _ _ => ?_⟩
    obtain ⟨hcommand, hstate⟩ := hcase.of_finished
    simp only at hcommand
    -- the token of the session is this ACK
    have hw : (node.ctx.session i).Waits := .inr (.inr hstate)
    have haddress : addressTo = own :=
      hsession.localAddress.symm.trans
        (((hok.ctx.sessions i).tx htx).localAddress.trans hok.ownAddress)
    have hanswers : answers [frameTo peer addressTo sessionId command bytes]
        (own, (node.ctx.session i).sessionId) = [.ack] := by
      rw [answers_frameTo _ _ _ hlt hid, haddress, hsession.sessionId, hcommand,
        if_pos ⟨rfl, rfl⟩]
    have htoken := h i hw
    rw [answers_cons, hanswers] at htoken
    obtain ⟨rd', msg', hcurrent', hmem⟩ := htoken.ack.2.2 hstate
    obtain rfl := Option.some.inj (hcurrent.symm.trans hcurrent')
    obtain ⟨msg'', id, hstarted', rfl⟩ := hreports.started _ hmem
    obtain ⟨rfl, rfl⟩ := Prod.mk.inj (Option.some.inj (hstarted.symm.trans hstarted'))
    exact hmem
  · cases hcase

end Concludes

/-- The invariants hold in every run that gives away no id too early. -/
theorem Net.agrees_final {ctx : Side → Ctx} (hctx : ∀ side, (ctx side).Initial)
    (actions : List NetAction)
    (hbetween : ∀ action ∈ actions, action.Between fun side => (ctx side).ownAddress)
    (hfresh : ∀ before action after, actions = before ++ action :: after →
      action.Fresh (network.final (Net.initial ctx) before)) :
    (network.final (Net.initial ctx) actions).Ok (fun side => (ctx side).ownAddress) ∧
      (network.final (Net.initial ctx) actions).Agrees fun side => (ctx side).ownAddress := by
  induction actions using List.reverseRecOn with
  | nil =>
    refine ⟨Net.ok_initial hctx, fun x i hw => ?_⟩
    exact absurd ((hctx x).free i) (Session.isTx_iff.mp hw.isTx).1
  | append_singleton before action ih =>
    obtain ⟨hok, hagrees⟩ := ih (fun a ha => hbetween a (List.mem_append_left _ ha))
      fun b a after heq => hfresh b a (after ++ [action]) (by rw [heq]; simp)
    rw [network.final_append]
    exact ⟨hok.step (hbetween action (by simp)) (hagrees.calm hok action),
      hagrees.step hok (hfresh before action [] rfl)⟩

/-- **A transfer that is finished has been reported.**  Two devices with or without
validators send each other messages, or to all, in any order, with any clocks and any
memory; no acknowledged transfer gets an id that frames of an earlier one still have that
are on their way and need, or are, an acknowledgement.  Whenever a device then says that
a transfer is finished, it is the last one that it has started with this address and this
id; and if it is an acknowledged one, the other device has already reported what arrives
of its message, with its number. -/
theorem transfer_agreement {ctx : Side → Ctx} (hctx : ∀ side, (ctx side).Initial)
    (actions : List NetAction)
    (hbetween : ∀ action ∈ actions, action.Between fun side => (ctx side).ownAddress)
    (hfresh : ∀ before action after, actions = before ++ action :: after →
      action.Fresh (network.final (Net.initial ctx) before))
    (net : Net) (hnet : net = network.final (Net.initial ctx) actions) (action : NetAction)
    {output : Output} {result : Result}
    (hout : (network.step net action).2 = some (output, result))
    (hevent : output.event = .txFinished) :
    (net.node action.side).Concludes (net.node action.side.other).reported output := by
  obtain ⟨hok, hagrees⟩ := Net.agrees_final hctx actions hbetween hfresh
  rw [← hnet] at hok hagrees
  cases action with
  | startSend side msg readable nowMs env =>
    obtain ⟨r, hr, hquiet, -⟩ := startSend_spec (hok.node side).ctx readable nowMs env
    simp only [network, Node.startSend, Node.call, device, hr, Option.some.injEq] at hout
    rw [hout] at hquiet
    exact absurd (hevent.symm.trans hquiet.event) (by simp)
  | process side nowMs =>
    have hfst : ((net.node side).process nowMs).2.1 = output :=
      congrArg Prod.fst (Option.some.inj hout)
    rw [← hfst] at hevent ⊢
    exact (hok.node side).process_concludes nowMs hevent
  | deliver side nowMs env =>
    simp only [network] at hout
    cases hlink : net.link side.other with
    | nil =>
      rw [hlink] at hout
      exact absurd hout (by simp)
    | cons frame rest =>
      have hwire := hok.wire side.other
      have hother := hok.node side.other
      have hside := hagrees side
      rw [Side.other_other] at hwire hother
      rw [hlink] at hwire hout hside
      have hfst : ((net.node side).addFrame frame nowMs env).2.1 = output :=
        congrArg Prod.fst (Option.some.inj hout)
      rw [← hfst] at hevent ⊢
      exact hside.addFrame_concludes (hok.node side)
        (hother.ownAddress ▸ hother.ctx.ownAddress) (hother.wired frame (by rw [hwire]; simp))
        hother.reports nowMs env hevent

/-- Device 1 starts a message to device 2, and nothing goes wrong. -/
def smallAgreement : List NetAction :=
  [.startSend .a (smallMsg .withAck 1 2) ackedMsg_readable 0 .ample,
    .deliver .b 0 .ample, .deliver .a 0 .ample, .deliver .b 0 .ample, .deliver .a 0 .ample,
    .deliver .b 0 .ample]

/-- The last ACK arrives. -/
theorem transfer_agreement_smallNode :
    ((network.final (Net.initial (smallNode true)) smallAgreement).node .a).Concludes
      ((network.final (Net.initial (smallNode true)) smallAgreement).node .b).reported
      { event := .txFinished, peerAddress := 2 } := by
  have hbetween : ∀ action ∈ smallAgreement,
      action.Between fun side => (smallNode true side).ownAddress := by
    intro action haction
    simp only [smallAgreement, List.mem_cons, List.not_mem_nil, or_false] at haction
    rcases haction with rfl | rfl | rfl | rfl | rfl | rfl
    · exact .inl rfl
    all_goals trivial
  have hfresh : ∀ before action after, smallAgreement = before ++ action :: after →
      action.Fresh (network.final (Net.initial (smallNode true)) before) := by
    intro before action after heq
    cases before with
    | nil =>
      obtain ⟨rfl, -⟩ := List.cons.inj heq
      exact fun _ _ _ => ⟨fun c hc => absurd hc (by simp [traffic, commands, Net.initial]), rfl⟩
    | cons first before =>
      -- nothing is started any more
      have hmem : action ∈ smallAgreement.tail := by
        rw [heq]
        simp
      simp only [smallAgreement, List.tail_cons, List.mem_cons, List.not_mem_nil, or_false] at hmem
      rcases hmem with rfl | rfl | rfl | rfl | rfl <;> trivial
  exact transfer_agreement (smallNode_initial true) smallAgreement hbetween hfresh _ rfl
    (.deliver .a 0 .ample) rfl rfl

/-- Device 1 starts a message to device 2 three times, as the first two time out, and all
three have the same id. -/
def crossedAcks : List NetAction :=
  [.startSend .a (smallMsg .withAck 1 2) ackedMsg_readable 0 .ample, .process .a 101,
    .startSend .a (smallMsg .withAck 1 2) ackedMsg_readable 101 .ample, .process .a 202,
    .startSend .a (smallMsg .withAck 1 2) ackedMsg_readable 202 .ample,
    .deliver .b 202 .ample, .deliver .b 202 .ample, .deliver .b 202 .ample,
    .deliver .a 202 .ample, .deliver .a 202 .ample]

/-- The ACKs of the three STARTs take the third transfer to its end, when device 2 has not
even got the data. -/
theorem transfer_not_agreed :
    ((network.step (network.final (Net.initial (smallNode false)) crossedAcks)
        (.deliver .a 202 .ample)).2.map fun r => (r.1.event, r.1.peerAddress, r.1.sessionId)) =
      some (.txFinished, 2, 0) ∧
    ((network.final (Net.initial (smallNode false)) crossedAcks).node .b).reported = [] := by
  decide

end Imp
end UniCan
