import UniCan.Imp.Network

/-!
# What the two sides of a transfer agree on

The sender of a transfer has sent the first part of the message that it was started
with, and the receiver has kept what has arrived of it.  Between them there are only
frames in their order, so what the receiver has when the transfer stops is the whole
message, whatever has become of the transfers before it.

The one thing that would send a piece twice is a NACK for a START or for some data.
What is shown here is for devices that get no such NACK; that they do not is shown for
devices without a validator, and for those that do not give away an id too early.

## Main definitions

* `entry`, `Msg.delivered` — a transfer as it was started, and the message that should
  come of it.
* `Sender`, `Receiver`, `Reports` — what holds of the transfers that a device has
  started, of those that it is receiving, and of the messages that it has reported.
* `Node.Ok` — the invariant of one of two devices.
* `Ctx.Calm` — a frame does not make a device send a piece again.

## Main results

* `Node.Ok.startSend`, `Node.Ok.addFrame`, `Node.Ok.process` — **every call keeps the
  invariant**, as long as nothing is sent again.
-/

namespace UniCan
namespace Imp

/-! ### Messages -/

/-- A transfer as it was started, with its address and its id. -/
def entry (p : Msg × UInt8) : Entry (UInt8 × UInt8) MsgMode UInt8 where
  key := (p.1.addressTo, p.2)
  tag := if p.1.addressTo = deviceIdAll then .withoutAck else p.1.mode
  payload := p.1.bytes

/-- What arrives of a message that is sent with a session id. -/
def Msg.delivered (msg : Msg) (sessionId : UInt8) : Msg where
  mode := if msg.addressTo = deviceIdAll then .withoutAck else msg.mode
  addressFrom := msg.addressFrom
  addressTo := msg.addressTo
  sessionId := sessionId
  length := msg.length
  data := if msg.length > 0 then some msg.bytes else none

/-- The mark of an answer. -/
def replyMark (reply : Option (Cmd × List UInt8)) : Option (Mark MsgMode UInt8) :=
  reply.bind fun p => p.1.mark p.2

/-! ### A session that sends -/

/-- What a session has sent of its data. -/
def Session.emitted (s : Session) : List UInt8 :=
  match s.state with
  | .txWaitDataAck => s.data.take (s.payloadOffset.toNat + s.lastDataLength.toNat)
  | .txWaitEndAck => s.data
  | _ => s.data.take s.payloadOffset.toNat

/-- A session sends a transfer, of which so much has been sent. -/
structure Session.Carries (s : Session) (r : Reading MsgMode UInt8)
    (e : Entry (UInt8 × UInt8) MsgMode UInt8) : Prop where
  tag : e.tag = s.mode
  payload : e.payload = s.data
  data : r.data = s.emitted
  stopped : r.stopped = decide (s.state = .txWaitEndAck)

/-- A session goes on with its transfer, or gives it up. -/
def Session.Advances (s s' : Session) (reply : Option (Cmd × List UInt8)) : Prop :=
  ∀ r e, s.Carries r e →
    match replyMark reply with
    | none => sessionIsTx s' = true → s'.Carries r e
    | some mark => ∃ r', r.Goes e.payload mark r' ∧ (sessionIsTx s' = true → s'.Carries r' e)

section Tx

variable {own : UInt8} {limit : UInt16} {s s' : Session} {nowMs : UInt32} {command : Cmd}
  {reply : Option (Cmd × List UInt8)} {kind : Event}

@[simp] theorem sessionIsTx_release : sessionIsTx (sessionRelease s) = false := rfl

/-- A session that gives up its transfer. -/
theorem Session.advances_release (h : replyMark reply = none) :
    s.Advances (sessionRelease s) reply := by
  intro r e _
  rw [h]
  exact fun htx => absurd htx (by simp)

/-- What a session has sent whose last frame is acknowledged. -/
theorem Session.Acked.emitted {offset : UInt16} (h : s.Acked offset) :
    s.emitted = s.data.take offset.toNat ∧ s.state ≠ .txWaitEndAck := by
  cases h with
  | start hstate hoffset => simp [Session.emitted, hstate, hoffset]
  | data hstate hoffset => simp [Session.emitted, hstate, hoffset]

/-- **A session goes on with its transfer** at a command, if it sends no frame again. -/
theorem TxCase.advances (h : TxCase s nowMs command s' reply kind) (hok : s.Ok own limit)
    (hcalm : command = .nack → s.state ≠ .txWaitStartAck ∧ s.state ≠ .txWaitDataAck) :
    s.Advances s' reply := by
  cases h with
  | aborted | finished => exact Session.advances_release rfl
  | refused => exact Session.advances_release rfl
  | resentStart hstate => exact absurd hstate (hcalm rfl).1
  | resentData hstate => exact absurd hstate (hcalm rfl).2
  | ignored => exact fun r e hc _ => hc
  | @data offset length hacked hpos hle hin =>
    intro r e hc
    obtain ⟨hemitted, hwait⟩ := hacked.emitted
    -- the bytes of the frame are the next ones
    have hdata : r.data ++ readAt s.data offset.toNat length.toNat =
        s.data.take (offset.toNat + length.toNat) := by
      rw [hc.data, hemitted, readAt, List.take_add]
    refine ⟨_, .data (by rw [hc.stopped]; exact decide_eq_false hwait) ?_, fun _ => ?_⟩
    · rw [hdata, hc.payload]
      exact List.take_prefix _ _
    · exact ⟨hc.tag, hc.payload, hdata, hc.stopped.trans (by simp [hwait])⟩
  | end_ hacked =>
    intro r e hc
    obtain ⟨hemitted, hwait⟩ := hacked.emitted
    have hall : r.data = s.data := by
      rw [hc.data, hemitted]
      exact List.take_of_length_le (Nat.le_of_eq hok.length_data)
    refine ⟨_, .stop (by rw [hc.stopped]; exact decide_eq_false hwait) ?_, fun _ => ?_⟩
    · rw [hall, hc.payload]
    · exact ⟨hc.tag, hc.payload, hall, rfl⟩

/-- **A transfer without acknowledgement goes on** when time has passed. -/
theorem EmitCase.advances {frame : Cmd × List UInt8} (h : EmitCase s s' frame kind)
    (hok : s.Ok own limit) (hstate : s.state = .txWithoutAck) : s.Advances s' (some frame) := by
  have hemitted : s.emitted = s.data.take s.payloadOffset.toNat := by
    simp only [Session.emitted, hstate]
  intro r e hc
  have hopen : r.stopped = false := by
    rw [hc.stopped, hstate]
    rfl
  cases h with
  | @data offset length hpos hle hoffset hin =>
    have hdata : r.data ++ readAt s.data s.payloadOffset.toNat length =
        s.data.take offset.toNat := by
      rw [hc.data, hemitted, hoffset, readAt, List.take_add]
    refine ⟨_, .data hopen ?_, fun _ => ?_⟩
    · rw [hdata, hc.payload]
      exact List.take_prefix _ _
    · refine ⟨hc.tag, hc.payload, hdata.trans ?_, hc.stopped⟩
      simp only [Session.emitted, hstate]
      rfl
  | end_ heq =>
    refine ⟨_, .stop hopen ?_, fun htx => absurd htx (by simp)⟩
    rw [hc.data, hc.payload, hemitted, heq]
    exact List.take_of_length_le (Nat.le_of_eq hok.length_data)

end Tx

/-! ### A session that receives -/

/-- A session has kept what has arrived of a transfer. -/
structure Session.Reads (s : Session) (r : Reading MsgMode UInt8) : Prop where
  tag : r.tag = s.mode
  data : r.data = s.data
  stopped : r.stopped = false

section Rx

variable {ctx : Ctx} {s s' : Session} {bytes : List UInt8} {nowMs : UInt32} {command : Cmd}
  {reply : Option (Cmd × List UInt8)} {kind : Event} {received : Option Msg}

/-- **A session keeps what arrives of its transfer.** -/
theorem RxCase.reads (h : RxCase ctx s bytes nowMs command s' reply kind received)
    {sc : Scan (UInt8 × UInt8) MsgMode UInt8}
    (hreads : command ≠ .start → command ≠ .startWa → ∃ r, sc.current s.rxKey = some r ∧ s.Reads r)
    (hrx : s'.state = .rx) :
    s'.key = s.key ∧ ∃ mark, command.mark bytes = some mark ∧
      ∃ r', (sc.step (s.rxKey, mark)).current s.rxKey = some r' ∧ s'.Reads r' := by
  cases h with
  | aborted | refused | dropped | rejected | uncreated | finished =>
    exact absurd hrx (by simp [sessionRelease])
  | started hcommand =>
    refine ⟨rfl, .start (startMode command), ?_, _, Scan.current_start .., rfl, rfl, rfl⟩
    rcases hcommand with rfl | rfl <;> rfl
  | appended hcommand hbuffer hsize hcapacity hdata =>
    obtain ⟨r, hr, htag, hold, hopen⟩ := hreads (by rcases hcommand with rfl | rfl <;> simp)
      (by rcases hcommand with rfl | rfl <;> simp)
    refine ⟨rfl, .data bytes, ?_, { r with data := r.data ++ bytes }, ?_, htag, ?_, hopen⟩
    · rcases hcommand with rfl | rfl <;> rfl
    · rw [Scan.current_data, hr, Option.map_some]
    · rw [Session.data, hdata, hold]

end Rx

/-! ### What a device has sent -/

section Keys

variable {ctx : Ctx} {i j : ℕ}

/-- Two sessions that send have different addresses or ids. -/
theorem Ctx.Distinct.txKey_ne (hd : ctx.Distinct) (hctx : ctx.Ok)
    (hi : sessionIsTx (ctx.session i) = true) (hj : sessionIsTx (ctx.session j) = true)
    (hne : j ≠ i) : (ctx.session j).txKey ≠ (ctx.session i).txKey := by
  intro heq
  obtain ⟨hilive, -⟩ := Session.isTx_iff.mp hi
  obtain ⟨hjlive, -⟩ := Session.isTx_iff.mp hj
  obtain ⟨hpeer, hid⟩ := Prod.mk.inj heq
  refine hne (hd.unique j i (Ctx.lt_of_live hjlive) (Ctx.lt_of_live hilive) hjlive hilive ?_)
  rw [Session.key, Session.key, hpeer, hid, ((hctx.sessions j).tx hj).localAddress,
    ((hctx.sessions i).tx hi).localAddress]

end Keys

/-- The frames that a device has sent are those of the transfers that it has started,
and its sessions go on with them. -/
structure Sender (ctx : Ctx) (started : List (Msg × UInt8)) (sent : List CanMessage) : Prop where
  follows : Follows (started.map entry) (marks sent)
  starts : (scan (marks sent)).starts = started.length
  carries : ∀ i, sessionIsTx (ctx.session i) = true →
    ∃ r e, (scan (marks sent)).current (ctx.session i).txKey = some r ∧
      (started.map entry)[r.number]? = some e ∧ (ctx.session i).Carries r e
  messages : ∀ p ∈ started, p.1.addressFrom = ctx.ownAddress ∧
    p.1.length.toNat ≤ (p.1.data.getD []).length

namespace Sender

variable {ctx : Ctx} {started : List (Msg × UInt8)} {sent frames : List CanMessage} {i : ℕ}
  {s s' : Session} {reply : Option (Cmd × List UInt8)}

/-- Frames are sent that are none of its transfers. -/
theorem append (h : Sender ctx started sent) (hframes : marks frames = []) :
    Sender ctx started (sent ++ frames) := by
  have hmarks : marks (sent ++ frames) = marks sent := by
    rw [marks_append, hframes, List.append_nil]
  exact ⟨by rw [hmarks]; exact h.follows, by rw [hmarks]; exact h.starts,
    by rw [hmarks]; exact h.carries, h.messages⟩

/-- A session moves that sends nothing. -/
theorem quiet (h : Sender ctx started sent) (hi : i < ctx.sessions.length)
    (hs' : sessionIsTx s' = false) (hframes : marks frames = []) :
    Sender (ctx.setSession i s') started (sent ++ frames) := by
  obtain ⟨hfollows, hstarts, hcarries, hmessages⟩ := h.append hframes
  refine ⟨hfollows, hstarts, fun j htx => ?_, hmessages⟩
  rw [Ctx.session_setSession hi] at htx ⊢
  split_ifs at htx ⊢
  · exact absurd htx (by simp [hs'])
  · exact hcarries j htx

/-- **A session goes on with its transfer.** -/
theorem advance (h : Sender ctx started sent) (hctx : ctx.Ok) (hd : ctx.Distinct)
    (htx : sessionIsTx (ctx.session i) = true) (hkept : (ctx.session i).Kept s')
    (hadvances : (ctx.session i).Advances s' reply)
    (hframes : marks frames = (replyMark reply).toList.map fun mark =>
      ((ctx.session i).txKey, mark)) :
    Sender (ctx.setSession i s') started (sent ++ frames) := by
  have hi := Ctx.lt_of_live (Session.isTx_iff.mp htx).1
  obtain ⟨r, e, hr, he, hc⟩ := h.carries i htx
  have hstep := hadvances r e hc
  have hkey : sessionIsTx s' = true → s'.txKey = (ctx.session i).txKey := by
    intro htx'
    rcases hkept with hfree | ⟨hkey, -⟩
    · exact absurd hfree (Session.isTx_iff.mp htx').1
    · obtain ⟨hpeer, hrest⟩ := Prod.mk.inj hkey
      obtain ⟨-, hid⟩ := Prod.mk.inj hrest
      rw [Session.txKey, Session.txKey, hpeer, hid]
  cases hmark : replyMark reply with
  | none =>
    rw [hmark] at hstep hframes
    have hmarks : marks (sent ++ frames) = marks sent := by
      rw [marks_append, hframes]
      exact List.append_nil _
    refine ⟨by rw [hmarks]; exact h.follows, by rw [hmarks]; exact h.starts, fun j hj => ?_,
      h.messages⟩
    rw [Ctx.session_setSession hi] at hj ⊢
    rw [hmarks]
    split_ifs at hj ⊢
    · exact ⟨r, e, by rw [hkey hj]; exact hr, he, hstep hj⟩
    · exact h.carries j hj
  | some mark =>
    rw [hmark] at hstep hframes
    obtain ⟨r', hgoes, hc'⟩ := hstep
    obtain ⟨hallows, hr', hstarts, hnumber⟩ := hgoes.step hr he
    have hmarks : marks (sent ++ frames) = marks sent ++ [((ctx.session i).txKey, mark)] := by
      rw [marks_append, hframes]
      rfl
    refine ⟨?_, ?_, fun j hj => ?_, h.messages⟩
    · rw [hmarks]
      exact follows_concat.mpr ⟨h.follows, hallows⟩
    · rw [hmarks, scan_concat, hstarts]
      exact h.starts
    · rw [Ctx.session_setSession hi] at hj ⊢
      rw [hmarks, scan_concat]
      split_ifs at hj ⊢ with hji
      · exact ⟨r', e, by rw [hkey hj]; exact hr', by rw [hnumber]; exact he, hc' hj⟩
      · obtain ⟨rj, ej, hrj, hej, hcj⟩ := h.carries j hj
        refine ⟨rj, ej, ?_, hej, hcj⟩
        rw [Scan.current_step_of_ne _ (hd.txKey_ne hctx htx hj hji)]
        exact hrj

/-- The START of a transfer. -/
theorem mark_start {ctx : Ctx} {msg : Msg} {i u : ℕ} {output : Output}
    (hs : StartSend ctx msg i u s output) :
    marks output.frame.toList =
      [(s.txKey, .start (entry (msg, startSessionId ctx msg.addressTo u)).tag)] := by
  rw [hs.frame, Option.toList_some, marks, List.filterMap_cons,
    frameMark_frameTo ctx.ownAddress _ hs.addressTo_lt hs.sessionId_lt (Nat.zero_le _),
    List.filterMap_nil, Session.txKey, hs.peerAddress, hs.sessionId]
  have hknown := hs.known
  have hmode := hs.mode
  simp only [entry]
  rw [← hmode]
  cases hm : s.mode with
  | withoutAck => rfl
  | withAck => rfl
  | other =>
    rw [hm] at hmode
    split_ifs at hmode
    exact absurd hmode.symm hknown

/-- **A transfer starts.** -/
theorem start {msg : Msg} {u : ℕ} {output : Output} (h : Sender ctx started sent)
    (hs : StartSend ctx msg i u s output) :
    Sender (ctx.setSession i s) (started ++ [(msg, output.sessionId)])
      (sent ++ output.frame.toList) := by
  have hmarks := mark_start hs
  rw [← hs.outId] at hmarks
  set e := entry (msg, output.sessionId) with he
  have hkey : e.key = s.txKey := by
    rw [he, Session.txKey, hs.peerAddress, hs.sessionId, ← hs.outId]
    rfl
  have hstarts : (scan (marks sent)).starts = (started.map entry).length := by
    rw [List.length_map]
    exact h.starts
  have hlast : (started.map entry ++ [e])[started.length]? = some e := by
    rw [← List.length_map (f := entry)]
    exact List.getElem?_concat_length
  refine ⟨?_, ?_, fun j hj => ?_, fun p hp => ?_⟩
  · rw [marks_append, hmarks, List.map_append, ← hkey]
    exact follows_concat.mpr ⟨h.follows.mono (List.prefix_append _ _), allows_start hstarts⟩
  · rw [marks_append, hmarks, scan_concat, Scan.starts_start, h.starts, List.length_append]
    rfl
  · rw [Ctx.session_setSession hs.lt] at hj ⊢
    rw [marks_append, hmarks, scan_concat, List.map_append]
    split_ifs at hj ⊢ with hji
    · refine ⟨_, e, Scan.current_start .., ?_, hs.mode.symm, hs.data.symm, ?_, ?_⟩
      · rw [h.starts]
        exact hlast
      · have hoffset := hs.payloadOffset
        have hstate := hs.state
        split_ifs at hstate <;> simp [Session.emitted, hstate, hoffset]
      · have hstate := hs.state
        split_ifs at hstate <;> simp [hstate]
    · obtain ⟨r, e', hr, he', hc⟩ := h.carries j hj
      refine ⟨r, e', ?_, getElem?_of_prefix (List.prefix_append _ _) he', hc⟩
      rw [Scan.current_step_of_ne _ (hs.txKey_ne hj)]
      exact hr
  · rcases List.mem_append.mp hp with hold | hnew
    · exact h.messages p hold
    · rw [List.mem_singleton.mp hnew]
      exact ⟨hs.addressFrom, hs.readable⟩

end Sender

/-! ### What a device has got -/

/-- What a reader makes of one more frame. -/
theorem scan_marks_concat (got : List CanMessage) {frame : CanMessage} {key : UInt8 × UInt8}
    {mark : Option (Mark MsgMode UInt8)}
    (h : frameMark frame = mark.map fun m => (key, m)) :
    scan (marks (got ++ [frame])) =
      mark.elim (scan (marks got)) fun m => (scan (marks got)).step (key, m) := by
  have hframe : marks [frame] = (mark.map fun m => (key, m)).toList := by
    rw [← h]
    cases hm : frameMark frame <;> simp [marks, hm]
  rw [marks_append, hframe]
  cases mark with
  | none => exact congrArg scan (List.append_nil _)
  | some m => exact scan_concat _ _

/-- The sessions that receive have kept what has arrived of their transfers. -/
def Receiver (ctx : Ctx) (sc : Scan (UInt8 × UInt8) MsgMode UInt8) : Prop :=
  ∀ i, (ctx.session i).state = .rx →
    ∃ r, sc.current (ctx.session i).rxKey = some r ∧ (ctx.session i).Reads r

section Receiver

variable {ctx : Ctx} {sc : Scan (UInt8 × UInt8) MsgMode UInt8} {i : ℕ} {s' : Session}
  {key : UInt8 × UInt8} {mark : Option (Mark MsgMode UInt8)}

/-- A frame of another transfer. -/
theorem current_elim_of_ne {key' : UInt8 × UInt8} (h : key' ≠ key) :
    (mark.elim sc fun m => sc.step (key, m)).current key' = sc.current key' := by
  cases mark with
  | none => rfl
  | some m => exact Scan.current_step_of_ne _ h

/-- A frame that no session receives. -/
theorem Receiver.pass (h : Receiver ctx sc)
    (hne : ∀ j, (ctx.session j).state = .rx → (ctx.session j).rxKey ≠ key) :
    Receiver ctx (mark.elim sc fun m => sc.step (key, m)) := by
  intro j hj
  rw [current_elim_of_ne (hne j hj)]
  exact h j hj

/-- A session moves; no other one has anything to do with it. -/
theorem Receiver.setSession (h : Receiver ctx sc) (hi : i < ctx.sessions.length)
    (hne : ∀ j, j ≠ i → (ctx.session j).state = .rx → (ctx.session j).rxKey ≠ key)
    (hs' : s'.state = .rx → ∃ r,
      (mark.elim sc fun m => sc.step (key, m)).current s'.rxKey = some r ∧ s'.Reads r) :
    Receiver (ctx.setSession i s') (mark.elim sc fun m => sc.step (key, m)) := by
  intro j hj
  rw [Ctx.session_setSession hi] at hj ⊢
  split_ifs at hj ⊢ with hji
  · exact hs' hj
  · rw [current_elim_of_ne (hne j hji hj)]
    exact h j hj

/-- A session that does not receive moves. -/
theorem Receiver.quiet (h : Receiver ctx sc) (hi : i < ctx.sessions.length)
    (hs' : s'.state ≠ .rx) : Receiver (ctx.setSession i s') sc := by
  intro j hj
  rw [Ctx.session_setSession hi] at hj ⊢
  split_ifs at hj ⊢
  · exact absurd hj hs'
  · exact h j hj

end Receiver

/-! ### What a device has reported -/

/-- Every message that a device has reported is one that the other device has started,
and no two of them are the same. -/
structure Reports (started : List (Msg × UInt8)) (sc : Scan (UInt8 × UInt8) MsgMode UInt8)
    (reported : List (Msg × ℕ)) : Prop where
  spent : Spent sc (reported.map Prod.snd)
  started : ∀ p ∈ reported, ∃ msg id, started[p.2]? = some (msg, id) ∧ p.1 = msg.delivered id

section Reports

variable {started started' : List (Msg × UInt8)} {sc : Scan (UInt8 × UInt8) MsgMode UInt8}
  {reported : List (Msg × ℕ)}

theorem Reports.pass (h : Reports started sc reported) (key : UInt8 × UInt8)
    (mark : Option (Mark MsgMode UInt8)) :
    Reports started (mark.elim sc fun m => sc.step (key, m)) reported := by
  cases mark with
  | none => exact h
  | some m => exact ⟨h.spent.step _, h.started⟩

/-- More transfers are started. -/
theorem Reports.mono (h : Reports started sc reported) (hle : started <+: started') :
    Reports started' sc reported := by
  refine ⟨h.spent, fun p hp => ?_⟩
  obtain ⟨msg, id, hstarted, heq⟩ := h.started p hp
  exact ⟨msg, id, getElem?_of_prefix hle hstarted, heq⟩

/-- What a session has received is what arrives of the message. -/
theorem Session.msg_eq_delivered {own peer : UInt8} {limit : UInt16} {s : Session}
    (hok : s.Ok own limit) (hpeer : s.peerAddress = peer) {r : Reading MsgMode UInt8}
    (hreads : s.Reads r) {msg : Msg} {id : UInt8} (hfrom : msg.addressFrom = peer)
    (hlen : msg.length.toNat ≤ (msg.data.getD []).length)
    (he : entry (msg, id) = ⟨s.rxKey, r.tag, r.data⟩) : s.msg = msg.delivered id := by
  obtain ⟨hkey, htag, hdata⟩ := Entry.mk.inj he
  obtain ⟨hto, hid⟩ := Prod.mk.inj hkey
  simp only at hto hid htag hdata
  have hbytes : s.data = msg.bytes := by rw [hdata, hreads.data]
  have hsize : s.payloadSize = msg.length := by
    rw [← UInt16.toNat_inj, ← hok.length_data, hbytes, Msg.bytes, List.length_take]
    exact Nat.min_eq_left hlen
  have hmode : (if s.localAddress = deviceIdAll then MsgMode.withoutAck else s.mode) =
      if msg.addressTo = deviceIdAll then .withoutAck else msg.mode := by
    rw [htag, hreads.tag, ← hto]
    split_ifs with hall
    · rw [if_pos hall, hreads.tag] at htag
      exact htag
    · rfl
  rw [Session.msg, Msg.delivered, hmode, hbytes, hsize, hpeer, ← hfrom, hto, hid]

/-- **A transfer that stops is reported as it was started.** -/
theorem Reports.report {own peer : UInt8} {limit : UInt16} {s : Session} {got : List CanMessage}
    (h : Reports started (scan (marks got)) reported) (hok : s.Ok own limit)
    (hpeer : s.peerAddress = peer)
    (hmessages : ∀ p ∈ started, p.1.addressFrom = peer ∧
      p.1.length.toNat ≤ (p.1.data.getD []).length)
    {r : Reading MsgMode UInt8} (hr : (scan (marks got)).current s.rxKey = some r)
    (hreads : s.Reads r)
    (hfollows : Follows (started.map entry) (marks got ++ [(s.rxKey, .stop)])) :
    Reports started ((scan (marks got)).step (s.rxKey, .stop))
      (reported ++ [(s.msg, r.number)]) := by
  obtain ⟨-, hentry⟩ := hfollows.stop hr
  have hgot := hfollows.left
  obtain ⟨hlt, -⟩ := hgot.entry hr
  refine ⟨?_, fun p hp => ?_⟩
  · rw [List.map_append]
    refine h.spent.report hr hreads.stopped hlt fun k r' hr' hnumber => ?_
    obtain ⟨-, e, he, hkey, -⟩ := hgot.entry hr'
    rw [hnumber, hentry] at he
    obtain rfl := Option.some.inj he
    exact hkey.symm
  · rcases List.mem_append.mp hp with hold | hnew
    · exact h.started p hold
    · rw [List.mem_singleton.mp hnew]
      rw [List.getElem?_map] at hentry
      obtain ⟨⟨msg, id⟩, hstarted, he⟩ := Option.map_eq_some_iff.mp hentry
      obtain ⟨hfrom, hlen⟩ := hmessages _ (List.mem_of_getElem? hstarted)
      exact ⟨msg, id, hstarted, Session.msg_eq_delivered hok hpeer hreads hfrom hlen he⟩

end Reports

/-! ### The frames of an answer -/

/-- A frame of a transfer that goes on. -/
structure Plain (p : Cmd × List UInt8) : Prop where
  length : p.2.length ≤ maxLen
  start : ¬ (p.1 = .start ∨ p.1 = .startWa)

section Plain

variable {own peer : UInt8} {limit : UInt16} {ctx : Ctx} {s s' : Session} {nowMs : UInt32}
  {bytes : List UInt8} {command : Cmd} {reply : Option (Cmd × List UInt8)} {kind : Event}
  {received : Option Msg}

theorem Plain.of_nil (h : ¬ (command = .start ∨ command = .startWa)) : Plain (command, []) :=
  ⟨Nat.zero_le _, h⟩

/-- A sender that sends nothing again answers with a frame of its transfer. -/
theorem TxCase.plain (h : TxCase s nowMs command s' reply kind) (hok : s.Ok own limit)
    (hcalm : command = .nack → s.state ≠ .txWaitStartAck ∧ s.state ≠ .txWaitDataAck) :
    ∀ p ∈ reply, Plain p := by
  cases h with
  | aborted | finished | ignored => exact fun p hp => absurd hp (by simp)
  | refused | end_ => exact fun p hp => Option.some.inj hp ▸ Plain.of_nil (by simp)
  | resentStart hstate => exact absurd hstate (hcalm rfl).1
  | resentData hstate => exact absurd hstate (hcalm rfl).2
  | data hacked hpos hle hin =>
    rintro p ⟨⟩
    refine ⟨?_, by simp⟩
    rw [hok.length_readAt hin]
    exact hle

/-- A receiver answers with a frame that is none of a transfer of its own. -/
theorem RxCase.plain (h : RxCase ctx s bytes nowMs command s' reply kind received) :
    (∀ p ∈ reply, Plain p) ∧ replyMark reply = none := by
  constructor
  · intro p hp
    rcases h.reply_cases p hp with rfl | rfl | ⟨rfl, -⟩ <;> exact Plain.of_nil (by simp)
  · cases hreply : reply with
    | none => rfl
    | some p => rcases h.reply_cases p hreply with rfl | rfl | ⟨rfl, -⟩ <;> rfl

/-- A transfer without acknowledgement sends frames that need none. -/
theorem EmitCase.plain {frame : Cmd × List UInt8} (h : EmitCase s s' frame kind)
    (hok : s.Ok own limit) : Plain frame ∧ frame.1.withoutAck = true := by
  cases h with
  | data hpos hle hoffset hin =>
    refine ⟨⟨?_, by simp⟩, rfl⟩
    rw [hok.length_readAt (by omega)]
    exact hle
  | end_ => exact ⟨Plain.of_nil (by simp), rfl⟩

/-- A frame of an answer is one that one of two devices sends. -/
theorem Plain.wired {p : Cmd × List UInt8} (h : Plain p)
    (hto : s.peerAddress = peer ∨ s.peerAddress = deviceIdAll ∧ p.1.withoutAck = true)
    (hid : s.sessionId.toNat < 16) :
    Wired own peer (frameTo own s.peerAddress s.sessionId p.1 p.2) :=
  .intro hto hid h.length fun hstart => absurd hstart h.start

/-- The frame of an answer of a session with the other device is for that device. -/
theorem Reacts.wired {r : Session × Output} (h : Reacts own s r s' reply kind received)
    (hplain : ∀ p ∈ reply, Plain p) (hpeer : s.peerAddress = peer) (hok : s.Ok own limit) :
    ∀ frame ∈ r.2.frame.toList, Wired own peer frame := by
  intro frame hframe
  rw [h.frame, Option.mem_toList, Option.map_eq_some_iff] at hframe
  obtain ⟨p, hp, rfl⟩ := hframe
  exact (hplain p hp).wired (.inl hpeer) hok.sessionId

/-- What the frame of an answer means. -/
theorem Reacts.marks {r : Session × Output} (h : Reacts own s r s' reply kind received)
    (hok : s.Ok own limit) (hlen : ∀ p ∈ reply, p.2.length ≤ maxLen) :
    marks r.2.frame.toList = (replyMark reply).toList.map fun mark => (s.txKey, mark) := by
  rw [h.frame]
  cases reply with
  | none => rfl
  | some p =>
    have hframe := frameMark_frameTo own p.1 hok.peerAddress hok.sessionId (hlen p rfl)
    rw [Option.map_some, Option.toList_some, UniCan.Imp.marks, List.filterMap_cons, hframe]
    cases hmark : p.1.mark p.2 with
    | none => simp [replyMark, hmark]
    | some mark => simp [replyMark, hmark, Session.txKey]

end Plain

/-! ### The invariant of one device -/

/-- The sessions of a device are for transfers with the other one, or to all. -/
def Ctx.Paired (ctx : Ctx) (peer : UInt8) : Prop :=
  ∀ i, (ctx.session i).state ≠ .free → (ctx.session i).peerAddress = peer ∨
    (ctx.session i).peerAddress = deviceIdAll ∧ (ctx.session i).state = .txWithoutAck

/-- A frame does not make a device send a START or some data again. -/
def Ctx.Calm (ctx : Ctx) (frame : CanMessage) : Prop :=
  ∀ h ∈ heading ctx.ownAddress frame, h.command = .nack →
    ∀ i, ctx.Serves i h.addressFrom h.addressTo h.sessionId →
      (ctx.session i).state ≠ .txWaitStartAck ∧ (ctx.session i).state ≠ .txWaitDataAck

/-- The invariant of one of two devices; `peerStarted` is what the other one has
started to send. -/
structure Node.Ok (own peer : UInt8) (peerStarted : List (Msg × UInt8)) (node : Node) : Prop where
  ctx : node.ctx.Ok
  ownAddress : node.ctx.ownAddress = own
  distinct : node.ctx.Distinct
  paired : node.ctx.Paired peer
  wired : ∀ frame ∈ node.sent, Wired own peer frame
  sender : Sender node.ctx node.started node.sent
  receiver : Receiver node.ctx (scan (marks node.got))
  reports : Reports peerStarted (scan (marks node.got)) node.reported

section Paired

variable {ctx : Ctx} {peer : UInt8} {i : ℕ} {s : Session}

theorem Ctx.Paired.setSession (h : ctx.Paired peer) (hi : i < ctx.sessions.length)
    (hs : s.state ≠ .free → s.peerAddress = peer ∨
      s.peerAddress = deviceIdAll ∧ s.state = .txWithoutAck) :
    (ctx.setSession i s).Paired peer := by
  intro j
  rw [Ctx.session_setSession hi]
  split_ifs
  · exact hs
  · exact h j

/-- A session that receives is for a transfer of the other device. -/
theorem Ctx.Paired.rx (h : ctx.Paired peer) (hrx : (ctx.session i).state = .rx) :
    (ctx.session i).peerAddress = peer :=
  (h i (by simp [hrx])).resolve_right fun hb => absurd (hrx.symm.trans hb.2) (by simp)

/-- Two sessions for transfers of the other device have different addresses or ids. -/
theorem Ctx.Distinct.rxKey_ne (hd : ctx.Distinct) (hpaired : ctx.Paired peer)
    (hi : i < ctx.sessions.length) (hlive : (ctx.session i).state ≠ .free)
    (hpeer : (ctx.session i).peerAddress = peer) {j : ℕ} (hj : j ≠ i)
    (hrx : (ctx.session j).state = .rx) : (ctx.session j).rxKey ≠ (ctx.session i).rxKey := by
  intro heq
  obtain ⟨hlocal, hid⟩ := Prod.mk.inj heq
  have hjlive : (ctx.session j).state ≠ .free := by simp [hrx]
  refine hj (hd.unique j i (Ctx.lt_of_live hjlive) hi hjlive hlive ?_)
  rw [Session.key, Session.key, hlocal, hid, hpaired.rx hrx, hpeer]

end Paired

/-! ### A frame arrives -/

section Arrival

variable {ctx : Ctx} {node : Node} {s s' : Session} {nowMs : UInt32} {bytes : List UInt8}
  {command : Cmd} {reply : Option (Cmd × List UInt8)} {kind : Event} {received : Option Msg}

theorem frameSession_eq_none {addressFrom addressTo sessionId : UInt8}
    (h : frameSession ctx addressFrom addressTo sessionId command nowMs = none) :
    findSession ctx addressFrom addressTo sessionId = none := by
  unfold frameSession at h
  cases hfind : findSession ctx addressFrom addressTo sessionId with
  | none => rfl
  | some i =>
    rw [hfind] at h
    exact absurd h (by simp)

/-- Only a message that is complete is reported. -/
theorem RxCase.report_cases (h : RxCase ctx s bytes nowMs command s' reply kind received) :
    received = none ∨ command.mark bytes = some .stop ∧ kind = .rxFinished ∧
      received = some s.msg := by
  cases h with
  | finished hcommand =>
    refine .inr ⟨?_, rfl, rfl⟩
    rcases hcommand with rfl | rfl <;> rfl
  | _ => exact .inl rfl

theorem Node.report_eq_nil {output : Output} (h : output.receivedMessage = none) :
    node.report output = [] := by
  rw [Node.report, h]
  split_ifs <;> rfl

/-- A message that is complete is reported with its number. -/
theorem Node.report_eq_singleton {output : Output} {s : Session} {r : Reading MsgMode UInt8}
    (hevent : output.event = .rxFinished) (hmessage : output.receivedMessage = some s.msg)
    (hr : (scan (marks node.got)).current s.rxKey = some r) :
    node.report output = [(s.msg, r.number)] := by
  have harrived : node.arrived s.msg = r.number := by
    have hcurrent : (scan (marks node.got)).current (s.msg.addressTo, s.msg.sessionId) =
        some r := hr
    rw [Node.arrived, hcurrent]
    rfl
  rw [Node.report, if_pos hevent, hmessage, Option.toList_some, List.map_singleton, harrived]

end Arrival

/-! ### Every call -/

namespace Node.Ok

variable {own peer : UInt8} {peerStarted peerStarted' : List (Msg × UInt8)} {node : Node}

/-- The other device starts more transfers. -/
theorem mono (h : node.Ok own peer peerStarted) (hle : peerStarted <+: peerStarted') :
    node.Ok own peer peerStarted' :=
  ⟨h.ctx, h.ownAddress, h.distinct, h.paired, h.wired, h.sender, h.receiver, h.reports.mono hle⟩

/-- The START of a transfer is a frame that one of two devices sends. -/
theorem wired_start (h : node.Ok own peer peerStarted) {msg : Msg} {i u : ℕ} {s : Session}
    {output : Output} (hs : StartSend node.ctx msg i u s output)
    (hto : msg.addressTo = peer ∨ msg.addressTo = deviceIdAll) :
    ∀ frame ∈ output.frame.toList, Wired own peer frame := by
  intro frame hframe
  rw [hs.frame, Option.toList_some, List.mem_singleton] at hframe
  rw [hframe, h.ownAddress]
  refine .intro ?_ hs.sessionId_lt (Nat.zero_le _) fun _ hpeer => ?_
  · refine hto.imp_right fun hall => ⟨hall, ?_⟩
    have hmode := hs.mode
    rw [if_pos hall] at hmode
    rw [if_pos hmode]
    rfl
  · rw [toNat_startSessionId _ _ hs.u_lt, hpeer, h.ownAddress, idBit]
    split_ifs <;> omega

/-- **A call to send** keeps the invariant. -/
theorem startSend (h : node.Ok own peer peerStarted) {msg : Msg} (readable : msg.Readable)
    (nowMs : UInt32) (env : Env) (hto : msg.addressTo = peer ∨ msg.addressTo = deviceIdAll) :
    (node.startSend msg readable nowMs env).1.Ok own peer peerStarted := by
  obtain ⟨r, hr, hquiet, hcase⟩ := startSend_spec h.ctx readable nowMs env
  have hdistinct := h.distinct.step (.startSend msg readable nowMs env) h.ctx trivial
  simp only [device, hr] at hdistinct
  simp only [Node.startSend, Node.call, device, hr]
  rcases hcase with ⟨hsame, hframe, hres⟩ | ⟨hres, i, u, s, hset, hs, -⟩
  · rw [hsame, hframe, if_neg hres, Option.toList_none, List.append_nil, List.append_nil]
    exact h
  · rw [hset] at hdistinct
    rw [hset, if_pos hres]
    have hstate : s.state = .txWithoutAck ∨ s.state = .txWaitStartAck := by
      rw [hs.state]
      split_ifs <;> simp
    refine ⟨h.ctx.setSession hs.lt hs.ok, h.ownAddress, hdistinct,
      h.paired.setSession hs.lt fun _ => ?_, fun frame hframe => ?_,
      h.sender.start hs, h.receiver.quiet hs.lt ?_, h.reports⟩
    · rw [hs.peerAddress]
      refine hto.imp_right fun hall => ⟨hall, ?_⟩
      rw [hs.state, hs.mode, if_pos hall, if_pos rfl]
    · rcases List.mem_append.mp hframe with hold | hnew
      · exact h.wired frame hold
      · exact h.wired_start hs hto frame hnew
    · rcases hstate with hstate | hstate <;> simp [hstate]

/-- **A call because time has passed** keeps the invariant. -/
theorem process (h : node.Ok own peer peerStarted) (nowMs : UInt32) :
    (node.process nowMs).1.Ok own peer peerStarted := by
  obtain ⟨r, hr, -, hcase⟩ := process_spec h.ctx nowMs
  have hdistinct := h.distinct.step (.process nowMs) h.ctx trivial
  simp only [device, hr] at hdistinct
  simp only [Node.process, Node.call, device, hr]
  rcases hcase with ⟨hsame, hout⟩ | ⟨i, s', reply, kind, hi, hcase, hok, hset, hreacts⟩
  · rw [hsame, hout, Option.toList_none, List.append_nil]
    exact h
  rw [hset] at hdistinct
  rw [hset]
  have hsok := h.ctx.sessions i
  rcases hcase with ⟨htimed, rfl, rfl, -⟩ | ⟨hstate, frame, rfl, hemit⟩
  · -- the session is released, and nothing is sent
    have hframe : r.2.1.frame = none := hreacts.frame
    rw [hframe]
    refine ⟨h.ctx.setSession hi hok, h.ownAddress, hdistinct,
      h.paired.setSession hi fun hlive => absurd rfl hlive, ?_, h.sender.quiet hi rfl rfl,
      h.receiver.quiet hi (by simp [sessionRelease]), h.reports⟩
    rw [Option.toList_none, List.append_nil]
    exact h.wired
  · have htx : sessionIsTx (node.ctx.session i) = true := by simp [sessionIsTx, hstate]
    have hkept := hemit.kept hstate
    obtain ⟨hplain, hack⟩ := hemit.plain hsok
    have hmarks := hreacts.marks hsok fun p hp => Option.some.inj hp ▸ hplain.length
    have hpeer := h.paired i (by simp [hstate])
    refine ⟨h.ctx.setSession hi hok, h.ownAddress, hdistinct,
      h.paired.setSession hi fun hlive => ?_, fun f hf => ?_,
      h.sender.advance h.ctx h.distinct htx hkept (hemit.advances hsok hstate) hmarks,
      h.receiver.quiet hi ?_, h.reports⟩
    · cases hemit with
      | data => exact hpeer
      | end_ => exact absurd rfl hlive
    · rcases List.mem_append.mp hf with hold | hnew
      · exact h.wired f hold
      · have hframe : r.2.1.frame = _ := hreacts.frame
        rw [hframe, Option.map_some, Option.toList_some, List.mem_singleton] at hnew
        rw [hnew, h.ownAddress]
        exact hplain.wired (hpeer.imp_right fun hb => ⟨hb.1, hack⟩) hsok.sessionId
    · cases hemit with
      | data => simp [hstate]
      | end_ => simp [sessionRelease]

/-- What arrives is for no session: there is nothing to keep, and nothing to report. -/
theorem addFrame_pass (h : node.Ok own peer peerStarted) {frame : CanMessage}
    {key : UInt8 × UInt8} {mark : Option (Mark MsgMode UInt8)} {frames : List CanMessage}
    (hmark : frameMark frame = mark.map fun m => (key, m))
    (hne : ∀ j, (node.ctx.session j).state = .rx → (node.ctx.session j).rxKey ≠ key)
    (hframes : marks frames = []) (hwired : ∀ f ∈ frames, Wired own peer f) :
    Node.Ok own peer peerStarted { node with
      sent := node.sent ++ frames
      got := node.got ++ [frame] } := by
  have hscan := scan_marks_concat node.got hmark
  refine ⟨h.ctx, h.ownAddress, h.distinct, h.paired, fun f hf => ?_, h.sender.append hframes, ?_,
    ?_⟩
  · rcases List.mem_append.mp hf with hold | hnew
    · exact h.wired f hold
    · exact hwired f hnew
  · rw [hscan]
    exact h.receiver.pass hne
  · rw [hscan]
    exact h.reports.pass key mark

/-- What arrives is for a session that sends. -/
theorem addFrame_tx (h : node.Ok own peer peerStarted) {frame : CanMessage}
    {key : UInt8 × UInt8} {mark : Option (Mark MsgMode UInt8)} {i : ℕ} {s' : Session}
    {nowMs : UInt32} {command : Cmd} {reply : Option (Cmd × List UInt8)} {kind : Event}
    {output : Output} (hmark : frameMark frame = mark.map fun m => (key, m))
    (hne : ∀ j, j ≠ i → (node.ctx.session j).state = .rx → (node.ctx.session j).rxKey ≠ key)
    (htx : sessionIsTx (node.ctx.session i) = true)
    (hpeer : (node.ctx.session i).peerAddress = peer)
    (hcase : TxCase (node.ctx.session i) nowMs command s' reply kind)
    (hcalm : command = .nack → (node.ctx.session i).state ≠ .txWaitStartAck ∧
      (node.ctx.session i).state ≠ .txWaitDataAck)
    (hdistinct : (node.ctx.setSession i s').Distinct)
    (hreacts : Reacts own (node.ctx.session i) (s', output) s' reply kind none) :
    Node.Ok own peer peerStarted { node with
      ctx := node.ctx.setSession i s'
      sent := node.sent ++ output.frame.toList
      got := node.got ++ [frame] } := by
  have hi := Ctx.lt_of_live (Session.isTx_iff.mp htx).1
  have hsok : (node.ctx.session i).Ok own node.ctx.maxMessageSize := h.ownAddress ▸ h.ctx.sessions i
  have hplain := hcase.plain hsok hcalm
  have hmarks := hreacts.marks hsok fun p hp => (hplain p hp).length
  have hkept := hcase.kept htx
  have hscan := scan_marks_concat node.got hmark
  have hnotrx : s'.state ≠ .rx := by
    intro hrx
    rcases hkept with hfree | ⟨-, -, hiff⟩
    · exact absurd (hrx.symm.trans hfree) (by simp)
    · exact (Session.isTx_iff.mp htx).2 (hiff.mp hrx)
  refine ⟨h.ctx.setSession hi (hcase.ok (h.ctx.sessions i) htx), h.ownAddress, hdistinct,
    h.paired.setSession hi fun hlive => ?_, fun f hf => ?_,
    h.sender.advance h.ctx h.distinct htx hkept (hcase.advances hsok hcalm) hmarks, ?_, ?_⟩
  · rcases hkept with hfree | ⟨hkey, -⟩
    · exact absurd hfree hlive
    · exact .inl ((Prod.mk.inj hkey).1.trans hpeer)
  · rcases List.mem_append.mp hf with hold | hnew
    · exact h.wired f hold
    · exact hreacts.wired hplain hpeer hsok f hnew
  · rw [hscan]
    exact h.receiver.setSession hi hne fun hrx => absurd hrx hnotrx
  · rw [hscan]
    exact h.reports.pass key mark

/-- What arrives is for a session that receives, or opens one. -/
theorem addFrame_rx (h : node.Ok own peer peerStarted) {frame : CanMessage}
    {key : UInt8 × UInt8} {i : ℕ} {s s' : Session} {nowMs : UInt32} {bytes : List UInt8}
    {command : Cmd} {reply : Option (Cmd × List UInt8)} {kind : Event} {received : Option Msg}
    {output : Output}
    (hmark : frameMark frame = (command.mark bytes).map fun m => (key, m))
    (hfollows : Follows (peerStarted.map entry) (marks (node.got ++ [frame])))
    (hmessages : ∀ p ∈ peerStarted, p.1.addressFrom = peer ∧
      p.1.length.toNat ≤ (p.1.data.getD []).length)
    (hi : i < node.ctx.sessions.length)
    (hne : ∀ j, j ≠ i → (node.ctx.session j).state = .rx → (node.ctx.session j).rxKey ≠ key)
    (hrx : s.state = .rx) (hkey : s.rxKey = key) (hpeer : s.peerAddress = peer)
    (hsok : s.Ok own node.ctx.maxMessageSize)
    (horigin : command ≠ .start → command ≠ .startWa → s = node.ctx.session i)
    (hcase : RxCase node.ctx s bytes nowMs command s' reply kind received)
    (hok : s'.Ok own node.ctx.maxMessageSize)
    (hdistinct : (node.ctx.setSession i s').Distinct)
    (hreacts : Reacts own s (s', output) s' reply kind received) :
    Node.Ok own peer peerStarted { node with
      ctx := node.ctx.setSession i s'
      sent := node.sent ++ output.frame.toList
      got := node.got ++ [frame]
      reported := node.reported ++ node.report output } := by
  obtain ⟨hplain, hnomark⟩ := hcase.plain
  have hmarks : marks output.frame.toList = [] := by
    rw [hreacts.marks hsok fun p hp => (hplain p hp).length, hnomark]
    rfl
  have hkept := hcase.kept hrx
  have hnottx : sessionIsTx s' = false := by
    rw [Bool.eq_false_iff]
    intro htx
    obtain ⟨hlive, hnotrx⟩ := Session.isTx_iff.mp htx
    rcases hkept with hfree | ⟨-, -, hiff⟩
    · exact hlive hfree
    · exact hnotrx (hiff.mpr hrx)
  have hscan := scan_marks_concat node.got hmark
  -- what the session has kept so far
  have hreads : command ≠ .start → command ≠ .startWa →
      ∃ r, (scan (marks node.got)).current s.rxKey = some r ∧ s.Reads r := by
    intro hstart hstartWa
    obtain rfl := horigin hstart hstartWa
    exact h.receiver i hrx
  refine ⟨h.ctx.setSession hi (by rw [h.ownAddress]; exact hok), h.ownAddress, hdistinct,
    h.paired.setSession hi fun hlive => ?_, fun f hf => ?_, h.sender.quiet hi hnottx hmarks, ?_, ?_⟩
  · rcases hkept with hfree | ⟨hkey', -⟩
    · exact absurd hfree hlive
    · exact .inl ((Prod.mk.inj hkey').1.trans hpeer)
  · rcases List.mem_append.mp hf with hold | hnew
    · exact h.wired f hold
    · exact hreacts.wired hplain hpeer hsok f hnew
  · rw [hscan]
    refine h.receiver.setSession hi hne fun hrx' => ?_
    obtain ⟨hkey', mark, hm, r', hr', hreads'⟩ := hcase.reads hreads hrx'
    obtain ⟨-, hrest⟩ := Prod.mk.inj hkey'
    have hsame : s'.rxKey = key := hrest.trans hkey
    rw [hm, hsame, ← hkey]
    exact ⟨r', hr', hreads'⟩
  · rcases hcase.report_cases with hnone | ⟨hstop, hfinished, hmsg⟩
    · rw [Node.report_eq_nil (hreacts.message.trans hnone), List.append_nil, hscan]
      exact h.reports.pass key _
    · -- the message is the one that was started
      have hevent : output.event = .rxFinished := hreacts.event.trans hfinished
      obtain ⟨r, hr, hread⟩ := hreads (by rintro rfl; cases hstop) (by rintro rfl; cases hstop)
      have hreport : node.report output = [(s.msg, r.number)] :=
        Node.report_eq_singleton hevent (hreacts.message.trans hmsg) hr
      have hstream : marks (node.got ++ [frame]) = marks node.got ++ [(s.rxKey, .stop)] := by
        rw [marks_append, hkey]
        congr 1
        rw [marks, List.filterMap_cons, hmark, hstop]
        rfl
      rw [hreport, hscan, hstop, ← hkey]
      rw [hstream] at hfollows
      exact h.reports.report hsok hpeer hmessages hr hread hfollows

/-- **A frame of the other device** keeps the invariant. -/
theorem addFrame (h : node.Ok own peer peerStarted) (hpeer : peer.toNat < 31)
    {frame : CanMessage} (hwired : Wired peer own frame)
    (hfollows : Follows (peerStarted.map entry) (marks (node.got ++ [frame])))
    (hmessages : ∀ p ∈ peerStarted, p.1.addressFrom = peer ∧
      p.1.length.toNat ≤ (p.1.data.getD []).length)
    (hcalm : node.ctx.Calm frame) (nowMs : UInt32) (env : Env) :
    (node.addFrame frame nowMs env).1.Ok own peer peerStarted := by
  have hown : own.toNat < 31 := h.ownAddress ▸ h.ctx.ownAddress
  have hdistinct := h.distinct.step (.addFrame frame nowMs env) h.ctx fun hd hhd => by
    rw [h.ownAddress] at hhd ⊢
    exact hwired.keeps hown hpeer hhd
  obtain ⟨addressTo, sessionId, command, bytes, rfl, hto, hlt, hid, hlen, r, hr, hcase⟩ :=
    hwired.addFrame_cases h.ctx h.ownAddress hpeer nowMs env
  simp only [device, hr] at hdistinct
  simp only [Node.addFrame, Node.call, device, hr]
  have hmark := frameMark_frameTo peer command hlt hid hlen
  rcases hcase with ⟨hnosession, hsame, hquiet, hframe⟩ |
    ⟨i, s, s', reply, kind, received, hhandles, hsession, hsok, hok, hset, hreacts⟩
  · rw [Node.report_eq_nil hquiet.message, List.append_nil, hsame]
    refine h.addFrame_pass hmark (fun j hrx heq => ?_) ?_ fun f hf => ?_
    · obtain ⟨hlocal, hsid⟩ := Prod.mk.inj heq
      have hlive : (node.ctx.session j).state ≠ .free := by simp [hrx]
      exact findSession_eq_none (frameSession_eq_none hnosession)
        ⟨Ctx.lt_of_live hlive, hlive, h.paired.rx hrx, hlocal, hsid⟩
    · rw [hframe]
      exact marks_abort (Nat.lt_succ_of_lt hpeer) hid
    · rw [hframe] at hf
      split_ifs at hf
      · exact absurd hf (by simp)
      · rw [Option.toList_some, List.mem_singleton] at hf
        rw [hf]
        exact .intro (.inl rfl) hid (Nat.zero_le _) fun hstart => absurd hstart (by simp)
  · have hkey : s.rxKey = (addressTo, sessionId) := by
      rw [Session.rxKey, hsession.localAddress, hsession.sessionId]
    -- no other session is for this frame
    have hne : ∀ j, j ≠ i → (node.ctx.session j).state = .rx →
        (node.ctx.session j).rxKey ≠ (addressTo, sessionId) := by
      intro j hj hrx
      rcases hsession.origin with rfl | ⟨-, -, hnone, -⟩
      · rw [← hkey]
        exact h.distinct.rxKey_ne h.paired hsession.lt hsession.live hsession.peerAddress hj hrx
      · intro heq
        obtain ⟨hlocal, hsid⟩ := Prod.mk.inj heq
        have hlive : (node.ctx.session j).state ≠ .free := by simp [hrx]
        exact hnone j ⟨Ctx.lt_of_live hlive, hlive, h.paired.rx hrx, hlocal, hsid⟩
    rw [hset] at hdistinct
    rw [hset]
    rcases hhandles.moves with ⟨htx, rfl, hcase⟩ | ⟨hrx, hcase⟩
    · obtain rfl := hsession.eq_of_isTx htx
      rw [Node.report_eq_nil hreacts.message, List.append_nil]
      refine h.addFrame_tx hmark hne htx hsession.peerAddress hcase (fun hnack => ?_) hdistinct
        hreacts
      have hheading := heading_frameTo hpeer hto hown hid hlen
      refine hcalm _ (by rw [h.ownAddress]; exact hheading) hnack i ?_
      exact ⟨hsession.lt, hsession.live, hsession.peerAddress, hsession.localAddress,
        hsession.sessionId⟩
    · refine h.addFrame_rx hmark hfollows hmessages hsession.lt hne hrx hkey hsession.peerAddress
        hsok (fun hstart hstartWa => ?_) hcase hok hdistinct hreacts
      rcases hsession.origin with hs | ⟨-, hcommand, -⟩
      · exact hs
      · exact absurd hcommand (by simp [hstart, hstartWa])

end Node.Ok

/-! ### The invariant of both devices -/

namespace Net

variable {net : Net} {side : Side} {r : Node × Output × Result} {address : Side → UInt8}

@[simp] theorem after_node_self : (net.after side r).node side = r.1 := Function.update_self ..

@[simp] theorem after_node_other : (net.after side r).node side.other = net.node side.other :=
  Function.update_of_ne side.other_ne _ _

@[simp] theorem after_link_self :
    (net.after side r).link side = net.link side ++ r.2.1.frame.toList :=
  Function.update_self ..

@[simp] theorem after_link_other : (net.after side r).link side.other = net.link side.other :=
  Function.update_of_ne side.other_ne _ _

@[simp] theorem drop_node : (net.drop side).node = net.node := rfl

@[simp] theorem drop_link_self : (net.drop side).link side = (net.link side).tail :=
  Function.update_self ..

@[simp] theorem drop_link_other : (net.drop side).link side.other = net.link side.other :=
  Function.update_of_ne side.other_ne _ _

@[simp] theorem drop_other_link : (net.drop side.other).link side = net.link side := by
  have h : (net.drop side.other).link side.other.other = net.link side.other.other :=
    drop_link_other
  rwa [Side.other_other] at h

/-- The invariant of two devices: what one has sent is what the other has got, and then
what is on its way. -/
structure Ok (address : Side → UInt8) (net : Net) : Prop where
  node : ∀ x, (net.node x).Ok (address x) (address x.other) (net.node x.other).started
  wire : ∀ x, (net.node x).sent = (net.node x.other).got ++ net.link x

/-- One of the two moves. -/
theorem Ok.after (hnode : ∀ x, (net.node x).Ok (address x) (address x.other)
      (net.node x.other).started)
    (hr : r.1.Ok (address side) (address side.other) (net.node side.other).started)
    (hstarted : (net.node side).started <+: r.1.started)
    (hsent : r.1.sent = (net.node side.other).got ++ (net.link side ++ r.2.1.frame.toList))
    (hgot : (net.node side.other).sent = r.1.got ++ net.link side.other) :
    (net.after side r).Ok address where
  node x := by
    rcases side.eq_or_other x with rfl | rfl
    · rw [after_node_self, after_node_other]
      exact hr
    · have hother := hnode side.other
      rw [Side.other_other] at hother
      rw [Side.other_other, after_node_self, after_node_other]
      exact hother.mono hstarted
  wire x := by
    rcases side.eq_or_other x with rfl | rfl
    · rw [after_node_self, after_node_other, after_link_self]
      exact hsent
    · rw [Side.other_other, after_node_self, after_node_other, after_link_other]
      exact hgot

end Net

/-- The next frame on its way to a device does not make it send something again. -/
def NetAction.Calm (net : Net) : NetAction → Prop
  | .deliver side _ _ => ∀ frame ∈ (net.link side.other).head?, (net.node side).ctx.Calm frame
  | _ => True

/-- **Whatever happens keeps the invariant**, if nothing is sent again. -/
theorem Net.Ok.step {address : Side → UInt8} {net : Net} (h : net.Ok address) {action : NetAction}
    (hbetween : action.Between address) (hcalm : action.Calm net) :
    (network.step net action).1.Ok address := by
  cases action with
  | startSend side msg readable nowMs env =>
    refine Net.Ok.after h.node ((h.node side).startSend readable nowMs env hbetween)
      (List.prefix_append _ _) ?_ (h.wire side.other ▸ ?_)
    · rw [← List.append_assoc, ← h.wire side]
      rfl
    · rw [Side.other_other]
      rfl
  | process side nowMs =>
    refine Net.Ok.after h.node ((h.node side).process nowMs) List.prefix_rfl ?_
      (h.wire side.other ▸ ?_)
    · rw [← List.append_assoc, ← h.wire side]
      rfl
    · rw [Side.other_other]
      rfl
  | deliver side nowMs env =>
    simp only [network]
    cases hlink : net.link side.other with
    | nil => exact h
    | cons frame rest =>
      have hwire := h.wire side.other
      rw [Side.other_other, hlink, List.append_cons] at hwire
      have hother := h.node side.other
      rw [Side.other_other] at hother
      -- the frame is the next one that the other device has sent
      have hwired : Wired (address side.other) (address side) frame :=
        hother.wired frame (by rw [hwire]; simp)
      have hfollows : Follows ((net.node side.other).started.map entry)
          (marks ((net.node side).got ++ [frame])) := by
        have hall := hother.sender.follows
        rw [hwire, marks_append] at hall
        exact hall.left
      have hmessages := hother.sender.messages
      rw [hother.ownAddress] at hmessages
      have hlt : (address side.other).toNat < 31 := hother.ownAddress ▸ hother.ctx.ownAddress
      have hnode := (h.node side).addFrame hlt hwired hfollows hmessages
        (hcalm frame (by rw [hlink]; rfl)) nowMs env
      refine Net.Ok.after h.node hnode List.prefix_rfl ?_ ?_
      · rw [Net.drop_node, Net.drop_other_link, ← List.append_assoc, ← h.wire side]
        rfl
      · rw [Net.drop_node, Net.drop_link_self, hlink, hwire]
        rfl

/-- Two devices that were just set up. -/
theorem Net.ok_initial {ctx : Side → Ctx} (hctx : ∀ side, (ctx side).Initial) :
    (Net.initial ctx).Ok fun side => (ctx side).ownAddress where
  node x := {
    ctx := (hctx x).ok
    ownAddress := rfl
    distinct := (hctx x).distinct
    paired := fun i hlive => absurd ((hctx x).free i) hlive
    wired := fun _ h => absurd h (by simp [Net.initial])
    sender := {
      follows := follows_nil
      starts := rfl
      carries := fun i htx => absurd ((hctx x).free i) (Session.isTx_iff.mp htx).1
      messages := fun _ h => absurd h (by simp [Net.initial]) }
    receiver := fun i hrx => absurd (hrx.symm.trans ((hctx x).free i)) (by simp)
    reports := ⟨spent_nil, fun _ h => absurd h (by simp [Net.initial])⟩ }
  wire _ := rfl

end Imp
end UniCan
