import UniCan.Imp.Transfer

/-!
# What a device receives

A device may get any frames: of any number of peers, damaged, out of order, or with
parts of transfers missing.  What it reports is still a transfer that was there: it began
with a START, its data came in between, and it stopped, and no other piece of it was among
them.  All this takes is that no peer starts a transfer with an id that is for the
transfers of the device itself.

## Main definitions

* `pieceOf`, `piecesOf` — the frames of one peer as a stream of transfers.
* `Node.hear`, `listener` — a device that keeps what it has reported.
* `Whole` — a report is of a transfer that was there.
* `Node.Hears` — the invariant of such a device.

## Main results

* `reception_sound` — **every report is of a whole transfer, and no transfer is
  reported twice.**
-/

namespace UniCan
namespace Imp

/-! ### The frames of a peer -/

/-- What a frame means for a transfer of a peer, if whoever gets it pays it any heed. -/
def pieceOf (peer : UInt8) (frame : CanMessage) :
    Option ((UInt8 × UInt8) × Mark MsgMode UInt8) :=
  (heading (canidGetTo frame.id) frame).bind fun h =>
    if h.addressFrom = peer then
      (h.command.mark frame.bytes).map fun mark => ((h.addressTo, h.sessionId), mark)
    else none

/-- The frames of a peer as a stream of transfers. -/
def piecesOf (peer : UInt8) (frames : List CanMessage) :
    List ((UInt8 × UInt8) × Mark MsgMode UInt8) :=
  frames.filterMap (pieceOf peer)

@[simp] theorem piecesOf_append (peer : UInt8) (frames frames' : List CanMessage) :
    piecesOf peer (frames ++ frames') = piecesOf peer frames ++ piecesOf peer frames' :=
  List.filterMap_append

section Pieces

variable {own peer : UInt8} {frame : CanMessage} {h : Heading}

/-- The checks of a device are those of anybody, but for the address. -/
theorem heading_of_own (hh : heading own frame = some h) :
    heading (canidGetTo frame.id) frame = some h := by
  unfold heading at hh ⊢
  split_ifs at hh with hlen haddress
  have hsource : ¬ (!sourceAddressValid (canidGetFrom frame.id)) = true := by
    intro hbad
    exact haddress (by rw [hbad, Bool.or_true])
  rw [if_neg hlen, if_neg (by simpa using hsource)]
  exact hh

/-- A frame that gets past the checks of its addressee, for that device or for all. -/
theorem heading_of_to (hh : heading (canidGetTo frame.id) frame = some h)
    (hto : h.addressTo = own ∨ h.addressTo = deviceIdAll) : heading own frame = some h := by
  obtain ⟨-, -, haddressTo, -⟩ := heading_eq_some hh
  unfold heading at hh ⊢
  split_ifs at hh with hlen haddress
  rw [haddressTo] at hto
  rw [if_neg hlen, if_neg]
  · exact hh
  · rcases hto with heq | heq <;> rw [heq] at haddress ⊢ <;> simpa using haddress

/-- The piece of a frame that a device pays heed to. -/
theorem pieceOf_eq_of_heading (hh : heading own frame = some h) :
    pieceOf h.addressFrom frame =
      (h.command.mark frame.bytes).map fun mark => ((h.addressTo, h.sessionId), mark) := by
  rw [pieceOf, heading_of_own hh, Option.bind_some, if_pos rfl]

/-- A piece is for those whom its frame is addressed to. -/
theorem pieceOf_eq_some {key : UInt8 × UInt8} {mark : Mark MsgMode UInt8}
    (hp : pieceOf peer frame = some (key, mark)) :
    ∃ h, heading (canidGetTo frame.id) frame = some h ∧ h.addressFrom = peer ∧
      (h.addressTo, h.sessionId) = key ∧ h.command.mark frame.bytes = some mark := by
  unfold pieceOf at hp
  cases hh : heading (canidGetTo frame.id) frame with
  | none => rw [hh] at hp; exact absurd hp (by simp)
  | some h =>
    rw [hh, Option.bind_some] at hp
    split_ifs at hp with hfrom
    obtain ⟨mark', hmark, heq⟩ := Option.map_eq_some_iff.mp hp
    obtain ⟨rfl, rfl⟩ := Prod.mk.inj heq
    exact ⟨h, rfl, hfrom, rfl, hmark⟩

end Pieces

/-! ### A device that listens -/

/-- The message that an output reports. -/
def Output.reports (output : Output) : List Msg :=
  if output.event = .rxFinished then output.receivedMessage.toList else []

theorem Output.reports_eq_nil {output : Output} (h : output.receivedMessage = none) :
    output.reports = [] := by
  rw [Output.reports, h]
  split_ifs <;> rfl

namespace Node

variable (node : Node)

/-- The number of the transfer that a message has come with, among those of its sender. -/
def numberOf (msg : Msg) : ℕ :=
  ((scan (piecesOf msg.addressFrom node.got)).current (msg.addressTo, msg.sessionId)).elim 0
    Reading.number

/-- The message that a call reports, if it does, with the number of its transfer. -/
def notice (output : Output) : List (Msg × ℕ) :=
  output.reports.map fun msg => (msg, node.numberOf msg)

/-- The device gets a frame, from anybody. -/
def hear (frame : CanMessage) (nowMs : UInt32) (env : Env) : Node × Output × Result :=
  let r := node.call (.addFrame frame nowMs env)
  ({ r.1 with
      got := node.got ++ [frame]
      reported := node.reported ++ node.notice r.2.1 }, r.2)

end Node

/-- A device as a machine that keeps its history. -/
def listener : Machine Node Call (Output × Result) where
  step node
    | .startSend msg readable nowMs env => node.startSend msg readable nowMs env
    | .addFrame frame nowMs env => node.hear frame nowMs env
    | .process nowMs => node.process nowMs

/-- The message of a transfer with this data. -/
def transferMsg (mode : MsgMode) (addressFrom addressTo sessionId : UInt8) (bytes : List UInt8) :
    Msg where
  mode := if addressTo = deviceIdAll then .withoutAck else mode
  addressFrom := addressFrom
  addressTo := addressTo
  sessionId := sessionId
  length := UInt16.ofNat bytes.length
  data := if bytes = [] then none else some bytes

/-- A report is of a transfer that was there: a frame has stopped it, which had begun with
the START of that number among those of its sender, and the data since is the message. -/
def Whole (got : List CanMessage) (report : Msg × ℕ) : Prop :=
  ∃ before frame after mode bytes,
    got = before ++ frame :: after ∧
    pieceOf report.1.addressFrom frame =
      some ((report.1.addressTo, report.1.sessionId), .stop) ∧
    Opens (piecesOf report.1.addressFrom before) (report.1.addressTo, report.1.sessionId) report.2
      mode bytes ∧
    report.1 = transferMsg mode report.1.addressFrom report.1.addressTo report.1.sessionId bytes

/-- More frames are got. -/
theorem Whole.append {got : List CanMessage} {report : Msg × ℕ} (h : Whole got report)
    (frames : List CanMessage) : Whole (got ++ frames) report := by
  obtain ⟨before, frame, after, mode, bytes, rfl, hrest⟩ := h
  exact ⟨before, frame, after ++ frames, mode, bytes, by simp, hrest⟩

/-- The sessions that receive have kept what has arrived of their transfers, of each peer
by itself. -/
def Receives (ctx : Ctx) (got : List CanMessage) : Prop :=
  ∀ i, (ctx.session i).state = .rx →
    ∃ r, (scan (piecesOf (ctx.session i).peerAddress got)).current (ctx.session i).rxKey = some r ∧
      (ctx.session i).Reads r

/-- The numbers of the transfers of a peer that were reported. -/
def numbersOf (peer : UInt8) (reported : List (Msg × ℕ)) : List ℕ :=
  (reported.filter fun p => p.1.addressFrom = peer).map Prod.snd

/-- No two reports are of the same transfer if no two of the same peer are. -/
theorem nodup_of_numbersOf {reported : List (Msg × ℕ)}
    (h : ∀ peer, (numbersOf peer reported).Nodup) :
    (reported.map fun p => (p.1.addressFrom, p.2)).Nodup := by
  induction reported with
  | nil => exact List.nodup_nil
  | cons p reported ih =>
    rw [List.map_cons, List.nodup_cons]
    constructor
    · intro hp
      obtain ⟨q, hq, heq⟩ := List.mem_map.mp hp
      obtain ⟨hfrom, hnumber⟩ := Prod.mk.inj heq
      have hnodup := h p.1.addressFrom
      rw [numbersOf, List.filter_cons_of_pos (by simp), List.map_cons, List.nodup_cons] at hnodup
      refine hnodup.1 ?_
      rw [← hnumber]
      exact List.mem_map_of_mem (List.mem_filter.mpr ⟨hq, by simpa using hfrom⟩)
    · refine ih fun peer => (h peer).sublist ?_
      exact ((List.sublist_cons_self p reported).filter _).map _

/-- The invariant of a device that listens. -/
structure Node.Hears (own : UInt8) (node : Node) : Prop where
  ctx : node.ctx.Ok
  ownAddress : node.ctx.ownAddress = own
  distinct : node.ctx.Distinct
  receives : Receives node.ctx node.got
  whole : ∀ report ∈ node.reported, Whole node.got report
  addressed : ∀ report ∈ node.reported,
    report.1.addressTo = own ∨ report.1.addressTo = deviceIdAll
  spent : ∀ peer, Spent (scan (piecesOf peer node.got)) (numbersOf peer node.reported)

/-! ### A frame for no session -/

section Pass

variable {ctx : Ctx} {got : List CanMessage} {frame : CanMessage} {peer : UInt8}
  {key : UInt8 × UInt8} {i j : ℕ} {s' : Session} {numbers : List ℕ}

theorem scan_piecesOf_concat (peer : UInt8) (got : List CanMessage) (frame : CanMessage) :
    scan (piecesOf peer (got ++ [frame])) =
      (pieceOf peer frame).elim (scan (piecesOf peer got)) (scan (piecesOf peer got)).step := by
  rw [piecesOf_append]
  cases hpiece : pieceOf peer frame with
  | none =>
    rw [piecesOf, piecesOf, List.filterMap_cons, hpiece, List.filterMap_nil, List.append_nil]
    rfl
  | some p =>
    rw [piecesOf, piecesOf, List.filterMap_cons, hpiece, List.filterMap_nil, scan_concat]
    rfl

/-- A frame of another transfer. -/
theorem current_piecesOf_of_ne (h : ∀ mark, pieceOf peer frame ≠ some (key, mark)) :
    (scan (piecesOf peer (got ++ [frame]))).current key =
      (scan (piecesOf peer got)).current key := by
  rw [scan_piecesOf_concat]
  cases hpiece : pieceOf peer frame with
  | none => rfl
  | some p =>
    refine Scan.current_step_of_ne _ ?_
    rintro rfl
    exact h p.2 hpiece

/-- What was reported stays so. -/
theorem spent_piecesOf (h : Spent (scan (piecesOf peer got)) numbers) (frame : CanMessage) :
    Spent (scan (piecesOf peer (got ++ [frame]))) numbers := by
  rw [scan_piecesOf_concat]
  cases pieceOf peer frame with
  | none => exact h
  | some p => exact h.step p

/-- A frame is a piece of what a session receives only if the session is for it. -/
theorem Ctx.Ok.serves_of_piece (hctx : ctx.Ok) (hrx : (ctx.session j).state = .rx)
    {mark : Mark MsgMode UInt8}
    (hpiece : pieceOf (ctx.session j).peerAddress frame = some ((ctx.session j).rxKey, mark)) :
    ∃ h, heading ctx.ownAddress frame = some h ∧
      ctx.Serves j h.addressFrom h.addressTo h.sessionId := by
  obtain ⟨h, hh, hfrom, hkey, -⟩ := pieceOf_eq_some hpiece
  obtain ⟨hto, hid⟩ := Prod.mk.inj hkey
  have hlive : (ctx.session j).state ≠ .free := by simp [hrx]
  refine ⟨h, heading_of_to hh ?_, Ctx.lt_of_live hlive, hlive, hfrom.symm, hto.symm, hid.symm⟩
  rw [hto]
  exact (hctx.sessions j).rx hrx

/-- A session moves, and the frame is a piece of nothing that another one receives. -/
theorem Receives.setSession (h : Receives ctx got) (hi : i < ctx.sessions.length)
    (hne : ∀ j, j ≠ i → (ctx.session j).state = .rx → ∀ mark,
      pieceOf (ctx.session j).peerAddress frame ≠ some ((ctx.session j).rxKey, mark))
    (hs' : s'.state = .rx → ∃ r,
      (scan (piecesOf s'.peerAddress (got ++ [frame]))).current s'.rxKey = some r ∧ s'.Reads r) :
    Receives (ctx.setSession i s') (got ++ [frame]) := by
  intro j hj
  rw [Ctx.session_setSession hi] at hj ⊢
  split_ifs at hj ⊢ with hji
  · exact hs' hj
  · rw [current_piecesOf_of_ne (hne j hji hj)]
    exact h j hj

/-- A session moves that does not receive. -/
theorem Receives.quiet (h : Receives ctx got) (hi : i < ctx.sessions.length)
    (hs' : s'.state ≠ .rx) : Receives (ctx.setSession i s') got := by
  intro j hj
  rw [Ctx.session_setSession hi] at hj ⊢
  split_ifs at hj ⊢
  · exact absurd hj hs'
  · exact h j hj

end Pass

/-! ### Every call -/

namespace Node.Hears

variable {own : UInt8} {node : Node}

/-- The message of a session is that of its transfer. -/
theorem msg_eq_transferMsg {limit : UInt16} {s : Session} (hok : s.Ok own limit) :
    s.msg = transferMsg s.mode s.peerAddress s.localAddress s.sessionId s.data := by
  have hlength : s.payloadSize = UInt16.ofNat s.data.length := by
    rw [hok.length_data, UInt16.ofNat_toNat]
  have hempty : s.payloadSize > 0 ↔ s.data ≠ [] := by
    rw [gt_iff_lt, UInt16.lt_iff_toNat_lt, ← hok.length_data, ← List.length_pos_iff]
    exact Iff.rfl
  rw [Session.msg, transferMsg, ← hlength]
  by_cases hdata : s.data = []
  · have hzero : ¬ s.payloadSize > 0 := fun h => hempty.mp h hdata
    rw [if_neg hzero, if_pos hdata]
  · rw [if_pos (hempty.mpr hdata), if_neg hdata]

theorem notice_eq_nil {output : Output} (h : output.receivedMessage = none) :
    node.notice output = [] := by
  rw [Node.notice, Output.reports_eq_nil h]
  rfl

/-- A device that was just set up. -/
theorem initial {ctx : Ctx} (h : ctx.Initial) : Node.Hears ctx.ownAddress { ctx := ctx } where
  ctx := h.ok
  ownAddress := rfl
  distinct := h.distinct
  receives i hrx := absurd (hrx.symm.trans (h.free i)) (by simp)
  whole _ hreport := absurd hreport (by simp)
  addressed _ hreport := absurd hreport (by simp)
  spent _ := spent_nil

/-- A call that moves no session that receives, and gets no frame. -/
theorem quiet (h : node.Hears own) {ctx' : Ctx} (hok : ctx'.Ok) (hown : ctx'.ownAddress = own)
    (hdistinct : ctx'.Distinct) (hreceives : Receives ctx' node.got) (sent : List CanMessage)
    (started : List (Msg × UInt8)) :
    Node.Hears own { node with ctx := ctx', sent := sent, started := started } :=
  ⟨hok, hown, hdistinct, hreceives, h.whole, h.addressed, h.spent⟩

/-- A frame that no session takes as a piece of its transfer. -/
theorem pass (h : node.Hears own) {frame : CanMessage} {ctx' : Ctx} {output : Output}
    (hok : ctx'.Ok)
    (hown : ctx'.ownAddress = own) (hdistinct : ctx'.Distinct)
    (hreceives : Receives ctx' (node.got ++ [frame])) (hmessage : output.receivedMessage = none)
    (sent : List CanMessage) :
    Node.Hears own { node with
      ctx := ctx'
      sent := sent
      got := node.got ++ [frame]
      reported := node.reported ++ node.notice output } := by
  rw [notice_eq_nil hmessage, List.append_nil]
  exact ⟨hok, hown, hdistinct, hreceives, fun report hreport => (h.whole report hreport).append _,
    h.addressed, fun peer => spent_piecesOf (h.spent peer) frame⟩

/-- **A transfer that stops is reported**: it was there, and was not reported before. -/
theorem report (h : node.Hears own) {frame : CanMessage} {i : ℕ} {ctx' : Ctx} {output : Output}
    (hrx : (node.ctx.session i).state = .rx)
    (hpiece : pieceOf (node.ctx.session i).peerAddress frame =
      some ((node.ctx.session i).rxKey, .stop))
    (hok : ctx'.Ok) (hown : ctx'.ownAddress = own) (hdistinct : ctx'.Distinct)
    (hreceives : Receives ctx' (node.got ++ [frame])) (hevent : output.event = .rxFinished)
    (hmessage : output.receivedMessage = some (node.ctx.session i).msg)
    (sent : List CanMessage) :
    Node.Hears own { node with
      ctx := ctx'
      sent := sent
      got := node.got ++ [frame]
      reported := node.reported ++ node.notice output } := by
  set s := node.ctx.session i with hs
  obtain ⟨r, hr, htag, hdata, hopen⟩ := h.receives i hrx
  rw [← hs] at hr htag hdata
  have hnumber : node.numberOf s.msg = r.number := by
    have hcurrent : (scan (piecesOf s.msg.addressFrom node.got)).current
        (s.msg.addressTo, s.msg.sessionId) = some r := hr
    rw [Node.numberOf, hcurrent]
    rfl
  have hnotice : node.notice output = [(s.msg, r.number)] := by
    rw [Node.notice, Output.reports, if_pos hevent, hmessage, Option.toList_some,
      List.map_singleton, hnumber]
  have hopens : Opens (piecesOf s.peerAddress node.got) s.rxKey r.number s.mode s.data := by
    rw [← scan_current_eq_iff, hr, ← htag, ← hdata, ← hopen]
  rw [hnotice]
  refine ⟨hok, hown, hdistinct, hreceives, fun report hreport => ?_, fun report hreport => ?_,
    fun peer => ?_⟩
  · rcases List.mem_append.mp hreport with hold | hnew
    · exact (h.whole report hold).append _
    · obtain rfl := List.mem_singleton.mp hnew
      exact ⟨node.got, frame, [], s.mode, s.data, rfl, hpiece, hopens,
        msg_eq_transferMsg (h.ctx.sessions i)⟩
  · rcases List.mem_append.mp hreport with hold | hnew
    · exact h.addressed report hold
    · obtain rfl := List.mem_singleton.mp hnew
      exact h.ownAddress ▸ (h.ctx.sessions i).rx hrx
  · by_cases hpeer : s.peerAddress = peer
    · subst hpeer
      have hnumbers : numbersOf s.peerAddress (node.reported ++ [(s.msg, r.number)]) =
          numbersOf s.peerAddress node.reported ++ [r.number] := by
        have hfrom : s.msg.addressFrom = s.peerAddress := rfl
        simp [numbersOf, hfrom]
      rw [hnumbers, scan_piecesOf_concat, hpiece, Option.elim_some]
      exact (h.spent _).report hr hopen (scan_number_lt hr) fun k' r' hr' hn =>
        scan_number_inj hr' hr hn
    · have hnumbers : numbersOf peer (node.reported ++ [(s.msg, r.number)]) =
          numbersOf peer node.reported := by
        have hfrom : s.msg.addressFrom = s.peerAddress := rfl
        simp [numbersOf, hfrom, hpeer]
      rw [hnumbers]
      exact spent_piecesOf (h.spent peer) frame

/-- A call to send. -/
theorem startSend (h : node.Hears own) {msg : Msg} (readable : msg.Readable) (nowMs : UInt32)
    (env : Env) : (node.startSend msg readable nowMs env).1.Hears own := by
  obtain ⟨r, hr, -, hcase⟩ := startSend_spec h.ctx readable nowMs env
  have hdistinct := h.distinct.step (.startSend msg readable nowMs env) h.ctx trivial
  simp only [device, hr] at hdistinct
  simp only [Node.startSend, Node.call, device, hr]
  rcases hcase with ⟨hsame, -⟩ | ⟨-, i, u, s, hset, hs, -⟩
  · rw [hsame]
    exact h.quiet h.ctx h.ownAddress h.distinct h.receives _ _
  · rw [hset] at hdistinct ⊢
    refine h.quiet (h.ctx.setSession hs.lt hs.ok) h.ownAddress hdistinct
      (h.receives.quiet hs.lt ?_) _ _
    rw [hs.state]
    split_ifs <;> simp

/-- A call because time has passed. -/
theorem process (h : node.Hears own) (nowMs : UInt32) : (node.process nowMs).1.Hears own := by
  obtain ⟨r, hr, -, hcase⟩ := process_spec h.ctx nowMs
  have hdistinct := h.distinct.step (.process nowMs) h.ctx trivial
  simp only [device, hr] at hdistinct
  simp only [Node.process, Node.call, device, hr]
  rcases hcase with ⟨hsame, -⟩ | ⟨i, s', reply, kind, hi, hcase, hok, hset, -⟩
  · rw [hsame]
    exact h.quiet h.ctx h.ownAddress h.distinct h.receives _ _
  · rw [hset] at hdistinct ⊢
    refine h.quiet (h.ctx.setSession hi hok) h.ownAddress hdistinct (h.receives.quiet hi ?_) _ _
    rcases hcase with ⟨-, rfl, -⟩ | ⟨hstate, frame, -, hemit⟩
    · simp [sessionRelease]
    · cases hemit <;> simp [hstate, sessionRelease]

/-- A frame that a session handles. -/
theorem handled (h : node.Hears own) {frame : CanMessage} {nowMs : UInt32} {hd : Heading} {i : ℕ}
    {s s' : Session} {reply : Option (Cmd × List UInt8)} {kind : Event} {received : Option Msg}
    {output : Output} (hheading : heading own frame = some hd)
    (hhandles : Handles node.ctx hd frame.bytes nowMs i s s' reply kind received)
    (hok : s'.Ok own node.ctx.maxMessageSize) (hdistinct : (node.ctx.setSession i s').Distinct)
    (hreacts : Reacts own s (s', output) s' reply kind received) (sent : List CanMessage) :
    Node.Hears own { node with
      ctx := node.ctx.setSession i s'
      sent := sent
      got := node.got ++ [frame]
      reported := node.reported ++ node.notice output } := by
  have hsession := frameSession_eq_some hhandles.found
  have hown := h.ownAddress
  have hctx := h.ctx.setSession hsession.lt (s := s') (by rw [hown]; exact hok)
  -- the frame is for no other session
  have hne : ∀ j, j ≠ i → (node.ctx.session j).state = .rx → ∀ mark,
      pieceOf (node.ctx.session j).peerAddress frame ≠
        some ((node.ctx.session j).rxKey, mark) := by
    intro j hj hrx mark hpiece
    obtain ⟨hd', hhd', hserves⟩ := h.ctx.serves_of_piece hrx hpiece
    rw [hown, hheading, Option.some.injEq] at hhd'
    subst hhd'
    rcases hsession.origin with rfl | ⟨-, -, hnone, -⟩
    · refine hj (h.distinct.unique j i hserves.lt hsession.lt hserves.live hsession.live ?_)
      rw [Session.key, Session.key, hserves.peerAddress, hserves.localAddress, hserves.sessionId,
        hsession.peerAddress, hsession.localAddress, hsession.sessionId]
    · exact hnone j hserves
  have hpiece : pieceOf s.peerAddress frame =
      (hd.command.mark frame.bytes).map fun mark => (s.rxKey, mark) := by
    rw [hsession.peerAddress, pieceOf_eq_of_heading hheading, Session.rxKey, hsession.localAddress,
      hsession.sessionId]
  rcases hhandles.moves with ⟨htx, rfl, hcase⟩ | ⟨hrx, hcase⟩
  · have hnotrx : s'.state ≠ .rx := by
      intro hrx
      rcases hcase.kept htx with hfree | ⟨-, -, hiff⟩
      · exact absurd (hrx.symm.trans hfree) (by simp)
      · exact (Session.isTx_iff.mp htx).2 (hiff.mp hrx)
    exact h.pass hctx hown hdistinct
      (h.receives.setSession hsession.lt hne fun hrx => absurd hrx hnotrx) hreacts.message sent
  · -- what the session has kept so far
    have horigin : hd.command ≠ .start → hd.command ≠ .startWa → s = node.ctx.session i := by
      intro hstart hstartWa
      rcases hsession.origin with hs | ⟨-, hcommand, -⟩
      · exact hs
      · exact absurd hcommand (by simp [hstart, hstartWa])
    have hreads : hd.command ≠ .start → hd.command ≠ .startWa → ∃ r,
        (scan (piecesOf s.peerAddress node.got)).current s.rxKey = some r ∧ s.Reads r := by
      intro hstart hstartWa
      obtain rfl := horigin hstart hstartWa
      exact h.receives i hrx
    have hreceives : Receives (node.ctx.setSession i s') (node.got ++ [frame]) := by
      refine h.receives.setSession hsession.lt hne fun hrx' => ?_
      obtain ⟨hkey, mark, hmark, r', hr', hreads'⟩ := hcase.reads hreads hrx'
      obtain ⟨hpeer, hrest⟩ := Prod.mk.inj hkey
      have hsame : s'.rxKey = s.rxKey := hrest
      rw [hpeer, hsame, scan_piecesOf_concat, hpiece, hmark]
      exact ⟨r', hr', hreads'⟩
    rcases hcase.report_cases with hnone | ⟨hstop, hfinished, hmsg⟩
    · exact h.pass hctx hown hdistinct hreceives (hreacts.message.trans hnone) sent
    · obtain rfl := horigin (by intro hc; rw [hc] at hstop; cases hstop)
        (by intro hc; rw [hc] at hstop; cases hstop)
      rw [hstop, Option.map_some] at hpiece
      exact h.report hrx hpiece hctx hown hdistinct hreceives (hreacts.event.trans hfinished)
        (hreacts.message.trans hmsg) sent

/-- **A frame, from anybody.** -/
theorem hear (h : node.Hears own) (frame : CanMessage) (nowMs : UInt32) (env : Env)
    (hkeeps : (Call.addFrame frame nowMs env).Keeps own) :
    (node.hear frame nowMs env).1.Hears own := by
  obtain ⟨r, hr, hcase⟩ := addFrame_spec h.ctx frame nowMs env
  have hdistinct := h.distinct.step (.addFrame frame nowMs env) h.ctx (h.ownAddress ▸ hkeeps)
  simp only [device, hr] at hdistinct
  simp only [Node.hear, Node.call, device, hr]
  -- a frame that no session is for leaves every transfer where it is
  have hpass : (∀ hd, heading own frame = some hd → ∀ j,
      ¬ node.ctx.Serves j hd.addressFrom hd.addressTo hd.sessionId) →
      Receives node.ctx (node.got ++ [frame]) := by
    intro hnone j hrx
    rw [current_piecesOf_of_ne]
    · exact h.receives j hrx
    · intro mark hpiece
      obtain ⟨hd, hhd, hserves⟩ := h.ctx.serves_of_piece hrx hpiece
      rw [h.ownAddress] at hhd
      exact hnone hd hhd j hserves
  rw [h.ownAddress] at hcase
  rcases hcase with ⟨hnone, hsame, hout⟩ | ⟨hd, hheading, hcase⟩
  · rw [hsame] at hdistinct ⊢
    refine h.pass h.ctx h.ownAddress h.distinct (hpass fun hd hhd => ?_) (by rw [hout]) _
    rw [hnone] at hhd
    exact absurd hhd (by simp)
  rcases hcase with ⟨hnosession, hsame, hquiet, -⟩ |
    ⟨i, s, s', reply, kind, received, hhandles, hok, hset, hreacts⟩
  · rw [hsame] at hdistinct ⊢
    refine h.pass h.ctx h.ownAddress h.distinct (hpass fun hd' hhd' j => ?_) hquiet.message _
    rw [hheading, Option.some.injEq] at hhd'
    subst hhd'
    exact findSession_eq_none (frameSession_eq_none hnosession)
  · rw [hset] at hdistinct ⊢
    exact h.handled hheading hhandles hok hdistinct hreacts _

/-- Every call whose frame keeps to the bit of its sender keeps the invariant. -/
theorem step (h : node.Hears own) (call : Call) (hkeeps : call.Keeps own) :
    (listener.step node call).1.Hears own := by
  cases call with
  | startSend msg readable nowMs env => exact h.startSend readable nowMs env
  | addFrame frame nowMs env => exact h.hear frame nowMs env hkeeps
  | process nowMs => exact h.process nowMs

end Node.Hears

/-- The frames that some calls get. -/
def framesIn (calls : List Call) : List CanMessage :=
  calls.flatMap fun
    | .addFrame frame _ _ => [frame]
    | _ => []

theorem framesIn_cons (call : Call) (calls : List Call) :
    framesIn (call :: calls) = framesIn [call] ++ framesIn calls := by
  rw [framesIn, framesIn, framesIn, ← List.flatMap_append]
  rfl

/-- One call as the history has it. -/
theorem Node.Hears.step_history {own : UInt8} {node : Node} (h : node.Hears own) (call : Call) :
    (listener.step node call).1.ctx = (device.step node.ctx call).1 ∧
      (listener.step node call).1.got = node.got ++ framesIn [call] ∧
      (listener.step node call).1.reported.map Prod.fst =
        node.reported.map Prod.fst ++ (device.step node.ctx call).2.1.reports := by
  cases call with
  | startSend msg readable nowMs env =>
    obtain ⟨r, hr, hquiet, -⟩ := startSend_spec h.ctx readable nowMs env
    have hstep : device.step node.ctx (.startSend msg readable nowMs env) = r := hr
    refine ⟨rfl, (List.append_nil _).symm, ?_⟩
    rw [hstep, Output.reports_eq_nil hquiet.message, List.append_nil]
    rfl
  | addFrame frame nowMs env =>
    refine ⟨rfl, rfl, ?_⟩
    simp [listener, Node.hear, Node.notice, Node.call, Function.comp_def]
  | process nowMs =>
    obtain ⟨r, hr, -, hcase⟩ := process_spec h.ctx nowMs
    have hmessage : r.2.1.receivedMessage = none := by
      rcases hcase with ⟨-, hout⟩ | ⟨i, s', reply, kind, -, -, -, -, hreacts⟩
      · rw [hout]
      · exact hreacts.message
    have hstep : device.step node.ctx (.process nowMs) = r := hr
    refine ⟨rfl, (List.append_nil _).symm, ?_⟩
    rw [hstep, Output.reports_eq_nil hmessage, List.append_nil]
    rfl

/-- **The history of a run** is what its calls have got and put out. -/
theorem Node.Hears.history {own : UInt8} {node : Node} (h : node.Hears own) (calls : List Call)
    (hkeeps : ∀ call ∈ calls, call.Keeps own) :
    (listener.final node calls).Hears own ∧
      (listener.final node calls).ctx = device.final node.ctx calls ∧
      (listener.final node calls).got = node.got ++ framesIn calls ∧
      (listener.final node calls).reported.map Prod.fst =
        node.reported.map Prod.fst ++
          (device.outputs node.ctx calls).flatMap fun o => o.1.reports := by
  induction calls generalizing node with
  | nil => exact ⟨h, rfl, (List.append_nil _).symm, (List.append_nil _).symm⟩
  | cons call calls ih =>
    obtain ⟨hctx, hgot, hreported⟩ := h.step_history call
    obtain ⟨hhears, hfinal, hgots, hreports⟩ := ih (h.step call (hkeeps call List.mem_cons_self))
      fun c hc => hkeeps c (List.mem_cons_of_mem call hc)
    rw [hctx] at hfinal hreports
    refine ⟨hhears, hfinal, ?_, ?_⟩
    · rw [Machine.final_cons, hgots, hgot, List.append_assoc, ← framesIn_cons]
    · rw [Machine.final_cons, hreports, hreported, List.append_assoc]
      rfl

/-- **Every report is of a whole transfer.**  A device gets any frames, is asked to send,
and is processed, in any order and with any answers of the allocator and the validator;
the STARTs it gets keep to the bits of their senders.  Then there is for every message
that its calls have reported the number of a transfer, such that the START, the data and
the END of that transfer were among its frames: with no other piece of the transfer in
between, and with the addresses, the id, the mode and the data of the message.  No two
reports are of the same transfer, and all of them are for the device or for all. -/
theorem reception_sound {ctx₀ : Ctx} (h : ctx₀.Initial) (calls : List Call)
    (hkeeps : ∀ call ∈ calls, call.Keeps ctx₀.ownAddress) :
    ∃ reported : List (Msg × ℕ),
      reported.map Prod.fst = (device.outputs ctx₀ calls).flatMap (fun o => o.1.reports) ∧
        (∀ report ∈ reported, Whole (framesIn calls) report ∧
          (report.1.addressTo = ctx₀.ownAddress ∨ report.1.addressTo = deviceIdAll)) ∧
          (reported.map fun p => (p.1.addressFrom, p.2)).Nodup := by
  obtain ⟨hhears, -, hgot, hreported⟩ := (Node.Hears.initial h).history calls hkeeps
  refine ⟨_, hreported, fun report hreport => ⟨?_, hhears.addressed report hreport⟩,
    nodup_of_numbersOf fun peer => (hhears.spent peer).nodup⟩
  have hwhole := hhears.whole report hreport
  rw [hgot] at hwhole
  exact hwhole

/-- Two devices send to device 1 at the same time, with the same id; a piece of the
transfer of device 3 is lost, and it stops without it. -/
def smallTraffic : List Call :=
  [frameTo 2 1 1 .startWa [], frameTo 3 1 1 .startWa [], frameTo 2 1 1 .dataWa [7, 8],
    frameTo 3 1 1 .dataWa [5], frameTo 2 1 1 .endWa [], frameTo 3 1 1 .endWa [],
    frameTo 3 1 1 .dataWa [6]].map fun frame => .addFrame frame 0 .ample

/-- Both are reported, each with its own data. -/
theorem reception_sound_smallDevice :
    (device.outputs (smallDevice 1 false) smallTraffic).flatMap (fun o => o.1.reports) =
        [transferMsg .withoutAck 2 1 1 [7, 8], transferMsg .withoutAck 3 1 1 [5]] ∧
      ∃ reported : List (Msg × ℕ), reported.map Prod.fst =
        [transferMsg .withoutAck 2 1 1 [7, 8], transferMsg .withoutAck 3 1 1 [5]] ∧
          ∀ report ∈ reported, Whole (framesIn smallTraffic) report := by
  have hkeeps : ∀ call ∈ smallTraffic, call.Keeps 1 := by
    intro call hcall
    simp only [smallTraffic, List.map_cons, List.map_nil, List.mem_cons, List.not_mem_nil,
      or_false] at hcall
    rcases hcall with rfl | rfl | rfl | rfl | rfl | rfl | rfl
    all_goals
      rintro h ⟨⟩
      exact fun _ _ _ => by decide
  have hreports : (device.outputs (smallDevice 1 false) smallTraffic).flatMap
      (fun o => o.1.reports) =
        [transferMsg .withoutAck 2 1 1 [7, 8], transferMsg .withoutAck 3 1 1 [5]] := by decide
  obtain ⟨reported, hmap, hwhole, -⟩ :=
    reception_sound (smallDevice_initial (by decide) false) smallTraffic hkeeps
  exact ⟨hreports, reported, hmap.trans hreports, fun report h => (hwhole report h).1⟩

end Imp
end UniCan
