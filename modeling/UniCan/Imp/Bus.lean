import UniCan.Imp.Integrity
import UniCan.Imp.Reception

/-!
# Many devices on a bus

Any number of devices are on one bus.  Every frame that a device has ready goes to all
others, each of which gets the frames of a device in their order, at any time; the frames
of two devices may get there in any order.  The devices send to each other, to all, and to
addresses that nobody has.

What a device reports is a whole transfer among its frames, whoever sent them, and what the
others send are the transfers that they have started; so what is reported was started, and
the many transfers on the bus do not mix.

## Main definitions

* `SentBy` — a frame that a device sends.
* `Node.Talks` — the frames of a device are those of its transfers.
* `Bus`, `BusAction`, `busMachine` — the devices, what may happen to them, and the machine
  that this makes.
* `Bus.Ok` — the invariant of the devices and of what is between them.

## Main results

* `bus_integrity` — **every report is of a message that the device of its sender has
  started, and of no other report's.**
-/

namespace UniCan
namespace Imp

/-! ### The frames of a device -/

/-- A frame that a device sends: one to all needs no acknowledgement, and a START has an id
with the bit of its sender. -/
inductive SentBy (own : UInt8) : CanMessage → Prop
  | intro {addressTo sessionId : UInt8} {command : Cmd} {bytes : List UInt8}
      (hto : addressTo.toNat < 32) (hall : addressTo = deviceIdAll → command.withoutAck = true)
      (hid : sessionId.toNat < 16) (hlen : bytes.length ≤ maxLen)
      (hstart : command = .start ∨ command = .startWa →
        sessionId.toNat % 2 = idBit own addressTo) :
      SentBy own (frameTo own addressTo sessionId command bytes)

section SentBy

variable {own peer addressTo sessionId : UInt8} {command : Cmd} {bytes : List UInt8}
  {frame : CanMessage}

/-- What the frame says to the one that it is addressed to. -/
theorem heading_sentBy (hown : own.toNat < 31) (hto : addressTo.toNat < 32)
    (hall : addressTo = deviceIdAll → command.withoutAck = true) (hid : sessionId.toNat < 16)
    (hlen : bytes.length ≤ maxLen) :
    heading (canidGetTo (frameTo own addressTo sessionId command bytes).id)
        (frameTo own addressTo sessionId command bytes) =
      some ⟨own, addressTo, sessionId, command⟩ := by
  have hsource : sourceAddressValid own = true := (sourceAddressValid_iff own).mpr hown
  rw [heading, len_frameTo hlen, if_neg (Nat.not_lt.mpr hlen), frameTo,
    canidGetTo_canidCreate _ _ _ _ hto, canidGetFrom_canidCreate _ _ _ _ (Nat.lt_succ_of_lt hown),
    canidGetSessionId_canidCreate _ _ _ _ hid, canidGetCommand_canidCreate, Cmd.ofCode?_code,
    hsource]
  by_cases heq : addressTo = deviceIdAll
  · simp [heq, hall heq]
  · simp [heq]

/-- For others a frame is a piece of what its sender sends, and of nobody else's. -/
theorem SentBy.pieceOf (h : SentBy own frame) (hown : own.toNat < 31) :
    pieceOf peer frame = if own = peer then frameMark frame else none := by
  obtain ⟨hto, hall, hid, hlen, -⟩ := h
  rw [UniCan.Imp.pieceOf, heading_sentBy hown hto hall hid hlen, Option.bind_some,
    frameMark_frameTo own _ hto hid hlen, bytes_frameTo hlen]

/-- A frame keeps to the bit of its sender, whoever gets it. -/
theorem SentBy.keeps (h : SentBy peer frame) (hpeer : peer.toNat < 31) (nowMs : UInt32)
    (env : Env) : (Call.addFrame frame nowMs env).Keeps own := by
  obtain ⟨hto, hall, hid, hlen, hstart⟩ := h
  intro hd hhd hcommand hself _
  have hanybody := heading_of_own hhd
  rw [heading_sentBy hpeer hto hall hid hlen, Option.some.injEq] at hanybody
  subst hanybody
  simp only at hself ⊢
  rw [← hself]
  exact hstart hcommand

end SentBy

/-! ### A device that sends -/

/-- The frames of a device are those of its transfers. -/
structure Node.Talks (own : UInt8) (node : Node) : Prop where
  sender : Sender node.ctx node.started node.sent
  sentBy : ∀ frame ∈ node.sent, SentBy own frame

namespace Node.Talks

variable {own : UInt8} {node : Node}

/-- The frames of a call join those that were sent. -/
theorem sentBy_append {frames : List CanMessage} (h : ∀ frame ∈ node.sent, SentBy own frame)
    (hframes : ∀ frame ∈ frames, SentBy own frame) :
    ∀ frame ∈ node.sent ++ frames, SentBy own frame := by
  intro frame hframe
  rcases List.mem_append.mp hframe with hold | hnew
  · exact h frame hold
  · exact hframes frame hnew

/-- The frame of an answer. -/
theorem sentBy_reacts {limit : UInt16} {s s' : Session} {r : Session × Output}
    {reply : Option (Cmd × List UInt8)} {kind : Event} {received : Option Msg}
    (h : Reacts own s r s' reply kind received) (hplain : ∀ p ∈ reply, Plain p)
    (hok : s.Ok own limit)
    (hall : s.peerAddress = deviceIdAll → ∀ p ∈ reply, p.1.withoutAck = true) :
    ∀ frame ∈ r.2.frame.toList, SentBy own frame := by
  intro frame hframe
  rw [h.frame, Option.mem_toList, Option.map_eq_some_iff] at hframe
  obtain ⟨p, hp, rfl⟩ := hframe
  exact .intro hok.peerAddress (fun heq => hall heq p hp) hok.sessionId (hplain p hp).length
    fun hstart => absurd hstart (hplain p hp).start

/-- **A call to send.** -/
theorem startSend (h : node.Talks own) (hears : node.Hears own) {msg : Msg}
    (readable : msg.Readable) (nowMs : UInt32) (env : Env) :
    (node.startSend msg readable nowMs env).1.Talks own := by
  obtain ⟨r, hr, -, hcase⟩ := startSend_spec hears.ctx readable nowMs env
  simp only [Node.startSend, Node.call, device, hr]
  rcases hcase with ⟨hsame, hframe, hres⟩ | ⟨hres, i, u, s, hset, hs, -⟩
  · rw [hsame, hframe, if_neg hres, Option.toList_none, List.append_nil, List.append_nil]
    exact h
  · rw [hset, if_pos hres]
    refine ⟨h.sender.start hs, sentBy_append h.sentBy fun frame hframe => ?_⟩
    rw [hs.frame, Option.toList_some, List.mem_singleton] at hframe
    rw [hframe, hears.ownAddress]
    refine .intro hs.addressTo_lt (fun hall => ?_) hs.sessionId_lt (Nat.zero_le _) fun _ => ?_
    · have hmode := hs.mode
      rw [if_pos hall] at hmode
      rw [if_pos hmode]
      rfl
    · rw [toNat_startSessionId _ _ hs.u_lt, hears.ownAddress, idBit]
      split_ifs <;> omega

/-- **A call because time has passed.** -/
theorem process (h : node.Talks own) (hears : node.Hears own) (nowMs : UInt32) :
    (node.process nowMs).1.Talks own := by
  obtain ⟨r, hr, -, hcase⟩ := process_spec hears.ctx nowMs
  simp only [Node.process, Node.call, device, hr]
  rcases hcase with ⟨hsame, hout⟩ | ⟨i, s', reply, kind, hi, hcase, -, hset, hreacts⟩
  · rw [hsame, hout, Option.toList_none, List.append_nil]
    exact h
  rw [hset]
  have hsok := hears.ctx.sessions i
  rcases hcase with ⟨-, rfl, rfl, -⟩ | ⟨hstate, frame, rfl, hemit⟩
  · -- the session is released, and nothing is sent
    have hframe : r.2.1.frame = none := hreacts.frame
    rw [hframe]
    refine ⟨h.sender.quiet hi rfl rfl, ?_⟩
    rw [Option.toList_none, List.append_nil]
    exact h.sentBy
  · have htx : sessionIsTx (node.ctx.session i) = true := by simp [sessionIsTx, hstate]
    obtain ⟨hplain, hack⟩ := hemit.plain hsok
    have hreply : ∀ p ∈ some frame, Plain p := fun p hp => Option.some.inj hp ▸ hplain
    have hmarks := hreacts.marks hsok fun p hp => (hreply p hp).length
    refine ⟨h.sender.advance hears.ctx hears.distinct htx (hemit.kept hstate)
      (hemit.advances hsok hstate) hmarks, ?_⟩
    rw [hears.ownAddress] at hreacts hsok
    exact sentBy_append h.sentBy (sentBy_reacts hreacts hreply hsok fun _ p hp =>
      Option.some.inj hp ▸ hack)

/-- **A frame that does not make the device send something again.** -/
theorem hear (h : node.Talks own) (hears : node.Hears own) {frame : CanMessage}
    (hcalm : node.ctx.Calm frame) (nowMs : UInt32) (env : Env) :
    (node.hear frame nowMs env).1.Talks own := by
  obtain ⟨r, hr, hcase⟩ := addFrame_spec hears.ctx frame nowMs env
  simp only [Node.hear, Node.call, device, hr]
  rcases hcase with ⟨-, hsame, hout⟩ | ⟨hd, hheading, hcase⟩
  · rw [hsame, hout, Option.toList_none, List.append_nil]
    exact ⟨h.sender, h.sentBy⟩
  obtain ⟨-, -, -, -, -, hfrom, hid, hto, -⟩ := heading_eq_some hheading
  rcases hcase with ⟨-, hsame, -, hframe⟩ |
    ⟨i, s, s', reply, kind, received, hhandles, -, hset, hreacts⟩
  · -- the sender is told that there is no session
    rw [hsame, hframe]
    refine ⟨h.sender.append (marks_abort (Nat.lt_succ_of_lt hfrom) hid),
      sentBy_append h.sentBy fun f hf => ?_⟩
    split_ifs at hf
    · exact absurd hf (by simp)
    · rw [Option.toList_some, List.mem_singleton] at hf
      rw [hf, hears.ownAddress]
      exact .intro (Nat.lt_succ_of_lt hfrom) (fun _ => rfl) hid (Nat.zero_le _) (by simp)
  · have hsession := frameSession_eq_some hhandles.found
    have hsok := hsession.ok hears.ctx hfrom hid hto
    have hnotall : s.peerAddress = deviceIdAll → ∀ p ∈ reply, p.1.withoutAck = true :=
      fun heq => absurd heq (by rw [hsession.peerAddress]; exact ne_deviceIdAll hfrom)
    rw [hset]
    rcases hhandles.moves with ⟨htx, -, hcase⟩ | ⟨hrx, hcase⟩
    · obtain rfl := hsession.eq_of_isTx htx
      have hquiet : hd.command = .nack → (node.ctx.session i).state ≠ .txWaitStartAck ∧
          (node.ctx.session i).state ≠ .txWaitDataAck := fun hnack =>
        hcalm hd hheading hnack i ⟨hsession.lt, hsession.live, hsession.peerAddress,
          hsession.localAddress, hsession.sessionId⟩
      have hplain := hcase.plain hsok hquiet
      refine ⟨h.sender.advance hears.ctx hears.distinct htx (hcase.kept htx)
        (hcase.advances hsok hquiet) (hreacts.marks hsok fun p hp => (hplain p hp).length), ?_⟩
      rw [hears.ownAddress] at hreacts hsok
      exact sentBy_append h.sentBy (sentBy_reacts hreacts hplain hsok hnotall)
    · obtain ⟨hplain, hnomark⟩ := hcase.plain
      have hnottx : sessionIsTx s' = false := by
        rw [Bool.eq_false_iff]
        intro htx
        exact (Session.isTx_iff.mp ((hcase.kept hrx).sends htx).1).2 hrx
      refine ⟨h.sender.quiet hsession.lt hnottx ?_, ?_⟩
      · rw [hreacts.marks hsok fun p hp => (hplain p hp).length, hnomark]
        rfl
      · rw [hears.ownAddress] at hreacts hsok
        exact sentBy_append h.sentBy (sentBy_reacts hreacts hplain hsok hnotall)

end Node.Talks

/-! ### All of them -/

variable {ι : Type*} [DecidableEq ι]

/-- The devices on a bus, and the frames that are on their way from each of them to each
other one. -/
structure Bus (ι : Type*) where
  node : ι → Node
  link : ι → ι → List CanMessage

namespace Bus

/-- Devices with nothing between them. -/
def initial (ctx : ι → Ctx) : Bus ι where
  node p := { ctx := ctx p }
  link _ _ := []

/-- The frame of a call is on its way to all other devices. -/
def after (bus : Bus ι) (p : ι) (r : Node × Output × Result) : Bus ι where
  node := Function.update bus.node p r.1
  link x y := if x = p ∧ y ≠ p then bus.link x y ++ r.2.1.frame.toList else bus.link x y

/-- A frame has got to a device. -/
def drop (bus : Bus ι) (p q : ι) : Bus ι :=
  { bus with link := fun x y => if x = p ∧ y = q then (bus.link x y).tail else bus.link x y }

end Bus

/-- What may happen: a device gets a message to send, or the next frame that is on its way
to it from another device, or time has passed. -/
inductive BusAction (ι : Type*)
  | startSend (p : ι) (msg : Msg) (readable : msg.Readable) (nowMs : UInt32) (env : Env)
  | deliver (p q : ι) (nowMs : UInt32) (env : Env)
  | process (p : ι) (nowMs : UInt32)

/-- The bus as a machine; nothing is put out if there is no frame to deliver. -/
def busMachine : Machine (Bus ι) (BusAction ι) (Option (Output × Result)) where
  step bus
    | .startSend p msg readable nowMs env =>
        let r := (bus.node p).startSend msg readable nowMs env
        (bus.after p r, some r.2)
    | .deliver p q nowMs env =>
        match bus.link p q with
        | [] => (bus, none)
        | frame :: _ =>
            let r := (bus.node q).hear frame nowMs env
            ((bus.drop p q).after q r, some r.2)
    | .process p nowMs =>
        let r := (bus.node p).process nowMs
        (bus.after p r, some r.2)

/-- What a device has sent is what another one has got, and then what is on its way. -/
structure Bus.Wires (address : ι → UInt8) (bus : Bus ι) : Prop where
  wire : ∀ p q, p ≠ q →
    piecesOf (address p) (bus.node q).got ++ marks (bus.link p q) = marks (bus.node p).sent
  sentBy : ∀ p q, ∀ frame ∈ bus.link p q, SentBy (address p) frame
  self : ∀ p, bus.link p p = []
  calm : ∀ p q, ∀ frame ∈ bus.link p q, ¬ IsNack frame
  known : ∀ q, ∀ frame ∈ (bus.node q).got, ∃ p, p ≠ q ∧ SentBy (address p) frame

/-- The invariant of the devices on a bus, none of which has a validator. -/
structure Bus.Ok (address : ι → UInt8) (bus : Bus ι) : Prop where
  hears : ∀ p, (bus.node p).Hears (address p)
  talks : ∀ p, (bus.node p).Talks (address p)
  messageValidator : ∀ p, (bus.node p).ctx.messageValidator = false
  wires : bus.Wires address

section Step

variable {address : ι → UInt8} {bus : Bus ι} {p q : ι} {r : Node × Output × Result}

theorem Bus.after_node (bus : Bus ι) (p : ι) (r : Node × Output × Result) (x : ι) :
    (bus.after p r).node x = if x = p then r.1 else bus.node x := by
  by_cases hx : x = p
  · rw [if_pos hx, hx]
    exact Function.update_self ..
  · rw [if_neg hx]
    exact Function.update_of_ne hx ..

theorem Bus.mem_after_link {x y : ι} {frame : CanMessage} (h : frame ∈ (bus.after p r).link x y) :
    frame ∈ bus.link x y ∨ x = p ∧ frame ∈ r.2.1.frame := by
  simp only [Bus.after] at h
  split_ifs at h with hx
  · rcases List.mem_append.mp h with hold | hnew
    · exact .inl hold
    · exact .inr ⟨hx.1, Option.mem_toList.mp hnew⟩
  · exact .inl h

/-- **A device sends**: its frame is on its way to all others. -/
theorem Bus.Wires.after (h : bus.Wires address) (hgot : r.1.got = (bus.node p).got)
    (hsent : r.1.sent = (bus.node p).sent ++ r.2.1.frame.toList)
    (hsentBy : ∀ frame ∈ r.2.1.frame, SentBy (address p) frame)
    (hcalm : ∀ frame ∈ r.2.1.frame, ¬ IsNack frame) : (bus.after p r).Wires address where
  wire x y hne := by
    have hold := h.wire x y hne
    have hgots : ((bus.after p r).node y).got = (bus.node y).got := by
      rw [Bus.after_node]
      split_ifs with hy
      · rw [hgot, hy]
      · rfl
    rw [hgots]
    by_cases hx : x = p
    · subst hx
      have hlink : (bus.after x r).link x y = bus.link x y ++ r.2.1.frame.toList :=
        if_pos ⟨rfl, Ne.symm hne⟩
      rw [hlink, Bus.after_node, if_pos rfl, hsent, marks_append, marks_append, ← List.append_assoc,
        hold]
    · have hlink : (bus.after p r).link x y = bus.link x y := if_neg fun hxy => hx hxy.1
      rw [hlink, Bus.after_node, if_neg hx, hold]
  sentBy x y frame hframe := by
    rcases Bus.mem_after_link hframe with hold | ⟨rfl, hnew⟩
    · exact h.sentBy x y frame hold
    · exact hsentBy frame hnew
  self x := by
    have hlink : (bus.after p r).link x x = bus.link x x :=
      if_neg fun hxy => hxy.2 hxy.1
    rw [hlink, h.self x]
  calm x y frame hframe := by
    rcases Bus.mem_after_link hframe with hold | ⟨-, hnew⟩
    · exact h.calm x y frame hold
    · exact hcalm frame hnew
  known y frame hframe := by
    rw [Bus.after_node] at hframe
    split_ifs at hframe with hy
    · rw [hgot] at hframe
      exact hy ▸ h.known p frame hframe
    · exact h.known y frame hframe

/-- A device has got a frame. -/
def Bus.got (bus : Bus ι) (q : ι) (frame : CanMessage) : Bus ι :=
  { bus with
    node := Function.update bus.node q { bus.node q with got := (bus.node q).got ++ [frame] } }

theorem Bus.got_node (bus : Bus ι) (q : ι) (frame : CanMessage) (x : ι) :
    (bus.got q frame).node x =
      if x = q then { bus.node q with got := (bus.node q).got ++ [frame] } else bus.node x := by
  by_cases hx : x = q
  · rw [if_pos hx, hx]
    exact Function.update_self ..
  · rw [if_neg hx]
    exact Function.update_of_ne hx ..

theorem Bus.got_after (bus : Bus ι) (frame : CanMessage) :
    (bus.got q frame).after q r = bus.after q r := by
  simp [Bus.after, Bus.got]

/-- **A frame gets there**: it is a piece of what its sender sends, and of nothing else. -/
theorem Bus.Wires.got (h : bus.Wires address) (haddress : Function.Injective address)
    (hlt : ∀ x, (address x).toNat < 31) {frame : CanMessage} {rest : List CanMessage}
    (hlink : bus.link p q = frame :: rest) : ((bus.drop p q).got q frame).Wires address := by
  have hsentBy : SentBy (address p) frame := h.sentBy p q frame (by rw [hlink]; simp)
  have hmem : ∀ x y, ∀ f ∈ ((bus.drop p q).got q frame).link x y, f ∈ bus.link x y := by
    intro x y f hf
    simp only [Bus.got, Bus.drop] at hf
    split_ifs at hf
    · exact List.mem_of_mem_tail hf
    · exact hf
  refine ⟨fun x y hne => ?_, fun x y f hf => h.sentBy x y f (hmem x y f hf), fun x => ?_,
    fun x y f hf => h.calm x y f (hmem x y f hf), fun y f hf => ?_⟩
  · have hold := h.wire x y hne
    have hsents : (((bus.drop p q).got q frame).node x).sent = (bus.node x).sent := by
      rw [Bus.got_node]
      split_ifs with hx
      · rw [hx]
        rfl
      · rfl
    rw [hsents, ← hold, Bus.got_node]
    by_cases hy : y = q
    · subst hy
      rw [if_pos rfl, piecesOf_append]
      simp only [Bus.got, Bus.drop, and_true]
      by_cases hx : x = p
      · subst hx
        rw [if_pos rfl, hlink, List.tail_cons, List.append_assoc]
        congr 1
        rw [piecesOf, marks, marks, List.filterMap_cons, List.filterMap_cons, List.filterMap_nil,
          hsentBy.pieceOf (hlt x), if_pos rfl]
        cases frameMark frame <;> rfl
      · have hnone : piecesOf (address x) [frame] = [] := by
          rw [piecesOf, List.filterMap_cons, hsentBy.pieceOf (hlt p),
            if_neg fun heq => hx (haddress heq).symm, List.filterMap_nil]
        rw [if_neg hx, hnone, List.append_nil]
    · rw [if_neg hy]
      have hsame : ((bus.drop p q).got q frame).link x y = bus.link x y :=
        if_neg fun hxy => hy hxy.2
      rw [hsame]
      rfl
  · have hself := h.self x
    by_cases hx : bus.link x x = []
    · exact List.eq_nil_iff_forall_not_mem.mpr fun f hf =>
        absurd (hmem x x f hf) (by rw [hx]; simp)
    · exact absurd hself hx
  · rw [Bus.got_node] at hf
    split_ifs at hf with hy
    · rcases List.mem_append.mp hf with hold | hnew
      · exact hy ▸ h.known q f hold
      · obtain rfl := List.mem_singleton.mp hnew
        refine ⟨p, ?_, hsentBy⟩
        rintro rfl
        rw [hy, h.self] at hlink
        exact absurd hlink (by simp)
    · exact h.known y f hf

/-- A device has moved, in whatever way it is that keeps its own invariant. -/
theorem Bus.Ok.after (h : bus.Ok address) {bus₁ : Bus ι}
    (hnode : ∀ x, x ≠ p → bus₁.node x = bus.node x) (hwires : bus₁.Wires address) (call : Call)
    (hctx : r.1.ctx = (device.step (bus.node p).ctx call).1)
    (hout : r.2 = (device.step (bus.node p).ctx call).2)
    (hgot : r.1.got = (bus₁.node p).got)
    (hsent : r.1.sent = (bus₁.node p).sent ++ r.2.1.frame.toList)
    (hhears : r.1.Hears (address p)) (htalks : r.1.Talks (address p)) :
    (bus₁.after p r).Ok address := by
  have hok := (h.hears p).ctx
  refine ⟨fun x => ?_, fun x => ?_, fun x => ?_,
    hwires.after hgot hsent (fun frame hframe => ?_) ?_⟩
  · rw [Bus.after_node]
    split_ifs with hx
    · exact hx ▸ hhears
    · rw [hnode x hx]
      exact h.hears x
  · rw [Bus.after_node]
    split_ifs with hx
    · exact hx ▸ htalks
    · rw [hnode x hx]
      exact h.talks x
  · rw [Bus.after_node]
    split_ifs with hx
    · rw [hctx, (device_step_moves hok call).1.messageValidator]
      exact h.messageValidator p
    · rw [hnode x hx]
      exact h.messageValidator x
  · refine htalks.sentBy frame ?_
    rw [hsent]
    exact List.mem_append_right _ (Option.mem_toList.mpr hframe)
  · rw [hout]
    exact device_not_isNack hok (h.messageValidator p) call

/-- **Whatever happens on the bus keeps the invariant.** -/
theorem Bus.Ok.step (h : bus.Ok address) (haddress : Function.Injective address)
    (action : BusAction ι) : (busMachine.step bus action).1.Ok address := by
  have hlt : ∀ x, (address x).toNat < 31 := fun x =>
    (h.hears x).ownAddress ▸ (h.hears x).ctx.ownAddress
  cases action with
  | startSend p msg readable nowMs env =>
    exact h.after (fun _ _ => rfl) h.wires (.startSend msg readable nowMs env) rfl rfl rfl rfl
      ((h.hears p).startSend readable nowMs env)
      ((h.talks p).startSend (h.hears p) readable nowMs env)
  | process p nowMs =>
    exact h.after (fun _ _ => rfl) h.wires (.process nowMs) rfl rfl rfl rfl
      ((h.hears p).process nowMs) ((h.talks p).process (h.hears p) nowMs)
  | deliver p q nowMs env =>
    simp only [busMachine]
    cases hlink : bus.link p q with
    | nil => exact h
    | cons frame rest =>
      have hmem : frame ∈ bus.link p q := by rw [hlink]; exact List.mem_cons_self
      have hkeeps : (Call.addFrame frame nowMs env).Keeps (address q) :=
        (h.wires.sentBy p q frame hmem).keeps (hlt p) nowMs env
      have hcalm : (bus.node q).ctx.Calm frame :=
        Ctx.calm_of_not_isNack (h.wires.calm p q frame hmem)
      show ((bus.drop p q).after q ((bus.node q).hear frame nowMs env)).Ok address
      rw [← Bus.got_after (bus.drop p q) frame]
      have hself := Bus.got_node (bus.drop p q) q frame q
      rw [if_pos rfl] at hself
      refine h.after (fun x hx => ?_) (h.wires.got haddress hlt hlink) (.addFrame frame nowMs env)
        rfl rfl ?_ ?_ ((h.hears q).hear frame nowMs env hkeeps)
        ((h.talks q).hear (h.hears q) hcalm nowMs env)
      · rw [Bus.got_node, if_neg hx]
        rfl
      · rw [hself]
        rfl
      · rw [hself]
        rfl

omit [DecidableEq ι] in
/-- Devices that were just set up. -/
theorem Bus.ok_initial {ctx : ι → Ctx} (hctx : ∀ p, (ctx p).Initial)
    (hvalidator : ∀ p, (ctx p).messageValidator = false) :
    (Bus.initial ctx).Ok fun p => (ctx p).ownAddress where
  hears p := .initial (hctx p)
  talks p := {
    sender := {
      follows := follows_nil
      starts := rfl
      carries := fun i htx => absurd ((hctx p).free i) (Session.isTx_iff.mp htx).1
      messages := fun _ h => absurd h (by simp [Bus.initial]) }
    sentBy := fun _ h => absurd h (by simp [Bus.initial]) }
  messageValidator := hvalidator
  wires := {
    wire := fun _ _ _ => rfl
    sentBy := fun _ _ _ h => absurd h (by simp [Bus.initial])
    self := fun _ => rfl
    calm := fun _ _ _ h => absurd h (by simp [Bus.initial])
    known := fun _ _ h => absurd h (by simp [Bus.initial]) }

end Step

/-! ### What is reported was started -/

section Reports

variable {address : ι → UInt8} {bus : Bus ι}

/-- The message of a transfer is what arrives of the message that it was started for. -/
theorem transferMsg_eq_delivered {msg : Msg} {id : UInt8} {key : UInt8 × UInt8} {mode : MsgMode}
    {bytes : List UInt8} (hlen : msg.length.toNat ≤ (msg.data.getD []).length)
    (he : entry (msg, id) = ⟨key, mode, bytes⟩) :
    transferMsg mode msg.addressFrom key.1 key.2 bytes = msg.delivered id := by
  obtain ⟨hkey, hmode, hbytes⟩ := Entry.mk.inj he
  simp only at hkey hmode hbytes
  subst hkey hbytes
  have hlength : msg.bytes.length = msg.length.toNat := by
    rw [Msg.bytes, List.length_take]
    exact Nat.min_eq_left hlen
  have hempty : msg.bytes = [] ↔ ¬ msg.length > 0 := by
    rw [← List.length_eq_zero_iff, hlength, gt_iff_lt, UInt16.lt_iff_toNat_lt]
    exact (Nat.not_lt.trans Nat.le_zero).symm
  rw [transferMsg, Msg.delivered, hlength, UInt16.ofNat_toNat, ← hmode]
  congr 1
  · split_ifs <;> rfl
  · by_cases hpos : msg.length > 0
    · rw [if_pos hpos, if_neg (by rw [hempty]; exact not_not.mpr hpos)]
    · rw [if_neg hpos, if_pos (hempty.mpr hpos)]

omit [DecidableEq ι] in
/-- **A whole transfer is one that another device has started.** -/
theorem Bus.Ok.started (h : bus.Ok address) {q : ι} {report : Msg × ℕ}
    (hwhole : Whole (bus.node q).got report) :
    ∃ p, p ≠ q ∧ address p = report.1.addressFrom ∧ ∃ msg id,
      (bus.node p).started[report.2]? = some (msg, id) ∧ report.1 = msg.delivered id := by
  obtain ⟨before, frame, after, mode, bytes, hgot, hpiece, hopens, hmsg⟩ := hwhole
  obtain ⟨p, hne, hsentBy⟩ := h.wires.known q frame (by rw [hgot]; simp)
  have hlt : (address p).toNat < 31 := (h.hears p).ownAddress ▸ (h.hears p).ctx.ownAddress
  have hfrom : address p = report.1.addressFrom := by
    rw [hsentBy.pieceOf hlt] at hpiece
    by_contra hno
    rw [if_neg hno] at hpiece
    exact absurd hpiece (by simp)
  rw [← hfrom] at hpiece hopens hmsg
  -- the frames of the transfer are the first ones that its sender has sent
  have hsent : marks (bus.node p).sent =
      (piecesOf (address p) before ++
          [((report.1.addressTo, report.1.sessionId), Mark.stop)]) ++
        (piecesOf (address p) after ++ marks (bus.link p q)) := by
    rw [← h.wires.wire p q hne, hgot, List.append_cons, piecesOf_append, piecesOf_append]
    have hone : piecesOf (address p) [frame] =
        [((report.1.addressTo, report.1.sessionId), Mark.stop)] := by
      rw [piecesOf, List.filterMap_cons, hpiece, List.filterMap_nil]
    rw [hone, List.append_assoc]
  have hfollows := (h.talks p).sender.follows
  rw [hsent] at hfollows
  obtain ⟨-, hentry⟩ := hfollows.left.stop (scan_current_eq_iff.mpr hopens)
  rw [List.getElem?_map] at hentry
  obtain ⟨⟨msg, id⟩, hstarted, he⟩ := Option.map_eq_some_iff.mp hentry
  obtain ⟨haddress, hlen⟩ := (h.talks p).sender.messages _ (List.mem_of_getElem? hstarted)
  refine ⟨p, hne, hfrom, msg, id, hstarted, ?_⟩
  rw [hmsg, ← transferMsg_eq_delivered hlen he, haddress, (h.hears p).ownAddress]

end Reports

/-- **Transfers arrive as they were started, on a bus of any number of devices.**  Devices
with different addresses and without a validator, of any configurations, send messages to
each other, to all, and to addresses of nobody.  After every run, whatever its order, the
clocks and the memory are, each message that a device has reported is what arrives of a
message that another device has started, the one with the sender's address, for this
device or for all; and no two reports are of the same one. -/
theorem bus_integrity {ctx : ι → Ctx} (hctx : ∀ p, (ctx p).Initial)
    (haddress : Function.Injective fun p => (ctx p).ownAddress)
    (hvalidator : ∀ p, (ctx p).messageValidator = false) (actions : List (BusAction ι)) (q : ι)
    (bus : Bus ι) (hbus : bus = busMachine.final (Bus.initial ctx) actions) :
    (∀ report ∈ (bus.node q).reported, ∃ p, p ≠ q ∧ ∃ msg id,
        (bus.node p).started[report.2]? = some (msg, id) ∧ report.1 = msg.delivered id ∧
          msg.addressFrom = (ctx p).ownAddress ∧
            (msg.addressTo = (ctx q).ownAddress ∨ msg.addressTo = deviceIdAll)) ∧
      ((bus.node q).reported.map fun report => (report.1.addressFrom, report.2)).Nodup := by
  have hrun : bus.Ok fun p => (ctx p).ownAddress := by
    rw [hbus]
    exact busMachine.final_of_step actions (Bus.ok_initial hctx hvalidator) fun _ action _ hok =>
      hok.step haddress action
  refine ⟨fun report hreport => ?_, ?_⟩
  · obtain ⟨p, hne, hfrom, msg, id, hstarted, hmsg⟩ :=
      hrun.started ((hrun.hears q).whole report hreport)
    have haddressed := (hrun.hears q).addressed report hreport
    rw [hmsg] at hfrom haddressed
    exact ⟨p, hne, msg, id, hstarted, hmsg, hfrom.symm, haddressed⟩
  · exact nodup_of_numbersOf fun peer => ((hrun.hears q).spent peer).nodup

/-- The places of three devices. -/
inductive Place
  | left
  | middle
  | right
  deriving DecidableEq

/-- Three devices, with the addresses 1, 2 and 3. -/
def threeDevices : Place → Ctx
  | .left => smallDevice 1 false
  | .middle => smallDevice 2 false
  | .right => smallDevice 3 false

/-- Devices 1 and 3 send to device 2 at the same time, with the same id. -/
def crossTraffic : List (BusAction Place) :=
  [.startSend .left (smallMsg .withoutAck 1 2) (smallMsg_readable _ 1 2) 0 .ample,
    .startSend .right (smallMsg .withoutAck 3 deviceIdAll) (smallMsg_readable _ 3 deviceIdAll) 0
      .ample,
    .process .left 0, .process .right 0, .deliver .right .middle 0 .ample,
    .deliver .left .middle 0 .ample, .process .right 0, .deliver .right .middle 0 .ample,
    .deliver .left .middle 0 .ample, .deliver .right .middle 0 .ample, .process .left 0,
    .deliver .left .middle 0 .ample]

/-- Device 2 reports both, each with its own sender. -/
theorem bus_integrity_threeDevices :
    ((busMachine.final (Bus.initial threeDevices) crossTraffic).node .middle).reported =
        [((smallMsg .withoutAck 3 deviceIdAll).delivered 0, 0),
          ((smallMsg .withoutAck 1 2).delivered 0, 0)] ∧
      ∃ p, p ≠ Place.middle ∧ ∃ msg id,
        ((busMachine.final (Bus.initial threeDevices) crossTraffic).node p).started[0]? =
            some (msg, id) ∧
          (smallMsg .withoutAck 1 2).delivered 0 = msg.delivered id := by
  have hreported :
      ((busMachine.final (Bus.initial threeDevices) crossTraffic).node .middle).reported =
        [((smallMsg .withoutAck 3 deviceIdAll).delivered 0, 0),
          ((smallMsg .withoutAck 1 2).delivered 0, 0)] := by decide
  have hinitial : ∀ p, (threeDevices p).Initial := by
    intro p
    cases p <;> exact smallDevice_initial (by decide) false
  have haddress : Function.Injective fun p => (threeDevices p).ownAddress := by
    intro p q hpq
    cases p <;> cases q <;> first | rfl | exact absurd hpq (by decide)
  have hvalidator : ∀ p, (threeDevices p).messageValidator = false := by
    intro p
    cases p <;> rfl
  obtain ⟨p, hne, msg, id, hstarted, hmsg, -⟩ :=
    (bus_integrity hinitial haddress hvalidator crossTraffic .middle _ rfl).1
      ((smallMsg .withoutAck 1 2).delivered 0, 0) (by rw [hreported]; simp)
  exact ⟨hreported, p, hne, msg, id, hstarted, hmsg⟩

end Imp
end UniCan
