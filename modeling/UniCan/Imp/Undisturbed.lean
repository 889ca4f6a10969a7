import UniCan.Imp.Exchange

/-!
# An undisturbed transfer

Two devices, whatever has happened to each of them before, and nothing on the wire
between them.  One starts a transfer to the other, every frame is delivered, and every
answer; and nothing else happens.  Then the transfer completes, and both tables are what
they were.

## Main definitions

* `Net.Stands` — where two devices stand: their contexts, and what is on the wire.
* `ackedRound`, `streamRound` — a frame and its answer; a frame that needs none.
* `ackedTalk`, `streamTalk` — what the devices say, from the START on.

## Main results

* `acked_rounds`, `stream_rounds` — the two of them in lock step.
* `undisturbed_transfer` — **an undisturbed transfer completes.**
-/

namespace UniCan
namespace Imp

/-! ### Two devices step by step -/

/-- A device and the other one, and what is on its way from each of them. -/
structure Net.Stands (net : Net) (side : Side) (ctx ctx' : Ctx) (link link' : List CanMessage) :
    Prop where
  ctx : (net.node side).ctx = ctx
  ctx' : (net.node side.other).ctx = ctx'
  link : net.link side = link
  link' : net.link side.other = link'

section Stands

variable {net : Net} {side : Side} {ctx ctx' next : Ctx} {link link' : List CanMessage}
  {frame : CanMessage} {nowMs : UInt32} {env : Env} {output : Output} {result : Result}

theorem Net.Stands.swap (h : net.Stands side ctx ctx' link link') :
    net.Stands side.other ctx' ctx link' link where
  ctx := h.ctx'
  ctx' := by
    rw [Side.other_other]
    exact h.ctx
  link := h.link'
  link' := by
    rw [Side.other_other]
    exact h.link

/-- What a device does, and what it puts on the wire. -/
theorem Net.Stands.after (h : net.Stands side ctx ctx' link link') {r : Node × Output × Result}
    (hctx : r.1.ctx = next) (hsaid : r.2 = (output, result)) :
    (net.after side r).Stands side next ctx' (link ++ output.frame.toList) link' where
  ctx := by
    rw [Net.after_node_self]
    exact hctx
  ctx' := by
    rw [Net.after_node_other]
    exact h.ctx'
  link := by rw [Net.after_link_self, h.link, hsaid]
  link' := by rw [Net.after_link_other, h.link']

/-- A transfer is started. -/
theorem Net.Stands.startSend (h : net.Stands side ctx ctx' link link') {msg : Msg}
    {readable : msg.Readable}
    (hstep : device.step ctx (.startSend msg readable nowMs env) = (next, output, result)) :
    (network.step net (.startSend side msg readable nowMs env)).2 = some (output, result) ∧
      (network.step net (.startSend side msg readable nowMs env)).1.Stands side next ctx'
        (link ++ output.frame.toList) link' := by
  rw [← h.ctx] at hstep
  have hsaid : ((net.node side).startSend msg readable nowMs env).2 = (output, result) :=
    congrArg Prod.snd hstep
  exact ⟨congrArg some hsaid, h.after (congrArg Prod.fst hstep) hsaid⟩

/-- A device is processed. -/
theorem Net.Stands.process (h : net.Stands side ctx ctx' link link')
    (hstep : device.step ctx (.process nowMs) = (next, output, result)) :
    (network.step net (.process side nowMs)).2 = some (output, result) ∧
      (network.step net (.process side nowMs)).1.Stands side next ctx'
        (link ++ output.frame.toList) link' := by
  rw [← h.ctx] at hstep
  have hsaid : ((net.node side).process nowMs).2 = (output, result) := congrArg Prod.snd hstep
  exact ⟨congrArg some hsaid, h.after (congrArg Prod.fst hstep) hsaid⟩

/-- The next frame is delivered. -/
theorem Net.Stands.deliver (h : net.Stands side ctx ctx' link (frame :: link'))
    (hstep : device.step ctx (.addFrame frame nowMs env) = (next, output, result)) :
    (network.step net (.deliver side nowMs env)).2 = some (output, result) ∧
      (network.step net (.deliver side nowMs env)).1.Stands side next ctx'
        (link ++ output.frame.toList) link' := by
  have hdrop : (net.drop side.other).Stands side ctx ctx' link link' := by
    refine ⟨h.ctx, h.ctx', ?_, ?_⟩
    · rw [Net.drop_other_link, h.link]
    · rw [Net.drop_link_self, h.link']
      rfl
  rw [← h.ctx] at hstep
  have hsaid : ((net.node side).addFrame frame nowMs env).2 = (output, result) :=
    congrArg Prod.snd hstep
  simp only [network, h.link']
  exact ⟨congrArg some hsaid, hdrop.after (congrArg Prod.fst hstep) hsaid⟩

end Stands

/-! ### Rounds -/

/-- A turn of a device: when it is, and what the device gets from outside. -/
structure Turn where
  nowMs : UInt32
  env : Env

/-- A frame is delivered, and the answer to it. -/
def ackedRound (r : Turn × Turn) : List NetAction :=
  [.deliver .b r.1.nowMs r.1.env, .deliver .a r.2.nowMs r.2.env]

/-- The sender is processed, and its frame is delivered. -/
def streamRound (r : UInt32 × Turn) : List NetAction :=
  [.process .a r.1, .deliver .b r.2.nowMs r.2.env]

section Round

variable {net : Net} {a a' b b' : Ctx} {frame answer : CanMessage} {output output' : Output}

/-- What is said in a round of two deliveries. -/
theorem Net.Stands.ackedRound (h : net.Stands .a a b [frame] []) {r : Turn × Turn}
    (hb : device.step b (.addFrame frame r.1.nowMs r.1.env) = (b', output, .ok))
    (hanswer : output.frame = some answer)
    (ha : device.step a (.addFrame answer r.2.nowMs r.2.env) = (a', output', .ok)) :
    network.outputs net (ackedRound r) = [some (output, .ok), some (output', .ok)] ∧
      (network.final net (ackedRound r)).Stands .a a' b' output'.frame.toList [] := by
  obtain ⟨hout, hnext⟩ := h.swap.deliver hb
  rw [hanswer] at hnext
  obtain ⟨hout', hlast⟩ := hnext.swap.deliver ha
  exact ⟨List.cons_eq_cons.mpr ⟨hout, List.cons_eq_cons.mpr ⟨hout', rfl⟩⟩, hlast⟩

/-- What is said in a round of processing and a delivery. -/
theorem Net.Stands.streamRound (h : net.Stands .a a b [] []) {r : UInt32 × Turn}
    (ha : device.step a (.process r.1) = (a', output, .ok)) (hframe : output.frame = some frame)
    (hb : device.step b (.addFrame frame r.2.nowMs r.2.env) = (b', output', .ok))
    (hquiet : output'.frame = none) :
    network.outputs net (streamRound r) = [some (output, .ok), some (output', .ok)] ∧
      (network.final net (streamRound r)).Stands .a a' b' [] [] := by
  obtain ⟨hout, hnext⟩ := h.process ha
  rw [hframe] at hnext
  obtain ⟨hout', hlast⟩ := hnext.swap.deliver hb
  rw [hquiet] at hlast
  exact ⟨List.cons_eq_cons.mpr ⟨hout, List.cons_eq_cons.mpr ⟨hout', rfl⟩⟩, hlast.swap⟩

end Round

/-! ### What is said -/

theorem frame_of_seen {output output' : Output} (h : output.seen = output') :
    output.frame = output'.frame := by
  rw [← h]
  rfl

/-- An output of a call, without its history. -/
def said (o : Option (Output × Result)) : Option (Output × Result) :=
  o.map fun r => (r.1.seen, r.2)

/-- A frame, and nothing else. -/
def speaks (frame : CanMessage) : Output := { frame := some frame }

/-- What the receiver says when a transfer is complete. -/
def completes (own peer sessionId : UInt8) (msg : Msg) : Output where
  frame := msg.mode.answer peer own sessionId
  receivedMessage := some (msg.delivered sessionId)
  event := .rxFinished
  peerAddress := own
  sessionId := sessionId

/-- What the sender says when a transfer is complete. -/
def finishes (frame : Option CanMessage) (peer sessionId : UInt8) : Output where
  frame := frame
  event := .txFinished
  peerAddress := peer
  sessionId := sessionId

/-- The START of a transfer. -/
def startOutput (own peer sessionId : UInt8) (mode : MsgMode) : Output where
  frame := some (frameTo own peer sessionId mode.start [])
  peerAddress := peer
  sessionId := sessionId

/-- Data that needs no acknowledgement. -/
def pieceOutput (own peer sessionId : UInt8) (bytes : List UInt8) : Output where
  frame := some (frameTo own peer sessionId .dataWa bytes)
  peerAddress := peer
  sessionId := sessionId

/-- What is said of the rest of a transfer that is acknowledged: each acknowledgement is
answered with the next frame, up to the END. -/
def ackedTalk (own peer sessionId : UInt8) (msg : Msg) (rest : List UInt8) : List Output :=
  ((pieces rest 8).map (frameTo own peer sessionId .data) ++
      [frameTo own peer sessionId .end_ []]).flatMap
    (fun frame => [speaks (frameTo peer own sessionId .ack []), speaks frame]) ++
  [completes own peer sessionId msg, finishes none peer sessionId]

/-- What is said of the rest of a transfer that is not: the receiver says nothing to its
frames. -/
def streamTalk (own peer sessionId : UInt8) (msg : Msg) (rest : List UInt8) : List Output :=
  (pieces rest 8).flatMap (fun bytes => [pieceOutput own peer sessionId bytes, ({} : Output)]) ++
  [finishes (some (frameTo own peer sessionId .endWa [])) peer sessionId,
    completes own peer sessionId msg]

section Cut

variable {own peer sessionId : UInt8} {msg : Msg} {rest : List UInt8}

theorem ackedTalk_nil : ackedTalk own peer sessionId msg [] =
    [speaks (frameTo peer own sessionId .ack []), speaks (frameTo own peer sessionId .end_ []),
      completes own peer sessionId msg, finishes none peer sessionId] := by
  rw [ackedTalk, pieces_nil (by decide)]
  rfl

theorem ackedTalk_cut (h : rest ≠ []) : ackedTalk own peer sessionId msg rest =
    speaks (frameTo peer own sessionId .ack []) ::
      speaks (frameTo own peer sessionId .data (rest.take 8)) ::
        ackedTalk own peer sessionId msg (rest.drop 8) := by
  rw [ackedTalk, pieces_of_ne_nil (by decide) h]
  rfl

theorem streamTalk_nil : streamTalk own peer sessionId msg [] =
    [finishes (some (frameTo own peer sessionId .endWa [])) peer sessionId,
      completes own peer sessionId msg] := by
  rw [streamTalk, pieces_nil (by decide)]
  rfl

theorem streamTalk_cut (h : rest ≠ []) : streamTalk own peer sessionId msg rest =
    pieceOutput own peer sessionId (rest.take 8) :: {} ::
      streamTalk own peer sessionId msg (rest.drop 8) := by
  rw [streamTalk, pieces_of_ne_nil (by decide) h]
  rfl

end Cut

/-- A turn of the receiver in which there is memory for everything, and its validator
likes the message. -/
def Turn.Good (turn : Turn) (ctx : Ctx) (msg : Msg) : Prop :=
  turn.env.Grants ∧ (ctx.messageValidator = true → turn.env.Accepts msg)

section Talk

variable {a b : Ctx} {i j : ℕ} {sessionId : UInt8} {msg : Msg}

/-- What a session has received is what arrives of the message. -/
theorem Session.Collects.msg_eq {peer : UInt8} {s : Session} (h : b.Holds j peer sessionId s)
    (hs : s.Collects msg.mode msg.bytes) (hfrom : msg.addressFrom = peer)
    (hto : msg.addressTo = b.ownAddress)
    (hread : msg.length.toNat ≤ (msg.data.getD []).length) : s.msg = msg.delivered sessionId := by
  obtain ⟨hpeer, hlocal, hid, -⟩ := h.fields
  have hsize : s.payloadSize = msg.length := by
    rw [← UInt16.toNat_inj, ← h.ok.length_data, hs.data, Msg.bytes, List.length_take]
    exact Nat.min_eq_left hread
  rw [Session.msg, Msg.delivered, hpeer, hlocal, hid, hsize, hs.data, hs.mode, hfrom, hto]

/-- There is room for the next piece of a message. -/
theorem room_of_append {data rest : List UInt8} (hdata : data ++ rest = msg.bytes)
    (hlimit : msg.length ≤ b.maxMessageSize) :
    data.length + (rest.take 8).length ≤ b.maxMessageSize.toNat := by
  have hbytes := congrArg List.length hdata
  rw [UInt16.le_iff_toNat_le] at hlimit
  rw [List.length_append, Msg.bytes, List.length_take] at hbytes
  rw [List.length_take]
  omega

/-- **The two of them in lock step.**  The receiver answers the frame that is on its way to
it, whatever it is, and has then got so much of the message; the sender waits for the
answer, and the rest is still to come. -/
theorem acked_rounds (hmode : msg.mode = .withAck) (hfrom : msg.addressFrom = a.ownAddress)
    (hto : msg.addressTo = b.ownAddress) (hread : msg.length.toNat ≤ (msg.data.getD []).length)
    (hlimit : msg.length ≤ b.maxMessageSize) (rest : List UInt8) :
    ∀ ⦃net : Net⦄ ⦃b' : Ctx⦄ ⦃frame : CanMessage⦄ ⦃s : Session⦄ ⦃data : List UInt8⦄
      ⦃rounds : List (Turn × Turn)⦄, net.Stands .a (a.setSession i s) b' [frame] [] →
      a.Holds i b.ownAddress sessionId s → s.Awaits rest →
      (∀ r ∈ rounds, r.1.Good b (msg.delivered sessionId) ∧ ∃ s' output,
        device.step b' (.addFrame frame r.1.nowMs r.1.env) = (b.setSession j s', output, .ok) ∧
          b.Holds j a.ownAddress sessionId s' ∧ s'.Collects .withAck data ∧
          output.seen = speaks (frameTo b.ownAddress a.ownAddress sessionId .ack [])) →
      data ++ rest = msg.bytes → rounds.length = (pieces rest 8).length + 2 →
      (network.outputs net (rounds.flatMap ackedRound)).map said =
          (ackedTalk a.ownAddress b.ownAddress sessionId msg rest).map (fun o => some (o, .ok)) ∧
        (network.final net (rounds.flatMap ackedRound)).Stands .a a b [] [] := by
  refine cut_induction (m := 8) (by decide) ?_ (fun rest hrest ih => ?_) rest
  · -- the last two rounds: the END goes out, and then nothing
    intro net b' frame s data rounds hstands hholds hawaits hgets hdata hlength
    rw [pieces_nil (by decide)] at hlength
    obtain ⟨r, r', rfl⟩ := List.length_eq_two.mp hlength
    obtain ⟨-, sb, output, hb, hholdsb, hcollects, hseen⟩ := hgets r (by simp)
    obtain ⟨⟨hgrants, haccepts⟩, -⟩ := hgets r' (by simp)
    obtain ⟨sa, output', ha, hholdsa, hstate, hseen'⟩ :=
      hholds.sends_end hawaits r.2.nowMs r.2.env
    obtain ⟨hout, hstands'⟩ := hstands.ackedRound hb (frame_of_seen hseen) ha
    rw [frame_of_seen hseen'] at hstands'
    rw [List.append_nil] at hdata
    have hmsg : sb.msg = msg.delivered sessionId :=
      Session.Collects.msg_eq hholdsb (by rw [hmode, ← hdata]; exact hcollects) hfrom hto hread
    obtain ⟨outputb, hb', hseenb⟩ := hholdsb.gets_end hcollects (by simp) hgrants
      (by rw [hmsg]; exact haccepts) r'.1.nowMs
    obtain ⟨outputa, ha', hseena⟩ := hholdsa.sends_finish hstate r'.2.nowMs r'.2.env
    obtain ⟨hout', hlast⟩ := hstands'.ackedRound hb' (frame_of_seen hseenb) ha'
    rw [frame_of_seen hseena] at hlast
    rw [List.flatMap_cons, List.flatMap_singleton, Machine.outputs_append, Machine.final_append,
      hout, hout', ackedTalk_nil, completes, hmode]
    refine ⟨?_, hlast⟩
    simp only [List.cons_append, List.nil_append, List.map_cons, List.map_nil, said,
      Option.map_some, hseen, hseen', hseenb, hseena, hmsg]
    rfl
  · intro net b' frame s data rounds hstands hholds hawaits hgets hdata hlength
    rw [pieces_of_ne_nil (by decide) hrest, List.length_cons] at hlength
    obtain ⟨r, rounds, rfl⟩ := List.exists_cons_of_length_pos (by omega : 0 < rounds.length)
    obtain ⟨-, sb, output, hb, hholdsb, hcollects, hseen⟩ := hgets r List.mem_cons_self
    obtain ⟨sa, output', ha, hholdsa, hawaits', hseen'⟩ :=
      hholds.sends_data hawaits hrest r.2.nowMs r.2.env
    obtain ⟨hout, hstands'⟩ := hstands.ackedRound hb (frame_of_seen hseen) ha
    rw [frame_of_seen hseen'] at hstands'
    -- the data that is on its way now, and then the rest of it
    have hlen : (rest.take 8).length ≤ maxLen := List.length_take_le 8 rest
    have hroom := room_of_append hdata hlimit
    obtain ⟨houts, hlast⟩ := ih hstands' hholdsa hawaits' (fun r hr => by
      obtain ⟨hgood, -⟩ := hgets r (List.mem_cons_of_mem _ hr)
      exact ⟨hgood, hholdsb.gets_data hcollects hgood.1 hlen hroom r.1.nowMs⟩)
      (by rw [List.append_assoc, List.take_append_drop, hdata])
      (by rw [List.length_cons] at hlength; omega)
    rw [List.flatMap_cons, Machine.outputs_append, Machine.final_append, List.map_append, houts,
      hout, ackedTalk_cut hrest]
    refine ⟨?_, hlast⟩
    simp only [List.map_cons, List.map_nil, said, Option.map_some, hseen, hseen']
    rfl

/-- **The same without acknowledgement.** -/
theorem stream_rounds (hmode : msg.mode = .withoutAck) (hfrom : msg.addressFrom = a.ownAddress)
    (hto : msg.addressTo = b.ownAddress) (hread : msg.length.toNat ≤ (msg.data.getD []).length)
    (hlimit : msg.length ≤ b.maxMessageSize) (hstill : ∀ k, (a.session k).state ≠ .txWithoutAck)
    (rest : List UInt8) :
    ∀ ⦃net : Net⦄ ⦃s s' : Session⦄ ⦃data : List UInt8⦄ ⦃rounds : List (UInt32 × Turn)⦄,
      net.Stands .a (a.setSession i s) (b.setSession j s') [] [] →
      a.Holds i b.ownAddress sessionId s → s.state = .txWithoutAck → s.remaining = rest →
      b.Holds j a.ownAddress sessionId s' → s'.Collects .withoutAck data →
      (∀ r ∈ rounds, r.2.Good b (msg.delivered sessionId) ∧
        ∀ k, timedOut a r.1 (a.session k) = false) →
      data ++ rest = msg.bytes → rounds.length = (pieces rest 8).length + 1 →
      (network.outputs net (rounds.flatMap streamRound)).map said =
          (streamTalk a.ownAddress b.ownAddress sessionId msg rest).map (fun o => some (o, .ok)) ∧
        (network.final net (rounds.flatMap streamRound)).Stands .a a b [] [] := by
  refine cut_induction (m := 8) (by decide) ?_ (fun rest hrest ih => ?_) rest
  · intro net s s' data rounds hstands hholds hstate hnil hholdsb hcollects hgood hdata hlength
    rw [pieces_nil (by decide)] at hlength
    obtain ⟨r, rfl⟩ := List.length_eq_one_iff.mp hlength
    obtain ⟨⟨hgrants, haccepts⟩, htime⟩ := hgood r (List.mem_singleton.mpr rfl)
    rw [List.append_nil] at hdata
    have hmsg : s'.msg = msg.delivered sessionId :=
      Session.Collects.msg_eq hholdsb (by rw [hmode, ← hdata]; exact hcollects) hfrom hto hread
    obtain ⟨output, ha, hseen⟩ := hholds.emits_end hstate htime hstill hnil
    obtain ⟨output', hb, hseen'⟩ := hholdsb.gets_end hcollects (by simp) hgrants
      (by rw [hmsg]; exact haccepts) r.2.nowMs
    obtain ⟨hout, hlast⟩ := hstands.streamRound ha (frame_of_seen hseen) hb (frame_of_seen hseen')
    rw [List.flatMap_singleton, hout, streamTalk_nil, completes, hmode]
    refine ⟨?_, hlast⟩
    simp only [List.map_cons, List.map_nil, said, Option.map_some, hseen, hseen', hmsg]
    rfl
  · intro net s s' data rounds hstands hholds hstate hremaining hholdsb hcollects hgood hdata
      hlength
    rw [pieces_of_ne_nil (by decide) hrest, List.length_cons] at hlength
    obtain ⟨r, rounds, rfl⟩ := List.exists_cons_of_length_pos (by omega : 0 < rounds.length)
    obtain ⟨⟨hgrants, -⟩, htime⟩ := hgood r List.mem_cons_self
    obtain ⟨sa, output, ha, hholdsa, hstate', hremaining', hseen⟩ :=
      hholds.emits_data hstate htime hstill (by rw [hremaining]; exact hrest)
    rw [hremaining] at hremaining' hseen
    have hroom := room_of_append hdata hlimit
    obtain ⟨sb, output', hb, hholdsb', hcollects', hseen'⟩ := hholdsb.gets_data hcollects hgrants
      (List.length_take_le 8 rest) hroom r.2.nowMs
    obtain ⟨hout, hstands'⟩ :=
      hstands.streamRound ha (frame_of_seen hseen) hb (frame_of_seen hseen')
    obtain ⟨houts, hlast⟩ := ih hstands' hholdsa hstate' hremaining' hholdsb' hcollects'
      (fun r hr => hgood r (List.mem_cons_of_mem _ hr))
      (by rw [List.append_assoc, List.take_append_drop, hdata])
      (by rw [List.length_cons] at hlength; omega)
    rw [List.flatMap_cons, Machine.outputs_append, Machine.final_append, List.map_append, houts,
      hout, streamTalk_cut hrest]
    refine ⟨?_, hlast⟩
    simp only [List.map_cons, List.map_nil, said, Option.map_some, hseen, hseen']
    rfl

end Talk

/-- The contexts of two devices. -/
def pairOf (a b : Ctx) : Side → Ctx
  | .a => a
  | .b => b

/-- **An undisturbed transfer completes**, with the right bytes and the right number of
frames.  Two devices with different addresses are in any states that they can get into;
the one has a free session and less than eight transfers to the other, which has a free
session as well; the message is not too long for either; and the id that it gets is not in
use between them.  With acknowledgement, the START, the data and the END are sent in
⌈n / 8⌉ + 2 frames, each of which is answered with one acknowledgement; without, the START
is followed by as many calls that process the sender as there are other frames, and no
answer comes.  In the end the message is reported as it was sent, and both tables are what
they were. -/
theorem undisturbed_transfer {a b : Ctx} (ha : a.Reachable) (hb : b.Reachable)
    (hne : a.ownAddress ≠ b.ownAddress) {msg : Msg} (readable : msg.Readable)
    (hdata : msg.length > 0 → msg.data ≠ none) (hfrom : msg.addressFrom = a.ownAddress)
    (hto : msg.addressTo = b.ownAddress) (hlimit : msg.length ≤ a.maxMessageSize)
    (hlimit' : msg.length ≤ b.maxMessageSize)
    (hfree : (findFreeSession a b.ownAddress).isSome = true)
    (hids : transfersTo a b.ownAddress < 8)
    (hfree' : (findFreeSession b a.ownAddress).isSome = true) (nowMs : UInt32) {env : Env}
    (henv : env.payload.isSome = true) :
    ∃ sessionId, chosenId a b.ownAddress = some sessionId ∧
      (findSession a b.ownAddress a.ownAddress sessionId = none →
        findSession b a.ownAddress b.ownAddress sessionId = none →
        (msg.mode = .withAck → ∀ rounds : List (Turn × Turn),
          rounds.length = (msg.length.toNat + 7) / 8 + 2 →
          (∀ r ∈ rounds, r.1.Good b (msg.delivered sessionId)) → ∀ actions,
          actions = .startSend .a msg readable nowMs env :: rounds.flatMap ackedRound →
            (network.outputs (Net.initial (pairOf a b)) actions).map said =
              (startOutput a.ownAddress b.ownAddress sessionId .withAck ::
                ackedTalk a.ownAddress b.ownAddress sessionId msg msg.bytes).map
                  (fun o => some (o, .ok)) ∧
              (network.final (Net.initial (pairOf a b)) actions).Stands .a a b [] []) ∧
        (msg.mode = .withoutAck → (∀ i, (a.session i).state ≠ .txWithoutAck) →
          ∀ (turn : Turn) (rounds : List (UInt32 × Turn)),
          rounds.length = (msg.length.toNat + 7) / 8 + 1 →
          (∀ r ∈ rounds, r.2.Good b (msg.delivered sessionId) ∧
            ∀ i, timedOut a r.1 (a.session i) = false) → ∀ actions,
          actions = .startSend .a msg readable nowMs env :: .deliver .b turn.nowMs turn.env ::
            rounds.flatMap streamRound →
            (network.outputs (Net.initial (pairOf a b)) actions).map said =
              (startOutput a.ownAddress b.ownAddress sessionId .withoutAck :: {} ::
                streamTalk a.ownAddress b.ownAddress sessionId msg msg.bytes).map
                  (fun o => some (o, .ok)) ∧
              (network.final (Net.initial (pairOf a b)) actions).Stands .a a b [] [])) := by
  obtain ⟨sessionId, hid⟩ := chosenId_of_lt hids
  obtain ⟨i, hi⟩ := Option.isSome_iff_exists.mp hfree
  obtain ⟨j, hj⟩ := Option.isSome_iff_exists.mp hfree'
  have hread := readable.length_le hdata
  have hlength : (pieces msg.bytes 8).length = (msg.length.toNat + 7) / 8 := by
    rw [length_pieces, pieceCount, Msg.bytes, List.length_take, Nat.min_eq_left hread]
  have hstands : (Net.initial (pairOf a b)).Stands .a a b [] [] := ⟨rfl, rfl, rfl, rfl⟩
  refine ⟨sessionId, hid, fun hunused hunused' => ?_⟩
  have hstart : msg.mode ≠ .other → ∃ s output,
      device.step a (.startSend msg readable nowMs env) = (a.setSession i s, output, .ok) ∧
      a.Holds i b.ownAddress sessionId s ∧ s.data = msg.bytes ∧ s.payloadOffset = 0 ∧
      s.state = (if msg.mode = .withoutAck then .txWithoutAck else .txWaitStartAck) ∧
      output.seen = startOutput a.ownAddress b.ownAddress sessionId msg.mode := fun hknown => by
    rw [startOutput, ← hto]
    exact ha.ok.sends_start readable hdata hknown hfrom (by rw [hto]; exact hb.ok.ownAddress)
      (by rw [hto]; exact hne.symm) hlimit (by rw [hto]; exact hi) (by rw [hto]; exact hid)
      (by rw [hto]; exact hunused) henv nowMs
  refine ⟨fun hmode rounds hrounds hgood actions hactions => ?_,
    fun hmode hstill turn rounds hrounds hgood actions hactions => ?_⟩
  · obtain ⟨s, output, hstep, hholds, hs, hoffset, hstate, hseen⟩ := hstart (by simp [hmode])
    rw [hmode] at hstate hseen
    obtain ⟨hout, hnext⟩ := hstands.startSend hstep
    rw [frame_of_seen hseen] at hnext
    have hawaits : s.Awaits msg.bytes := by
      refine ⟨0, .start hstate hoffset.symm, ?_⟩
      rw [hs]
      rfl
    obtain ⟨houts, hlast⟩ := acked_rounds hmode hfrom hto hread hlimit' msg.bytes hnext hholds
      hawaits (fun r hr => ⟨hgood r hr, hb.ok.gets_start ha.ok.ownAddress hholds.fields.2.2.2
        hunused' hj (by simp) r.1.nowMs r.1.env⟩) (List.nil_append _)
      (by rw [hlength]; exact hrounds)
    rw [hactions, Machine.outputs_cons, Machine.final_cons, List.map_cons, List.map_cons, houts,
      hout]
    refine ⟨?_, hlast⟩
    rw [said, Option.map_some, hseen]
  · obtain ⟨s, output, hstep, hholds, hs, hoffset, hstate, hseen⟩ := hstart (by simp [hmode])
    rw [hmode] at hstate hseen
    obtain ⟨hout, hnext⟩ := hstands.startSend hstep
    rw [frame_of_seen hseen] at hnext
    obtain ⟨s', output', hstep', hholds', hcollects, hseen'⟩ := hb.ok.gets_start ha.ok.ownAddress
      hholds.fields.2.2.2 hunused' hj (show MsgMode.withoutAck ≠ .other by simp) turn.nowMs turn.env
    obtain ⟨hout', hnext'⟩ := hnext.swap.deliver hstep'
    rw [frame_of_seen hseen'] at hnext'
    have hremaining : s.remaining = msg.bytes := by
      rw [Session.remaining, hs, hoffset]
      rfl
    obtain ⟨houts, hlast⟩ := stream_rounds hmode hfrom hto hread hlimit' hstill msg.bytes
      hnext'.swap hholds hstate hremaining hholds' hcollects hgood (List.nil_append _)
      (by rw [hlength]; exact hrounds)
    rw [hactions, Machine.outputs_cons, Machine.final_cons, Machine.outputs_cons,
      Machine.final_cons, List.map_cons, List.map_cons, List.map_cons, List.map_cons]
    refine ⟨List.cons_eq_cons.mpr ⟨?_, List.cons_eq_cons.mpr ⟨?_, houts⟩⟩, hlast⟩
    · rw [hout, said, Option.map_some, hseen]
    · refine (congrArg said hout').trans ?_
      rw [said, Option.map_some, hseen']
      rfl

/-- Three rounds: the START, three bytes, and the END. -/
def smallTalk : List NetAction :=
  .startSend .a (smallMsg .withAck 1 2) ackedMsg_readable 0 .ample ::
    (List.replicate 3 (⟨1, .ample⟩, ⟨1, .ample⟩)).flatMap ackedRound

/-- A transfer of three bytes from device 1 to device 2. -/
theorem undisturbed_transfer_smallDevice :
    (network.outputs (Net.initial (pairOf (smallDevice 1 false) (smallDevice 2 false)))
        smallTalk).map said =
      (startOutput 1 2 0 .withAck :: ackedTalk 1 2 0 (smallMsg .withAck 1 2) [7, 8, 9]).map
        (fun o => some (o, .ok)) := by
  have hreachable : ∀ address, sourceAddressValid address = true →
      (smallDevice address false).Reachable := fun _ h => (smallDevice_initial h false).reachable
  have hample : Env.ample.payload.isSome = true := rfl
  obtain ⟨sessionId, hid, hdone⟩ := undisturbed_transfer (hreachable 1 (by decide))
    (hreachable 2 (by decide)) (by decide) ackedMsg_readable (fun _ => by simp [smallMsg]) rfl rfl
    (by decide) (by decide) (by decide) (by decide) (by decide) 0 hample
  have hzero : chosenId (smallDevice 1 false) 2 = some 0 := by decide
  obtain rfl : sessionId = 0 := Option.some.inj (hid.symm.trans hzero)
  refine ((hdone (by decide) (by decide)).1 rfl _ ?_ (fun r hr => ?_) _ rfl).1
  · decide
  · rw [List.eq_of_mem_replicate hr]
    exact ⟨⟨rfl, rfl, rfl⟩, fun h => absurd h (by decide)⟩

end Imp
end UniCan
