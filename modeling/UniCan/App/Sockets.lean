import UniCan.App.Conversation
import UniCan.Backend.SocketCanChannel

/-!
# Two managers over SocketCAN

The managers of a conversation are connected through SocketCAN channels: what one transmits
is written to its socket as frames; the thread of the other one's channel reads them, and
error frames in between, makes messages of them and puts these into its queue, where the
other manager finds them.  The kernel may refuse a frame, which nobody notices, and there may
be no memory for a message; where none of this happens, all of it is what the wire of
`Conversation` stands for.

## Main definitions

* `Sockets`, `sockets` — the managers, their channels and the bus.
* `SocketsAction.Fine` — nothing fails in a step.
* `Sockets.Sound` — nothing arrives that was not transmitted, or out of order, or twice.
* `Sockets.Matches` — the conversation that they carry on.

## Main results

* `chunkAt_returns` — a chunk comes out of a socket as it went in.
* `transmitAll_spec` — on the bus are the frames that the kernel takes.
* `Sockets.Sound.step` — **whatever fails**, only what was transmitted arrives.
* `managers_over_sockets` — **a run over sockets in which nothing fails is a conversation**,
  and what is published is what was sent.
-/

namespace UniCan
namespace App

open Protoplexer SocketCan

/-! ### Chunks as frames -/

/-- **A chunk comes out of a socket as it went in**, but for the time. -/
theorem chunkAt_returns {msg : Msg} {m : UInt16} (hm : ChunkLengthOk m) (i : ℕ)
    (timeUs : UInt64) :
    (messageOf timeUs (frameOf (chunkAt msg m i))).stamped 0 = chunkAt msg m i := by
  have hext : (chunkAt msg m i).flags &&& flagExtId ≠ 0 := by
    simp only [chunkAt]
    decide
  have hid : (chunkAt msg m i).id.toNat < 2 ^ 29 := by
    simp only [chunkAt]
    have hfrom := Nat.mod_lt msg.addressFrom.toNat (show 0 < 2 ^ 12 by decide)
    have hto := Nat.mod_lt msg.addressTo.toNat (show 0 < 2 ^ 12 by decide)
    have hprio := Nat.mod_lt msg.priorityInverted.toNat (show 0 < 2 ^ 4 by decide)
    rw [toNat_canidCreate]
    cases hfirst : i == 0 <;> simp <;> omega
  obtain ⟨hsame, hflags⟩ := messageOf_frameOf_extended hext hid timeUs
  have hlen : (messageOf timeUs (frameOf (chunkAt msg m i))).len = (chunkAt msg m i).len := by
    have h8 : m.toNat ≤ 8 := hm.2
    have hle : (chunkAt msg m i).len.toNat ≤ m.toNat := by
      rw [toNat_len_chunkAt hm i]
      exact min_le_left _ _
    simp only [messageOf, frameOf]
    rw [← UInt16.toNat_inj, UInt8.toNat_toUInt16, UInt16.toNat_toUInt8]
    exact Nat.mod_eq_of_lt (by omega)
  have hdata : (messageOf timeUs (frameOf (chunkAt msg m i))).data = (chunkAt msg m i).data := rfl
  rw [CanMessage.stamped, hsame, hflags, hlen, hdata]
  rfl

/-! ### The managers and their channels -/

/-- Two managers with their channels, and the frames on the bus, which were written to the
socket of the first one and not yet read from that of the second one. -/
structure Sockets where
  a : Manager
  b : Manager
  channelA : SocketCan.Channel
  channelB : SocketCan.Channel
  bus : List CanFrame

/-- What happens while both stay connected.  The allocator and the kernel may fail in all of
it. -/
inductive SocketsAction
  /-- `a` is asked to send something. -/
  | send (packet : TxPacket)
  /-- The thread of `a` transmits; `env i` is what the allocator answers for packet `i`, and
  `write n` whether the kernel takes frame `n`. -/
  | drain (env : ℕ → TxEnv) (write : ℕ → Bool)
  /-- `a` receives something. -/
  | hear (msg : Option CanMessage) (clone : Bool) (alloc : Alloc)
  /-- The thread of `b`'s channel reads a frame from the bus; `create` says whether there is
  memory for its message. -/
  | read (create : Bool) (timeUs : UInt64)
  /-- It reads an error frame. -/
  | error (frame : CanFrame) (isError : frame.canId &&& canErrFlag ≠ 0) (create : Bool)
    (timeUs : UInt64)
  /-- `b` receives from its channel. -/
  | receive (clone : Bool) (alloc : Alloc)
  /-- `b` is asked to send something. -/
  | answer (packet : TxPacket)
  /-- The thread of `b` transmits. -/
  | drainBack (env : ℕ → TxEnv)

/-- Nothing fails: `a` is asked to send messages that `b` accepts, the kernel takes every
frame, and there is memory for the chunks, for the messages of the frames, and to decode. -/
def SocketsAction.Fine (cfg : ProtoPlexerConfig) : SocketsAction → Prop
  | .send packet => ∃ pm : ProtoPlexerMessage, packet = .proto pm ∧ pm.Sendable cfg
  | .drain env write => (∀ i, env i = .ample) ∧ ∀ n, write n = true
  | .read create _ => create = true
  | .receive _ alloc => alloc.Serves false (.addChunk true)
  | _ => True

/-- Some messages are given to a channel, and the frames that the kernel takes get on the bus.
The manager does not look at what the channel returns. -/
def transmitAll (write : ℕ → Bool) (channel : SocketCan.Channel) (bus : List CanFrame) :
    List CanMessage → SocketCan.Channel × List CanFrame
  | [] => (channel, bus)
  | msg :: msgs =>
      let r := channel.transmit (fun _ => write 0) msg
      transmitAll (fun n => write (n + 1)) r.1
        (bus ++ if r.2.1 then r.2.2.toList else []) msgs

/-- The managers over sockets as a machine. -/
def sockets : Machine Sockets SocketsAction Unit where
  step s
    | .send packet => ({ s with a := s.a.push packet }, ())
    | .drain env write =>
        let a := s.a.drain env
        let r := transmitAll write s.channelA s.bus
          (a.transmitted.drop s.a.transmitted.length)
        ({ s with a, channelA := r.1, bus := r.2 }, ())
    | .hear msg clone alloc => ({ s with a := s.a.receive msg clone alloc }, ())
    | .read create timeUs =>
        let round := s.bus.head?.map fun frame => [⟨frame, create, timeUs⟩]
        ({ s with channelB := s.channelB.threadRound round, bus := s.bus.tail }, ())
    | .error frame _ create timeUs =>
        ({ s with channelB := s.channelB.threadRound (some [⟨frame, create, timeUs⟩]) }, ())
    | .receive clone alloc =>
        let r := s.channelB.receiveMessage
        ({ s with b := s.b.receive r.2 clone alloc, channelB := r.1 }, ())
    | .answer packet => ({ s with b := s.b.push packet }, ())
    | .drainBack env => ({ s with b := s.b.drain env }, ())

/-! ### What the managers leave alone -/

/-- Transmitting takes from the queue, and nothing else. -/
theorem Manager.drain_keeps (m : Manager) (env : ℕ → TxEnv) :
    (m.drain env).channel = m.channel ∧ (m.drain env).queued = m.queued ∧
      (m.drain env).got = m.got ∧ (m.drain env).published = m.published := by
  cases hthread : m.thread with
  | false =>
    have hsame : m.drain env = m := by simp only [Manager.drain, hthread]
    rw [hsame]
    exact ⟨rfl, rfl, rfl, rfl⟩
  | true =>
    cases hc : m.channel with
    | none =>
      have hsame : m.drain env = m := by simp only [Manager.drain, hthread, hc]
      rw [hsame]
      exact ⟨hc, rfl, rfl, rfl⟩
    | some c =>
      obtain ⟨more, calls, heq, -⟩ := Manager.drain_spec hthread hc env
      rw [heq]
      exact ⟨hc, rfl, rfl, rfl⟩

/-- Receiving takes at most the message, publishes something, and transmits nothing. -/
theorem Manager.receive_keeps (m : Manager) (msg : Option CanMessage) (clone : Bool)
    (alloc : Alloc) :
    let m' := m.receive msg clone alloc
    m'.channel = m.channel ∧ m'.queued = m.queued ∧ m'.taken = m.taken ∧
      (∃ more, more.Sublist msg.toList ∧ m'.got = m.got ++ more) ∧
      ∃ packets, m'.published = m.published ++ packets := by
  unfold Manager.receive
  split
  · cases msg with
    | none =>
      exact ⟨rfl, rfl, rfl, ⟨[], List.nil_sublist _, (List.append_nil _).symm⟩,
        [], (List.append_nil _).symm⟩
    | some msg =>
      have hgot : ∃ more, more.Sublist (some msg).toList ∧ m.got ++ [msg] = m.got ++ more :=
        ⟨[msg], List.Sublist.refl _, rfl⟩
      simp only
      split
      · exact ⟨rfl, rfl, rfl, hgot, _, List.append_assoc _ _ _⟩
      · exact ⟨rfl, rfl, rfl, hgot, _, rfl⟩
  · exact ⟨rfl, rfl, rfl, ⟨[], List.nil_sublist _, (List.append_nil _).symm⟩,
      [], (List.append_nil _).symm⟩

/-- What a manager has transmitted grows while it transmits. -/
theorem Manager.Ok.transmitted_drain {m : Manager} (h : m.Ok) (hc : m.channel.isSome = true)
    (env : ℕ → TxEnv) : ∃ more, (m.drain env).transmitted = m.transmitted ++ more := by
  obtain ⟨c, hchannel⟩ := Option.isSome_iff_exists.mp hc
  have hthread : m.thread = true := by rw [h.thread, hchannel]; rfl
  obtain ⟨more, calls, heq, -⟩ := Manager.drain_spec hthread hchannel env
  have hsome : (m.drain env).channel.isSome = true := by
    rw [(m.drain_keeps env).1]
    exact hc
  refine ⟨more.flatMap Prod.snd, ?_⟩
  rw [(h.drain env).1.transmitted hsome, h.transmitted hc, heq, List.flatMap_append]

/-- It does not while the manager receives. -/
theorem Manager.Ok.transmitted_receive {m : Manager} (h : m.Ok)
    (hc : m.channel.isSome = true) (msg : Option CanMessage) (clone : Bool) (alloc : Alloc) :
    (m.receive msg clone alloc).transmitted = m.transmitted := by
  obtain ⟨hchannel, -, htaken, -⟩ := m.receive_keeps msg clone alloc
  have hsome : (m.receive msg clone alloc).channel.isSome = true := by
    rw [hchannel]
    exact hc
  rw [(h.receive msg clone alloc).transmitted hsome, h.transmitted hc, htaken]

/-! ### What comes through -/

/-- What has come through to the second manager, and what is still on its way. -/
def Sockets.arriving (s : Sockets) : List CanMessage :=
  s.b.got ++ s.channelB.queue ++ s.bus.map (messageOf 0)

/-- The frames that the first manager has transmitted, as they come out of a socket. -/
def Manager.written (m : Manager) : List CanMessage :=
  m.transmitted.map fun msg => messageOf 0 (frameOf msg)

/-- The managers are connected and their channels open, and nothing arrives that was not
transmitted, or out of order, or twice. -/
structure Sockets.Sound (s : Sockets) : Prop where
  a : s.a.Ok
  channelA : s.a.channel.isSome = true
  openA : s.channelA.fd.isSome = true
  okB : s.channelB.Ok
  openB : s.channelB.fd.isSome = true
  arrives : (untimed s.arriving).Sublist (untimed s.a.written)

section Sound

variable {s : Sockets}

/-- **An open channel writes the frames of the messages**: those that the kernel takes get on
the bus. -/
theorem transmitAll_spec {channel : SocketCan.Channel} (h : channel.fd.isSome = true)
    (write : ℕ → Bool) (msgs : List CanMessage) (bus : List CanFrame) :
    (transmitAll write channel bus msgs).1.fd.isSome = true ∧
      ∃ frames, (transmitAll write channel bus msgs).2 = bus ++ frames ∧
        frames.Sublist (msgs.map frameOf) ∧
        ((∀ n, write n = true) → frames = msgs.map frameOf) := by
  induction msgs generalizing channel bus write with
  | nil => exact ⟨h, [], (List.append_nil bus).symm, List.Sublist.refl _, fun _ => rfl⟩
  | cons msg msgs ih =>
    obtain ⟨fd, hfd⟩ := Option.isSome_iff_exists.mp h
    have htransmit : channel.transmit (fun _ => write 0) msg =
        (channel.call [.use fd], write 0, some (frameOf msg)) := by
      simp only [SocketCan.Channel.transmit, hfd]
      rw [transmitMessage_frameOf (Int.natCast_nonneg fd)]
    have hcalled : (channel.call [.use fd]).fd.isSome = true := h
    rw [transmitAll, htransmit]
    cases hwrite : write 0 with
    | true =>
      obtain ⟨hopen, frames, hbus, hsub, hall⟩ :=
        ih hcalled (fun n => write (n + 1)) (bus ++ [frameOf msg])
      refine ⟨hopen, frameOf msg :: frames, ?_, hsub.cons_cons _, fun htaken => ?_⟩
      · simp only [if_true, Option.toList_some]
        rw [hbus, List.append_assoc, List.singleton_append]
      · rw [hall fun n => htaken (n + 1), List.map_cons]
    | false =>
      -- the frame is lost, and nobody notices
      obtain ⟨hopen, frames, hbus, hsub, -⟩ := ih hcalled (fun n => write (n + 1)) bus
      refine ⟨?_, frames, ?_, hsub.cons _, fun htaken => ?_⟩
      · simpa using hopen
      · simpa using hbus
      · exact absurd (hwrite.symm.trans (htaken 0)) (by simp)

/-- A round of the thread of an open channel fills its queue. -/
theorem threadRound_spec {channel : SocketCan.Channel} (hok : channel.Ok)
    (hopen : channel.fd.isSome = true) (round : SocketCan.Round) :
    (channel.threadRound round).Ok ∧ (channel.threadRound round).fd.isSome = true ∧
      (channel.threadRound round).queue = channel.queue ++ round.messages := by
  obtain ⟨fd, hfd⟩ := Option.isSome_iff_exists.mp hopen
  obtain ⟨threadFd, hthreadFd, -⟩ := hok.two hfd
  have huses := SocketCan.Channel.uses_threadRound channel round
  have hok' := huses.ok hok
  obtain ⟨queue, uses, heq, -⟩ := huses
  refine ⟨hok', ?_, SocketCan.Channel.queue_threadRound hfd hthreadFd round⟩
  rw [heq]
  exact hopen

/-- The message of a frame that is read, if there is one. -/
theorem messages_arrival (frame : CanFrame) (create : Bool) (timeUs : UInt64) :
    (untimed (SocketCan.Round.messages (some [⟨frame, create, timeUs⟩]))).Sublist
      (untimed [messageOf 0 frame]) := by
  simp only [SocketCan.Round.messages, Option.getD_some, List.filterMap_cons, Arrival.message,
    List.filterMap_nil]
  split_ifs
  · exact List.nil_sublist _
  · exact List.Sublist.refl _

/-- **The first manager transmits**: what the kernel takes is on its way. -/
theorem Sockets.Sound.drain (h : s.Sound) (env : ℕ → TxEnv) (write : ℕ → Bool) :
    (sockets.step s (.drain env write)).1.Sound := by
  obtain ⟨more, hmore⟩ := h.a.transmitted_drain h.channelA env
  obtain ⟨hopen, frames, hbus, hsub, -⟩ := transmitAll_spec h.openA write more s.bus
  have hchannel : (s.a.drain env).channel.isSome = true := by
    rw [(s.a.drain_keeps env).1]
    exact h.channelA
  simp only [sockets, hmore, List.drop_left]
  refine ⟨(h.a.drain env).1, hchannel, hopen, h.okB, h.openB, ?_⟩
  -- what the kernel takes goes behind all that arrives, and is part of what is transmitted now
  have harrives : (untimed (s.arriving ++ frames.map (messageOf 0))).Sublist
      (untimed (s.a.written ++ (more.map frameOf).map (messageOf 0))) := by
    rw [untimed_append, untimed_append]
    exact h.arrives.append ((hsub.map _).map _)
  simp only [Sockets.arriving, Manager.written, hbus, hmore] at harrives ⊢
  simpa [List.append_assoc, Function.comp_def] using harrives

/-- **A frame is read**, or lost if there is no memory for its message. -/
theorem Sockets.Sound.read (h : s.Sound) (create : Bool) (timeUs : UInt64) :
    (sockets.step s (.read create timeUs)).1.Sound := by
  obtain ⟨hok, hopen, hqueue⟩ := threadRound_spec h.okB h.openB
    (s.bus.head?.map fun frame => [⟨frame, create, timeUs⟩])
  have harrives := h.arrives
  simp only [sockets]
  refine ⟨h.a, h.channelA, h.openA, hok, hopen, List.Sublist.trans ?_ harrives⟩
  simp only [Sockets.arriving, hqueue]
  cases s.bus with
  | nil => simp [SocketCan.Round.messages]
  | cons frame later =>
    -- the frame leaves the bus, and its message gets into the queue, or there is none
    have hmessage := messages_arrival frame create timeUs
    simp only [List.head?_cons, Option.map_some, List.tail_cons, List.map_cons, untimed_append,
      List.append_assoc]
    refine (List.Sublist.refl _).append ((List.Sublist.refl _).append ?_)
    exact hmessage.append (List.Sublist.refl _)

/-- **An error frame is read**, and thrown away. -/
theorem Sockets.Sound.error (h : s.Sound) (frame : CanFrame)
    (isError : frame.canId &&& canErrFlag ≠ 0) (create : Bool) (timeUs : UInt64) :
    (sockets.step s (.error frame isError create timeUs)).1.Sound := by
  obtain ⟨hok, hopen, hqueue⟩ := threadRound_spec h.okB h.openB (some [⟨frame, create, timeUs⟩])
  have hnone : SocketCan.Round.messages (some [⟨frame, create, timeUs⟩]) = [] := by
    simp [SocketCan.Round.messages, Arrival.message, isError]
  simp only [sockets]
  refine ⟨h.a, h.channelA, h.openA, hok, hopen, ?_⟩
  simp only [Sockets.arriving, hqueue, hnone, List.append_nil]
  exact h.arrives

/-- **The second manager receives** what its channel hands out. -/
theorem Sockets.Sound.receive (h : s.Sound) (clone : Bool) (alloc : Alloc) :
    (sockets.step s (.receive clone alloc)).1.Sound := by
  obtain ⟨-, -, -, ⟨more, hmore, hgot⟩, -⟩ :=
    s.b.receive_keeps s.channelB.receiveMessage.2 clone alloc
  simp only [sockets]
  refine ⟨h.a, h.channelA, h.openA, { h.okB with ledger := h.okB.ledger, fresh := h.okB.fresh },
    h.openB, List.Sublist.trans ?_ h.arrives⟩
  simp only [Sockets.arriving, hgot, List.append_assoc]
  -- the manager has got the head of the queue, if it has a channel at all
  refine List.Sublist.map _ ((List.Sublist.refl _).append ?_)
  rw [← List.append_assoc]
  refine List.Sublist.append ?_ (List.Sublist.refl _)
  simp only [SocketCan.Channel.receiveMessage] at hmore ⊢
  cases hqueue : s.channelB.queue with
  | nil =>
    rw [hqueue] at hmore
    simpa using hmore
  | cons msg later =>
    rw [hqueue] at hmore
    exact hmore.append (List.Sublist.refl later)

/-- **Whatever fails**, nothing arrives that was not transmitted, or out of order, or twice. -/
theorem Sockets.Sound.step (h : s.Sound) (action : SocketsAction) :
    (sockets.step s action).1.Sound := by
  cases action with
  | send packet => exact { h with a := h.a.push packet }
  | drain env write => exact h.drain env write
  | hear msg clone alloc =>
    have hchannel : (s.a.receive msg clone alloc).channel.isSome = true := by
      rw [(s.a.receive_keeps msg clone alloc).1]
      exact h.channelA
    refine ⟨h.a.receive msg clone alloc, hchannel, h.openA, h.okB, h.openB, ?_⟩
    have htransmitted := h.a.transmitted_receive h.channelA msg clone alloc
    simp only [sockets, Sockets.arriving, Manager.written, htransmitted]
    exact h.arrives
  | read create timeUs => exact h.read create timeUs
  | error frame isError create timeUs => exact h.error frame isError create timeUs
  | receive clone alloc => exact h.receive clone alloc
  | answer packet => exact { h with arrives := h.arrives }
  | drainBack env =>
    have hgot := (s.b.drain_keeps env).2.2.1
    refine { h with arrives := ?_ }
    simp only [sockets, Sockets.arriving, hgot]
    exact h.arrives

end Sound

/-! ### What arrives when nothing fails -/

/-- The channels are open, no frame on the bus is an error, and the managers carry on the
conversation `t`: what is on the wire is in the queue of the second channel, or on the bus. -/
structure Sockets.Matches (cfgA cfgB : ProtoPlexerConfig) (s : Sockets) (t : Conversation) :
    Prop where
  ok : t.Ok cfgA cfgB
  a : t.a = s.a
  b : t.b = s.b
  wire : untimed t.wire = untimed (s.channelB.queue ++ s.bus.map (messageOf 0))
  openA : s.channelA.fd.isSome = true
  okB : s.channelB.Ok
  openB : s.channelB.fd.isSome = true
  noError : ∀ frame ∈ s.bus, frame.canId &&& canErrFlag = 0

section Steps

variable {cfgA cfgB : ProtoPlexerConfig} {s : Sockets} {t : Conversation}

/-- **What `a` has transmitted** are chunks. -/
theorem Conversation.Ok.transmitted_chunks (h : t.Ok cfgA cfgB) {frame : CanMessage}
    (hframe : frame ∈ t.a.transmitted) :
    ∃ msg i, frame = chunkAt msg cfgA.maxChunkLength i := by
  rw [h.a.transmitted h.channelA] at hframe
  obtain ⟨taken, htaken, hmem⟩ := List.mem_flatMap.mp hframe
  have hqueued : taken.1 ∈ t.a.queued := by
    rw [h.a.queued]
    exact List.mem_append_left _ (List.mem_map_of_mem htaken)
  obtain ⟨pm, hpm, hsendable⟩ := h.queued _ hqueued
  have hm : ChunkLengthOk cfgA.maxChunkLength := by
    rw [← h.configA]
    exact h.a.chunkLength h.backendA
  rw [h.whole taken htaken, hpm, frames_protoPlexer,
    chunksOf_eq hm hsendable.welcomes.hasData] at hmem
  obtain ⟨i, -, rfl⟩ := List.mem_map.mp hmem
  exact ⟨pm.toMsg, i, rfl⟩

/-- **The first manager transmits**: the conversation goes on, and the frames get on the bus. -/
theorem Sockets.Matches.drain (h : s.Matches cfgA cfgB t) {write : ℕ → Bool}
    (hwrite : ∀ n, write n = true) :
    (sockets.step s (.drain (fun _ => .ample) write)).1.Matches cfgA cfgB
      ((conversation cfgB).step t .drain).1 := by
  have hok := h.ok.step .drain
  simp only [conversation] at hok ⊢
  set a := t.a.drain fun _ => TxEnv.ample with ha
  set msgs := a.transmitted.drop t.a.transmitted.length with hmsgs
  have hreturns : ∀ msg ∈ msgs, (messageOf 0 (frameOf msg)).stamped 0 = msg.stamped 0 := by
    intro msg hmsg
    obtain ⟨whole, i, rfl⟩ := hok.transmitted_chunks (List.mem_of_mem_drop hmsg)
    have hm : ChunkLengthOk cfgA.maxChunkLength := by
      rw [← h.ok.configA]
      exact h.ok.a.chunkLength h.ok.backendA
    exact chunkAt_returns hm i 0
  obtain ⟨hopen, frames, hbus, -, hall⟩ := transmitAll_spec h.openA write msgs s.bus
  rw [hall hwrite] at hbus
  simp only [sockets]
  rw [← h.a, ← ha, ← hmsgs]
  exact {
    ok := hok
    a := rfl
    b := h.b
    wire := by
      have htimes : untimed msgs = untimed ((msgs.map frameOf).map (messageOf 0)) := by
        simp only [untimed, List.map_map]
        exact List.map_congr_left fun msg hmsg => (hreturns msg hmsg).symm
      simp only [hbus]
      calc untimed (t.wire ++ msgs)
          = untimed (s.channelB.queue ++ s.bus.map (messageOf 0)) ++
              untimed ((msgs.map frameOf).map (messageOf 0)) := by
            rw [untimed_append, h.wire, htimes]
        _ = untimed (s.channelB.queue ++ (s.bus ++ msgs.map frameOf).map (messageOf 0)) := by
            rw [← untimed_append, List.append_assoc, ← List.map_append]
    openA := hopen
    okB := h.okB
    openB := h.openB
    noError := by
      intro frame hframe
      simp only [hbus] at hframe
      rcases List.mem_append.mp hframe with hold | hnew
      · exact h.noError frame hold
      · obtain ⟨msg, -, rfl⟩ := List.mem_map.mp hnew
        exact frameOf_noError msg }

/-- **A frame is read**: what is on the wire stays. -/
theorem Sockets.Matches.read (h : s.Matches cfgA cfgB t) (timeUs : UInt64) :
    (sockets.step s (.read true timeUs)).1.Matches cfgA cfgB t := by
  obtain ⟨hok, hopen, hqueue⟩ := threadRound_spec h.okB h.openB
    (s.bus.head?.map fun frame => [⟨frame, true, timeUs⟩])
  cases hbus : s.bus with
  | nil =>
    have hwire := h.wire
    simp only [sockets, hbus, List.head?_nil, Option.map_none, List.tail_nil] at hok hopen hqueue ⊢
    rw [hbus] at hwire
    exact { h with
      okB := hok
      openB := hopen
      wire := by
        simp only [hqueue, SocketCan.Round.messages, Option.getD_none, List.filterMap_nil,
          List.append_nil]
        simpa using hwire
      noError := fun _ hf => absurd hf (by simp) }
  | cons frame later =>
    have hwire := h.wire
    have herror : frame.canId &&& canErrFlag = 0 := h.noError frame (by rw [hbus]; simp)
    simp only [sockets, hbus, List.head?_cons, Option.map_some, List.tail_cons]
      at hok hopen hqueue ⊢
    rw [hbus] at hwire
    have hmessage : (⟨frame, true, timeUs⟩ : Arrival).message = some (messageOf timeUs frame) := by
      simp [Arrival.message, herror]
    exact { h with
      okB := hok
      openB := hopen
      wire := by
        simp only [hqueue, SocketCan.Round.messages, Option.getD_some, List.filterMap_cons,
          hmessage, List.filterMap_nil]
        rw [hwire, List.map_cons, List.append_assoc, untimed_append, untimed_append]
        rfl
      noError := fun f hf => h.noError f (by rw [hbus]; exact List.mem_cons_of_mem _ hf) }

/-- **An error frame is read**, and thrown away. -/
theorem Sockets.Matches.error (h : s.Matches cfgA cfgB t) (frame : CanFrame)
    (isError : frame.canId &&& canErrFlag ≠ 0) (create : Bool) (timeUs : UInt64) :
    (sockets.step s (.error frame isError create timeUs)).1.Matches cfgA cfgB t := by
  obtain ⟨hok, hopen, hqueue⟩ := threadRound_spec h.okB h.openB (some [⟨frame, create, timeUs⟩])
  have hnone : (⟨frame, create, timeUs⟩ : Arrival).message = none := by
    simp [Arrival.message, isError]
  simp only [sockets]
  exact { h with
    okB := hok
    openB := hopen
    wire := by
      simp only [hqueue, SocketCan.Round.messages, Option.getD_some, List.filterMap_cons, hnone,
        List.filterMap_nil, List.append_nil]
      exact h.wire }

/-- **The second manager receives**: the next message of the wire, if it has been read. -/
theorem Sockets.Matches.receive (h : s.Matches cfgA cfgB t) (clone : Bool) (alloc : Alloc)
    (serves : alloc.Serves false (.addChunk true)) : ∃ action,
      (sockets.step s (.receive clone alloc)).1.Matches cfgA cfgB
        ((conversation cfgB).step t action).1 := by
  have hwire := h.wire
  cases hqueue : s.channelB.queue with
  | nil =>
    refine ⟨.nothing clone alloc, ?_⟩
    have hok := h.ok.step (.nothing clone alloc)
    rw [hqueue] at hwire
    simp only [sockets, conversation, SocketCan.Channel.receiveMessage, hqueue, List.head?_nil,
      List.tail_nil] at hok ⊢
    exact { h with
      ok := hok
      b := by rw [h.b]
      okB := { h.okB with ledger := h.okB.ledger, fresh := h.okB.fresh }
      openB := h.openB
      wire := hwire }
  | cons msg later =>
    -- the wire begins with the same message, at whatever time
    cases hhead : t.wire with
    | nil =>
      rw [hhead, hqueue] at hwire
      exact absurd hwire (by simp [untimed])
    | cons first rest =>
      refine ⟨.receive msg.timeUs clone alloc serves, ?_⟩
      have hok := h.ok.step (.receive msg.timeUs clone alloc serves)
      rw [hhead, hqueue, List.cons_append] at hwire
      obtain ⟨hfirst, hrest⟩ := List.cons.inj hwire
      have hsame : first.stamped msg.timeUs = msg :=
        congrArg (fun m => m.stamped msg.timeUs) hfirst
      simp only [sockets, conversation, SocketCan.Channel.receiveMessage, hqueue, hhead,
        List.head?_cons, Option.map_some, List.tail_cons, hsame] at hok ⊢
      exact { h with
        ok := hok
        b := by rw [h.b]
        okB := { h.okB with ledger := h.okB.ledger, fresh := h.okB.fresh }
        openB := h.openB
        wire := hrest }

/-- **What is published** are the first messages that were sent. -/
theorem Sockets.Matches.published (h : s.Matches cfgA cfgB t) :
    ∃ rest, s.a.queued = (decodedOf s.b.published ++ rest).map .proto ∧
      (s.a.txQueue = [] → s.bus = [] → s.channelB.queue = [] → rest = []) := by
  obtain ⟨rest, j, hqueued, -, -, hrest⟩ := h.ok.end_to_end
  rw [h.a, h.b] at hqueued
  refine ⟨rest, hqueued, fun hpackets hbus hqueue => hrest ?_ ?_⟩
  · rw [h.a]
    exact hpackets
  · have hwire := h.wire
    rw [hbus, hqueue] at hwire
    exact List.map_eq_nil_iff.mp hwire

/-- **Every step over sockets in which nothing fails is matched** by a step of the
conversation, or by none. -/
theorem Sockets.Matches.step (h : s.Matches cfgA cfgB t) {action : SocketsAction}
    (hfine : action.Fine cfgB) :
    ∃ actions, (sockets.step s action).1.Matches cfgA cfgB
      ((conversation cfgB).final t actions) := by
  cases action with
  | send packet =>
    obtain ⟨msg, rfl, sendable⟩ := hfine
    refine ⟨[.send msg sendable], { h with ok := h.ok.step (.send msg sendable), a := ?_ }⟩
    exact congrArg (fun a => a.sendProtoPlexer msg) h.a
  | drain env write =>
    obtain ⟨henv, hwrite⟩ := hfine
    obtain rfl : env = fun _ => .ample := funext henv
    exact ⟨[.drain], h.drain hwrite⟩
  | hear msg clone alloc =>
    refine ⟨[.hear msg clone alloc], { h with ok := h.ok.step (.hear msg clone alloc), a := ?_ }⟩
    exact congrArg (fun a => a.receive msg clone alloc) h.a
  | read create timeUs =>
    obtain rfl : create = true := hfine
    exact ⟨[], h.read timeUs⟩
  | error frame isError create timeUs => exact ⟨[], h.error frame isError create timeUs⟩
  | receive clone alloc =>
    obtain ⟨action, hmatched⟩ := h.receive clone alloc hfine
    exact ⟨[action], hmatched⟩
  | answer packet =>
    refine ⟨[.answer packet], { h with ok := h.ok.step (.answer packet), b := ?_ }⟩
    exact congrArg (fun b => b.push packet) h.b
  | drainBack env =>
    refine ⟨[.drainBack env], { h with ok := h.ok.step (.drainBack env), b := ?_ }⟩
    exact congrArg (fun b => b.drain env) h.b

end Steps

/-! ### Runs -/

section Runs

variable {a₀ b₀ : Manager} {paramsA paramsB : ConnectParams} {envA envB : ConnectEnv}
  {channelA₀ channelB₀ : SocketCan.Channel} {openA openB : OpenEnv}

/-- Two managers that have just been connected, each through a channel of its own. -/
theorem Sockets.matches_initial (ha : manager.Reachable {} a₀) (hb : manager.Reachable {} b₀)
    (hbackendA : paramsA.backend = .protoPlexer) (hbackendB : paramsB.backend = .protoPlexer)
    (hconnectA : (a₀.connect paramsA envA).2 = true)
    (hconnectB : (b₀.connect paramsB envB).2 = true)
    (hchannelA : channelA₀.Ok) (hchannelB : channelB₀.Ok)
    (hopenA : (channelA₀.openChannel openA).2 = true)
    (hopenB : (channelB₀.openChannel openB).2 = true) :
    Sockets.Matches paramsA.protoplexer paramsB.protoplexer
      ⟨(a₀.connect paramsA envA).1, (b₀.connect paramsB envB).1, (channelA₀.openChannel openA).1,
        (channelB₀.openChannel openB).1, []⟩
      ⟨(a₀.connect paramsA envA).1, (b₀.connect paramsB envB).1, []⟩ := by
  obtain ⟨-, -, hA⟩ := hchannelA.openChannel openA
  obtain ⟨hokB, hqueue, hB⟩ := hchannelB.openChannel openB
  rw [if_pos hopenA] at hA
  rw [if_pos hopenB] at hB
  exact {
    ok := conversation_ok ha hb hbackendA hbackendB hconnectA hconnectB []
    a := rfl
    b := rfl
    wire := by simp [hqueue]
    openA := hA.2
    okB := hokB
    openB := hB.2
    noError := fun _ hf => absurd hf (by simp) }

/-- Nothing has arrived yet. -/
theorem Sockets.sound_initial (ha : manager.Reachable {} a₀) (hb : manager.Reachable {} b₀)
    (hconnectA : (a₀.connect paramsA envA).2 = true)
    (hconnectB : (b₀.connect paramsB envB).2 = true)
    (hchannelA : channelA₀.Ok) (hchannelB : channelB₀.Ok)
    (hopenA : (channelA₀.openChannel openA).2 = true)
    (hopenB : (channelB₀.openChannel openB).2 = true) :
    Sockets.Sound
      ⟨(a₀.connect paramsA envA).1, (b₀.connect paramsB envB).1, (channelA₀.openChannel openA).1,
        (channelB₀.openChannel openB).1, []⟩ := by
  obtain ⟨actionsA, rfl⟩ := ha
  obtain ⟨actionsB, rfl⟩ := hb
  obtain ⟨hokA, hbeginsA⟩ := (manager_ok actionsA).connect paramsA envA
  have hbeginsB := ((manager_ok actionsB).connect paramsB envB).2 hconnectB
  obtain ⟨-, -, hA⟩ := hchannelA.openChannel openA
  obtain ⟨hokB, hqueue, hB⟩ := hchannelB.openChannel openB
  rw [if_pos hopenA] at hA
  rw [if_pos hopenB] at hB
  refine ⟨hokA, (hbeginsA hconnectA).channel, hA.2, hokB, hB.2, ?_⟩
  simp only [Sockets.arriving, hbeginsB.got, hqueue]
  exact List.nil_sublist _

variable (paramsA paramsB envA envB openA openB) in
/-- **Two managers over sockets.**  Two managers, however they got there, are connected to
decode messages, and their SocketCAN channels opened; one transmits what the other receives.
In every run, whatever the kernel refuses and wherever memory is missing, what the second
manager has got, then what is in the queue of its channel, then what is on the bus, are frames
that the first one has transmitted, in order and none of them twice.

**If nothing fails, the run is a conversation**: the kernel takes every frame, there is memory
for the chunks of a message, for the messages of the frames that are read and to decode, and
the first manager is asked to send messages that the second one accepts.  Then whatever the
threads of the channels do in between, the managers do what they do in some run with a wire
alone, and what is on that wire is in the queue of the second channel or on the bus.  So those
messages that are published are the first that were sent, unchanged and in order, and when the
packets, the bus and the queue of the channel are used up, all. -/
theorem managers_over_sockets (ha : manager.Reachable {} a₀) (hb : manager.Reachable {} b₀)
    (hbackendA : paramsA.backend = .protoPlexer) (hbackendB : paramsB.backend = .protoPlexer)
    (hconnectA : (a₀.connect paramsA envA).2 = true)
    (hconnectB : (b₀.connect paramsB envB).2 = true) (baudrateA baudrateB : UInt32)
    (hchannelA : SocketCan.channel.Reachable { baudrate := baudrateA } channelA₀)
    (hchannelB : SocketCan.channel.Reachable { baudrate := baudrateB } channelB₀)
    (hopenA : (channelA₀.openChannel openA).2 = true)
    (hopenB : (channelB₀.openChannel openB).2 = true) (actions : List SocketsAction) :
    let s := sockets.final
      ⟨(a₀.connect paramsA envA).1, (b₀.connect paramsB envB).1, (channelA₀.openChannel openA).1,
        (channelB₀.openChannel openB).1, []⟩ actions
    (untimed s.arriving).Sublist (untimed s.a.written) ∧
      ((∀ action ∈ actions, action.Fine paramsB.protoplexer) →
        (∃ t, (conversation paramsB.protoplexer).Reachable
            ⟨(a₀.connect paramsA envA).1, (b₀.connect paramsB envB).1, []⟩ t ∧
          t.a = s.a ∧ t.b = s.b ∧
            untimed t.wire = untimed (s.channelB.queue ++ s.bus.map (messageOf 0))) ∧
        ∃ rest, s.a.queued = (decodedOf s.b.published ++ rest).map .proto ∧
          (s.a.txQueue = [] → s.bus = [] → s.channelB.queue = [] → rest = [])) := by
  intro s
  obtain ⟨channelActionsA, rfl⟩ := hchannelA
  obtain ⟨channelActionsB, rfl⟩ := hchannelB
  have hokA := channel_ok baudrateA channelActionsA
  have hokB := channel_ok baudrateB channelActionsB
  refine ⟨?_, fun hfine => ?_⟩
  · have hinitial := Sockets.sound_initial ha hb hconnectA hconnectB hokA hokB hopenA hopenB
    exact (sockets.final_of_step (P := Sockets.Sound) actions hinitial
      fun _ action _ h => h.step action).arrives
  · have hinitial := Sockets.matches_initial ha hb hbackendA hbackendB hconnectA hconnectB
      hokA hokB hopenA hopenB
    obtain ⟨actions', hmatched⟩ := sockets.final_of_simulation
      (N := conversation paramsB.protoplexer)
      (R := Sockets.Matches paramsA.protoplexer paramsB.protoplexer) actions
      (fun _ _ action hmem h => h.step (hfine action hmem)) hinitial
    exact ⟨⟨_, ⟨actions', rfl⟩, hmatched.a, hmatched.b, hmatched.wire⟩, hmatched.published⟩

end Runs

/-- Two managers that were just connected, each through a channel that was just opened. -/
def Sockets.connected : Sockets where
  a := Conversation.connected.a
  b := Conversation.connected.b
  channelA := (SocketCan.Channel.openChannel { baudrate := 500000 } (.fine 500000)).1
  channelB := (SocketCan.Channel.openChannel { baudrate := 500000 } (.fine 500000)).1
  bus := []

/-- The first manager transmits, and the kernel takes it all. -/
abbrev SocketsAction.drains : SocketsAction := .drain (fun _ => .ample) fun _ => true

/-- The second manager receives, and has the memory to decode. -/
abbrev SocketsAction.receives : SocketsAction := .receive true .ample

theorem SocketsAction.drains_fine (cfg : ProtoPlexerConfig) : drains.Fine cfg :=
  ⟨fun _ => rfl, fun _ => rfl⟩

theorem SocketsAction.receives_fine (cfg : ProtoPlexerConfig) : receives.Fine cfg :=
  ⟨fun _ => rfl, fun _ _ => ⟨rfl, rfl⟩⟩

theorem canErrFlag_isError : canErrFlag &&& canErrFlag ≠ 0 := by decide

/-- A run in which two messages are sent, and received chunk by chunk; an error frame is read in
between, and the second message is sent before the first one has come. -/
def greetingOverSockets : List SocketsAction :=
  [.send (.proto .greeting), .drains, .read true 1, .receives, .send (.proto .farewell),
    .read true 2, .error { canId := canErrFlag } canErrFlag_isError true 3, .read true 4, .drains,
    .receives, .receives, .receives, .read true 5, .read true 6, .read true 7, .receives,
    .receives, .receives]

/-- Nothing fails in it. -/
theorem greetingOverSockets_fine : ∀ action ∈ greetingOverSockets, action.Fine {} := by
  have hdrains := SocketsAction.drains_fine {}
  have hreceives := SocketsAction.receives_fine {}
  simp only [greetingOverSockets, List.forall_mem_cons, List.not_mem_nil, false_implies,
    implies_true, and_true]
  exact ⟨⟨_, rfl, ProtoPlexerMessage.greeting_sendable⟩, hdrains, rfl, hreceives,
    ⟨_, rfl, ProtoPlexerMessage.farewell_sendable⟩, rfl, trivial, rfl, hdrains, hreceives,
    hreceives, hreceives, rfl, rfl, rfl, hreceives, hreceives, hreceives⟩

/-- The second manager publishes both. -/
theorem managers_over_sockets_greeting :
    decodedOf (sockets.final .connected greetingOverSockets).b.published =
      [.greeting, .farewell] := by
  obtain ⟨-, hconversation⟩ := managers_over_sockets ⟨0, .protoPlexer, {}⟩ ⟨0, .protoPlexer, {}⟩
    ⟨["can0"], true, true, true, true, true⟩ ⟨["can1"], true, true, true, true, true⟩
    (.fine 500000) (.fine 500000) ⟨[], rfl⟩ ⟨[], rfl⟩ rfl rfl rfl rfl 500000 500000 ⟨[], rfl⟩
    ⟨[], rfl⟩ rfl rfl greetingOverSockets
  obtain ⟨-, rest, hqueued, hrest⟩ := hconversation greetingOverSockets_fine
  rw [hrest (by decide) (by decide) (by decide), List.append_nil] at hqueued
  have hsent : [ProtoPlexerMessage.greeting, .farewell].map RxPacket.proto = _ := hqueued
  exact (map_proto_injective hsent).symm

end App
end UniCan
