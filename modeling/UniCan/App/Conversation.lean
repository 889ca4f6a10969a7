import UniCan.App.Connection
import UniCan.Protoplexer.Sequence

/-!
# Two managers

Two managers are connected, decode ProtoPlexer messages, and what one transmits is received
by the other.  A message that one application sends is published to the other application
as it was.

## Main definitions

* `ProtoPlexerMessage.toMsg` — the message that is cut into chunks.
* `ProtoPlexerMessage.Sendable` — the messages that arrive.
* `Conversation`, `conversation` — the managers and the wire between them.

## Main results

* `managers_end_to_end` — **what is published is what was sent.**
-/

namespace UniCan
namespace App

open Protoplexer

/-! ### Messages and their chunks -/

/-- The setup of a context with this configuration. -/
def ProtoPlexerConfig.setup (cfg : ProtoPlexerConfig) : Setup :=
  ⟨cfg.ownAddress &&& 0x0FFF, cfg.monitoring, 0, false⟩

/-- A message that arrives at a manager with this configuration: its fields are in range, its
data is not too long, and the manager takes what is sent to its address. -/
structure ProtoPlexerMessage.Sendable (pm : ProtoPlexerMessage) (cfg : ProtoPlexerConfig) :
    Prop where
  messageId : pm.messageId ≠ errorId
  addressFrom : addressValid pm.addressFrom = true
  addressTo : addressValid pm.addressTo = true
  priority : pm.priorityInverted ≤ priorityMinimal
  size : pm.data.length < 2 ^ 16
  own : cfg.monitoring = true ∨ cfg.ownAddress &&& 0x0FFF = pm.addressTo

section Message

variable {pm : ProtoPlexerMessage} {cfg : ProtoPlexerConfig}

theorem ProtoPlexerMessage.Sendable.welcomes (h : pm.Sendable cfg) :
    cfg.setup.Welcomes pm.toMsg where
  addressed := ⟨h.messageId, h.addressFrom, h.addressTo, h.priority⟩
  hasData := by
    unfold Msg.HasData ProtoPlexerMessage.toMsg
    simp only
    have hlen : (UInt16.ofNat pm.data.length).toNat = pm.data.length :=
      UInt16.toNat_ofNat_of_lt' h.size
    by_cases hpos : UInt16.ofNat pm.data.length > 0
    · simp [hpos, hlen]
    · rw [gt_iff_lt, UInt16.lt_iff_toNat_lt] at hpos
      exact le_trans (Nat.le_of_not_lt hpos) (Nat.zero_le _)
  own := h.own
  fits hlimited := absurd hlimited (by simp [Setup.Limited, ProtoPlexerConfig.setup])

end Message

/-! ### The managers and the wire -/

/-- What a manager has transmitted on its channel. -/
def Manager.transmitted (m : Manager) : List CanMessage :=
  m.channel.elim [] fun c => framesOn c m.calls

/-- Two managers, and the frames of the first one that the second one has not received. -/
structure Conversation where
  a : Manager
  b : Manager
  wire : List CanMessage

/-- What happens between two managers, the second of which has the configuration `cfg`. -/
inductive ConversationAction (cfg : ProtoPlexerConfig)
  /-- `a` is asked to send a message. -/
  | send (msg : ProtoPlexerMessage) (sendable : msg.Sendable cfg)
  /-- The thread of `a` transmits, and has the memory for it. -/
  | drain
  /-- `a` receives something. -/
  | hear (msg : Option CanMessage) (clone : Bool) (alloc : Alloc)
  /-- `b` finds nothing to receive. -/
  | nothing (clone : Bool) (alloc : Alloc)
  /-- `b` receives from the wire, and has the memory to decode. -/
  | receive (timeUs : UInt64) (clone : Bool) (alloc : Alloc)
    (serves : alloc.Serves false (.addChunk true))
  /-- `b` is asked to send something. -/
  | answer (packet : TxPacket)
  /-- The thread of `b` transmits. -/
  | drainBack (env : ℕ → TxEnv)

/-- The managers as a machine. -/
def conversation (cfg : ProtoPlexerConfig) :
    Machine Conversation (ConversationAction cfg) Unit where
  step s
    | .send msg _ => ({ s with a := s.a.sendProtoPlexer msg }, ())
    | .drain =>
        let a := s.a.drain fun _ => .ample
        ({ s with a := a, wire := s.wire ++ a.transmitted.drop s.a.transmitted.length }, ())
    | .hear msg clone alloc => ({ s with a := s.a.receive msg clone alloc }, ())
    | .nothing clone alloc => ({ s with b := s.b.receive none clone alloc }, ())
    | .receive timeUs clone alloc _ =>
        ({ s with
          b := s.b.receive (s.wire.head?.map (·.stamped timeUs)) clone alloc
          wire := s.wire.tail }, ())
    | .answer packet => ({ s with b := s.b.push packet }, ())
    | .drainBack env => ({ s with b := s.b.drain env }, ())

/-- The invariant of two managers that were connected with these configurations. -/
structure Conversation.Ok (cfgA cfgB : ProtoPlexerConfig) (s : Conversation) : Prop where
  a : s.a.Ok
  b : s.b.Ok
  channelA : s.a.channel.isSome = true
  channelB : s.b.channel.isSome = true
  backendA : s.a.backendActive = .protoPlexer
  backendB : s.b.backendActive = .protoPlexer
  configA : s.a.ppCfgActive = cfgA
  configB : s.b.ppCfgActive = cfgB
  queued : ∀ p ∈ s.a.queued, ∃ pm : ProtoPlexerMessage, p = .proto pm ∧ pm.Sendable cfgB
  whole : ∀ t ∈ s.a.taken, t.2 = t.1.frames .protoPlexer cfgA.maxChunkLength .ample
  wire : untimed (s.a.taken.flatMap Prod.snd) = untimed (s.b.got ++ s.wire)
  decodes : ∀ ctx ∈ s.b.ppCtx,
    s.b.Decodes (fun alloc => alloc.Serves false (.addChunk true)) ctx

theorem Manager.Ok.transmitted {m : Manager} (h : m.Ok) (hc : m.channel.isSome = true) :
    m.transmitted = m.taken.flatMap Prod.snd := by
  obtain ⟨c, hc⟩ := Option.isSome_iff_exists.mp hc
  rw [Manager.transmitted, hc]
  exact h.frames c hc

section Steps

variable {cfgA cfgB : ProtoPlexerConfig} {s : Conversation}

/-- `a` transmits. -/
theorem Conversation.Ok.drain (h : s.Ok cfgA cfgB) :
    ((conversation cfgB).step s .drain).1.Ok cfgA cfgB := by
  obtain ⟨c, hc⟩ := Option.isSome_iff_exists.mp h.channelA
  have hthread : s.a.thread = true := by rw [h.a.thread, hc]; rfl
  have hok := (h.a.drain fun _ => TxEnv.ample).1
  obtain ⟨more, calls, heq, hmore⟩ := Manager.drain_spec hthread hc fun _ => TxEnv.ample
  have hchannel : (s.a.drain fun _ => TxEnv.ample).channel.isSome = true := by
    rw [heq]
    exact h.channelA
  have htaken : (s.a.drain fun _ => TxEnv.ample).taken = s.a.taken ++ more := by rw [heq]
  refine ⟨hok, h.b, hchannel, h.channelB, ?_, h.backendB, ?_, h.configB, ?_, ?_, ?_, h.decodes⟩
  · simp only [conversation]
    rw [heq]
    exact h.backendA
  · simp only [conversation]
    rw [heq]
    exact h.configA
  · simp only [conversation]
    rw [heq]
    exact h.queued
  · intro t ht
    simp only [conversation] at ht
    rw [htaken] at ht
    rcases List.mem_append.mp ht with hold | hnew
    · exact h.whole t hold
    · obtain ⟨i, hframes⟩ := hmore t hnew
      rw [h.backendA, h.configA] at hframes
      exact hframes
  · simp only [conversation]
    rw [hok.transmitted hchannel, h.a.transmitted h.channelA, htaken, List.flatMap_append,
      List.drop_left, untimed_append, h.wire, ← untimed_append, List.append_assoc]

/-- `a` receives something, which does not matter. -/
theorem Conversation.Ok.hear (h : s.Ok cfgA cfgB) (msg : Option CanMessage) (clone : Bool)
    (alloc : Alloc) : ((conversation cfgB).step s (.hear msg clone alloc)).1.Ok cfgA cfgB := by
  obtain ⟨c, hc⟩ := Option.isSome_iff_exists.mp h.channelA
  have hok := h.a.receive msg clone alloc
  cases msg with
  | none =>
    have hthread : s.a.thread = true := by rw [h.a.thread, hc]; rfl
    have heq : s.a.receive none clone alloc = s.a.call [.receive c] := by
      simp [Manager.receive, hthread, hc]
    simp only [conversation]
    rw [heq] at hok ⊢
    exact { h with a := hok }
  | some msg =>
    obtain ⟨packets, ctx, heq, -⟩ := h.a.receive_spec hc msg clone alloc
    simp only [conversation]
    rw [heq] at hok ⊢
    exact { h with a := hok }

/-- `b` finds nothing. -/
theorem Conversation.Ok.nothing (h : s.Ok cfgA cfgB) (clone : Bool) (alloc : Alloc) :
    ((conversation cfgB).step s (.nothing clone alloc)).1.Ok cfgA cfgB := by
  obtain ⟨c, hc⟩ := Option.isSome_iff_exists.mp h.channelB
  have hok := h.b.receive none clone alloc
  have hthread : s.b.thread = true := by rw [h.b.thread, hc]; rfl
  have heq : s.b.receive none clone alloc = s.b.call [.receive c] := by
    simp [Manager.receive, hthread, hc]
  simp only [conversation]
  rw [heq] at hok ⊢
  exact { h with b := hok }

/-- **`b` receives** what comes next on the wire. -/
theorem Conversation.Ok.receive (h : s.Ok cfgA cfgB) (timeUs : UInt64) (clone : Bool)
    (alloc : Alloc) (serves : alloc.Serves false (.addChunk true)) :
    ((conversation cfgB).step s (.receive timeUs clone alloc serves)).1.Ok cfgA cfgB := by
  obtain ⟨c, hc⟩ := Option.isSome_iff_exists.mp h.channelB
  cases hwire : s.wire with
  | nil =>
    have hnothing := h.nothing clone alloc
    simp only [conversation, hwire, List.head?_nil, Option.map_none, List.tail_nil] at hnothing ⊢
    exact hnothing
  | cons msg later =>
    have hok := h.b.receive (some (msg.stamped timeUs)) clone alloc
    obtain ⟨packets, ctx, heq, -, -, hdecodes⟩ :=
      h.b.receive_spec hc (msg.stamped timeUs) clone alloc
    have hgood := hdecodes _ serves h.decodes
    simp only [conversation, hwire, List.head?_cons, Option.map_some, List.tail_cons]
    rw [heq] at hok hgood ⊢
    exact { h with
      b := hok
      wire := by
        have hold := h.wire
        rw [hwire] at hold
        simp only
        rw [hold, List.append_assoc, untimed_append, untimed_append]
        rfl
      decodes := hgood }

/-- `b` transmits, which does not matter. -/
theorem Conversation.Ok.drainBack (h : s.Ok cfgA cfgB) (env : ℕ → TxEnv) :
    ((conversation cfgB).step s (.drainBack env)).1.Ok cfgA cfgB := by
  obtain ⟨c, hc⟩ := Option.isSome_iff_exists.mp h.channelB
  have hthread : s.b.thread = true := by rw [h.b.thread, hc]; rfl
  have hok := (h.b.drain env).1
  obtain ⟨more, calls, heq, -⟩ := Manager.drain_spec hthread hc env
  simp only [conversation]
  rw [heq] at hok ⊢
  exact { h with b := hok }

/-- Every action keeps the invariant. -/
theorem Conversation.Ok.step (h : s.Ok cfgA cfgB) (action : ConversationAction cfgB) :
    ((conversation cfgB).step s action).1.Ok cfgA cfgB := by
  cases action with
  | send msg sendable =>
    exact { h with
      a := h.a.push (.proto msg)
      queued := by
        intro p hp
        rcases List.mem_append.mp hp with hold | hnew
        · exact h.queued p hold
        · exact ⟨msg, List.mem_singleton.mp hnew, sendable⟩ }
  | drain => exact h.drain
  | hear msg clone alloc => exact h.hear msg clone alloc
  | nothing clone alloc => exact h.nothing clone alloc
  | receive timeUs clone alloc serves => exact h.receive timeUs clone alloc serves
  | answer packet => exact { h with b := h.b.push packet }
  | drainBack env => exact h.drainBack env

end Steps

/-! ### A whole conversation -/

/-- What is published are the messages that are delivered. -/
theorem published_eq (replies : List Reply) :
    (replies.filterMap fun r => r.message.map ProtoPlexerMessage.ofMsg) =
      (delivered replies).map ProtoPlexerMessage.ofContent := by
  rw [delivered, List.map_filterMap]
  congr 1
  funext r
  cases r.message <;> rfl

/-- Two managers that have just been connected. -/
theorem Conversation.ok_initial {a b : Manager} (ha : a.Ok) (hb : b.Ok)
    {paramsA paramsB : ConnectParams} (hbeginsA : a.Begins paramsA) (hbeginsB : b.Begins paramsB)
    (hbackendA : paramsA.backend = .protoPlexer) (hbackendB : paramsB.backend = .protoPlexer) :
    Conversation.Ok paramsA.protoplexer paramsB.protoplexer ⟨a, b, []⟩ where
  a := ha
  b := hb
  channelA := hbeginsA.channel
  channelB := hbeginsB.channel
  backendA := hbeginsA.backendActive.trans hbackendA
  backendB := hbeginsB.backendActive.trans hbackendB
  configA := hbeginsA.ppCfgActive
  configB := hbeginsB.ppCfgActive
  queued p hp := by
    simp only [hbeginsA.queued] at hp
    exact absurd hp (by simp)
  whole t ht := by
    simp only [hbeginsA.taken] at ht
    exact absurd ht (by simp)
  wire := by simp [hbeginsA.taken, hbeginsB.got]
  decodes ctx hctx := by
    obtain ⟨calloc, ctx₀, calls, hinit, hchunks, -, rest⟩ := hb.decodes ctx hctx
    -- nothing was received yet
    obtain rfl : calls = [] := by
      rw [hbeginsB.got] at hchunks
      exact List.map_eq_nil_iff.mp hchunks
    exact ⟨calloc, ctx₀, [], hinit, hchunks, fun _ h => absurd h (by simp), rest⟩

/-- Every message that was queued is one the second manager takes. -/
theorem Conversation.Ok.sendable {cfgA cfgB : ProtoPlexerConfig} {s : Conversation}
    (h : s.Ok cfgA cfgB) {pm : ProtoPlexerMessage} (hpm : pm ∈ decodedOf s.a.queued) :
    pm.Sendable cfgB := by
  have hmem : RxPacket.proto pm ∈ s.a.queued := by
    rw [← map_decodedOf fun p hp => (h.queued p hp).imp fun _ hp => hp.1]
    exact List.mem_map_of_mem hpm
  obtain ⟨pm', heq, hsendable⟩ := h.queued _ hmem
  obtain rfl : pm = pm' := RxPacket.proto.inj heq
  exact hsendable

theorem untimed_flatMap_chunksOf {m : UInt16} (hm : ChunkLengthOk m)
    {pms : List ProtoPlexerMessage} (h : ∀ pm ∈ pms, pm.toMsg.HasData) :
    untimed (pms.flatMap fun pm => chunksOf pm.toMsg m) =
      pms.flatMap fun pm => chunksOf pm.toMsg m := by
  rw [untimed, List.map_flatMap]
  exact List.flatMap_congr fun pm hpm => untimed_chunksOf hm (h pm hpm)

/-- What arrives at the second manager are the first chunks of what the first one was asked to
send. -/
theorem Conversation.Ok.got_prefix {cfgA cfgB : ProtoPlexerConfig} {s : Conversation}
    (h : s.Ok cfgA cfgB) (hm : ChunkLengthOk cfgA.maxChunkLength) : ∃ later,
      ((decodedOf s.a.queued).flatMap fun pm => chunksOf pm.toMsg cfgA.maxChunkLength) =
        untimed (s.b.got ++ s.wire) ++ later ∧ (s.a.txQueue = [] → later = []) := by
  have hqueued := h.a.queued
  have hframes : ∀ (taken : List (TxPacket × List CanMessage)),
      (∀ t ∈ taken, ∃ pm : ProtoPlexerMessage, t.1 = .proto pm) →
      (∀ t ∈ taken, t.2 = t.1.frames .protoPlexer cfgA.maxChunkLength .ample) →
      ((decodedOf (taken.map Prod.fst)).flatMap
        fun pm => chunksOf pm.toMsg cfgA.maxChunkLength) = taken.flatMap Prod.snd := by
    intro taken hmessages hwhole
    induction taken with
    | nil => rfl
    | cons t taken ih =>
      obtain ⟨pm, hpm⟩ := hmessages t List.mem_cons_self
      have hfirst := hwhole t List.mem_cons_self
      have hrest := ih (fun q hq => hmessages q (List.mem_cons_of_mem _ hq))
        fun q hq => hwhole q (List.mem_cons_of_mem _ hq)
      rw [hpm, frames_protoPlexer] at hfirst
      rw [List.flatMap_cons, ← hrest, hfirst, List.map_cons, hpm]
      rfl
  have hmessages : ∀ t ∈ s.a.taken, ∃ pm : ProtoPlexerMessage, t.1 = .proto pm := by
    intro t ht
    have hmem : t.1 ∈ s.a.queued := by
      rw [hqueued]
      exact List.mem_append_left _ (List.mem_map_of_mem ht)
    obtain ⟨pm, hpm, -⟩ := h.queued t.1 hmem
    exact ⟨pm, hpm⟩
  refine ⟨(decodedOf s.a.txQueue).flatMap fun pm => chunksOf pm.toMsg cfgA.maxChunkLength, ?_, ?_⟩
  · have hsplit : decodedOf s.a.queued =
        decodedOf (s.a.taken.map Prod.fst) ++ decodedOf s.a.txQueue := by
      rw [hqueued]
      exact List.filterMap_append ..
    have htimes : untimed (s.a.taken.flatMap Prod.snd) = s.a.taken.flatMap Prod.snd := by
      rw [← hframes _ hmessages h.whole]
      refine untimed_flatMap_chunksOf hm fun pm hpm => (h.sendable ?_).welcomes.hasData
      rw [hsplit]
      exact List.mem_append_left _ hpm
    rw [hsplit, List.flatMap_append, hframes _ hmessages h.whole, ← htimes, h.wire]
  · intro hempty
    rw [hempty]
    rfl

/-- **What the second manager publishes** are the first messages the first one was asked to
send, those whose chunks have all arrived. -/
theorem Conversation.Ok.published {cfgA cfgB : ProtoPlexerConfig} {s : Conversation}
    (h : s.Ok cfgA cfgB) (hm : ChunkLengthOk cfgA.maxChunkLength) :
    ∃ rest j, decodedOf s.a.queued = decodedOf s.b.published ++ rest ∧
      untimed s.b.got = ((decodedOf s.b.published).flatMap
          fun pm => chunksOf pm.toMsg cfgA.maxChunkLength) ++
        (rest.flatMap fun pm => chunksOf pm.toMsg cfgA.maxChunkLength).take j ∧
      (∀ pm ∈ rest.head?, j < (chunksOf pm.toMsg cfgA.maxChunkLength).length) := by
  obtain ⟨later, hlater, -⟩ := h.got_prefix hm
  have hcontext := h.b.context
  rw [h.backendB] at hcontext
  obtain ⟨ctx, hctx⟩ := Option.isSome_iff_exists.mp (hcontext.trans (by simp))
  obtain ⟨calloc, ctx₀, calls, hinit, hchunks, hcalls, -, hpublished⟩ := h.decodes ctx hctx
  rw [h.configB] at hinit
  have hinitial : ctx₀.Initial := ⟨_, Or.inr ⟨calloc, hinit⟩⟩
  have hready : ctx₀.Ready cfgB.setup :=
    ⟨hinitial.inv, (init_spec hinit).2.2.2, hinitial.length_pos⟩
  have huntimed : (calls.map Call.untimed).map Call.chunk = untimed s.b.got := by
    rw [← hchunks, untimed, List.map_map, List.map_map]
    rfl
  have htakes : ∀ call ∈ calls.map Call.untimed, call.Takes cfgB.setup := by
    intro call hcall
    obtain ⟨call', hcall', rfl⟩ := List.mem_map.mp hcall
    obtain ⟨hapi, hserves⟩ := hcalls call' hcall'
    change call'.Takes cfgB.setup
    exact ⟨by rw [hapi]; rfl, by rw [hapi]; exact hserves⟩
  obtain ⟨done, rest, j, hsent, hhead, hgot, hdelivered⟩ := receiver_sequence hm
    ((decodedOf s.a.queued).map ProtoPlexerMessage.toMsg) hready hinitial.inProgress
    (fun msg hmsg => by
      obtain ⟨pm, hpm, rfl⟩ := List.mem_map.mp hmsg
      exact (h.sendable hpm).welcomes)
    htakes
    (by
      rw [huntimed, List.flatMap_map, hlater, untimed_append, List.append_assoc]
      exact List.prefix_append _ _)
  rw [outputs_untimed] at hdelivered
  rw [huntimed] at hgot
  obtain ⟨first, second, hsplit, rfl, rfl⟩ := List.map_eq_append_iff.mp hsent
  -- the messages that were delivered are published as they were sent
  have hfirst : decodedOf s.b.published = first := by
    rw [hpublished, published_eq, hdelivered, List.map_map, List.map_map]
    conv_rhs => rw [← List.map_id first]
    apply List.map_congr_left
    intro pm hpm
    have hmem : pm ∈ decodedOf s.a.queued := by
      rw [hsplit]
      exact List.mem_append_left _ hpm
    exact ProtoPlexerMessage.ofMsg_of_content (h.sendable hmem).size rfl
  rw [List.flatMap_map, List.flatMap_map] at hgot
  refine ⟨second, j, by rw [hfirst]; exact hsplit, by rw [hfirst]; exact hgot, fun pm hpm => ?_⟩
  apply hhead
  rw [List.head?_map, hpm]
  rfl

/-- The chunks of a manager that decodes are of a length the protocol accepts. -/
theorem Manager.Ok.chunkLength {m : Manager} (h : m.Ok)
    (hbackend : m.backendActive = .protoPlexer) : ChunkLengthOk m.ppCfgActive.maxChunkLength := by
  have hcontext := h.context
  rw [hbackend] at hcontext
  obtain ⟨ctx, hctx⟩ := Option.isSome_iff_exists.mp (hcontext.trans (by simp))
  obtain ⟨calloc, ctx₀, -, hinit, -⟩ := h.decodes ctx hctx
  exact chunkLengthOk_of_init hinit

/-- What the invariant says about the messages. -/
theorem Conversation.Ok.end_to_end {cfgA cfgB : ProtoPlexerConfig} {s : Conversation}
    (h : s.Ok cfgA cfgB) :
    let chunks := fun pm : ProtoPlexerMessage => chunksOf pm.toMsg cfgA.maxChunkLength
    ∃ rest j, s.a.queued = (decodedOf s.b.published ++ rest).map .proto ∧
      untimed s.b.got =
        (decodedOf s.b.published).flatMap chunks ++ (rest.flatMap chunks).take j ∧
      (∀ pm ∈ rest.head?, j < (chunks pm).length) ∧
      (s.a.txQueue = [] → s.wire = [] → rest = []) := by
  intro chunks
  have hm : ChunkLengthOk cfgA.maxChunkLength := by
    rw [← h.configA]
    exact h.a.chunkLength h.backendA
  obtain ⟨rest, j, hsent, hgot, hhead⟩ := h.published hm
  refine ⟨rest, j, ?_, hgot, hhead, fun hqueue hwire => ?_⟩
  · rw [← hsent, map_decodedOf fun p hp => (h.queued p hp).imp fun _ hp => hp.1]
  · -- all chunks have arrived, and those of a further message would be too few
    obtain ⟨later, hlater, hnone⟩ := h.got_prefix hm
    rw [hwire, hnone hqueue, List.append_nil, List.append_nil, hsent, List.flatMap_append, hgot,
      List.append_cancel_left_eq] at hlater
    cases rest with
    | nil => rfl
    | cons pm rest =>
      have hlt := hhead pm rfl
      have hlen := congrArg List.length hlater
      rw [List.length_take, List.flatMap_cons, List.length_append] at hlen
      omega

/-- It holds after every run of two managers that were connected. -/
theorem conversation_ok {a₀ b₀ : Manager} (ha : manager.Reachable {} a₀)
    (hb : manager.Reachable {} b₀) {paramsA paramsB : ConnectParams} {envA envB : ConnectEnv}
    (hbackendA : paramsA.backend = .protoPlexer) (hbackendB : paramsB.backend = .protoPlexer)
    (hconnectA : (a₀.connect paramsA envA).2 = true)
    (hconnectB : (b₀.connect paramsB envB).2 = true)
    (actions : List (ConversationAction paramsB.protoplexer)) :
    ((conversation paramsB.protoplexer).final
      ⟨(a₀.connect paramsA envA).1, (b₀.connect paramsB envB).1, []⟩ actions).Ok
        paramsA.protoplexer paramsB.protoplexer := by
  obtain ⟨actionsA, rfl⟩ := ha
  obtain ⟨actionsB, rfl⟩ := hb
  obtain ⟨hokA, hbeginsA⟩ := (manager_ok actionsA).connect paramsA envA
  obtain ⟨hokB, hbeginsB⟩ := (manager_ok actionsB).connect paramsB envB
  exact (conversation paramsB.protoplexer).final_of_step
    (P := Conversation.Ok paramsA.protoplexer paramsB.protoplexer) actions
    (Conversation.ok_initial hokA hokB (hbeginsA hconnectA) (hbeginsB hconnectB) hbackendA
      hbackendB)
    fun _ action _ h => h.step action

/-- **What is published is what was sent**, as far as it has come: two managers, however they
got there, are connected to decode messages, and one transmits what the other receives.  In
every run of the two, whatever they do besides, the second one publishes the messages the
first one was asked to send, unchanged, each one once and in order; what it lacks is still in
the queue of the first or on the wire, except for a last message that has come in part. -/
theorem managers_end_to_end {a₀ b₀ : Manager} (ha : manager.Reachable {} a₀)
    (hb : manager.Reachable {} b₀) (paramsA paramsB : ConnectParams) (envA envB : ConnectEnv)
    (hbackendA : paramsA.backend = .protoPlexer) (hbackendB : paramsB.backend = .protoPlexer)
    (hconnectA : (a₀.connect paramsA envA).2 = true)
    (hconnectB : (b₀.connect paramsB envB).2 = true)
    (actions : List (ConversationAction paramsB.protoplexer)) :
    let s := (conversation paramsB.protoplexer).final
      ⟨(a₀.connect paramsA envA).1, (b₀.connect paramsB envB).1, []⟩ actions
    let chunks := fun pm : ProtoPlexerMessage =>
      chunksOf pm.toMsg paramsA.protoplexer.maxChunkLength
    ∃ rest j, s.a.queued = (decodedOf s.b.published ++ rest).map .proto ∧
      untimed s.b.got =
        (decodedOf s.b.published).flatMap chunks ++ (rest.flatMap chunks).take j ∧
      (∀ pm ∈ rest.head?, j < (chunks pm).length) ∧
      (s.a.txQueue = [] → s.wire = [] → rest = []) :=
  (conversation_ok ha hb hbackendA hbackendB hconnectA hconnectB actions).end_to_end

/-- A message of three chunks. -/
def ProtoPlexerMessage.greeting : ProtoPlexerMessage where
  messageId := 5
  addressFrom := 1
  addressTo := 2
  data := [0x48, 0x65, 0x6C, 0x6C, 0x6F, 0x2C, 0x20, 0x77, 0x6F, 0x72, 0x6C, 0x64]

/-- Another one. -/
def ProtoPlexerMessage.farewell : ProtoPlexerMessage where
  messageId := 6
  addressFrom := 1
  addressTo := 2
  data := [0x47, 0x6F, 0x6F, 0x64, 0x62, 0x79, 0x65, 0x2C, 0x20, 0x77, 0x6F, 0x72, 0x6C, 0x64]

theorem ProtoPlexerMessage.greeting_sendable : greeting.Sendable {} where
  messageId := by decide
  addressFrom := by decide
  addressTo := by decide
  priority := by decide
  size := by decide
  own := Or.inl rfl

theorem ProtoPlexerMessage.farewell_sendable : farewell.Sendable {} where
  messageId := by decide
  addressFrom := by decide
  addressTo := by decide
  priority := by decide
  size := by decide
  own := Or.inl rfl

/-- Two managers that were just connected, to decode messages. -/
def Conversation.connected : Conversation where
  a := (Manager.connect {} ⟨0, .protoPlexer, {}⟩ ⟨["can0"], true, true, true, true, true⟩).1
  b := (Manager.connect {} ⟨0, .protoPlexer, {}⟩ ⟨["can1"], true, true, true, true, true⟩).1
  wire := []

/-- The second manager receives, and has the memory to decode. -/
def ConversationAction.receives (timeUs : UInt64) : ConversationAction {} :=
  .receive timeUs true .ample ⟨fun _ => rfl, fun _ _ => ⟨rfl, rfl⟩⟩

/-- A run in which two messages are sent, and received chunk by chunk; the second one is sent
before the first one has come. -/
def greetingRun : List (ConversationAction {}) :=
  [.send .greeting ProtoPlexerMessage.greeting_sendable, .drain, .receives 1,
    .send .farewell ProtoPlexerMessage.farewell_sendable, .receives 2, .drain, .nothing true .ample,
    .receives 3, .receives 4, .receives 5, .receives 6]

/-- The second manager publishes both. -/
theorem managers_end_to_end_greeting :
    decodedOf ((conversation {}).final .connected greetingRun).b.published =
      [.greeting, .farewell] := by
  obtain ⟨rest, j, hqueued, -, -, hrest⟩ := managers_end_to_end ⟨[], rfl⟩ ⟨[], rfl⟩
    ⟨0, .protoPlexer, {}⟩ ⟨0, .protoPlexer, {}⟩ ⟨["can0"], true, true, true, true, true⟩
    ⟨["can1"], true, true, true, true, true⟩ rfl rfl rfl rfl greetingRun
  rw [hrest (by decide) (by decide), List.append_nil] at hqueued
  have hsent : [ProtoPlexerMessage.greeting, .farewell].map RxPacket.proto = _ := hqueued
  exact (map_proto_injective hsent).symm

end App
end UniCan
