import UniCan.App.Packet
import UniCan.Protoplexer.Refine

/-!
# The connections of the CAN manager

The manager of the application connects to a device: it has the factory make a channel,
sets it up, opens it, sets up a ProtoPlexer context if the messages are to be decoded, and
starts the thread that receives and transmits.  Any of these may fail, and `Disconnect`
undoes what was done, `can_mgr.cpp`.

The calls of `CanManager` are taken to be atomic here; what the thread does between them
is one step for each message it receives and one for each time it empties the queue.

## Main definitions

* `Manager` — the manager, with the history of its calls to channels and of the packets of
  the connection.
* `Manager.connect`, `Manager.disconnect`, `Manager.receive`, `Manager.drain` — what it does.
* `manager` — the manager as a machine.
* `ChannelPhase.next` — what may be done with a channel, and when.
* `Manager.Ok` — the invariant.

## Main results

* `manager_lifecycle` — **channels are used as they should be**, whatever fails.
* `manager_transmits` — **packets are transmitted in order, whole or not at all.**
-/

namespace UniCan
namespace App

open Protoplexer

/-- `ProtoPlexerConfig`. -/
structure ProtoPlexerConfig where
  ownAddress : UInt16 := 0x00F
  maxChannels : UInt16 := 16
  maxChunkLength : UInt16 := 8
  monitoring : Bool := true
  deriving DecidableEq, Repr

/-! ### Channels -/

/-- A call to a channel; channels are numbered in the order in which the factory made them. -/
inductive ChannelCall
  | create (channel : ℕ)
  | init (channel : ℕ) (ok : Bool)
  | setReceiveHandler (channel : ℕ)
  | open (channel : ℕ) (ok : Bool)
  | receive (channel : ℕ)
  | transmit (channel : ℕ) (msg : CanMessage)
  | close (channel : ℕ)
  | destroy (channel : ℕ)
  deriving DecidableEq

/-- How far the only channel there is has come. -/
inductive ChannelPhase
  /-- There is none, and so many were made before. -/
  | absent (made : ℕ)
  | created (channel : ℕ)
  /-- It is set up, and not open. -/
  | ready (channel : ℕ)
  | opened (channel : ℕ)
  | closed (channel : ℕ)
  deriving DecidableEq, Repr

/-- **What may be done with a channel, and when.**  A channel is made when there is no other,
set up, and opened; messages go through an open one only; it is closed once, and then
destroyed, and nothing is done with it afterwards. -/
def ChannelPhase.next : ChannelPhase → ChannelCall → Option ChannelPhase
  | .absent made, .create c => if c = made then some (.created c) else none
  | .created h, .init c ok => if c = h then some (if ok then .ready h else .created h) else none
  | .ready h, .setReceiveHandler c => if c = h then some (.ready h) else none
  | .ready h, .open c ok => if c = h then some (if ok then .opened h else .ready h) else none
  | .opened h, .receive c => if c = h then some (.opened h) else none
  | .opened h, .transmit c _ => if c = h then some (.opened h) else none
  | .created h, .close c | .ready h, .close c | .opened h, .close c =>
    if c = h then some (.closed h) else none
  | .closed h, .destroy c => if c = h then some (.absent (h + 1)) else none
  | _, _ => none

/-- The phase after some calls, if all of them may be made. -/
def ChannelPhase.run (phase : ChannelPhase) (calls : List ChannelCall) : Option ChannelPhase :=
  calls.foldlM ChannelPhase.next phase

/-- The frames that were transmitted on a channel. -/
def framesOn (channel : ℕ) (calls : List ChannelCall) : List CanMessage :=
  calls.filterMap fun
    | .transmit c msg => if c = channel then some msg else none
    | _ => none

/-! ### The manager -/

/-- `CanManagerState`. -/
inductive CanManagerState
  | standby
  | canError
  | connecting
  | operating
  deriving DecidableEq, Repr

/-- `CanManager`. -/
structure Manager where
  /-- `m_can_channel`. -/
  channel : Option ℕ := none
  /-- What the user has selected, `m_backend_cfg` and `m_pp_cfg_cfg`. -/
  backendCfg : ParseBackend := .rawCan
  ppCfgCfg : ProtoPlexerConfig := {}
  /-- What the connection uses, `m_backend_active` and `m_pp_cfg_active`. -/
  backendActive : ParseBackend := .rawCan
  ppCfgActive : ProtoPlexerConfig := {}
  /-- `m_pp_ctx`, if `m_pp_inited` is set. -/
  ppCtx : Option Ctx := none
  txQueue : List TxPacket := []
  infoNames : List String := []
  state : CanManagerState := .standby
  /-- `m_thread` is joinable. -/
  thread : Bool := false
  /-- The channels the factory has made so far. -/
  made : ℕ := 0
  /-- History: all calls to channels. -/
  calls : List ChannelCall := []
  /-- History: the packets that were queued since the last `Disconnect`. -/
  queued : List TxPacket := []
  /-- History: those that were taken from the queue, with the frames transmitted for them. -/
  taken : List (TxPacket × List CanMessage) := []
  /-- History: the messages the thread has received since then. -/
  got : List CanMessage := []
  /-- History: the packets it has published since then. -/
  published : List RxPacket := []

/-- `CanManager::ConnectParams`. -/
structure ConnectParams where
  deviceIndex : ℕ
  backend : ParseBackend := .rawCan
  protoplexer : ProtoPlexerConfig := {}

/-- What a `Connect` meets: the devices there are, and which of its calls succeed. -/
structure ConnectEnv where
  names : List String
  /-- `uni_can_factory_get_info`. -/
  info : Bool
  /-- `uni_can_factory_create_channel`. -/
  create : Bool
  /-- `uni_can_channel_init`. -/
  init : Bool
  /-- `uni_can_channel_open`. -/
  opened : Bool
  /-- The memory for the table of the context. -/
  calloc : Bool

/-- The configuration of the context. -/
def ProtoPlexerConfig.toConfig (cfg : ProtoPlexerConfig) : Config where
  ownAddress := cfg.ownAddress
  maxChunkLength := cfg.maxChunkLength
  maxChannels := cfg.maxChannels
  monitoring := cfg.monitoring
  maxPayload := 0
  rxBuffers := false
  rxPayload := none
  rxPayload_length := by simp

namespace Manager

/-- Some calls to channels. -/
def call (m : Manager) (calls : List ChannelCall) : Manager := { m with calls := m.calls ++ calls }

/-- `CanManager::InfoRefresh`. -/
def infoRefresh (m : Manager) (names : List String) : Manager := { m with infoNames := names }

/-- `CanManager::Disconnect`; the thread has ended before the channel is closed. -/
def disconnect (m : Manager) : Manager :=
  { m with
    thread := false
    channel := none
    calls := m.calls ++
      match m.channel with
      | none => []
      | some c => [.close c, .destroy c]
    ppCtx := none
    txQueue := []
    backendActive := .rawCan
    ppCfgActive := {}
    state := .standby
    queued := []
    taken := []
    got := []
    published := [] }

/-- The part of `CanManager::Connect` that makes the channel and opens it. -/
def openChannel (m : Manager) (env : ConnectEnv) : Manager × Bool :=
  if !env.info then (m, false)
  else if !env.create then (m, false)
  else
    let c := m.made
    let m := { m with channel := some c, made := c + 1 }.call [.create c]
    if !env.init then (m.call [.init c false], false)
    else (m.call [.init c true, .setReceiveHandler c, .open c env.opened], env.opened)

/-- The part that sets up the backend. -/
def initBackend (m : Manager) (params : ConnectParams) (calloc : Bool) : Manager × Bool :=
  let m := { m with backendActive := params.backend, ppCfgActive := params.protoplexer }
  match params.backend with
  | .rawCan => (m, true)
  | .protoPlexer =>
      match Protoplexer.init calloc params.protoplexer.toConfig with
      | none => (m, false)
      | some ctx => ({ m with ppCtx := some ctx }, true)

/-- `CanManager::Connect`. -/
def connect (m : Manager) (params : ConnectParams) (env : ConnectEnv) : Manager × Bool :=
  let m := m.disconnect
  let m := { m with backendCfg := params.backend, ppCfgCfg := params.protoplexer }
  let m := if m.infoNames.isEmpty then m.infoRefresh env.names else m
  if params.deviceIndex ≥ m.infoNames.length then ({ m with state := .canError }, false)
  else
    match { m with state := .connecting }.openChannel env with
    | (m, false) => ({ m.disconnect with state := .canError }, false)
    | (m, true) =>
        match m.initBackend params env.calloc with
        | (m, false) => ({ m.disconnect with state := .canError }, false)
        | (m, true) => ({ m with state := .operating, thread := true }, true)

/-- A packet gets to the end of the queue. -/
def push (m : Manager) (packet : TxPacket) : Manager :=
  { m with txQueue := m.txQueue ++ [packet], queued := m.queued ++ [packet] }

/-- `CanManager::SendMessage`; `clone` says whether there is memory for a copy. -/
def sendMessage (m : Manager) (msg : CanMessage) (clone : Bool) : Manager :=
  if clone then m.push (.raw msg) else m

/-- `CanManager::SendProtoPlexer`. -/
def sendProtoPlexer (m : Manager) (msg : ProtoPlexerMessage) : Manager := m.push (.proto msg)

/-- The chunk gets to the context, and a message that it completes is published. -/
def decode (m : Manager) (ctx : Ctx) (msg : CanMessage) (alloc : Alloc) : Manager :=
  let r := addChunk alloc ctx msg true
  { m with
    ppCtx := some r.1
    published := m.published ++
      (r.2.message.map fun msg => .proto (.ofMsg msg)).toList }

/-- The receiving part of `CanManager::threadFunctionOperating`: `msg` is what the channel
gives, and `clone` says whether there is memory for a copy. -/
def receive (m : Manager) (msg : Option CanMessage) (clone : Bool) (alloc : Alloc) : Manager :=
  match m.thread, m.channel with
  | true, some c =>
      let m := m.call [.receive c]
      match msg with
      | none => m
      | some msg =>
          let m := { m with
            got := m.got ++ [msg]
            published := m.published ++ if clone then [RxPacket.raw msg] else [] }
          match m.backendActive, m.ppCtx with
          | .protoPlexer, some ctx => m.decode ctx msg alloc
          | _, _ => m
  | _, _ => m

/-- The body of the transmitting loop: the first packet of the queue is taken. -/
def transmitNext (m : Manager) (c : ℕ) (env : TxEnv) : Manager :=
  match m.txQueue with
  | [] => m
  | item :: queue =>
      let frames := item.frames m.backendActive m.ppCfgActive.maxChunkLength env
      { m with txQueue := queue, taken := m.taken ++ [(item, frames)] }.call
        (frames.map (.transmit c))

/-- The transmitting part of `CanManager::threadFunctionOperating`, which goes on until the
queue is empty; `env i` is what the allocator answers for packet `i`. -/
def drain (m : Manager) (env : ℕ → TxEnv) : Manager :=
  match m.thread, m.channel with
  | true, some c => (List.range m.txQueue.length).foldl (fun m i => m.transmitNext c (env i)) m
  | _, _ => m

end Manager

/-- What happens to a manager. -/
inductive ManagerAction
  | connect (params : ConnectParams) (env : ConnectEnv)
  | disconnect
  /-- The user selects something else. -/
  | configure (backend : ParseBackend) (cfg : ProtoPlexerConfig)
  | infoRefresh (names : List String)
  | sendMessage (msg : CanMessage) (clone : Bool)
  | sendProtoPlexer (msg : ProtoPlexerMessage)
  | receive (msg : Option CanMessage) (clone : Bool) (alloc : Alloc)
  | drain (env : ℕ → TxEnv)

/-- The manager as a machine; it puts out what `Connect` returns. -/
def manager : Machine Manager ManagerAction Bool where
  step m
    | .connect params env => m.connect params env
    | .disconnect => (m.disconnect, true)
    | .configure backend cfg => ({ m with backendCfg := backend, ppCfgCfg := cfg }, true)
    | .infoRefresh names => (m.infoRefresh names, true)
    | .sendMessage msg clone => (m.sendMessage msg clone, true)
    | .sendProtoPlexer msg => (m.sendProtoPlexer msg, true)
    | .receive msg clone alloc => (m.receive msg clone alloc, true)
    | .drain env => (m.drain env, true)

/-! ### Calls to channels -/

section Calls

variable {phase phase' : ChannelPhase} {calls calls' : List ChannelCall} {c : ℕ}

theorem ChannelPhase.run_append (h : phase.run calls = some phase') :
    phase.run (calls ++ calls') = phase'.run calls' := by
  rw [ChannelPhase.run, List.foldlM_append]
  exact congrArg (· >>= fun p => calls'.foldlM ChannelPhase.next p) h

theorem framesOn_append : framesOn c (calls ++ calls') = framesOn c calls ++ framesOn c calls' :=
  List.filterMap_append ..

/-- Frames may be transmitted through an open channel. -/
theorem ChannelPhase.run_transmit (c : ℕ) (frames : List CanMessage) :
    (ChannelPhase.opened c).run (frames.map (.transmit c)) = some (.opened c) := by
  induction frames with
  | nil => rfl
  | cons frame frames ih =>
    rw [List.map_cons, ChannelPhase.run, List.foldlM_cons]
    simp only [ChannelPhase.next, if_true]
    exact ih

theorem framesOn_transmit (c : ℕ) (frames : List CanMessage) :
    framesOn c (frames.map (.transmit c)) = frames := by
  induction frames with
  | nil => rfl
  | cons frame frames ih =>
    rw [List.map_cons, framesOn, List.filterMap_cons]
    simp only [if_true]
    exact congrArg (frame :: ·) ih

theorem framesOn_transmit_of_ne {c' : ℕ} (h : c' ≠ c) (frames : List CanMessage) :
    framesOn c (frames.map (.transmit c')) = [] := by
  induction frames with
  | nil => rfl
  | cons frame frames ih =>
    rw [List.map_cons, framesOn, List.filterMap_cons]
    simp only [h, if_false]
    exact ih

end Calls

/-! ### The invariant -/

/-- The calls to channels so far may be made, in the middle of a `Connect` as well. -/
structure Manager.Lawful (m : Manager) : Prop where
  phase : match m.channel with
    | none => (ChannelPhase.absent 0).run m.calls = some (.absent m.made)
    | some c => c + 1 = m.made ∧ ∃ phase, (ChannelPhase.absent 0).run m.calls = some phase ∧
        (phase = .created c ∨ phase = .ready c ∨ phase = .opened c)
  fresh : ∀ c, m.made ≤ c → framesOn c m.calls = []

/-- The context `ctx` has got the messages of the connection, and what it made of them was
published; what the allocator answered is in `good`. -/
def Manager.Decodes (m : Manager) (good : Alloc → Prop) (ctx : Ctx) : Prop :=
  ∃ calloc ctx₀ calls, Protoplexer.init calloc m.ppCfgActive.toConfig = some ctx₀ ∧
    calls.map Call.chunk = m.got ∧
      (∀ call ∈ calls, call.api = .addChunk true ∧ good call.alloc) ∧
        ctx = receiver.final ctx₀ calls ∧ decodedOf m.published =
          (receiver.outputs ctx₀ calls).filterMap fun r => r.message.map .ofMsg

/-- The invariant of a manager between its calls. -/
structure Manager.Ok (m : Manager) : Prop where
  phase : (ChannelPhase.absent 0).run m.calls =
    some (m.channel.elim (.absent m.made) .opened)
  made : ∀ c ∈ m.channel, c + 1 = m.made
  fresh : ∀ c, m.made ≤ c → framesOn c m.calls = []
  operating : m.state = .operating ↔ m.channel.isSome = true
  connecting : m.state ≠ .connecting
  thread : m.thread = m.channel.isSome
  context : m.ppCtx.isSome = decide (m.backendActive = .protoPlexer)
  backend : m.backendActive = .protoPlexer → m.channel.isSome = true
  queued : m.queued = m.taken.map Prod.fst ++ m.txQueue
  frames : ∀ c ∈ m.channel, framesOn c m.calls = m.taken.flatMap Prod.snd
  whole : ∀ t ∈ m.taken, t.2 = [] ∨
    t.2 = t.1.frames m.backendActive m.ppCfgActive.maxChunkLength .ample
  absent : m.channel = none → m.taken = [] ∧ m.got = [] ∧ m.published = []
  raw : (rawOf m.published).Sublist m.got
  decodes : ∀ ctx ∈ m.ppCtx, m.Decodes (fun _ => True) ctx

namespace Manager

variable {m : Manager}

theorem Ok.lawful (h : m.Ok) : m.Lawful where
  phase := by
    have hphase := h.phase
    cases hc : m.channel with
    | none =>
      rw [hc] at hphase
      exact hphase
    | some c =>
      rw [hc] at hphase
      exact ⟨h.made c hc, _, hphase, Or.inr (Or.inr rfl)⟩
  fresh := h.fresh

theorem ok_initial : Ok {} where
  phase := rfl
  made _ h := absurd h (by simp)
  fresh _ _ := rfl
  operating := by simp
  connecting := by simp
  thread := rfl
  context := rfl
  backend h := absurd h (by simp)
  queued := rfl
  frames _ h := absurd h (by simp)
  whole _ h := absurd h (by simp)
  absent _ := ⟨rfl, rfl, rfl⟩
  raw := List.Sublist.refl _
  decodes _ h := absurd h (by simp)

/-- **`Disconnect`** closes and destroys the channel, however far it has come. -/
theorem Lawful.disconnect (h : m.Lawful) : m.disconnect.Ok where
  phase := by
    have hphase := h.phase
    cases hc : m.channel with
    | none =>
      rw [hc] at hphase
      simp only [Manager.disconnect, hc, List.append_nil]
      exact hphase
    | some c =>
      rw [hc] at hphase
      obtain ⟨hmade, phase, hrun, hcome⟩ := hphase
      simp only [Manager.disconnect, hc]
      rw [ChannelPhase.run_append hrun, ← hmade]
      rcases hcome with rfl | rfl | rfl <;> simp [ChannelPhase.run, ChannelPhase.next]
  made _ h := absurd h (by simp [Manager.disconnect])
  fresh c hc := by
    simp only [Manager.disconnect]
    rw [framesOn_append, h.fresh c hc]
    cases m.channel <;> rfl
  operating := by simp [Manager.disconnect]
  connecting := by simp [Manager.disconnect]
  thread := rfl
  context := rfl
  backend h := absurd h (by simp [Manager.disconnect])
  queued := rfl
  frames _ h := absurd h (by simp [Manager.disconnect])
  whole _ h := absurd h (by simp [Manager.disconnect])
  absent _ := ⟨rfl, rfl, rfl⟩
  raw := List.Sublist.refl _
  decodes _ h := absurd h (by simp [Manager.disconnect])

/-- What the state shows does not matter to the rest, as long as it is not connected. -/
theorem Ok.canError (h : m.Ok) (hc : m.channel = none) : Ok { m with state := .canError } :=
  { h with
    operating := by simp [hc]
    connecting := by simp }

/-- **Making a channel**: the calls may be made, and if all went well it is open. -/
theorem openChannel_spec (h : m.Lawful) (hc : m.channel = none) (env : ConnectEnv) :
    (m.openChannel env).1.Lawful ∧ ((m.openChannel env).2 = true →
      ∃ calls, (m.openChannel env).1 =
        { m with channel := some m.made, made := m.made + 1, calls := m.calls ++ calls } ∧
        (ChannelPhase.absent 0).run (m.calls ++ calls) = some (.opened m.made) ∧
          ∀ c, framesOn c (m.calls ++ calls) = framesOn c m.calls) := by
  have hphase := h.phase
  rw [hc] at hphase
  simp only at hphase
  -- the new channel has come as far as its calls say
  have hlawful : ∀ calls phase, (ChannelPhase.absent m.made).run calls = some phase →
      (phase = .created m.made ∨ phase = .ready m.made ∨ phase = .opened m.made) →
      (∀ c, framesOn c calls = []) →
      Lawful { m with channel := some m.made, made := m.made + 1, calls := m.calls ++ calls } := by
    intro calls phase hrun hcome hframes
    refine ⟨⟨rfl, phase, ?_, hcome⟩, fun c hle => ?_⟩
    · rw [ChannelPhase.run_append hphase]
      exact hrun
    · simp only at hle ⊢
      rw [framesOn_append, hframes, h.fresh c (by omega)]
      rfl
  unfold openChannel
  cases hinfo : env.info with
  | false => exact ⟨h, fun hf => absurd hf (by simp)⟩
  | true =>
    cases hcreate : env.create with
    | false => exact ⟨h, fun hf => absurd hf (by simp)⟩
    | true =>
      cases hinit : env.init with
      | false =>
        simp only [call, Bool.not_true, Bool.false_eq_true, if_false, Bool.not_false, if_true,
          List.append_assoc, false_imp_iff, and_true]
        refine hlawful _ (.created m.made) ?_ (Or.inl rfl) fun c => rfl
        simp [ChannelPhase.run, ChannelPhase.next]
      | true =>
        simp only [call, Bool.not_true, Bool.false_eq_true, if_false, List.append_assoc]
        cases hopened : env.opened with
        | false =>
          refine ⟨hlawful _ (.ready m.made) ?_ (Or.inr (Or.inl rfl)) fun c => rfl,
            fun hf => absurd hf (by simp)⟩
          simp [ChannelPhase.run, ChannelPhase.next]
        | true =>
          have hrun : (ChannelPhase.absent m.made).run ([.create m.made] ++
              [.init m.made true, .setReceiveHandler m.made, .open m.made true]) =
                some (.opened m.made) := by simp [ChannelPhase.run, ChannelPhase.next]
          refine ⟨hlawful _ _ hrun (Or.inr (Or.inr rfl)) fun c => rfl, fun _ => ⟨_, rfl, ?_, ?_⟩⟩
          · rw [ChannelPhase.run_append hphase]
            exact hrun
          · intro c
            rw [framesOn_append]
            exact List.append_nil _

/-- **Setting up the backend**: a context is there if, and only if, messages are decoded. -/
theorem initBackend_spec (params : ConnectParams) (calloc : Bool) :
    ∃ ctx, (m.initBackend params calloc).1 =
        { m with
          backendActive := params.backend
          ppCfgActive := params.protoplexer
          ppCtx := ctx } ∧
      ((m.initBackend params calloc).2 = true → params.backend = .rawCan ∧ ctx = m.ppCtx ∨
        params.backend = .protoPlexer ∧ ctx.isSome = true ∧
          Protoplexer.init calloc params.protoplexer.toConfig = ctx) := by
  unfold initBackend
  cases hbackend : params.backend with
  | rawCan => exact ⟨m.ppCtx, rfl, fun _ => Or.inl ⟨rfl, rfl⟩⟩
  | protoPlexer =>
    cases hinit : Protoplexer.init calloc params.protoplexer.toConfig with
    | none => exact ⟨m.ppCtx, rfl, fun hf => absurd hf (by simp)⟩
    | some ctx => exact ⟨some ctx, rfl, fun _ => Or.inr ⟨rfl, rfl, rfl⟩⟩

/-- A connection that has been made: nothing has gone through it yet. -/
theorem Ok.connected (h : m.disconnect.Ok) {calls : List ChannelCall}
    (hrun : (ChannelPhase.absent 0).run (m.disconnect.calls ++ calls) =
      some (.opened m.disconnect.made))
    (hframes : ∀ c, framesOn c (m.disconnect.calls ++ calls) = framesOn c m.disconnect.calls)
    {params : ConnectParams} {calloc : Bool} {ctx : Option Ctx}
    (hctx : params.backend = .rawCan ∧ ctx = none ∨
      params.backend = .protoPlexer ∧ ctx.isSome = true ∧
        Protoplexer.init calloc params.protoplexer.toConfig = ctx) (names : List String) :
    Ok { m.disconnect with
      backendCfg := params.backend
      ppCfgCfg := params.protoplexer
      infoNames := names
      channel := some m.disconnect.made
      made := m.disconnect.made + 1
      calls := m.disconnect.calls ++ calls
      backendActive := params.backend
      ppCfgActive := params.protoplexer
      ppCtx := ctx
      state := .operating
      thread := true } where
  phase := hrun
  made c hc := by
    obtain rfl := Option.some.inj hc
    rfl
  fresh c hc := by
    simp only at hc ⊢
    rw [hframes]
    exact h.fresh c (by omega)
  operating := by simp
  connecting := by simp
  thread := rfl
  context := by
    rcases hctx with ⟨hbackend, rfl⟩ | ⟨hbackend, hsome, -⟩
    · simp [hbackend]
    · simp [hbackend, hsome]
  backend _ := rfl
  queued := rfl
  frames c hc := by
    obtain rfl := Option.some.inj hc
    simp only
    rw [hframes]
    exact h.fresh _ (Nat.le_refl _)
  whole _ ht := absurd ht (by simp [Manager.disconnect])
  absent hnone := absurd hnone (by simp)
  raw := List.Sublist.refl _
  decodes ctx' hctx' := by
    rcases hctx with ⟨-, rfl⟩ | ⟨-, -, hinit⟩
    · exact absurd hctx' (by simp)
    · refine ⟨calloc, ctx', [], ?_, rfl, fun _ h => absurd h (by simp), rfl, rfl⟩
      simp only at hctx' ⊢
      rw [hinit]
      exact hctx'

/-- A connection at its beginning. -/
structure Begins (m : Manager) (params : ConnectParams) : Prop where
  channel : m.channel.isSome = true
  backendActive : m.backendActive = params.backend
  ppCfgActive : m.ppCfgActive = params.protoplexer
  queued : m.queued = []
  taken : m.taken = []
  got : m.got = []
  published : m.published = []

/-- **`Connect`**, whatever fails. -/
theorem Ok.connect (h : m.Ok) (params : ConnectParams) (env : ConnectEnv) :
    (m.connect params env).1.Ok ∧
      ((m.connect params env).2 = true → (m.connect params env).1.Begins params) := by
  have hgone := h.lawful.disconnect
  have hnames : ∃ names, (if ({ m.disconnect with
        backendCfg := params.backend, ppCfgCfg := params.protoplexer } : Manager).infoNames.isEmpty
      then ({ m.disconnect with
        backendCfg := params.backend, ppCfgCfg := params.protoplexer } : Manager).infoRefresh
          env.names
      else { m.disconnect with
        backendCfg := params.backend, ppCfgCfg := params.protoplexer }) =
      { m.disconnect with
        backendCfg := params.backend, ppCfgCfg := params.protoplexer, infoNames := names } := by
    split_ifs
    · exact ⟨env.names, rfl⟩
    · exact ⟨m.disconnect.infoNames, rfl⟩
  obtain ⟨names, hnames⟩ := hnames
  simp only [Manager.connect]
  rw [hnames]
  by_cases hindex : params.deviceIndex ≥ names.length
  · -- there is no such device
    simp only [hindex, if_true]
    exact ⟨{ hgone with
      operating := by simp [Manager.disconnect]
      connecting := by simp }, fun hf => absurd hf (by simp)⟩
  simp only [hindex, if_false]
  set base : Manager := { m.disconnect with
    backendCfg := params.backend
    ppCfgCfg := params.protoplexer
    infoNames := names
    state := .connecting } with hbase
  have hlawful : base.Lawful := ⟨hgone.lawful.phase, hgone.fresh⟩
  obtain ⟨hopening, hopened⟩ := openChannel_spec hlawful rfl env
  cases hr : base.openChannel env with
  | mk m₂ ok =>
    rw [hr] at hopening hopened
    cases ok with
    | false => exact ⟨hopening.disconnect.canError rfl, fun hf => absurd hf (by simp)⟩
    | true =>
      obtain ⟨calls, hm₂, hrun, hframes⟩ := hopened rfl
      simp only at hm₂
      obtain ⟨ctx, hm₃, hctx⟩ := initBackend_spec (m := m₂) params env.calloc
      have hinit : (m₂.initBackend params env.calloc).1.Lawful := by
        rw [hm₃]
        exact ⟨hopening.phase, hopening.fresh⟩
      simp only
      cases hb : m₂.initBackend params env.calloc with
      | mk m₃ ok =>
        rw [hb] at hm₃ hctx hinit
        cases ok with
        | false => exact ⟨hinit.disconnect.canError rfl, fun hf => absurd hf (by simp)⟩
        | true =>
          have hcases := hctx rfl
          rw [hm₂] at hcases hm₃
          simp only at hm₃
          simp only [hm₃]
          exact ⟨Ok.connected hgone hrun hframes hcases names,
            fun _ => ⟨rfl, rfl, rfl, rfl, rfl, rfl, rfl⟩⟩

/-- A packet is queued. -/
theorem Ok.push (h : m.Ok) (packet : TxPacket) : (m.push packet).Ok :=
  { h with
    queued := by
      simp only [Manager.push]
      rw [h.queued, List.append_assoc] }

section Connected

variable {c : ℕ} (h : m.Ok) (hc : m.channel = some c)

include h hc

/-- The channel is asked for a message. -/
theorem Ok.callReceive : (m.call [.receive c]).Ok where
  phase := by
    have hphase := h.phase
    rw [hc] at hphase
    simp only [call, hc, Option.elim_some] at hphase ⊢
    rw [ChannelPhase.run_append hphase]
    simp [ChannelPhase.run, ChannelPhase.next]
  made := h.made
  fresh c' hc' := by
    simp only [call] at hc' ⊢
    rw [framesOn_append, h.fresh c' hc']
    rfl
  operating := h.operating
  connecting := h.connecting
  thread := h.thread
  context := h.context
  backend := h.backend
  queued := h.queued
  frames c' hc' := by
    simp only [call] at hc' ⊢
    rw [framesOn_append, h.frames c' hc']
    exact List.append_nil _
  whole := h.whole
  absent := h.absent
  raw := h.raw
  decodes := h.decodes

/-- A message is received, and something is published for it. -/
theorem Ok.got {msg : CanMessage} {packets : List RxPacket}
    (hraw : (rawOf packets).Sublist [msg]) {ctx : Option Ctx}
    (hctx : ctx.isSome = m.ppCtx.isSome)
    (hdecodes : ∀ ctx' ∈ ctx, Decodes { m with
      got := m.got ++ [msg], published := m.published ++ packets, ppCtx := ctx }
        (fun _ => True) ctx') :
    Ok { m with
      got := m.got ++ [msg], published := m.published ++ packets, ppCtx := ctx } :=
  { h with
    context := hctx.trans h.context
    absent := fun hnone => absurd (hc.symm.trans hnone) (by simp)
    raw := by
      simp only [rawOf, List.filterMap_append]
      exact h.raw.append hraw
    decodes := hdecodes }

/-- **A packet is taken from the queue**, and its frames are transmitted. -/
theorem Ok.transmitNext (env : TxEnv) :
    (m.transmitNext c env).Ok ∧ (m.transmitNext c env).channel = some c ∧
      (m.transmitNext c env).txQueue = m.txQueue.tail := by
  unfold Manager.transmitNext
  cases hqueue : m.txQueue with
  | nil => exact ⟨h, hc, hqueue⟩
  | cons item queue =>
    set frames := item.frames m.backendActive m.ppCfgActive.maxChunkLength env with hframes
    have hphase := h.phase
    rw [hc] at hphase
    refine ⟨{ h with
      phase := ?_, fresh := fun c' hc' => ?_, queued := ?_, frames := fun c' hc' => ?_,
      whole := fun t ht => ?_, absent := fun hnone => absurd (hc.symm.trans hnone) (by simp) },
      hc, rfl⟩
    · simp only [call, hc, Option.elim_some] at hphase ⊢
      rw [ChannelPhase.run_append hphase]
      exact ChannelPhase.run_transmit c frames
    · have hmade := h.made c hc
      simp only [call] at hc' ⊢
      rw [framesOn_append, h.fresh c' hc', framesOn_transmit_of_ne (by omega)]
      rfl
    · simp only [call]
      rw [h.queued, hqueue, List.map_append, List.append_assoc]
      rfl
    · have heq : c' = c := Option.some.inj (hc'.symm.trans hc)
      simp only [call]
      rw [heq, framesOn_append, h.frames c hc, framesOn_transmit, List.flatMap_append,
        List.flatMap_singleton]
    · simp only [call] at ht ⊢
      rcases List.mem_append.mp ht with hold | hnew
      · exact h.whole t hold
      · rw [List.mem_singleton.mp hnew]
        exact TxPacket.frames_eq _ _ env item

end Connected

/-- **The queue is emptied**, by as many rounds as there are packets in it. -/
theorem Ok.drain (h : m.Ok) (env : ℕ → TxEnv) :
    (m.drain env).Ok ∧ (m.channel.isSome = true → (m.drain env).txQueue = []) := by
  unfold Manager.drain
  rw [h.thread]
  cases hc : m.channel with
  | none => exact ⟨h, fun hf => absurd hf (by simp)⟩
  | some c =>
    simp only [Option.isSome_some, forall_const]
    have hrounds : ∀ n, n ≤ m.txQueue.length → ∀ r : Manager,
        r = (List.range n).foldl (fun m i => m.transmitNext c (env i)) m →
          r.Ok ∧ r.channel = some c ∧ r.txQueue = m.txQueue.drop n := by
      intro n hn r hr
      induction n generalizing r with
      | zero =>
        subst hr
        exact ⟨h, hc, rfl⟩
      | succ n ih =>
        obtain ⟨hok, hchannel, hrest⟩ := ih (by omega) _ rfl
        rw [List.range_succ, List.foldl_append, List.foldl_cons, List.foldl_nil] at hr
        rw [hr]
        obtain ⟨hok', hchannel', hrest'⟩ := hok.transmitNext hchannel (env n)
        exact ⟨hok', hchannel', by rw [hrest', hrest, List.tail_drop]⟩
    obtain ⟨hok, -, hrest⟩ := hrounds _ (Nat.le_refl _) _ rfl
    exact ⟨hok, hrest.trans (List.drop_eq_nil_of_le (Nat.le_refl _))⟩

/-- **Emptying the queue** touches nothing but the queue and the channel. -/
theorem drain_spec (hthread : m.thread = true) {c : ℕ} (hc : m.channel = some c)
    (env : ℕ → TxEnv) : ∃ more calls,
      m.drain env = { m with txQueue := [], taken := m.taken ++ more, calls := calls } ∧
        ∀ t ∈ more, ∃ i,
          t.2 = t.1.frames m.backendActive m.ppCfgActive.maxChunkLength (env i) := by
  have hrounds : ∀ n, n ≤ m.txQueue.length → ∃ more calls,
      (List.range n).foldl (fun m i => m.transmitNext c (env i)) m =
        { m with txQueue := m.txQueue.drop n, taken := m.taken ++ more, calls := calls } ∧
          ∀ t ∈ more, ∃ i,
            t.2 = t.1.frames m.backendActive m.ppCfgActive.maxChunkLength (env i) := by
    intro n hn
    induction n with
    | zero => exact ⟨[], m.calls, by simp, fun _ h => absurd h (by simp)⟩
    | succ n ih =>
      obtain ⟨more, calls, heq, hmore⟩ := ih (by omega)
      rw [List.range_succ, List.foldl_append, heq, List.foldl_cons, List.foldl_nil, transmitNext,
        List.drop_eq_getElem_cons (by omega)]
      set frames := m.txQueue[n].frames m.backendActive m.ppCfgActive.maxChunkLength (env n)
        with hframes
      refine ⟨more ++ [(m.txQueue[n], frames)], calls ++ frames.map (.transmit c), ?_,
        fun t ht => ?_⟩
      · simp only [call, List.append_assoc]
        rfl
      · rcases List.mem_append.mp ht with hold | hnew
        · exact hmore t hold
        · rw [List.mem_singleton.mp hnew]
          exact ⟨n, rfl⟩
  obtain ⟨more, calls, heq, hmore⟩ := hrounds _ (Nat.le_refl _)
  have hdrain : m.drain env =
      (List.range m.txQueue.length).foldl (fun m i => m.transmitNext c (env i)) m := by
    simp only [drain, hthread, hc]
  refine ⟨more, calls, ?_, hmore⟩
  rw [hdrain, heq, List.drop_eq_nil_of_le (Nat.le_refl _)]

/-- The context takes another chunk. -/
theorem Decodes.decode {ctx : Ctx} {good : Alloc → Prop} (h : m.Decodes good ctx)
    (msg : CanMessage) {alloc : Alloc} (halloc : good alloc) {packets : List RxPacket}
    (hpackets : decodedOf packets =
      ((addChunk alloc ctx msg true).2.message.map ProtoPlexerMessage.ofMsg).toList)
    {m' : Manager} (hcfg : m'.ppCfgActive = m.ppCfgActive) (hgot : m'.got = m.got ++ [msg])
    (hpublished : m'.published = m.published ++ packets) :
    m'.Decodes good (addChunk alloc ctx msg true).1 := by
  obtain ⟨calloc, ctx₀, calls, hinit, hchunks, hapi, rfl, hold⟩ := h
  refine ⟨calloc, ctx₀, calls ++ [⟨.addChunk true, msg, alloc⟩], ?_, ?_, ?_, ?_, ?_⟩
  · rw [hcfg]
    exact hinit
  · rw [List.map_append, hchunks, hgot]
    rfl
  · intro call hcall
    rcases List.mem_append.mp hcall with hmem | hnew
    · exact hapi call hmem
    · rw [List.mem_singleton.mp hnew]
      exact ⟨rfl, halloc⟩
  · rw [receiver.final_append]
    rfl
  · have hstep : decodedOf (m.published ++ packets) =
        decodedOf m.published ++ decodedOf packets := List.filterMap_append ..
    rw [receiver.outputs_append, List.filterMap_append, ← hold, hpublished, hstep, hpackets]
    rfl

/-- **The channel has a message**: it is published, and decoded if messages are. -/
theorem Ok.receive_spec (h : m.Ok) {c : ℕ} (hc : m.channel = some c) (msg : CanMessage)
    (clone : Bool) (alloc : Alloc) : ∃ packets ctx,
      m.receive (some msg) clone alloc = { m.call [.receive c] with
        got := m.got ++ [msg], published := m.published ++ packets, ppCtx := ctx } ∧
      (rawOf packets).Sublist [msg] ∧ ctx.isSome = m.ppCtx.isSome ∧
      ∀ good : Alloc → Prop, good alloc → (∀ ctx' ∈ m.ppCtx, m.Decodes good ctx') →
        ∀ ctx' ∈ ctx, (m.receive (some msg) clone alloc).Decodes good ctx' := by
  have hthread : m.thread = true := by rw [h.thread, hc]; rfl
  set packets : List RxPacket := if clone then [RxPacket.raw msg] else [] with hpackets
  have hraw : (rawOf packets).Sublist [msg] := by
    rw [hpackets]
    cases clone
    · exact List.nil_sublist _
    · exact List.Sublist.refl _
  have hnothing : decodedOf packets = [] := by
    rw [hpackets]
    cases clone <;> rfl
  have hcontext := h.context
  cases hbackend : m.backendActive with
  | rawCan =>
    rw [hbackend] at hcontext
    have hnone : m.ppCtx = none := by simpa using hcontext
    refine ⟨packets, m.ppCtx, ?_, hraw, rfl, fun good _ _ ctx' hctx' =>
      absurd (hnone.symm.trans hctx') (by simp)⟩
    simp [receive, hthread, hc, call, hbackend, hpackets]
  | protoPlexer =>
    rw [hbackend] at hcontext
    obtain ⟨ctx, hctx⟩ := Option.isSome_iff_exists.mp (hcontext.trans (by simp))
    set reply := addChunk alloc ctx msg true with hreply
    -- the message itself, and what the context makes of it
    set all := packets ++
      (reply.2.message.map fun msg => RxPacket.proto (.ofMsg msg)).toList with hall
    have heq : m.receive (some msg) clone alloc = { m.call [.receive c] with
        got := m.got ++ [msg], published := m.published ++ all, ppCtx := some reply.1 } := by
      simp [receive, hthread, hc, call, hbackend, hctx, decode, hall, ← hreply, hpackets,
        List.append_assoc]
    refine ⟨all, some reply.1, heq, ?_, by rw [hctx]; rfl, fun good halloc hgood ctx' hctx' => ?_⟩
    · simp only [hall, rawOf, List.filterMap_append] at hraw ⊢
      cases reply.2.message <;> simpa using hraw
    · have hdecoded : decodedOf all =
          (reply.2.message.map ProtoPlexerMessage.ofMsg).toList := by
        simp only [hall, decodedOf, List.filterMap_append] at hnothing ⊢
        rw [hnothing]
        cases reply.2.message <;> rfl
      obtain rfl := Option.some.inj hctx'
      rw [heq]
      exact (hgood ctx hctx).decode msg halloc hdecoded rfl rfl rfl

/-- **The channel is asked for a message.** -/
theorem Ok.receive (h : m.Ok) (msg : Option CanMessage) (clone : Bool) (alloc : Alloc) :
    (m.receive msg clone alloc).Ok := by
  cases hc : m.channel with
  | none =>
    have hthread : m.thread = false := by rw [h.thread, hc]; rfl
    simp only [Manager.receive, hthread]
    exact h
  | some c =>
    have hthread : m.thread = true := by rw [h.thread, hc]; rfl
    cases msg with
    | none =>
      simp only [Manager.receive, hthread, hc]
      exact h.callReceive hc
    | some msg =>
      obtain ⟨packets, ctx, heq, hraw, hctx, hdecodes⟩ := h.receive_spec hc msg clone alloc
      have hgood := hdecodes (fun _ => True) trivial h.decodes
      rw [heq] at hgood ⊢
      exact (h.callReceive hc).got hc hraw hctx hgood

/-- **What `Connect` returns** is whether the manager is connected. -/
theorem connect_result (m : Manager) (params : ConnectParams) (env : ConnectEnv) :
    (m.connect params env).1.state =
      if (m.connect params env).2 then .operating else .canError := by
  -- each way through ends in a pair of a state and a result that fit
  have hways : ∀ r, m.connect params env = r →
      r.1.state = if r.2 then .operating else .canError := by
    intro r hr
    unfold Manager.connect at hr
    extract_lets at hr
    split at hr
    · subst hr
      rfl
    · split at hr
      · subst hr
        rfl
      · split at hr <;> subst hr <;> rfl
  exact hways _ rfl

/-- Every call keeps the invariant. -/
theorem Ok.step (h : m.Ok) (action : ManagerAction) : (manager.step m action).1.Ok := by
  cases action with
  | connect params env => exact (h.connect params env).1
  | disconnect => exact h.lawful.disconnect
  | configure backend cfg => exact { h with }
  | infoRefresh names => exact { h with }
  | sendMessage msg clone =>
    cases clone with
    | true => exact h.push (.raw msg)
    | false => exact h
  | sendProtoPlexer msg => exact h.push (.proto msg)
  | receive msg clone alloc => exact h.receive msg clone alloc
  | drain env => exact (h.drain env).1

end Manager

/-- It holds after every run. -/
theorem manager_ok (actions : List ManagerAction) : (manager.final {} actions).Ok :=
  manager.final_of_step (P := Manager.Ok) actions Manager.ok_initial
    fun _ action _ h => h.step action

/-- **Channels are used as they should be**, in every run of the manager and whatever fails:
each channel the factory makes is set up before it is opened, used only while it is open,
closed and destroyed once, and gone before the next one is made.  Between its calls the
manager is connected exactly while a channel is open, its thread runs, and its state says
so, and it has a context exactly while it decodes.  And `Connect` returns whether it has
come to that. -/
theorem manager_lifecycle (actions : List ManagerAction) :
    let m := manager.final {} actions
    (ChannelPhase.absent 0).run m.calls = some (m.channel.elim (.absent m.made) .opened) ∧
      (m.state = .operating ↔ m.channel.isSome = true) ∧ m.state ≠ .connecting ∧
      m.thread = m.channel.isSome ∧
      (m.ppCtx.isSome = true ↔ m.backendActive = .protoPlexer) ∧
      (m.backendActive = .protoPlexer → m.channel.isSome = true) ∧
      ∀ params env, (m.connect params env).1.state =
        if (m.connect params env).2 then .operating else .canError := by
  have hok := manager_ok actions
  refine ⟨hok.phase, hok.operating, hok.connecting, hok.thread, ?_, hok.backend,
    fun params env => Manager.connect_result _ params env⟩
  rw [hok.context]
  exact decide_eq_true_iff

/-- **Packets are transmitted in order, whole or not at all**, in every run of the manager:
the packets queued since the last `Disconnect` are those taken from the queue, in order, and
those that are still in it; what was transmitted on the channel are the frames of the former,
and of each of them all frames or none.  A round of the thread empties the queue.  What is
published of the received messages comes in their order; and what is decoded is what the
context makes of all of them. -/
theorem manager_transmits (actions : List ManagerAction) :
    let m := manager.final {} actions
    m.queued = m.taken.map Prod.fst ++ m.txQueue ∧
      (∀ c ∈ m.channel, framesOn c m.calls = m.taken.flatMap Prod.snd) ∧
      (∀ t ∈ m.taken, t.2 = [] ∨
        t.2 = t.1.frames m.backendActive m.ppCfgActive.maxChunkLength .ample) ∧
      (∀ env, m.channel.isSome = true → (m.drain env).txQueue = []) ∧
      (rawOf m.published).Sublist m.got ∧
      ∀ ctx ∈ m.ppCtx, m.Decodes (fun _ => True) ctx := by
  have hok := manager_ok actions
  exact ⟨hok.queued, hok.frames, hok.whole, fun env => (hok.drain env).2, hok.raw, hok.decodes⟩

end App
end UniCan
