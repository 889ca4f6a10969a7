import Mathlib.Data.Finset.Option
import UniCan.Backend.SocketCan
import UniCan.Foundation.Fifo
import UniCan.Foundation.Ledger

/-!
# The life of a SocketCAN channel

A channel configures its interface, opens a socket, binds it, makes a descriptor to wake its
thread up, and starts the thread, which polls both and puts what it reads into the queue; any
of this may fail.  `Close` stops the thread and undoes it, `can_socketcan_channel.cpp`.

Descriptors are numbered in the order in which they are made.

## Main definitions

* `Channel`, `channel` — the channel, as a machine.
* `Channel.Ok` — the invariant.

## Main results

* `socketcan_descriptors` — **descriptors are used as they should be**, whatever fails.
* `socketcan_messages_once` — **every message that is made is handed out once, or lost in an
  `Open` or a `Close`.**
-/

namespace UniCan
namespace SocketCan

/-! ### The channel -/

/-- `_can_restart`. -/
def canRestart : UInt32 := 100

/-- `CanChannelSocketcan`. -/
structure Channel where
  /-- `_info_baudrate`. -/
  baudrate : UInt32
  /-- `_fd`, or -1. -/
  fd : Option ℕ := none
  /-- `_thread_fd`, or -1. -/
  threadFd : Option ℕ := none
  /-- `_thread_started`. -/
  threadStarted : Bool := false
  /-- `_thread` is joinable. -/
  thread : Bool := false
  /-- `m_receive_queue`. -/
  queue : List CanMessage := []
  /-- `m_receive_func` is set. -/
  func : Bool := false
  /-- The descriptors made so far. -/
  made : ℕ := 0
  /-- History: what was done with descriptors. -/
  calls : List (Usage ℕ) := []

/-- What `Open` meets: the interface, and which calls succeed. -/
structure OpenEnv where
  /-- What `can_get_bittiming` gives. -/
  bitrate : UInt32
  setBittiming : Bool
  /-- What `can_get_restart_ms` gives, if it succeeds. -/
  restartMs : Option UInt32
  setRestartMs : Bool
  socket : Bool
  bind : Bool
  eventfd : Bool

/-- Everything goes well. -/
def OpenEnv.fine (baudrate : UInt32) : OpenEnv := ⟨baudrate, true, some 100, true, true, true, true⟩

/-- The part of `Open` that configures the interface. -/
def OpenEnv.configures (env : OpenEnv) (baudrate : UInt32) : Bool :=
  (env.bitrate == baudrate || env.setBittiming) &&
    match env.restartMs with
    | none => true
    | some ms => ms == canRestart || env.setRestartMs

/-- A frame that is read, when, and whether there is memory for its message. -/
structure Arrival where
  frame : CanFrame
  create : Bool
  timeUs : UInt64

/-- What a round of the thread finds: whether the socket is ready, and the frames it reads. -/
abbrev Round := Option (List Arrival)

/-- The message that is made of a frame, if one is. -/
def Arrival.message (arrival : Arrival) : Option CanMessage :=
  if arrival.frame.canId &&& canErrFlag ≠ 0 ∨ arrival.create = false then none
  else some (messageOf arrival.timeUs arrival.frame)

/-- The messages a round of the thread makes. -/
def Round.messages (round : Round) : List CanMessage := (round.getD []).filterMap Arrival.message

namespace Channel

/-- Some uses of descriptors. -/
def call (c : Channel) (calls : List (Usage ℕ)) : Channel := { c with calls := c.calls ++ calls }

/-- `threadProcReceive`, for a frame that is read. -/
def threadRead (fd : ℕ) (c : Channel) (arrival : Arrival) : Channel :=
  { c with
    queue := (threadProcReceive (some arrival.frame) arrival.create arrival.timeUs c.func
      c.queue).queue }.call [.use fd]

/-- One round of `threadProc`: both descriptors are polled, and if the socket is ready, it is
read until that fails. -/
def threadRound (c : Channel) (round : Round) : Channel :=
  match c.fd, c.threadFd with
  | some fd, some threadFd =>
      let c := c.call [.use fd, .use threadFd]
      match round with
      | none => c
      | some arrivals => (arrivals.foldl (threadRead fd) c).call [.use fd]
  | _, _ => c

/-- `threadStop`; `rounds` are those the thread still makes before it ends. -/
def threadStop (c : Channel) (rounds : List Round) : Channel :=
  let c :=
    match c.threadStarted, c.threadFd with
    | true, some threadFd => c.call [.use threadFd]
    | _, _ => c
  let c := if c.thread then rounds.foldl threadRound c else c
  { c with thread := false, threadStarted := false }

/-- `CanChannelSocketcan::Open`. -/
def openChannel (c : Channel) (env : OpenEnv) : Channel × Bool :=
  let c := { c with queue := [] }
  if !env.configures c.baudrate then (c, false)
  else if c.fd.isSome then (c, false)
  else if !env.socket then (c, false)
  else
    let fd := c.made
    let c := { c with fd := some fd, made := fd + 1 }.call [.acquire fd, .use fd]
    if !env.bind then ({ c with fd := none }.call [.release fd], false)
    else
      -- `setsockopt` and `fcntl`
      let c := c.call [.use fd, .use fd]
      if !env.eventfd then ({ c with fd := none }.call [.release fd], false)
      else
        let threadFd := c.made
        let c := { c with threadFd := some threadFd, made := threadFd + 1 }.call [.acquire threadFd]
        let c := c.threadStop []
        ({ c with thread := true, threadStarted := true }, true)

/-- `CanChannelSocketcan::Close`; on a channel that is not open, the last two calls fail. -/
def close (c : Channel) (rounds : List Round) : Channel :=
  let c := c.threadStop rounds
  let c :=
    match c.threadFd with
    | none => c
    | some threadFd => { c with threadFd := none }.call [.release threadFd]
  let c :=
    match c.fd with
    | none => c
    | some fd => { c with fd := none }.call [.use fd, .release fd]
  { c with queue := [] }

/-- `ReceiveMessage`, if nobody else takes from the queue. -/
def receiveMessage (c : Channel) : Channel × Option CanMessage :=
  ({ c with queue := c.queue.tail }, c.queue.head?)

/-- `TransmitMessage`: the result, and the frame that is written. -/
def transmit (c : Channel) (write : CanFrame → Bool) (msg : CanMessage) :
    Channel × Bool × Option CanFrame :=
  match c.fd with
  | none => (c, transmitMessage (-1) write msg)
  | some fd => (c.call [.use fd], transmitMessage fd write msg)

end Channel

/-- What happens to a channel. -/
inductive ChannelAction
  | openChannel (env : OpenEnv)
  /-- Also what the destructor does. -/
  | close (rounds : List Round)
  | setReceiveHandler (func : Bool)
  /-- The thread makes a round. -/
  | round (round : Round)
  | receive
  | transmit (msg : CanMessage) (write : CanFrame → Bool)

/-- What a call to a channel gives. -/
structure ChannelOutput where
  result : Bool := false
  message : Option CanMessage := none
  frame : Option CanFrame := none
  deriving DecidableEq

/-- The channel as a machine. -/
def channel : Machine Channel ChannelAction ChannelOutput where
  step c
    | .openChannel env =>
        let r := c.openChannel env
        (r.1, { result := r.2 })
    | .close rounds => (c.close rounds, { result := true })
    | .setReceiveHandler func => ({ c with func }, { result := true })
    | .round round => (if c.thread then c.threadRound round else c, {})
    | .receive =>
        let r := c.receiveMessage
        (r.1, { result := r.2.isSome, message := r.2 })
    | .transmit msg write =>
        let r := c.transmit write msg
        (r.1, { result := r.2.1, frame := r.2.2 })

/-! ### Descriptors -/

namespace Channel

/-- The descriptors of a channel. -/
def held (c : Channel) : Finset ℕ := c.fd.toFinset ∪ c.threadFd.toFinset

/-- What was done with descriptors is sound, and leaves those of the channel. -/
structure Sound (c : Channel) : Prop where
  ledger : Ledger.run ∅ c.calls = some c.held
  fresh : ∀ n ∈ c.held, n < c.made

/-- The invariant of a channel between its calls: it has both descriptors and a thread, or
nothing. -/
structure Ok (c : Channel) : Prop extends c.Sound where
  both : c.threadFd.isSome = c.fd.isSome
  thread : c.thread = c.fd.isSome
  started : c.threadStarted = c.fd.isSome
  differ : ∀ n ∈ c.fd, n ∉ c.threadFd

variable {c : Channel} {n : ℕ} {calls : List (Usage ℕ)}

theorem mem_held : n ∈ c.held ↔ c.fd = some n ∨ c.threadFd = some n := by
  simp [held, Option.mem_toFinset]

/-- A channel without descriptors. -/
theorem ok_initial (baudrate : UInt32) : Ok { baudrate } where
  ledger := rfl
  fresh n hn := absurd hn (by simp [held])
  both := rfl
  thread := rfl
  started := rfl
  differ n hn := absurd hn (by simp)

/-- What the thread does: it uses descriptors of the channel, and fills the queue. -/
def Uses (c c' : Channel) : Prop :=
  ∃ queue uses, c' = { c with queue, calls := c.calls ++ uses } ∧
    ∀ entry ∈ uses, ∃ n ∈ c.held, entry = .use n

theorem Uses.refl (c : Channel) : c.Uses c := ⟨c.queue, [], by simp, by simp⟩

theorem Uses.trans {c' c'' : Channel} (h : c.Uses c') (h' : c'.Uses c'') : c.Uses c'' := by
  obtain ⟨queue, uses, rfl, huses⟩ := h
  obtain ⟨queue', uses', rfl, huses'⟩ := h'
  refine ⟨queue', uses ++ uses', by simp [List.append_assoc], fun entry hentry => ?_⟩
  rcases List.mem_append.mp hentry with hold | hnew
  · exact huses entry hold
  · exact huses' entry hnew

theorem Uses.call (h : ∀ entry ∈ calls, ∃ n ∈ c.held, entry = .use n) :
    c.Uses (c.call calls) := ⟨c.queue, calls, rfl, h⟩

/-- Uses of descriptors of the channel are sound. -/
theorem Uses.ok {c' : Channel} (huses : c.Uses c') (h : c.Ok) : c'.Ok := by
  obtain ⟨queue, uses, rfl, huses⟩ := huses
  exact { h with
    ledger := by
      simp only
      rw [Ledger.run_append h.ledger]
      exact Ledger.run_uses huses
    fresh := h.fresh }

theorem uses_threadRead (hn : n ∈ c.held) (arrival : Arrival) :
    c.Uses (threadRead n c arrival) :=
  ⟨_, [.use n], rfl, fun _ hentry => ⟨n, hn, List.mem_singleton.mp hentry⟩⟩

/-- A round of the thread. -/
theorem uses_threadRound (c : Channel) (round : Round) : c.Uses (c.threadRound round) := by
  unfold threadRound
  cases hfd : c.fd with
  | none => exact Uses.refl c
  | some fd =>
    cases hthread : c.threadFd with
    | none => exact Uses.refl c
    | some threadFd =>
      have hpoll : c.Uses (c.call [.use fd, .use threadFd]) := by
        refine Uses.call fun entry hentry => ?_
        rcases List.mem_cons.mp hentry with rfl | hentry
        · exact ⟨fd, mem_held.mpr (Or.inl hfd), rfl⟩
        · exact ⟨threadFd, mem_held.mpr (Or.inr hthread), List.mem_singleton.mp hentry⟩
      have hreads : ∀ (arrivals : List Arrival) (c₁ : Channel), c₁.fd = some fd →
          c₁.Uses ((arrivals.foldl (threadRead fd) c₁).call [.use fd]) := by
        intro arrivals
        induction arrivals with
        | nil =>
          intro c₁ hc₁
          exact Uses.call fun entry hentry =>
            ⟨fd, mem_held.mpr (Or.inl hc₁), List.mem_singleton.mp hentry⟩
        | cons arrival arrivals ih =>
          intro c₁ hc₁
          exact (uses_threadRead (mem_held.mpr (Or.inl hc₁)) arrival).trans (ih _ hc₁)
      cases round with
      | none => exact hpoll
      | some arrivals => exact hpoll.trans (hreads arrivals _ hfd)

/-- What `threadStop` does: the thread makes some more rounds, and ends. -/
theorem threadStop_spec (c : Channel) (rounds : List Round) : ∃ c', c.Uses c' ∧
    c.threadStop rounds = { c' with thread := false, threadStarted := false } := by
  have hrounds : ∀ (rounds : List Round) (c₁ : Channel),
      c₁.Uses (rounds.foldl threadRound c₁) := by
    intro rounds
    induction rounds with
    | nil => exact Uses.refl
    | cons round rounds ih => exact fun c₁ => (uses_threadRound c₁ round).trans (ih _)
  unfold threadStop
  cases hstarted : c.threadStarted with
  | false =>
    cases hthread : c.thread with
    | false => exact ⟨c, Uses.refl c, by simp [hthread]⟩
    | true => exact ⟨_, hrounds rounds c, by simp [hthread]⟩
  | true =>
    cases hfd : c.threadFd with
    | none =>
      cases hthread : c.thread with
      | false => exact ⟨c, Uses.refl c, by simp [hthread]⟩
      | true => exact ⟨_, hrounds rounds c, by simp [hthread]⟩
    | some threadFd =>
      have hwrite : c.Uses (c.call [.use threadFd]) := Uses.call fun entry hentry =>
        ⟨threadFd, mem_held.mpr (Or.inr hfd), List.mem_singleton.mp hentry⟩
      cases hthread : c.thread with
      | false => exact ⟨_, hwrite, by simp [Channel.call, hthread]⟩
      | true => exact ⟨_, hwrite.trans (hrounds rounds _), by simp [Channel.call, hthread]⟩

/-- A channel without a socket has nothing. -/
theorem Ok.nothing (h : c.Ok) (hfd : c.fd = none) :
    c.threadFd = none ∧ c.thread = false ∧ c.threadStarted = false := by
  have hboth := h.both
  have hthread := h.thread
  have hstarted := h.started
  rw [hfd] at hboth hthread hstarted
  exact ⟨by simpa using hboth, hthread, hstarted⟩

/-- A channel with a socket has two descriptors. -/
theorem Ok.two (h : c.Ok) {fd : ℕ} (hfd : c.fd = some fd) :
    ∃ threadFd, c.threadFd = some threadFd ∧ fd ≠ threadFd ∧ c.held = {fd, threadFd} := by
  obtain ⟨threadFd, hthread⟩ : ∃ threadFd, c.threadFd = some threadFd := by
    rw [← Option.isSome_iff_exists, h.both, hfd]
    rfl
  refine ⟨threadFd, hthread, fun heq => h.differ fd hfd (by rw [hthread, heq]; rfl), ?_⟩
  rw [held, hfd, hthread]
  rfl

/-- **`Close`** gives back what the channel has, and leaves it closed. -/
theorem Ok.close (h : c.Ok) (rounds : List Round) :
    (c.close rounds).Ok ∧ (c.close rounds).fd = none := by
  obtain ⟨c₁, huses, hstop⟩ := threadStop_spec c rounds
  have hok := huses.ok h
  cases hfd : c₁.fd with
  | none =>
    obtain ⟨hthreadFd, hthread, hstarted⟩ := hok.nothing hfd
    have heq : c.close rounds = { c₁ with queue := [] } := by
      simp [Channel.close, hstop, hthreadFd, hfd, hthread, hstarted]
    rw [heq]
    exact ⟨{ hok with ledger := hok.ledger, fresh := hok.fresh }, hfd⟩
  | some fd =>
    obtain ⟨threadFd, hthreadFd, hne, hheld⟩ := hok.two hfd
    have heq : c.close rounds = { c₁ with
        fd := none, threadFd := none, thread := false, threadStarted := false, queue := []
        calls := c₁.calls ++ [.release threadFd, .use fd, .release fd] } := by
      simp [Channel.close, hstop, hthreadFd, hfd, Channel.call]
    rw [heq]
    refine ⟨?_, rfl⟩
    constructor
    · constructor
      · -- what was made is given back, the descriptor of the thread first
        rw [Ledger.run_append hok.ledger, hheld, Ledger.run_release (by simp),
          Ledger.run_use (by simp [hne]), Ledger.run_release (by simp [hne])]
        simp only [held, Option.toFinset_none, Finset.union_empty, Ledger.run, Option.some.injEq]
        ext n
        simp only [Finset.mem_erase, Finset.mem_insert, Finset.mem_singleton, Finset.notMem_empty]
        tauto
      · intro n hn
        exact absurd hn (by simp [held])
    · rfl
    · rfl
    · rfl
    · intro n hn
      exact absurd hn (by simp)

/-- **What `Open` can do**: nothing; make a socket and close it again; or all of it. -/
theorem Ok.openChannel_cases (h : c.Ok) (env : OpenEnv) :
    c.openChannel env = ({ c with queue := [] }, false) ∨
      c.fd = none ∧
        ((∃ n, c.openChannel env = ({ c with
          queue := []
          made := c.made + 1
          calls := c.calls ++ (.acquire c.made :: List.replicate n (.use c.made) ++
            [.release c.made]) }, false)) ∨
        c.openChannel env = ({ c with
          fd := some c.made
          threadFd := some (c.made + 1)
          thread := true
          threadStarted := true
          queue := []
          made := c.made + 2
          calls := c.calls ++ (.acquire c.made :: List.replicate 3 (.use c.made) ++
            [.acquire (c.made + 1)]) }, true)) := by
  by_cases hconfigures : env.configures c.baudrate = true
  swap
  · exact Or.inl (by simp [Channel.openChannel, hconfigures])
  cases hfd : c.fd with
  | some fd => exact Or.inl (by simp [Channel.openChannel, hconfigures, hfd])
  | none =>
    obtain ⟨hthreadFd, hthread, hstarted⟩ := h.nothing hfd
    cases hsocket : env.socket with
    | false => exact Or.inl (by simp [Channel.openChannel, hconfigures, hfd, hsocket])
    | true =>
      refine Or.inr ⟨rfl, ?_⟩
      cases hbind : env.bind with
      | false =>
        refine Or.inl ⟨1, ?_⟩
        simp [Channel.openChannel, hconfigures, hfd, hsocket, hbind, Channel.call]
      | true =>
        cases heventfd : env.eventfd with
        | false =>
          refine Or.inl ⟨3, ?_⟩
          simp [Channel.openChannel, hconfigures, hfd, hsocket, hbind, heventfd, Channel.call,
            List.replicate]
        | true =>
          refine Or.inr ?_
          simp [Channel.openChannel, hconfigures, hfd, hsocket, hbind, heventfd, Channel.call,
            List.replicate, threadStop, hthread, hstarted]

/-- **`Open`**: if it succeeds, the channel was closed and is open now, and if not, it is open
exactly if it was. -/
theorem Ok.openChannel (h : c.Ok) (env : OpenEnv) :
    (c.openChannel env).1.Ok ∧ (c.openChannel env).1.queue = [] ∧
      if (c.openChannel env).2 then c.fd = none ∧ (c.openChannel env).1.fd.isSome = true
      else (c.openChannel env).1.fd = c.fd := by
  have hnew : c.made ∉ c.held := fun hmem => Nat.lt_irrefl _ (h.fresh _ hmem)
  have huses : ∀ n k, ∀ entry ∈ List.replicate n (Usage.use k), ∃ j ∈ insert k c.held,
      entry = .use j := fun n k entry hentry =>
    ⟨k, Finset.mem_insert_self k _, List.eq_of_mem_replicate hentry⟩
  rcases h.openChannel_cases env with heq | ⟨hfd, ⟨n, heq⟩ | heq⟩
  · rw [heq]
    exact ⟨{ h with ledger := h.ledger, fresh := h.fresh }, rfl, rfl⟩
  · rw [heq]
    refine ⟨{ h with ledger := ?_, fresh := fun k hk => ?_ }, rfl, rfl⟩
    · simp only
      rw [Ledger.run_append h.ledger, List.cons_append, Ledger.run_acquire hnew,
        Ledger.run_append (Ledger.run_uses (huses n c.made)), Ledger.run_release (by simp),
        Finset.erase_insert hnew]
      rfl
    · exact Nat.lt_succ_of_lt (h.fresh k hk)
  · obtain ⟨hthreadFd, -, -⟩ := h.nothing hfd
    have hnone : c.held = ∅ := by simp [held, hfd, hthreadFd]
    rw [heq]
    refine ⟨?_, rfl, hfd, rfl⟩
    constructor
    · constructor
      · simp only
        rw [Ledger.run_append h.ledger, List.cons_append, Ledger.run_acquire hnew,
          Ledger.run_append (Ledger.run_uses (huses 3 c.made)),
          Ledger.run_acquire (by simp [hnone])]
        simp only [Ledger.run, held, hfd, hthreadFd, Option.some.injEq]
        ext k
        simp [or_comm]
      · intro k hk
        rcases mem_held.mp hk with hk | hk
        · have hk' : c.made = k := Option.some.inj hk
          simp only
          omega
        · have hk' : c.made + 1 = k := Option.some.inj hk
          simp only
          omega
    · rfl
    · rfl
    · rfl
    · intro k hk hk'
      have hfirst : c.made = k := Option.some.inj hk
      have hsecond : c.made + 1 = k := Option.some.inj hk'
      omega

/-- Every action keeps the invariant. -/
theorem Ok.step (h : c.Ok) (action : ChannelAction) : (channel.step c action).1.Ok := by
  cases action with
  | openChannel env => exact (h.openChannel env).1
  | close rounds => exact (h.close rounds).1
  | setReceiveHandler func => exact { h with ledger := h.ledger, fresh := h.fresh }
  | round round =>
    simp only [channel]
    split_ifs
    · exact (uses_threadRound c round).ok h
    · exact h
  | receive => exact { h with ledger := h.ledger, fresh := h.fresh }
  | transmit msg write =>
    simp only [channel, Channel.transmit]
    cases hfd : c.fd with
    | none => exact h
    | some fd =>
      refine Uses.ok (Uses.call fun entry hentry => ?_) h
      exact ⟨fd, mem_held.mpr (Or.inl hfd), List.mem_singleton.mp hentry⟩

/-! ### Messages -/

/-- The messages an action makes of the frames that are read. -/
def received (c : Channel) : ChannelAction → List CanMessage
  | .round round => if c.thread then round.messages else []
  | .close rounds => if c.thread then rounds.flatMap Round.messages else []
  | _ => []

/-- The messages an action takes out of the queue, and whether it hands them out; the others
are lost. -/
def removed (c : Channel) : ChannelAction → List (Bool × CanMessage)
  | .openChannel _ => c.queue.map (false, ·)
  | .close rounds => (c.threadStop rounds).queue.map (false, ·)
  | .receive => c.queue.head?.toList.map (true, ·)
  | _ => []

theorem queue_threadRead (fd : ℕ) (c : Channel) (arrival : Arrival) :
    (threadRead fd c arrival).queue = c.queue ++ arrival.message.toList := by
  simp only [threadRead, call, Arrival.message]
  by_cases herror : arrival.frame.canId &&& canErrFlag = 0
  · cases hcreate : arrival.create with
    | false => simp [threadProcReceive, herror]
    | true =>
      rw [threadProcReceive_eq herror]
      simp [herror]
  · simp [threadProcReceive, herror]

/-- **A round fills the queue** with the messages of the frames it reads. -/
theorem queue_threadRound {fd threadFd : ℕ} (hfd : c.fd = some fd)
    (hthreadFd : c.threadFd = some threadFd) (round : Round) :
    (c.threadRound round).queue = c.queue ++ round.messages := by
  have hreads : ∀ (arrivals : List Arrival) (c₁ : Channel),
      (arrivals.foldl (threadRead fd) c₁).queue =
        c₁.queue ++ arrivals.filterMap Arrival.message := by
    intro arrivals
    induction arrivals with
    | nil => simp
    | cons arrival arrivals ih =>
      intro c₁
      rw [List.foldl_cons, ih, queue_threadRead, List.append_assoc]
      cases hmessage : arrival.message with
      | none => rw [List.filterMap_cons_none hmessage, Option.toList_none, List.nil_append]
      | some msg =>
        rw [List.filterMap_cons_some hmessage, Option.toList_some, List.singleton_append]
  cases round with
  | none => simp [threadRound, hfd, hthreadFd, call, Round.messages]
  | some arrivals =>
    simp only [threadRound, hfd, hthreadFd, Round.messages, Option.getD_some]
    exact hreads arrivals _

/-- Some rounds, one after the other. -/
theorem queue_threadRounds {fd threadFd : ℕ} (rounds : List Round) {c : Channel}
    (hfd : c.fd = some fd) (hthreadFd : c.threadFd = some threadFd) :
    (rounds.foldl threadRound c).queue = c.queue ++ rounds.flatMap Round.messages := by
  induction rounds generalizing c with
  | nil => simp
  | cons round rounds ih =>
    have hqueue := queue_threadRound hfd hthreadFd round
    obtain ⟨queue, uses, heq, -⟩ := uses_threadRound c round
    rw [List.foldl_cons, ih (by rw [heq]; exact hfd) (by rw [heq]; exact hthreadFd), hqueue,
      List.append_assoc, List.flatMap_cons]

/-- What is in the queue when the thread has ended. -/
theorem Ok.queue_threadStop (h : c.Ok) (rounds : List Round) :
    (c.threadStop rounds).queue =
      c.queue ++ if c.thread then rounds.flatMap Round.messages else [] := by
  cases hfd : c.fd with
  | none =>
    obtain ⟨-, hthread, hstarted⟩ := h.nothing hfd
    simp [threadStop, hthread, hstarted]
  | some fd =>
    obtain ⟨threadFd, hthreadFd, -⟩ := h.two hfd
    have hthread : c.thread = true := by rw [h.thread, hfd]; rfl
    have hstarted : c.threadStarted = true := by rw [h.started, hfd]; rfl
    simp only [threadStop, hstarted, hthreadFd, hthread, call, if_true]
    exact queue_threadRounds rounds hfd rfl

/-- The queue is one, in the sense of `Machine.Fifo`. -/
theorem fifo : channel.Fifo Channel.queue received (fun c a => (c.removed a).map Prod.snd) Ok where
  inv _ action h := h.step action
  step c action h := by
    cases action with
    | openChannel env =>
      simp only [removed, channel, received, (h.openChannel env).2.1, List.append_nil]
      rw [List.map_map]
      exact List.map_id _
    | close rounds =>
      have hend : (c.close rounds).queue = [] := rfl
      simp only [removed, channel, received, hend, List.append_nil]
      rw [List.map_map, h.queue_threadStop rounds]
      exact List.map_id _
    | setReceiveHandler func => simp [removed, channel, received]
    | round round =>
      simp only [removed, channel, received, List.map_nil, List.nil_append]
      split_ifs with hthread
      · obtain ⟨fd, hfd⟩ := Option.isSome_iff_exists.mp (h.thread.symm.trans hthread)
        obtain ⟨threadFd, hthreadFd, -⟩ := h.two hfd
        exact queue_threadRound hfd hthreadFd round
      · exact (List.append_nil _).symm
    | receive =>
      simp only [removed, channel, received, receiveMessage, List.append_nil]
      cases c.queue <;> rfl
    | transmit msg write =>
      simp only [removed, channel, received, Channel.transmit, List.map_nil, List.nil_append,
        List.append_nil]
      cases c.fd <;> rfl

/-- What is handed out is put out. -/
theorem message_step (c : Channel) (action : ChannelAction) :
    (channel.step c action).2.message.toList =
      ((c.removed action).filter Prod.fst).map Prod.snd := by
  cases action with
  | receive =>
    simp only [channel, removed, receiveMessage]
    cases c.queue.head? <;> rfl
  | openChannel env => simp [channel, removed, List.filter_map, Function.comp_def]
  | close rounds => simp [channel, removed, List.filter_map, Function.comp_def]
  | _ => rfl

end Channel

/-- The invariant holds after every run. -/
theorem channel_ok (baudrate : UInt32) (actions : List ChannelAction) :
    (channel.final { baudrate } actions).Ok :=
  channel.final_of_step (P := Channel.Ok) actions (Channel.ok_initial baudrate)
    fun _ action _ h => h.step action

/-- **Descriptors are used as they should be**, in every run of a channel and whatever fails:
every descriptor is used only between the call that makes it and the one that closes it, and
closed once.  Between its calls the channel has both descriptors, and its thread, or nothing.
`Open` returns whether it has opened the channel; if it has not, the channel is open exactly
if it was before.  And `Close` closes everything that was ever made. -/
theorem socketcan_descriptors (baudrate : UInt32) (actions : List ChannelAction) :
    let c := channel.final { baudrate } actions
    Ledger.run ∅ c.calls = some (c.fd.toFinset ∪ c.threadFd.toFinset) ∧
      (c.thread = c.fd.isSome ∧ c.threadFd.isSome = c.fd.isSome) ∧
      (∀ env, if (c.openChannel env).2 then c.fd = none ∧ (c.openChannel env).1.fd.isSome = true
        else (c.openChannel env).1.fd = c.fd) ∧
      ∀ rounds, (c.close rounds).fd = none ∧ (c.close rounds).thread = false ∧
        ∀ n, (c.close rounds).calls.count (.acquire n) =
          (c.close rounds).calls.count (.release n) := by
  intro c
  have hok : c.Ok := channel_ok baudrate actions
  refine ⟨hok.ledger, ⟨hok.thread, hok.both⟩, fun env => (hok.openChannel env).2.2,
    fun rounds => ?_⟩
  obtain ⟨hclose, hfd⟩ := hok.close rounds
  obtain ⟨hthreadFd, hthread, -⟩ := hclose.nothing hfd
  refine ⟨hfd, hthread, fun n => ?_⟩
  have hcount := Ledger.count_of_run hclose.ledger n
  have hnone : n ∉ (c.close rounds).held := by
    rw [Channel.mem_held, hfd, hthreadFd]
    simp
  simpa [hnone] using hcount

/-- **Every message that is made is handed out once, or lost in an `Open` or a `Close`**, in
every run of a channel and whatever fails: the messages made of the frames that were read,
each of an error frame or without memory left out, are in order those that were taken out of
the queue and those still in it; `ReceiveMessage` hands out those of the former that an `Open`
or a `Close` has not thrown away, which nobody frees. -/
theorem socketcan_messages_once (baudrate : UInt32) (actions : List ChannelAction) :
    let c := channel.final { baudrate } actions
    let removed := channel.trace Channel.removed { baudrate } actions
    removed.map Prod.snd ++ c.queue = channel.trace Channel.received { baudrate } actions ∧
      (channel.outputs { baudrate } actions).filterMap ChannelOutput.message =
        (removed.filter Prod.fst).map Prod.snd := by
  refine ⟨?_, ?_⟩
  · have hrun := Channel.fifo.run (Channel.ok_initial baudrate) actions
    rw [Machine.trace_map] at hrun
    exact hrun
  · generalize ({ baudrate } : Channel) = c
    induction actions generalizing c with
    | nil => rfl
    | cons action actions ih =>
      rw [channel.outputs_cons, channel.trace_cons, List.filter_append, List.map_append, ← ih,
        ← c.message_step]
      cases hmessage : (channel.step c action).2.message with
      | none => rw [List.filterMap_cons_none hmessage, Option.toList_none, List.nil_append]
      | some msg =>
        rw [List.filterMap_cons_some hmessage, Option.toList_some, List.singleton_append]

end SocketCan
end UniCan
