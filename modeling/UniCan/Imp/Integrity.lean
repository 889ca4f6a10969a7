import UniCan.Imp.Transfer

/-!
# Transfers arrive as they were started

Two devices without a validator never send a NACK, so no frame is sent twice, and the
invariant of their transfers holds in every run: whatever is reported was started, and
nothing is reported twice.  Transfers may time out on either side at any time, and their
ids may be used again at once.

## Main definitions

* `Net.Silent` — there is no NACK on the wire, and nothing that would send one.

## Main results

* `transfer_integrity` — **every report is of a message that the other device has
  started, and of no other report's.**
-/

namespace UniCan
namespace Imp

/-! ### Without a validator there is no NACK -/

/-- A frame carries a NACK. -/
def IsNack (frame : CanMessage) : Prop :=
  Cmd.ofCode? (canidGetCommand frame.id) = some .nack

section Nack

variable {ctx : Ctx} {s s' : Session} {nowMs : UInt32} {bytes : List UInt8} {command : Cmd}
  {reply : Option (Cmd × List UInt8)} {kind : Event} {received : Option Msg}

theorem isNack_frameTo {own addressTo sessionId : UInt8} :
    IsNack (frameTo own addressTo sessionId command bytes) ↔ command = .nack := by
  rw [IsNack, frameTo, canidGetCommand_canidCreate, Cmd.ofCode?_code, Option.some.injEq]

/-- A sender does not answer with a NACK. -/
theorem TxCase.ne_nack (h : TxCase s nowMs command s' reply kind) :
    ∀ p ∈ reply, p.1 ≠ .nack := by
  cases h with
  | aborted | finished | ignored => exact fun p hp => absurd hp (by simp)
  | _ => exact fun p hp => Option.some.inj hp ▸ (by simp)

/-- A receiver answers with a NACK only if its validator rejects the message. -/
theorem RxCase.ne_nack (h : RxCase ctx s bytes nowMs command s' reply kind received)
    (hvalidator : ctx.messageValidator = false) : ∀ p ∈ reply, p.1 ≠ .nack := by
  intro p hp
  rcases h.reply_cases p hp with rfl | rfl | ⟨-, htrue⟩
  · simp
  · simp
  · exact absurd (hvalidator.symm.trans htrue) (by simp)

/-- A transfer without acknowledgement sends no NACK. -/
theorem EmitCase.ne_nack {frame : Cmd × List UInt8} (h : EmitCase s s' frame kind) :
    frame.1 ≠ .nack := by
  cases h <;> simp

/-- The frame of an answer that is no NACK. -/
theorem Reacts.not_isNack {own : UInt8} {r : Session × Output}
    (h : Reacts own s r s' reply kind received) (hreply : ∀ p ∈ reply, p.1 ≠ .nack) :
    ∀ frame ∈ r.2.frame, ¬ IsNack frame := by
  intro frame hframe
  rw [h.frame] at hframe
  obtain ⟨p, hp, rfl⟩ := Option.map_eq_some_iff.mp hframe
  rw [isNack_frameTo]
  exact hreply p hp

/-- **A device without a validator sends no NACK.** -/
theorem device_not_isNack (h : ctx.Ok) (hvalidator : ctx.messageValidator = false) (call : Call) :
    ∀ frame ∈ (device.step ctx call).2.1.frame, ¬ IsNack frame := by
  obtain ⟨ctx', output, result, hstep, hdoes⟩ := device_step_does h call
  rw [hstep]
  cases hdoes with
  | nothing _ hframe =>
    intro frame hf
    obtain ⟨_, _, _, _, rfl⟩ := hframe frame hf
    rw [isNack_frameTo]
    simp
  | started _ hs =>
    intro frame hframe
    obtain rfl := Option.some.inj (hs.frame.symm.trans hframe)
    rw [isNack_frameTo]
    split_ifs <;> simp
  | handled _ hhandles _ hreacts =>
    rcases hhandles.moves with ⟨-, -, htx⟩ | ⟨-, hrx⟩
    · exact hreacts.not_isNack htx.ne_nack
    · exact hreacts.not_isNack (hrx.ne_nack hvalidator)
  | expired _ _ hreacts => exact hreacts.not_isNack fun p hp => absurd hp (by simp)
  | emitted _ _ hemit _ hreacts =>
    exact hreacts.not_isNack fun p hp => Option.some.inj hp ▸ hemit.ne_nack

/-- A frame that carries no NACK does not make a device send something again. -/
theorem Ctx.calm_of_not_isNack {frame : CanMessage} (h : ¬ IsNack frame) : ctx.Calm frame := by
  intro hd hhd hnack
  obtain ⟨-, -, -, -, hcommand, -⟩ := heading_eq_some hhd
  exact absurd (hcommand.trans (congrArg some hnack)) h

end Nack

/-! ### Runs -/

/-- There is no NACK on the wire, and no validator. -/
structure Net.Silent (net : Net) : Prop where
  messageValidator : ∀ x, (net.node x).ctx.messageValidator = false
  link : ∀ x, ∀ frame ∈ net.link x, ¬ IsNack frame

section Silent

variable {net : Net} {side : Side} {r : Node × Output × Result}

theorem Net.Silent.drop (h : net.Silent) : (net.drop side).Silent where
  messageValidator := h.messageValidator
  link x frame hframe := by
    rcases side.eq_or_other x with rfl | rfl
    · rw [drop_link_self] at hframe
      exact h.link x frame (List.mem_of_mem_tail hframe)
    · rw [drop_link_other] at hframe
      exact h.link _ frame hframe

theorem Net.Silent.after (h : net.Silent) (hvalidator : r.1.ctx.messageValidator = false)
    (hframe : ∀ frame ∈ r.2.1.frame, ¬ IsNack frame) : (net.after side r).Silent where
  messageValidator x := by
    rcases side.eq_or_other x with rfl | rfl
    · rw [after_node_self]
      exact hvalidator
    · rw [after_node_other]
      exact h.messageValidator _
  link x frame hx := by
    rcases side.eq_or_other x with rfl | rfl
    · rw [after_link_self] at hx
      rcases List.mem_append.mp hx with hold | hnew
      · exact h.link x frame hold
      · exact hframe frame (Option.mem_toList.mp hnew)
    · rw [after_link_other] at hx
      exact h.link _ frame hx

/-- Nothing that happens brings a NACK. -/
theorem Net.Silent.step {address : Side → UInt8} (h : net.Silent) (hok : net.Ok address)
    (action : NetAction) : (network.step net action).1.Silent := by
  have hvalidator : ∀ side call,
      (device.step (net.node side).ctx call).1.messageValidator = false := fun side call =>
    (device_step_moves (hok.node side).ctx call).1.messageValidator.trans (h.messageValidator side)
  have hframe := fun side call =>
    device_not_isNack (hok.node side).ctx (h.messageValidator side) call
  cases action with
  | startSend side msg readable nowMs env => exact h.after (hvalidator side _) (hframe side _)
  | process side nowMs => exact h.after (hvalidator side _) (hframe side _)
  | deliver side nowMs env =>
    simp only [network]
    cases net.link side.other with
    | nil => exact h
    | cons frame rest => exact h.drop.after (hvalidator side _) (hframe side _)

/-- The next frame is no NACK. -/
theorem Net.Silent.calm (h : net.Silent) (action : NetAction) : action.Calm net := by
  cases action with
  | deliver side nowMs env =>
    exact fun frame hframe => Ctx.calm_of_not_isNack
      (h.link side.other frame (List.mem_of_head? hframe))
  | _ => trivial

end Silent

/-- **Transfers arrive as they were started.**  Two devices without a validator and with
different addresses, of any configurations, send each other messages, or to all: after
every run, whatever its order, the clocks and the memory are, each message that a device
has reported is what arrives of a message that the other one has started, with the mode,
the addresses, the length and the data of that message; and no two reports are of the
same one. -/
theorem transfer_integrity {ctx : Side → Ctx} (hctx : ∀ side, (ctx side).Initial)
    (hvalidator : ∀ side, (ctx side).messageValidator = false) (actions : List NetAction)
    (hbetween : ∀ action ∈ actions, action.Between fun side => (ctx side).ownAddress)
    (side : Side) (net : Net) (hnet : net = network.final (Net.initial ctx) actions) :
    (∀ report ∈ (net.node side).reported, ∃ msg id,
        (net.node side.other).started[report.2]? = some (msg, id) ∧
          report.1 = msg.delivered id) ∧
      ((net.node side).reported.map Prod.snd).Nodup := by
  have hrun : net.Ok (fun side => (ctx side).ownAddress) ∧ net.Silent := by
    -- the silence makes every step calm, and a calm step keeps the invariant
    rw [hnet]
    refine network.final_of_step (P := fun net =>
      net.Ok (fun side => (ctx side).ownAddress) ∧ net.Silent) actions ?_ ?_
    · exact ⟨Net.ok_initial hctx, hvalidator, fun _ _ h => absurd h (by simp [Net.initial])⟩
    · rintro net action haction ⟨hok, hsilent⟩
      exact ⟨hok.step (hbetween action haction) (hsilent.calm action), hsilent.step hok action⟩
  have hreports := (hrun.1.node side).reports
  exact ⟨hreports.started, hreports.spent.nodup⟩

/-- A message of device 1 to device 2 without acknowledgement, up to its delivery. -/
def smallTransfer : List NetAction :=
  [.startSend .a (smallMsg .withoutAck 1 2) unackedMsg_readable 0 .ample, .process .a 0,
    .process .a 0, .deliver .b 0 .ample, .deliver .b 0 .ample, .deliver .b 0 .ample]

/-- The message is reported, and it is the one that was started. -/
theorem transfer_integrity_smallNode :
    ((network.final (Net.initial (smallNode false)) smallTransfer).node .b).reported =
        [((smallMsg .withoutAck 1 2).delivered 0, 0)] ∧
      ∃ msg id, ((network.final (Net.initial (smallNode false)) smallTransfer).node
          .a).started[0]? = some (msg, id) ∧
        (smallMsg .withoutAck 1 2).delivered 0 = msg.delivered id := by
  have hreported : ((network.final (Net.initial (smallNode false)) smallTransfer).node
      .b).reported = [((smallMsg .withoutAck 1 2).delivered 0, 0)] := by decide
  have hvalidator : ∀ side, (smallNode false side).messageValidator = false := by
    intro side
    cases side <;> rfl
  have hbetween : ∀ action ∈ smallTransfer,
      action.Between fun side => (smallNode false side).ownAddress := by
    intro action haction
    simp only [smallTransfer, List.mem_cons, List.not_mem_nil, or_false] at haction
    rcases haction with rfl | rfl | rfl | rfl | rfl | rfl
    · exact .inl rfl
    all_goals trivial
  refine ⟨hreported, ?_⟩
  exact (transfer_integrity (smallNode_initial false) hvalidator smallTransfer hbetween .b _
    rfl).1 _ (by rw [hreported]; exact List.mem_singleton_self _)

end Imp
end UniCan
