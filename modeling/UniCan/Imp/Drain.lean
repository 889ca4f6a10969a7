import UniCan.Foundation.Pieces
import UniCan.Foundation.Tally
import UniCan.Imp.Timeouts

/-!
# Processing until nothing is left to do

A transfer without acknowledgement is sent by processing: each time, the first of these
transfers sends its next frame, unless there is a session that has waited too long.  So
the sessions that have waited too long come first, then the transfers, one after the other,
and then nothing comes any more.

## Main definitions

* `Output.seen` — an output without what is told about the run.
* `Session.remaining` — what a session still has to send.
* `Session.emits` — what is put out until a session has nothing left to send.
* `Session.framesLeft`, `drainCalls` — how often that is, for one session and for all.

## Main results

* `processSession_drains` — **a transfer is sent in pieces of eight bytes, and an END.**
* `process_drains` — **processing drains all transfers without acknowledgement.**
-/

namespace UniCan
namespace Imp

/-- An output without its history. -/
def Output.seen (output : Output) : Output := { output with copies := [], words := [] }

/-- What a session still has to send of its data. -/
def Session.remaining (s : Session) : List UInt8 := s.data.drop s.payloadOffset.toNat

/-- A piece of data of a transfer without acknowledgement. -/
def dataOutput (own : UInt8) (s : Session) (bytes : List UInt8) : Output where
  frame := some (frameTo own s.peerAddress s.sessionId .dataWa bytes)
  peerAddress := s.peerAddress
  sessionId := s.sessionId

/-- The END of a transfer without acknowledgement. -/
def endOutput (own : UInt8) (s : Session) : Output where
  frame := some (frameTo own s.peerAddress s.sessionId .endWa [])
  event := .txFinished
  peerAddress := s.peerAddress
  sessionId := s.sessionId

/-- What is put out until a transfer without acknowledgement is sent. -/
def emission (own : UInt8) (s : Session) : List Output :=
  (pieces s.remaining 8).map (dataOutput own s) ++ [endOutput own s]

/-- The session sends without acknowledgement. -/
def Session.streams (s : Session) : Bool := s.state == .txWithoutAck

/-- What is put out until the session has nothing left to send. -/
def Session.emits (own : UInt8) (s : Session) : List Output :=
  if s.streams then emission own s else []

/-- What becomes of the session then. -/
def Session.drained (s : Session) : Session := if s.streams then sessionRelease s else s

/-- The frames that a session still has to send: its data in frames of eight bytes, and
the END. -/
def Session.framesLeft (s : Session) : ℕ :=
  if s.streams then (s.payloadSize.toNat - s.payloadOffset.toNat + 7) / 8 + 1 else 0

/-- How often processing at a time has something to put out. -/
def drainCalls (ctx : Ctx) (nowMs : UInt32) : ℕ :=
  ctx.sessions.countP (timedOut ctx nowMs) + tally Session.framesLeft ctx.sessions

/-- The output has a frame to an address, of the transfer with an id. -/
def Output.isFor (key : UInt8 × UInt8) (output : Output) : Bool :=
  output.frame.any fun frame => canidGetTo frame.id == key.1 && canidGetSessionId frame.id == key.2

/-! ### One transfer -/

section Emission

variable {ctx : Ctx} {own : UInt8} {limit : UInt16} {s : Session}

/-- The length of the next frame, exactly. -/
theorem toNat_nextLength (s : Session) (h : s.payloadOffset ≤ s.payloadSize) :
    (nextLength s).toNat = min 8 (s.payloadSize.toNat - s.payloadOffset.toNat) := by
  have hleft : (s.payloadSize - s.payloadOffset).toNat =
      s.payloadSize.toNat - s.payloadOffset.toNat := UInt16.toNat_sub_of_le _ _ h
  have h8 : maxLen = 8 := rfl
  unfold nextLength
  simp only [hleft]
  split_ifs with hlong
  · show 8 = _
    omega
  · rw [UInt16.toNat_toUInt8, hleft]
    omega

theorem Session.Ok.length_remaining (h : s.Ok own limit) :
    s.remaining.length = s.payloadSize.toNat - s.payloadOffset.toNat := by
  rw [Session.remaining, List.length_drop, h.length_data]

/-- The bytes of the next frame are the first of what remains. -/
theorem Session.Ok.readAt_nextLength (h : s.Ok own limit) (hle : s.payloadOffset ≤ s.payloadSize) :
    readAt s.data s.payloadOffset.toNat (nextLength s).toNat = s.remaining.take 8 := by
  have hremaining := h.length_remaining
  rw [readAt, toNat_nextLength s hle, ← hremaining, ← Session.remaining, List.take_eq_take_iff]
  omega

/-- The rest of it remains; a last piece that is shorter leaves nothing. -/
theorem Session.Ok.drop_nextLength (h : s.Ok own limit) (hle : s.payloadOffset ≤ s.payloadSize) :
    s.data.drop (s.payloadOffset.toNat + (nextLength s).toNat) = s.remaining.drop 8 := by
  rw [Session.remaining, toNat_nextLength s hle, List.drop_drop, List.drop_eq_drop_iff,
    h.length_data]
  omega

/-- The next data of a transfer is its next piece. -/
theorem processSession_data (h : s.Ok ctx.ownAddress ctx.maxMessageSize)
    (hstate : s.state = .txWithoutAck) (hlt : s.payloadOffset < s.payloadSize) :
    ∃ offset, (processSession ctx s).1 = { s with payloadOffset := offset } ∧
      (processSession ctx s).1.remaining = s.remaining.drop 8 ∧
      (processSession ctx s).2.seen = dataOutput ctx.ownAddress s (s.remaining.take 8) := by
  have hs := h.tx (by simp [sessionIsTx, hstate])
  have hle := UInt16.le_of_lt hlt
  obtain ⟨-, -, hin⟩ := nextLength_spec s hlt
  unfold processSession
  rw [if_pos hlt]
  refine ⟨_, rfl, ?_, ?_⟩
  · rw [← h.drop_nextLength hle]
    show s.data.drop (UInt16.ofNat _).toNat = _
    rw [UInt16.toNat_ofNat_of_lt' (Nat.lt_of_le_of_lt hin s.payloadSize.toNat_lt)]
  · have hframe := answerData_frame ctx {} .dataWa h hs hin
    rw [h.readAt_nextLength hle] at hframe
    simp only [Output.seen, dataOutput, hframe]
    rfl

/-- After the last piece comes the END. -/
theorem processSession_end (ctx : Ctx) (hlt : ¬ s.payloadOffset < s.payloadSize) :
    (processSession ctx s).1 = sessionRelease s ∧
      (processSession ctx s).2.seen = endOutput ctx.ownAddress s := by
  unfold processSession
  rw [if_neg hlt]
  refine ⟨rfl, ?_⟩
  have hframe := answer_frame ctx {} s .endWa
  simp only [Output.seen, endOutput, setEvent, hframe]
  rfl

/-- **A transfer is sent in pieces of eight bytes, and an END.** -/
theorem processSession_drains (ctx : Ctx) :
    Drains Session.streams (fun s => ((processSession ctx s).1, (processSession ctx s).2.seen))
      (Session.emits ctx.ownAddress) Session.drained
      (Session.Ok ctx.ownAddress ctx.maxMessageSize) where
  idle s _ h := by simp [Session.emits, Session.drained, h]
  busy s h hstreams := by
    have hstate : s.state = .txWithoutAck := by simpa [Session.streams] using hstreams
    have hs := h.tx (by simp [sessionIsTx, hstate])
    obtain ⟨s', frame, kind, hemit, hreacts⟩ := processSession_spec h hstate
    have hok := hemit.ok h hstate
    rw [← hreacts.session] at hok
    refine ⟨hok, ?_⟩
    simp only [Session.emits, Session.drained, hstreams, if_true]
    have hlength := h.length_remaining
    by_cases hlt : s.payloadOffset < s.payloadSize
    · -- a piece is sent, and the session goes on
      obtain ⟨offset, hnext, hremaining, hseen⟩ := processSession_data h hstate hlt
      have hne : s.remaining ≠ [] := by
        rw [← List.length_pos_iff, hlength]
        rw [UInt16.lt_iff_toNat_lt] at hlt
        omega
      have hstreams' : (processSession ctx s).1.streams = true := by rw [hnext]; exact hstreams
      have houts : emission ctx.ownAddress (processSession ctx s).1 =
          (pieces (s.remaining.drop 8) 8).map (dataOutput ctx.ownAddress s) ++
            [endOutput ctx.ownAddress s] := by
        rw [emission, hremaining, hnext]
        rfl
      simp only [hstreams', if_true]
      rw [houts, hseen, emission, pieces_of_ne_nil (by decide) hne, hnext]
      exact ⟨rfl, rfl⟩
    · -- nothing remains: the END releases the session
      obtain ⟨hnext, hseen⟩ := processSession_end ctx hlt
      have hnil : s.remaining = [] := by
        rw [← List.length_eq_zero_iff, hlength]
        rw [UInt16.lt_iff_toNat_lt] at hlt
        omega
      rw [hnext, hseen, emission, hnil, pieces_nil (by decide)]
      exact ⟨rfl, rfl⟩

/-- A session has as many frames left as it puts out. -/
theorem Session.Ok.length_emits (h : s.Ok own limit) : (s.emits own).length = s.framesLeft := by
  unfold Session.emits Session.framesLeft
  split_ifs
  · rw [emission, List.length_append, List.length_map, length_pieces, h.length_remaining]
    rfl
  · rfl

/-- What is put out for a transfer is for its address and its id. -/
theorem Session.Ok.isFor_emits (h : s.Ok own limit) {output : Output}
    (houtput : output ∈ s.emits own) (key : UInt8 × UInt8) :
    output.frame ≠ none ∧ (output.isFor key = true ↔ s.txKey = key) := by
  have hframe : ∃ command bytes,
      output.frame = some (frameTo own s.peerAddress s.sessionId command bytes) := by
    unfold Session.emits at houtput
    split_ifs at houtput
    · rcases List.mem_append.mp houtput with hdata | hend
      · obtain ⟨bytes, -, rfl⟩ := List.mem_map.mp hdata
        exact ⟨_, _, rfl⟩
      · obtain rfl := List.mem_singleton.mp hend
        exact ⟨_, _, rfl⟩
    · exact absurd houtput (List.not_mem_nil)
  obtain ⟨command, bytes, hframe⟩ := hframe
  refine ⟨by rw [hframe]; simp, ?_⟩
  rw [Output.isFor, hframe, Option.any_some, frameTo,
    canidGetTo_canidCreate _ _ _ _ h.peerAddress, canidGetSessionId_canidCreate _ _ _ _ h.sessionId,
    Bool.and_eq_true, beq_iff_eq, beq_iff_eq, Session.txKey, Prod.ext_iff]

end Emission

/-! ### The whole table -/

section Process

variable {ctx : Ctx} {nowMs : UInt32} {i : ℕ}

/-- A transfer goes on when no session has waited too long. -/
theorem process_of_streams (ctx : Ctx) (htime : ctx.sessions.findIdx? (timedOut ctx nowMs) = none)
    (hfind : ctx.sessions.findIdx? Session.streams = some i) :
    process ctx nowMs = (ctx.setSession i (processSession ctx (ctx.session i)).1,
      (processSession ctx (ctx.session i)).2, .ok) := by
  have hfind' : ctx.sessions.findIdx? (fun session => session.state == .txWithoutAck) = some i :=
    hfind
  rw [process, htime]
  simp only [hfind']

/-- Nothing is left to do, and nothing is done. -/
theorem process_idle (ctx : Ctx) (htime : ctx.sessions.findIdx? (timedOut ctx nowMs) = none)
    (hfind : ctx.sessions.findIdx? Session.streams = none) (m : ℕ) :
    device.outputs ctx (List.replicate m (.process nowMs)) = List.replicate m ({}, .ok) ∧
      device.final ctx (List.replicate m (.process nowMs)) = ctx := by
  have hstep : device.step ctx (.process nowMs) = (ctx, {}, .ok) := by
    have hfind' : ctx.sessions.findIdx? (fun session => session.state == .txWithoutAck) = none :=
      hfind
    show process ctx nowMs = _
    rw [process, htime]
    simp only [hfind']
  induction m with
  | zero => exact ⟨rfl, rfl⟩
  | succ m ih =>
    rw [List.replicate_succ, List.replicate_succ, Machine.outputs_cons, Machine.final_cons, hstep]
    exact ⟨congrArg _ ih.1, ih.2⟩

/-- **Processing sends the transfers**, one after the other, when no session has waited
too long. -/
theorem process_emits (ctx : Ctx) (nowMs : UInt32)
    (hok : ∀ s ∈ ctx.sessions, s.Ok ctx.ownAddress ctx.maxMessageSize)
    (htime : ctx.sessions.findIdx? (timedOut ctx nowMs) = none) :
    ∃ outs, device.outputs ctx
        (List.replicate (tally Session.framesLeft ctx.sessions) (.process nowMs)) = outs ∧
      outs.map (fun o => o.1.seen) = ctx.sessions.flatMap (Session.emits ctx.ownAddress) ∧
      device.final ctx
        (List.replicate (tally Session.framesLeft ctx.sessions) (.process nowMs)) =
        { ctx with sessions := ctx.sessions.map Session.drained } ∧
      (ctx.sessions.map Session.drained).findIdx? (timedOut ctx nowMs) = none ∧
      (ctx.sessions.map Session.drained).findIdx? Session.streams = none := by
  have hsweep := (processSession_drains ctx).sweeps ctx.sessions hok
  have hlength : (ctx.sessions.flatMap (Session.emits ctx.ownAddress)).length =
      tally Session.framesLeft ctx.sessions := by
    rw [List.length_flatMap, tally]
    exact congrArg List.sum (List.map_congr_left fun s hs => (hok s hs).length_emits)
  obtain ⟨houts, hfinal, hnone⟩ := device_sweep ctx nowMs Output.seen
    (fun slots => slots.findIdx? (timedOut ctx nowMs) = none)
    (fun slots i s hnone hfind hs => by
      have hsession : ({ ctx with sessions := slots } : Ctx).session i = s :=
        Ctx.session_of_getElem? hs
      have hprocess := process_of_streams { ctx with sessions := slots } hnone hfind
      rw [hsession] at hprocess
      have hkept := (@process_of_none { ctx with sessions := slots } nowMs hnone).2
      rw [hprocess] at hkept
      exact ⟨hkept, _, hprocess, rfl⟩) hsweep htime
  rw [hlength] at houts hfinal
  refine ⟨_, rfl, ?_, hfinal, hnone, hsweep.served⟩
  have hseen := congrArg (List.map Prod.fst) houts
  simpa only [List.map_map, Function.comp_def, List.map_id'] using hseen

/-- Whether a session that has waited too long was released or not, it sends nothing. -/
theorem emits_expired (ctx : Ctx) (nowMs : UInt32) (own : UInt8) (s : Session) :
    (if timedOut ctx nowMs s then sessionRelease s else s).emits own = s.emits own ∧
      (if timedOut ctx nowMs s then sessionRelease s else s).framesLeft = s.framesLeft ∧
      (if timedOut ctx nowMs s then sessionRelease s else s).drained =
        if timedOut ctx nowMs s then sessionRelease s else s.drained := by
  by_cases htimed : timedOut ctx nowMs s = true
  · have hstreams : s.streams = false := by
      simpa [Session.streams] using (Session.timed_iff.mp (timedOut_iff.mp htimed).1).2
    have hreleased : (sessionRelease s).streams = false := rfl
    rw [if_pos htimed, if_pos htimed]
    simp [Session.emits, Session.framesLeft, Session.drained, hstreams, hreleased]
  · rw [if_neg htimed, if_neg htimed]
    exact ⟨rfl, rfl, rfl⟩

/-- **A run of calls that only process**: first come the sessions that have waited too long,
then the transfers, each in the order of the table, and then nothing. -/
theorem process_run (h : ctx.Ok) (nowMs : UInt32) (m : ℕ) :
    ∃ outs, device.outputs ctx (List.replicate (drainCalls ctx nowMs + m) (.process nowMs)) =
        outs ++ List.replicate m (({} : Output), Result.ok) ∧
      outs.map (fun o => o.1.seen) =
        (ctx.sessions.filter (timedOut ctx nowMs)).map timeoutOutput ++
          ctx.sessions.flatMap (Session.emits ctx.ownAddress) ∧
      (device.final ctx (List.replicate (drainCalls ctx nowMs + m) (.process nowMs))).sessions =
        ctx.sessions.map fun s =>
          if timedOut ctx nowMs s then sessionRelease s else s.drained := by
  -- the sessions that have waited too long come first
  obtain ⟨houts₁, hfinal₁, hnone₁⟩ := process_expired ctx nowMs
  set ctx₁ : Ctx := { ctx with
    sessions := ctx.sessions.map fun s => if timedOut ctx nowMs s then sessionRelease s else s }
  have hok : ∀ s ∈ ctx₁.sessions, s.Ok ctx.ownAddress ctx.maxMessageSize := by
    intro s' hs'
    obtain ⟨s, hs, rfl⟩ := List.mem_map.mp hs'
    rw [ctx.sessions_eq] at hs
    obtain ⟨i, -, rfl⟩ := List.mem_map.mp hs
    split_ifs
    · exact Session.ok_release
    · exact h.sessions i
  -- what is left of the table sends its transfers, and then it is idle
  obtain ⟨outs₂, houts₂, hseen₂, hfinal₂, hnone₂, hidle⟩ := process_emits ctx₁ nowMs hok hnone₁
  obtain ⟨houts₃, hfinal₃⟩ :=
    process_idle { ctx₁ with sessions := ctx₁.sessions.map Session.drained } hnone₂ hidle m
  have hcount : tally Session.framesLeft ctx₁.sessions = tally Session.framesLeft ctx.sessions := by
    rw [tally, tally, List.map_map]
    exact congrArg List.sum (List.map_congr_left fun s _ => (emits_expired ctx nowMs 0 s).2.1)
  rw [hcount] at houts₂ hfinal₂
  refine ⟨(ctx.sessions.filter (timedOut ctx nowMs)).map (fun s => (timeoutOutput s, .ok)) ++ outs₂,
    ?_, ?_, ?_⟩
  · rw [drainCalls, List.replicate_add, List.replicate_add, Machine.outputs_append,
      Machine.outputs_append, Machine.final_append, houts₁, hfinal₁, houts₂, hfinal₂, houts₃]
  · rw [List.map_append, hseen₂, List.map_map, List.flatMap_map]
    exact congrArg _ (List.flatMap_congr fun s _ => (emits_expired ctx nowMs ctx.ownAddress s).1)
  · rw [drainCalls, List.replicate_add, List.replicate_add, Machine.final_append,
      Machine.final_append, hfinal₁, hfinal₂, hfinal₃]
    simp only
    rw [List.map_map]
    exact List.map_congr_left fun s _ => (emits_expired ctx nowMs 0 s).2.2

/-- Only one transfer puts out frames for its address and its id. -/
theorem filter_emits (h : ctx.Ok) (hdistinct : ctx.TxDistinct)
    (hstate : (ctx.session i).state = .txWithoutAck) :
    (ctx.sessions.flatMap (Session.emits ctx.ownAddress)).filter
        (Output.isFor (ctx.session i).txKey) = emission ctx.ownAddress (ctx.session i) := by
  have hi : i < ctx.sessions.length := Ctx.lt_of_live (by simp [hstate])
  have hemission : Session.emits ctx.ownAddress ctx.sessions[i] =
      emission ctx.ownAddress (ctx.session i) := by
    rw [Ctx.getElem_sessions, Session.emits, Session.streams, hstate]
    rfl
  rw [← hemission]
  refine filter_flatMap_eq hi (fun output houtput => ?_) fun j hj hne output houtput => ?_
  · rw [Ctx.getElem_sessions] at houtput
    exact (((h.sessions i).isFor_emits houtput _).2).mpr rfl
  · -- a second session with this address and this id would be a second transfer
    rw [Ctx.getElem_sessions] at houtput
    rw [← Bool.not_eq_true, ((h.sessions j).isFor_emits houtput _).2]
    have hstate' : (ctx.session j).state = .txWithoutAck := by
      by_contra hother
      have hstreams : (ctx.session j).streams = false := by simpa [Session.streams] using hother
      rw [Session.emits, hstreams] at houtput
      exact absurd houtput List.not_mem_nil
    intro hkey
    exact hne (hdistinct j i (by simp [sessionIsTx, hstate']) (by simp [sessionIsTx, hstate]) hkey)

end Process

/-- **Processing drains the transfers without acknowledgement.**  From every reachable
context, processing again and again at one time puts something out as often as there are
sessions that have waited too long and frames to be sent, and then never again.  What comes
for a transfer is its remaining data, in pieces of at most eight bytes, and an END, with
which it is reported as finished; sessions that have not waited too long, and send nothing,
are left alone. -/
theorem process_drains {ctx : Ctx} (h : ctx.Reachable) (nowMs : UInt32) (m : ℕ) :
    ∃ outs, device.outputs ctx (List.replicate (drainCalls ctx nowMs + m) (.process nowMs)) =
        outs ++ List.replicate m (({} : Output), Result.ok) ∧
      outs.length = drainCalls ctx nowMs ∧
      (∀ o ∈ outs, o.1.frame ≠ none ∨ o.1.event ≠ .none) ∧
      (∀ i, (ctx.session i).state = .txWithoutAck → ∃ chunks : List (List UInt8),
        chunks.flatten = (ctx.session i).remaining ∧
        (∀ bytes ∈ chunks, 1 ≤ bytes.length ∧ bytes.length ≤ 8) ∧
        (outs.map fun o => o.1.seen).filter (Output.isFor (ctx.session i).txKey) =
          chunks.map (dataOutput ctx.ownAddress (ctx.session i)) ++
            [endOutput ctx.ownAddress (ctx.session i)]) ∧
      ∀ i, timedOut ctx nowMs (ctx.session i) = false → (ctx.session i).state ≠ .txWithoutAck →
        (device.final ctx (List.replicate (drainCalls ctx nowMs + m) (.process nowMs))).session i =
          ctx.session i := by
  obtain ⟨outs, houts, hseen, hsessions⟩ := process_run h.ok nowMs m
  have hlength := congrArg List.length houts
  rw [Machine.length_outputs, List.length_replicate, List.length_append, List.length_replicate,
    Nat.add_right_cancel_iff] at hlength
  refine ⟨outs, houts, hlength.symm, fun o ho => ?_, fun i hstate => ?_, fun i htimed hstate => ?_⟩
  · -- a timeout has an event, and everything that is sent is a frame
    have hmem : o.1.seen ∈ outs.map fun o => o.1.seen := List.mem_map_of_mem ho
    rw [hseen] at hmem
    rcases List.mem_append.mp hmem with hexpired | hemitted
    · obtain ⟨s, -, hs⟩ := List.mem_map.mp hexpired
      right
      show o.1.seen.event ≠ .none
      rw [← hs]
      show timeoutEvent s ≠ .none
      unfold timeoutEvent
      split_ifs <;> simp
    · obtain ⟨s, hs, hemits⟩ := List.mem_flatMap.mp hemitted
      rw [ctx.sessions_eq] at hs
      obtain ⟨i, -, rfl⟩ := List.mem_map.mp hs
      exact .inl ((h.ok.sessions i).isFor_emits hemits (0, 0)).1
  · refine ⟨pieces (ctx.session i).remaining 8, flatten_pieces _ (by decide),
      fun bytes hbytes => length_of_mem_pieces (by decide) hbytes, ?_⟩
    have hnone : ((ctx.sessions.filter (timedOut ctx nowMs)).map timeoutOutput).filter
        (Output.isFor (ctx.session i).txKey) = [] := by
      rw [List.filter_eq_nil_iff]
      intro output houtput
      obtain ⟨s, -, rfl⟩ := List.mem_map.mp houtput
      simp [Output.isFor, timeoutOutput, setEvent]
    rw [hseen, List.filter_append, hnone, List.nil_append, filter_emits h.ok h.txDistinct hstate]
    rfl
  · rw [Ctx.session, hsessions]
    refine (List.getD_map ctx.sessions {} fun s =>
      if timedOut ctx nowMs s then sessionRelease s else s.drained).trans ?_
    have hstreams : (ctx.session i).streams = false := by simpa [Session.streams] using hstate
    rw [← Ctx.session]
    simp [htimed, Session.drained, hstreams]

/-- A device that has started a transfer of three bytes. -/
def streamingDevice : Ctx :=
  device.final (smallDevice 1 false)
    [.startSend (smallMsg .withoutAck 1 2) unackedMsg_readable 0 .ample]

/-- One frame of data and the END, and then nothing. -/
theorem process_drains_smallDevice :
    ∃ outs, device.outputs streamingDevice (List.replicate (2 + 5) (.process 1)) =
        outs ++ List.replicate 5 (({} : Output), Result.ok) ∧
      outs.length = 2 := by
  have hcount : drainCalls streamingDevice 1 = 2 := by decide
  have hreachable : streamingDevice.Reachable :=
    ⟨_, smallDevice_initial (show sourceAddressValid 1 = true by decide) false, _, rfl⟩
  obtain ⟨outs, houts, hlength, -⟩ := process_drains hreachable 1 5
  rw [hcount] at houts hlength
  exact ⟨outs, houts, hlength⟩

end Imp
end UniCan
