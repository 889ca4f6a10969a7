import UniCan.Foundation.Sweep
import UniCan.Imp.Lookup

/-!
# Timeouts

A device is told the time in milliseconds, in 32 bits, so its clock goes round once in
seven weeks; a session keeps the time of the last call that took it further, and has
waited too long if the difference to the time it is processed at is above the limit.
As long as no session waits a whole round of the clock, that is right: what the
difference is of are true times.

## Main definitions

* `Watch`, `clock` — a device that is called at true times, and for each of its sessions
  the true time of the last call that took it further.
* `advances` — a call takes a session further.
* `Watch.Expired` — a session has waited too long, in true time.

## Main results

* `device_step_refreshes` — **a session keeps the time of the calls that take it
  further**, and of no others.
* `timeouts_exact` — **timeouts are exact**, and processing at one time goes through the
  sessions that have waited too long, one by one.
-/

namespace UniCan
namespace Imp

/-! ### Calls at true times -/

/-- A call at a true time, in milliseconds. -/
def Call.atTime (t : ℕ) : Call → Call
  | .startSend msg readable _ env => .startSend msg readable (UInt32.ofNat t) env
  | .addFrame frame _ env => .addFrame frame (UInt32.ofNat t) env
  | .process _ => .process (UInt32.ofNat t)

/-- The session waits for something to come in time. -/
def Session.timed (s : Session) : Bool :=
  match s.state with
  | .rx | .txWaitStartAck | .txWaitDataAck | .txWaitEndAck => true
  | .free | .txWithoutAck => false

/-- A command takes a session further: what it sends is acknowledged or sent again, what
it receives is appended or starts again. -/
def Session.goesOn (s : Session) (command : Cmd) : Bool :=
  match s.state, command with
  | .txWaitStartAck, .ack | .txWaitStartAck, .nack => true
  | .txWaitDataAck, .ack | .txWaitDataAck, .nack => true
  | .rx, .data | .rx, .dataWa | .rx, .start | .rx, .startWa => true
  | _, _ => false

/-- A call takes session `i` further: it creates it, or it is a frame that takes it
further; and the session is not given up. -/
def advances (ctx : Ctx) (call : Call) (i : ℕ) : Bool :=
  ((device.step ctx call).1.session i).state != .free &&
    ((ctx.session i).state == .free ||
      match call with
      | .addFrame frame _ _ => (heading ctx.ownAddress frame).any fun h =>
          findSession ctx h.addressFrom h.addressTo h.sessionId == some i &&
            (ctx.session i).goesOn h.command
      | _ => false)

/-- A device, and for each of its sessions the true time of the last call that took it
further. -/
structure Watch where
  ctx : Ctx
  since : ℕ → ℕ := fun _ => 0

/-- A device that is called at true times. -/
def clock : Machine Watch (ℕ × Call) (Output × Result) where
  step w p :=
    let call := p.2.atTime p.1
    let r := device.step w.ctx call
    ({ ctx := r.1, since := fun i => if advances w.ctx call i then p.1 else w.since i }, r.2)

/-- Session `i` has waited too long at a true time. -/
def Watch.Expired (w : Watch) (t i : ℕ) : Prop :=
  (w.ctx.session i).timed = true ∧ w.ctx.sessionTimeoutMs.toNat < t - w.since i

instance (w : Watch) (t i : ℕ) : Decidable (w.Expired t i) :=
  inferInstanceAs (Decidable (_ ∧ _))

/-! ### What refreshes a session -/

section Refresh

variable {ctx : Ctx} {s s' : Session} {nowMs : UInt32} {bytes : List UInt8} {command : Cmd}
  {reply : Option (Cmd × List UInt8)} {kind : Event} {received : Option Msg} {i : ℕ}
  {addressFrom addressTo sessionId : UInt8}

theorem Session.timed_iff : s.timed = true ↔ s.state ≠ .free ∧ s.state ≠ .txWithoutAck := by
  unfold Session.timed
  cases s.state <;> simp

theorem TxCase.refreshes (h : TxCase s nowMs command s' reply kind) (htimed : s'.timed = true) :
    s.goesOn command = true ∧ s'.lastActivityMs = nowMs := by
  have hacked : ∀ offset, s.Acked offset → s.goesOn .ack = true := by
    rintro offset (hstate | hstate) <;> simp [Session.goesOn, hstate]
  cases h with
  | aborted | refused | finished => exact absurd htimed (by simp [Session.timed, sessionRelease])
  | ignored hstate => exact absurd htimed (by simp [Session.timed, hstate])
  | resentStart hstate | resentData hstate => exact ⟨by simp [Session.goesOn, hstate], rfl⟩
  | data h => exact ⟨hacked _ h, rfl⟩
  | end_ h => exact ⟨hacked _ h, rfl⟩

theorem RxCase.refreshes (h : RxCase ctx s bytes nowMs command s' reply kind received)
    (hrx : s.state = .rx) (htimed : s'.timed = true) :
    s.goesOn command = true ∧ s'.lastActivityMs = nowMs := by
  cases h with
  | aborted | refused | dropped | rejected | uncreated | finished =>
    exact absurd htimed (by simp [Session.timed, sessionRelease])
  | started h | appended h => rcases h with rfl | rfl <;> exact ⟨by simp [Session.goesOn, hrx], rfl⟩

/-- The session that is found is the one a frame is for. -/
theorem findSession_eq_of_frameSession {k : ℕ}
    (hs : frameSession ctx addressFrom addressTo sessionId command nowMs = some (i, s))
    (hk : findSession ctx addressFrom addressTo sessionId = some k) : k = i := by
  rw [frameSession, hk] at hs
  exact (Prod.mk.inj (Option.some.inj hs)).1

/-- A session in use that a frame is for is the one that is found. -/
theorem findSession_of_frameSession (hlive : (ctx.session i).state ≠ .free)
    (hs : frameSession ctx addressFrom addressTo sessionId command nowMs = some (i, s)) :
    findSession ctx addressFrom addressTo sessionId = some i := by
  cases hfind : findSession ctx addressFrom addressTo sessionId with
  | some k => rw [findSession_eq_of_frameSession hs hfind]
  | none =>
    rw [frameSession, hfind] at hs
    simp only at hs
    split_ifs at hs
    obtain ⟨j, hfree, heq⟩ := Option.map_eq_some_iff.mp hs
    obtain ⟨rfl, -⟩ := Prod.mk.inj heq
    exact absurd (findFreeSession_eq_some hfree).2.1 hlive

/-- No session is taken further that the call leaves alone, unless a frame is for it. -/
theorem advances_eq_false {call : Call}
    (hsame : (device.step ctx call).1.session i = ctx.session i)
    (hframe : ∀ frame nowMs env, call = .addFrame frame nowMs env → (ctx.session i).state ≠ .free →
      ∀ h ∈ heading ctx.ownAddress frame,
        findSession ctx h.addressFrom h.addressTo h.sessionId ≠ some i) :
    advances ctx call i = false := by
  unfold advances
  rw [hsame]
  by_cases hfree : (ctx.session i).state = .free
  · simp [hfree]
  have hfree' : ((ctx.session i).state == .free) = false := by simpa using hfree
  rw [hfree', Bool.false_or, Bool.and_eq_false_imp]
  intro _
  cases call with
  | startSend | process => rfl
  | addFrame frame nowMs env =>
    simp only
    rw [Option.any_eq_false]
    intro h hh
    simp [hframe frame nowMs env rfl hfree h hh]

/-- Session `i`, after a call at a true time: it keeps that time if the call takes it
further, and it is left alone if not. -/
def Ctx.Refreshes (ctx : Ctx) (call : Call) (t i : ℕ) : Prop :=
  advances ctx call i = true ∧
      ((device.step ctx call).1.session i).lastActivityMs = UInt32.ofNat t ∨
    advances ctx call i = false ∧ (device.step ctx call).1.session i = ctx.session i

/-- A session that is in use only after the call. -/
theorem Ctx.Refreshes.created {call : Call} {t : ℕ} (hfree : (ctx.session i).state = .free)
    (hlive : ((device.step ctx call).1.session i).state ≠ .free)
    (hnow : ((device.step ctx call).1.session i).lastActivityMs = UInt32.ofNat t) :
    ctx.Refreshes call t i :=
  .inl ⟨by simp [advances, hlive, hfree], hnow⟩

theorem startSend_refreshes (hctx : ctx.Ok) {msg : Msg} (readable : msg.Readable) (env : Env)
    (t i : ℕ) : ctx.Refreshes (.startSend msg readable (UInt32.ofNat t) env) t i := by
  obtain ⟨r, hr, -, hcase⟩ := startSend_spec hctx readable (UInt32.ofNat t) env
  have hstep : device.step ctx (.startSend msg readable (UInt32.ofNat t) env) = r := hr
  have hsame : r.1.session i = ctx.session i →
      ctx.Refreshes (.startSend msg readable (UInt32.ofNat t) env) t i := fun heq => by
    have heq' := hstep ▸ heq
    exact .inr ⟨advances_eq_false heq' fun _ _ _ h => absurd h (by simp), heq'⟩
  rcases hcase with ⟨hctx', -⟩ | ⟨-, j, u, s, hset, hs, hnow⟩
  · exact hsame (by rw [hctx'])
  have hsession : r.1.session i = if i = j then s else ctx.session i := by
    rw [hset, Ctx.session_setSession hs.lt]
  split_ifs at hsession with hij
  · have hlive : s.state ≠ .free := by
      rw [hs.state]
      split_ifs <;> simp
    exact .created (hij ▸ hs.free) (by rw [hstep, hsession]; exact hlive)
      (by rw [hstep, hsession]; exact hnow)
  · exact hsame hsession

theorem process_refreshes (hctx : ctx.Ok) (t : ℕ)
    (htimed : ((process ctx (UInt32.ofNat t)).1.session i).timed = true) :
    ctx.Refreshes (.process (UInt32.ofNat t)) t i := by
  obtain ⟨r, hr, -, hcase⟩ := process_spec hctx (UInt32.ofNat t)
  have hsame : r.1.session i = ctx.session i → ctx.Refreshes (.process (UInt32.ofNat t)) t i :=
    fun heq => by
      have hstep : device.step ctx (.process (UInt32.ofNat t)) = r := hr
      have heq' := hstep ▸ heq
      exact .inr ⟨advances_eq_false heq' fun _ _ _ h => absurd h (by simp), heq'⟩
  rw [hr] at htimed
  rcases hcase with ⟨hctx', -⟩ | ⟨j, s', reply, kind, hj, hcase, -, hset, -⟩
  · exact hsame (by rw [hctx'])
  have hsession : r.1.session i = if i = j then s' else ctx.session i := by
    rw [hset, Ctx.session_setSession hj]
  split_ifs at hsession with hij
  · -- the session that was processed does not wait any more
    rw [hsession] at htimed
    rcases hcase with ⟨-, rfl, -⟩ | ⟨hstate, frame, -, hemit⟩
    · exact absurd htimed (by simp [Session.timed, sessionRelease])
    · cases hemit <;> exact absurd htimed (by simp [Session.timed, sessionRelease, hstate])
  · exact hsame hsession

theorem addFrame_refreshes (hctx : ctx.Ok) (frame : CanMessage) (env : Env) (t : ℕ)
    (htimed : ((addFrame ctx env frame (UInt32.ofNat t)).1.session i).timed = true) :
    ctx.Refreshes (.addFrame frame (UInt32.ofNat t) env) t i := by
  obtain ⟨r, hr, hcase⟩ := addFrame_spec hctx frame (UInt32.ofNat t) env
  have hstep : device.step ctx (.addFrame frame (UInt32.ofNat t) env) = r := hr
  have hsame : r.1.session i = ctx.session i →
      (∀ h ∈ heading ctx.ownAddress frame,
        findSession ctx h.addressFrom h.addressTo h.sessionId ≠ some i) →
      ctx.Refreshes (.addFrame frame (UInt32.ofNat t) env) t i := fun heq hfind => by
    have heq' := hstep ▸ heq
    exact .inr ⟨advances_eq_false heq' (by rintro _ _ _ ⟨⟩ _; exact hfind), heq'⟩
  rw [hr] at htimed
  have hlive := (Session.timed_iff.mp htimed).1
  rcases hcase with ⟨hnone, hctx', -⟩ | ⟨hd, hheading, hcase⟩
  · exact hsame (by rw [hctx']) fun h hh => absurd (hnone.symm.trans hh) (by simp)
  have hother : (∀ k, findSession ctx hd.addressFrom hd.addressTo hd.sessionId = some k → k ≠ i) →
      ∀ h ∈ heading ctx.ownAddress frame,
        findSession ctx h.addressFrom h.addressTo h.sessionId ≠ some i := by
    intro hne h hh hfind
    obtain rfl := Option.some.inj (hheading.symm.trans hh)
    exact hne i hfind rfl
  rcases hcase with ⟨hnone, hctx', -⟩ | ⟨j, s, s', reply, kind, received, hhandles, -, hset, -⟩
  · refine hsame (by rw [hctx']) (hother fun k hk => ?_)
    rw [frameSession, hk] at hnone
    exact absurd hnone (by simp)
  have hsession := frameSession_eq_some hhandles.found
  have hnew : r.1.session i = if i = j then s' else ctx.session i := by
    rw [hset, Ctx.session_setSession hsession.lt]
  split_ifs at hnew with hij
  · -- the session that the frame is for
    subst hij
    rw [hnew] at htimed hlive
    have hmoves : s.goesOn hd.command = true ∧ s'.lastActivityMs = UInt32.ofNat t := by
      rcases hhandles.moves with ⟨-, -, hcase⟩ | ⟨hrx, hcase⟩
      · exact hcase.refreshes htimed
      · exact hcase.refreshes hrx htimed
    -- it was in use, or the START has just opened it
    rcases hsession.origin with rfl | ⟨hfree, -⟩
    · have hfind := findSession_of_frameSession hsession.live hhandles.found
      refine .inl ⟨?_, by rw [hstep, hnew]; exact hmoves.2⟩
      simp [advances, hstep, hnew, hlive, hheading, hfind, hmoves.1]
    · exact .created hfree (by rw [hstep, hnew]; exact hlive) (by rw [hstep, hnew]; exact hmoves.2)
  · exact hsame hnew (hother fun k hk heq =>
      hij (heq.symm.trans (findSession_eq_of_frameSession hhandles.found hk)))

/-- **A session keeps the time of the calls that take it further**, and is left alone by
the others, if it still waits after them. -/
theorem device_step_refreshes (hctx : ctx.Ok) (call : Call) (t : ℕ)
    (htimed : ((device.step ctx (call.atTime t)).1.session i).timed = true) :
    ctx.Refreshes (call.atTime t) t i := by
  cases call with
  | startSend msg readable nowMs env => exact startSend_refreshes hctx readable env t i
  | addFrame frame nowMs env => exact addFrame_refreshes hctx frame env t htimed
  | process nowMs => exact process_refreshes hctx t htimed

end Refresh

/-! ### True time -/

/-- What the sessions keep is the true time of the last call that took them further. -/
structure Watch.Ok (w : Watch) (t : ℕ) : Prop where
  ctx : w.ctx.Ok
  since : ∀ i, (w.ctx.session i).timed = true →
    w.since i ≤ t ∧ (w.ctx.session i).lastActivityMs = UInt32.ofNat (w.since i)

section Watch

variable {w : Watch} {t t' i : ℕ}

theorem Watch.Ok.step (h : w.Ok t) (hle : t ≤ t') (call : Call) :
    (clock.step w (t', call)).1.Ok t' where
  ctx := (device_step_moves h.ctx (call.atTime t')).1.ok
  since i htimed := by
    have htimed' : ((device.step w.ctx (call.atTime t')).1.session i).timed = true := htimed
    show (if advances w.ctx (call.atTime t') i = true then t' else w.since i) ≤ t' ∧
      ((device.step w.ctx (call.atTime t')).1.session i).lastActivityMs =
        UInt32.ofNat (if advances w.ctx (call.atTime t') i = true then t' else w.since i)
    rcases device_step_refreshes h.ctx call t' htimed' with ⟨hadv, hnow⟩ | ⟨hadv, hsame⟩
    · rw [if_pos hadv]
      exact ⟨Nat.le_refl _, hnow⟩
    · rw [hsame] at htimed' ⊢
      obtain ⟨hsince, hlast⟩ := h.since i htimed'
      rw [if_neg (by simp [hadv])]
      exact ⟨hsince.trans hle, hlast⟩

/-- The true times of a run do not go back, so what the sessions keep stays right. -/
theorem Watch.Ok.final (h : w.Ok t) (timeline : List (ℕ × Call))
    (htimes : (t :: (timeline.map Prod.fst ++ [t'])).Pairwise (· ≤ ·)) :
    (clock.final w timeline).Ok t' := by
  induction timeline generalizing w t with
  | nil =>
    have hle : t ≤ t' := (List.pairwise_cons.mp htimes).1 t' (by simp)
    exact ⟨h.ctx, fun i htimed => ⟨(h.since i htimed).1.trans hle, (h.since i htimed).2⟩⟩
  | cons p timeline ih =>
    obtain ⟨hle, hrest⟩ := List.pairwise_cons.mp htimes
    exact ih (h.step (hle p.1 (by simp)) p.2) hrest

/-- **The difference of two wrapped times** is the true one, if that is less than a round
of the clock. -/
theorem toNat_elapsed {a t : ℕ} (hle : a ≤ t) (hlt : t - a < 2 ^ 32) :
    (UInt32.ofNat t - UInt32.ofNat a).toNat = t - a := by
  rw [UInt32.toNat_sub, UInt32.toNat_ofNat', UInt32.toNat_ofNat']
  omega

theorem timedOut_iff {ctx : Ctx} {nowMs : UInt32} {s : Session} : timedOut ctx nowMs s = true ↔
    s.timed = true ∧ ctx.sessionTimeoutMs.toNat < (nowMs - s.lastActivityMs).toNat := by
  unfold timedOut Session.timed
  cases s.state <;> simp [UInt32.lt_iff_toNat_lt]

/-- **What the code takes for too long is too long.** -/
theorem Watch.Ok.timedOut_iff (h : w.Ok t)
    (hidle : ∀ i, (w.ctx.session i).timed = true → t - w.since i < 2 ^ 32) :
    timedOut w.ctx (UInt32.ofNat t) (w.ctx.session i) = true ↔ w.Expired t i := by
  rw [UniCan.Imp.timedOut_iff, Watch.Expired]
  refine and_congr_right fun htimed => ?_
  obtain ⟨hle, hlast⟩ := h.since i htimed
  rw [hlast, toNat_elapsed hle (hidle i htimed)]

end Watch

/-! ### Processing at one time -/

/-- The event of a session that has waited too long. -/
def timeoutEvent (s : Session) : Event := if s.state = .rx then .rxTimeout else .txTimeout

/-- An event of a session that has waited too long. -/
def Event.isTimeout : Event → Bool
  | .rxTimeout | .txTimeout => true
  | _ => false

/-- What is said of a session that has waited too long. -/
def timeoutOutput (s : Session) : Output := setEvent {} (timeoutEvent s) s

/-- What becomes of a session that has waited too long. -/
def expire (s : Session) : Session × Output := (sessionRelease s, timeoutOutput s)

section Process

variable {ctx : Ctx} {nowMs : UInt32} {i : ℕ}

theorem isTimeout_timeoutEvent (s : Session) : (timeoutEvent s).isTimeout = true := by
  unfold timeoutEvent
  split_ifs <;> rfl

/-- A session has waited too long. -/
theorem process_of_some (ctx : Ctx) (h : ctx.sessions.findIdx? (timedOut ctx nowMs) = some i) :
    process ctx nowMs =
      (ctx.setSession i (sessionRelease (ctx.session i)), timeoutOutput (ctx.session i), .ok) := by
  rw [process, h]
  rfl

/-- No session has waited too long, and it stays so. -/
theorem process_of_none (h : ctx.sessions.findIdx? (timedOut ctx nowMs) = none) :
    (process ctx nowMs).2.1.event.isTimeout = false ∧
      (process ctx nowMs).1.sessions.findIdx? (timedOut (process ctx nowMs).1 nowMs) = none := by
  unfold process
  rw [h]
  simp only
  cases hfind : ctx.sessions.findIdx? fun session => session.state == .txWithoutAck with
  | none => exact ⟨rfl, h⟩
  | some i =>
    obtain ⟨hi, hstate⟩ := Ctx.findIdx?_eq_some hfind
    have hstate' : (ctx.session i).state = .txWithoutAck := by simpa using hstate
    -- a transfer without acknowledgement does not time out, nor does a slot it leaves
    have hprocess : (processSession ctx (ctx.session i)).2.event.isTimeout = false ∧
        timedOut ctx nowMs (processSession ctx (ctx.session i)).1 = false := by
      unfold processSession
      split_ifs
      · exact ⟨rfl, by simp [timedOut, hstate']⟩
      · exact ⟨rfl, by simp [timedOut, sessionRelease]⟩
    refine ⟨hprocess.1, ?_⟩
    show (ctx.sessions.set i _).findIdx? (timedOut ctx nowMs) = none
    rw [List.findIdx?_eq_none_iff] at h ⊢
    intro s hs
    rcases List.mem_or_eq_of_mem_set hs with hold | rfl
    · exact h s hold
    · exact hprocess.2

/-- Processing again and again serves the sessions one by one, if that is what it does
once; `J` is what it keeps of the table, and `seen` what is looked at of an output. -/
theorem device_sweep (ctx : Ctx) (nowMs : UInt32) {ω : Type} (seen : Output → ω)
    {needs : Session → Bool} {serve : Session → Session × ω} (J : List Session → Prop)
    (hserve : ∀ slots i s, J slots → slots.findIdx? needs = some i → slots[i]? = some s →
      J (slots.set i (serve s).1) ∧ ∃ output,
        process { ctx with sessions := slots } nowMs =
          ({ ctx with sessions := slots.set i (serve s).1 }, output, .ok) ∧
        seen output = (serve s).2)
    {slots slots' : List Session} {outs : List ω} (h : Sweeps needs serve slots outs slots')
    (hJ : J slots) :
    (device.outputs { ctx with sessions := slots }
        (List.replicate outs.length (.process nowMs))).map (fun o => (seen o.1, o.2)) =
        outs.map (·, .ok) ∧
      device.final { ctx with sessions := slots } (List.replicate outs.length (.process nowMs)) =
        { ctx with sessions := slots' } ∧ J slots' := by
  induction h with
  | done h => exact ⟨rfl, rfl, hJ⟩
  | @next slots slots' outs i s hfind hs hrest ih =>
    obtain ⟨hJ', output, hprocess, hseen⟩ := hserve slots i s hJ hfind hs
    have hstep : device.step { ctx with sessions := slots } (.process nowMs) =
        ({ ctx with sessions := slots.set i (serve s).1 }, output, .ok) := hprocess
    obtain ⟨houts, hfinal, hJ''⟩ := ih hJ'
    rw [List.length_cons, List.replicate_succ, Machine.outputs_cons, Machine.final_cons, hstep,
      List.map_cons, List.map_cons, houts, hfinal, hseen]
    exact ⟨rfl, rfl, hJ''⟩

theorem timedOut_expire (ctx : Ctx) (nowMs : UInt32) (s : Session) :
    timedOut ctx nowMs (expire s).1 = false := rfl

/-- **Processing goes through the sessions that have waited too long**, one by one and in
their order, and then there are none. -/
theorem process_expired (ctx : Ctx) (nowMs : UInt32) :
    device.outputs ctx (List.replicate (ctx.sessions.countP (timedOut ctx nowMs))
        (.process nowMs)) =
        (ctx.sessions.filter (timedOut ctx nowMs)).map (fun s => (timeoutOutput s, .ok)) ∧
      device.final ctx (List.replicate (ctx.sessions.countP (timedOut ctx nowMs))
        (.process nowMs)) = { ctx with
          sessions := ctx.sessions.map fun s =>
            if timedOut ctx nowMs s then sessionRelease s else s } ∧
      (ctx.sessions.map fun s => if timedOut ctx nowMs s then sessionRelease s else s).findIdx?
        (timedOut ctx nowMs) = none := by
  have hsweep := sweeps_once (timedOut_expire ctx nowMs) ctx.sessions
  obtain ⟨houts, hfinal, -⟩ := device_sweep ctx nowMs id (fun _ => True)
    (fun slots i s _ hfind hs => by
      refine ⟨trivial, timeoutOutput s, ?_, rfl⟩
      have hsession : ({ ctx with sessions := slots } : Ctx).session i = s :=
        Ctx.session_of_getElem? hs
      rw [process_of_some { ctx with sessions := slots } hfind, hsession]
      rfl) hsweep trivial
  rw [List.length_map, ← List.countP_eq_length_filter] at houts hfinal
  refine ⟨?_, hfinal, hsweep.served⟩
  simp only [id_eq, Prod.mk.eta, List.map_id'] at houts
  rw [houts, List.map_map]
  rfl

end Process

/-- The sessions that have waited too long at a true time. -/
def Watch.expired (w : Watch) (t : ℕ) : List ℕ :=
  (List.range w.ctx.sessions.length).filter fun i => w.Expired t i

section Exact

variable {w : Watch} {t i : ℕ}

theorem Watch.Expired.lt (h : w.Expired t i) : i < w.ctx.sessions.length :=
  Ctx.lt_of_live (Session.timed_iff.mp h.1).1

theorem Ctx.sessions_eq (ctx : Ctx) :
    ctx.sessions = (List.range ctx.sessions.length).map ctx.session := by
  refine List.ext_getElem (by simp) fun i hi _ => ?_
  rw [List.getElem_map, List.getElem_range, ctx.getElem_sessions hi]

/-- The sessions that the code takes for those that have waited too long. -/
theorem Watch.Ok.filter_timedOut (h : w.Ok t)
    (hidle : ∀ i, (w.ctx.session i).timed = true → t - w.since i < 2 ^ 32) :
    w.ctx.sessions.filter (timedOut w.ctx (UInt32.ofNat t)) =
      (w.expired t).map w.ctx.session := by
  rw [w.ctx.sessions_eq, List.filter_map, Watch.expired]
  refine congrArg _ (List.filter_congr fun i _ => ?_)
  rw [Function.comp_apply, Bool.eq_iff_iff, h.timedOut_iff hidle, decide_eq_true_eq]

/-- The first session that has waited too long is the one that the code finds. -/
theorem Watch.Ok.findIdx?_timedOut (h : w.Ok t)
    (hidle : ∀ i, (w.ctx.session i).timed = true → t - w.since i < 2 ^ 32)
    (hi : w.Expired t i) (hfirst : ∀ j < i, ¬ w.Expired t j) :
    w.ctx.sessions.findIdx? (timedOut w.ctx (UInt32.ofNat t)) = some i := by
  rw [List.findIdx?_eq_some_iff_getElem]
  refine ⟨hi.lt, ?_, fun j hj => ?_⟩
  · rw [Ctx.getElem_sessions, h.timedOut_iff hidle]
    exact hi
  · rw [Ctx.getElem_sessions, h.timedOut_iff hidle]
    exact hfirst j hj

/-- Processing again and again at one time. -/
theorem Watch.Ok.process_expired (h : w.Ok t)
    (hidle : ∀ i, (w.ctx.session i).timed = true → t - w.since i < 2 ^ 32) :
    device.outputs w.ctx (List.replicate (w.expired t).length (.process (UInt32.ofNat t))) =
        (w.expired t).map (fun i => (timeoutOutput (w.ctx.session i), .ok)) ∧
      ∃ ctx' : Ctx, device.final w.ctx
          (List.replicate (w.expired t).length (.process (UInt32.ofNat t))) = ctx' ∧
        (∀ i, ctx'.session i =
          if w.Expired t i then sessionRelease (w.ctx.session i) else w.ctx.session i) ∧
        ctx'.sessions.findIdx? (timedOut ctx' (UInt32.ofNat t)) = none := by
  obtain ⟨houts, hfinal, hnone⟩ := UniCan.Imp.process_expired w.ctx (UInt32.ofNat t)
  rw [List.countP_eq_length_filter, h.filter_timedOut hidle, List.length_map] at houts hfinal
  refine ⟨by rw [houts, List.map_map]; rfl, _, hfinal, fun i => ?_, hnone⟩
  refine (List.getD_map w.ctx.sessions {} fun s =>
    if timedOut w.ctx (UInt32.ofNat t) s then sessionRelease s else s).trans ?_
  rw [← Ctx.session]
  simp only [h.timedOut_iff hidle]

/-- Processing once more at the same time, and again, reports no timeout. -/
theorem process_after_none {ctx : Ctx} {nowMs : UInt32} (n : ℕ)
    (h : ctx.sessions.findIdx? (timedOut ctx nowMs) = none) :
    (process (device.final ctx (List.replicate n (.process nowMs))) nowMs).2.1.event.isTimeout =
      false := by
  induction n generalizing ctx with
  | zero => exact (process_of_none h).1
  | succ n ih => exact ih (process_of_none h).2

end Exact

/-- **Timeouts are exact across the wrap of the clock.**  A device is called at true times
that do not go back, and gets them modulo 2³².  Without acknowledgement no transfer times
out.  If no session has been idle for a whole round of the clock, processing reports a
timeout if and only if some session has waited too long since the last call that took it
further; it then releases the first of these, with its event, and nothing else; and if it
is repeated at the same time, it goes through all of them and no others, and reports no
timeout after that. -/
theorem timeouts_exact {ctx₀ : Ctx} (h : ctx₀.Initial) (timeline : List (ℕ × Call)) (t : ℕ)
    (htimes : (timeline.map Prod.fst ++ [t]).Pairwise (· ≤ ·)) (w : Watch)
    (hw : w = clock.final { ctx := ctx₀ } timeline) :
    (∀ i, (w.ctx.session i).state = .txWithoutAck →
      (process w.ctx (UInt32.ofNat t)).2.1.event.isTimeout = true →
        (process w.ctx (UInt32.ofNat t)).1.session i = w.ctx.session i) ∧
    ((∀ i, (w.ctx.session i).timed = true → t - w.since i < 2 ^ 32) →
      ((process w.ctx (UInt32.ofNat t)).2.1.event.isTimeout = true ↔ ∃ i, w.Expired t i) ∧
      (∀ i, w.Expired t i → (∀ j < i, ¬ w.Expired t j) → process w.ctx (UInt32.ofNat t) =
        (w.ctx.setSession i (sessionRelease (w.ctx.session i)), timeoutOutput (w.ctx.session i),
          .ok)) ∧
      device.outputs w.ctx (List.replicate (w.expired t).length (.process (UInt32.ofNat t))) =
        (w.expired t).map (fun i => (timeoutOutput (w.ctx.session i), .ok)) ∧
      (∀ i, (device.final w.ctx
          (List.replicate (w.expired t).length (.process (UInt32.ofNat t)))).session i =
        if w.Expired t i then sessionRelease (w.ctx.session i) else w.ctx.session i) ∧
      ∀ n, (process (device.final w.ctx (List.replicate ((w.expired t).length + n)
        (.process (UInt32.ofNat t)))) (UInt32.ofNat t)).2.1.event.isTimeout = false) := by
  have hstart : Watch.Ok { ctx := ctx₀ } 0 :=
    ⟨h.ok, fun i htimed => absurd (h.free i) (Session.timed_iff.mp htimed).1⟩
  have hok : w.Ok t := by
    rw [hw]
    exact hstart.final timeline (List.pairwise_cons.mpr ⟨fun _ _ => Nat.zero_le _, htimes⟩)
  refine ⟨fun i hstate htimeout => ?_, fun hidle => ?_⟩
  · -- a timeout releases the session it finds, which is one that can time out
    cases hfind : w.ctx.sessions.findIdx? (timedOut w.ctx (UInt32.ofNat t)) with
    | none => exact absurd (htimeout.symm.trans (process_of_none hfind).1) (by simp)
    | some j =>
      obtain ⟨hj, htimed⟩ := Ctx.findIdx?_eq_some hfind
      have hne : i ≠ j := by
        rintro rfl
        exact absurd htimed (by simp [timedOut, hstate])
      rw [process_of_some w.ctx hfind, Ctx.session_setSession hj, if_neg hne]
  obtain ⟨houts, ctx', hfinal, hsessions, hnone⟩ := hok.process_expired hidle
  refine ⟨⟨fun htimeout => ?_, ?_⟩, fun i hi hfirst => ?_, houts, ?_, fun n => ?_⟩
  · cases hfind : w.ctx.sessions.findIdx? (timedOut w.ctx (UInt32.ofNat t)) with
    | none => exact absurd (htimeout.symm.trans (process_of_none hfind).1) (by simp)
    | some j => exact ⟨j, (hok.timedOut_iff hidle).mp (Ctx.findIdx?_eq_some hfind).2⟩
  · rintro ⟨i, hi⟩
    cases hfind : w.ctx.sessions.findIdx? (timedOut w.ctx (UInt32.ofNat t)) with
    | none =>
      have hfalse := Ctx.findIdx?_eq_none hfind hi.lt
      rw [(hok.timedOut_iff hidle).mpr hi] at hfalse
      exact absurd hfalse (by simp)
    | some j =>
      rw [process_of_some w.ctx hfind]
      exact isTimeout_timeoutEvent _
  · exact process_of_some w.ctx (hok.findIdx?_timedOut hidle hi hfirst)
  · rw [hfinal]
    exact hsessions
  · rw [List.replicate_add, Machine.final_append, hfinal]
    exact process_after_none n hnone

/-- A transfer that is started just before the clock wraps. -/
def wrappingSend : List (ℕ × Call) :=
  [(2 ^ 32 - 50, .startSend (smallMsg .withAck 1 2) ackedMsg_readable 0 .ample)]

/-- A tenth of a second later, though the clock is at 51, it has waited too long. -/
theorem timeouts_exact_smallDevice :
    (process (clock.final { ctx := smallDevice 1 false } wrappingSend).ctx
      (UInt32.ofNat (2 ^ 32 + 51))).2.1.event.isTimeout = true := by
  have hidle : ∀ i, ((clock.final { ctx := smallDevice 1 false } wrappingSend).ctx.session
      i).timed = true →
        2 ^ 32 + 51 - (clock.final { ctx := smallDevice 1 false } wrappingSend).since i <
          2 ^ 32 := by
    intro i htimed
    have hlt : i < 2 := Ctx.lt_of_live (Session.timed_iff.mp htimed).1
    rcases i with _ | _ | i
    · decide
    · exact absurd htimed (by decide)
    · omega
  exact ((timeouts_exact (smallDevice_initial (by decide) false) wrappingSend (2 ^ 32 + 51)
    (by decide) _ rfl).2 hidle).1.mpr ⟨0, by decide⟩

end Imp
end UniCan
