import UniCan.Imp.Device

/-!
# Which session a frame is for

A frame says which session it is for by its addresses and its session id.  A device
gives its own transfers ids that no other of its transfers to the same peer has, and
leaves the last bit of the id to tell its transfers from those of the peer; so no two
sessions are for the same frames, as long as the peers keep to this bit as well.

## Main definitions

* `Session.key` — the addresses and the id of a session.
* `Ctx.TxDistinct` — no two transfers of a device have the same address and id.
* `idBit` — the last bit of the ids of a device's transfers to a peer.
* `Call.Keeps` — a START keeps to the bit of its sender.
* `Ctx.Distinct` — no two sessions are for the same frames.

## Main results

* `Ctx.Reachable.txDistinct` — a device gives no id twice, whatever its peers do.
* `device_distinct` — **a session is found by its addresses and its id.**
-/

namespace UniCan
namespace Imp

/-- What a frame tells a session by. -/
def Session.key (s : Session) : UInt8 × UInt8 × UInt8 :=
  (s.peerAddress, s.localAddress, s.sessionId)

/-- The address and the id of the transfer that a session receives. -/
def Session.rxKey (s : Session) : UInt8 × UInt8 := (s.localAddress, s.sessionId)

/-- The address and the id of the transfer that a session sends. -/
def Session.txKey (s : Session) : UInt8 × UInt8 := (s.peerAddress, s.sessionId)

/-- The last bit of the session ids of transfers from one device to another. -/
def idBit (addressFrom addressTo : UInt8) : ℕ := if addressFrom > addressTo then 1 else 0

theorem idBit_ne {a b : UInt8} (h : a ≠ b) : idBit a b ≠ idBit b a := by
  have hne : a.toNat ≠ b.toNat := fun he => h (UInt8.toNat_inj.mp he)
  unfold idBit
  simp only [gt_iff_lt, UInt8.lt_iff_toNat_lt]
  split_ifs <;> omega

/-- A transfer that another device starts has an id with the bit of that device. -/
def Heading.Keeps (ownAddress : UInt8) (h : Heading) : Prop :=
  (h.command = .start ∨ h.command = .startWa) → h.addressTo = ownAddress →
    h.addressFrom ≠ ownAddress → h.sessionId.toNat % 2 = idBit h.addressFrom ownAddress

/-- The frames that a call takes keep to the bits of their senders. -/
def Call.Keeps (ownAddress : UInt8) : Call → Prop
  | .addFrame frame _ _ => ∀ h ∈ heading ownAddress frame, h.Keeps ownAddress
  | _ => True

/-- No two sessions are for the same frames. -/
structure Ctx.Distinct (ctx : Ctx) : Prop where
  unique : ∀ i j, i < ctx.sessions.length → j < ctx.sessions.length →
    (ctx.session i).state ≠ .free → (ctx.session j).state ≠ .free →
    (ctx.session i).key = (ctx.session j).key → i = j
  rx : ∀ i, (ctx.session i).state = .rx → (ctx.session i).localAddress = ctx.ownAddress →
    (ctx.session i).peerAddress ≠ ctx.ownAddress →
    (ctx.session i).sessionId.toNat % 2 = idBit (ctx.session i).peerAddress ctx.ownAddress

theorem Ctx.lt_of_live {ctx : Ctx} {i : ℕ} (h : (ctx.session i).state ≠ .free) :
    i < ctx.sessions.length := by
  by_contra hge
  rw [Ctx.session, List.getD_eq_default _ _ (Nat.le_of_not_lt hge)] at h
  exact h rfl

section Kept

variable {ctx : Ctx} {s s' : Session} {nowMs : UInt32} {bytes : List UInt8} {command : Cmd}
  {reply : Option (Cmd × List UInt8)} {kind : Event} {received : Option Msg}

/-- A session stays what it is, or it becomes free. -/
def Session.Kept (s s' : Session) : Prop :=
  s'.state = .free ∨ s'.key = s.key ∧ s.state ≠ .free ∧ (s'.state = .rx ↔ s.state = .rx)

theorem TxCase.kept (h : TxCase s nowMs command s' reply kind) (htx : sessionIsTx s = true) :
    s.Kept s' := by
  obtain ⟨hfree, hrx⟩ := Session.isTx_iff.mp htx
  cases h with
  | aborted | refused | finished => exact .inl rfl
  | resentStart | resentData | ignored => exact .inr ⟨rfl, hfree, Iff.rfl⟩
  | data | end_ => exact .inr ⟨rfl, hfree, by simp [hrx]⟩

theorem RxCase.kept (h : RxCase ctx s bytes nowMs command s' reply kind received)
    (hrx : s.state = .rx) : s.Kept s' := by
  cases h with
  | aborted | refused | dropped | rejected | uncreated | finished => exact .inl rfl
  | started | appended => exact .inr ⟨rfl, by simp [hrx], Iff.rfl⟩

theorem EmitCase.kept {frame : Cmd × List UInt8} (h : EmitCase s s' frame kind)
    (hstate : s.state = .txWithoutAck) : s.Kept s' := by
  cases h with
  | data => exact .inr ⟨rfl, by simp [hstate], Iff.rfl⟩
  | end_ => exact .inl rfl

theorem Handles.kept {h : Heading} {i : ℕ}
    (hh : Handles ctx h bytes nowMs i s s' reply kind received) : s.Kept s' := by
  rcases hh.moves with ⟨htx, -, hcase⟩ | ⟨hrx, hcase⟩
  · exact hcase.kept htx
  · exact hcase.kept hrx

/-- A session that sends has sent before. -/
theorem Session.Kept.sends (h : s.Kept s') (htx : sessionIsTx s' = true) :
    sessionIsTx s = true ∧ s'.txKey = s.txKey := by
  obtain ⟨hlive', hrx'⟩ := Session.isTx_iff.mp htx
  rcases h with hfree | ⟨hkey, hlive, hiff⟩
  · exact absurd hfree hlive'
  · simp only [Session.key, Prod.mk.injEq] at hkey
    exact ⟨Session.isTx_iff.mpr ⟨hlive, fun h => hrx' (hiff.mpr h)⟩, Prod.ext hkey.1 hkey.2.2⟩

end Kept

namespace Ctx.Distinct

variable {ctx : Ctx} {i : ℕ} {s : Session}

/-- Another session in a place of the table, for frames that no other session is for. -/
theorem setSession (h : ctx.Distinct) (hi : i < ctx.sessions.length)
    (hnew : s.state ≠ .free → ∀ j, j ≠ i → j < ctx.sessions.length →
      (ctx.session j).state ≠ .free → (ctx.session j).key ≠ s.key)
    (hrx : s.state = .rx → s.localAddress = ctx.ownAddress → s.peerAddress ≠ ctx.ownAddress →
      s.sessionId.toNat % 2 = idBit s.peerAddress ctx.ownAddress) :
    (ctx.setSession i s).Distinct where
  unique j k hj hk := by
    rw [Ctx.length_setSession] at hj hk
    rw [Ctx.session_setSession hi, Ctx.session_setSession hi]
    split_ifs with h1 h2 h2
    · exact fun _ _ _ => h1.trans h2.symm
    · exact fun hs hlive heq => absurd heq.symm (hnew hs k h2 hk hlive)
    · exact fun hlive hs heq => absurd heq (hnew hs j h1 hj hlive)
    · exact h.unique j k hj hk
  rx j := by
    rw [Ctx.session_setSession hi]
    split_ifs
    · exact hrx
    · exact h.rx j

/-- A session that stays what it is. -/
theorem setSession_kept (h : ctx.Distinct) (hi : i < ctx.sessions.length)
    (hs : (ctx.session i).Kept s) : (ctx.setSession i s).Distinct := by
  refine h.setSession hi (fun hlive j hj hjlt hjlive heq => ?_) fun hrx => ?_
  · rcases hs with hfree | ⟨hkey, hlive', -⟩
    · exact hlive hfree
    · exact hj (h.unique j i hjlt hi hjlive hlive' (heq.trans hkey))
  · rcases hs with hfree | ⟨hkey, -, hiff⟩
    · exact absurd (hrx.symm.trans hfree) (by simp)
    · simp only [Session.key, Prod.mk.injEq] at hkey
      rw [hkey.1, hkey.2.1, hkey.2.2]
      exact h.rx i (hiff.mp hrx)

end Ctx.Distinct

/-! ### Every call -/

/-- The id that a transfer gets is not that of another transfer to its address. -/
theorem StartSend.txKey_ne {ctx : Ctx} {msg : Msg} {i u : ℕ} {s : Session} {output : Output}
    (hs : StartSend ctx msg i u s output) {j : ℕ} (htx : sessionIsTx (ctx.session j) = true) :
    (ctx.session j).txKey ≠ s.txKey := by
  intro heq
  simp only [Session.txKey, Prod.mk.injEq, hs.peerAddress, hs.sessionId] at heq
  obtain ⟨hpeer, hid⟩ := heq
  have hj := Ctx.lt_of_live (Session.isTx_iff.mp htx).1
  have hreserved := hs.reserved
  simp only [reservedIds, List.any_eq_false, Bool.and_eq_true, beq_iff_eq, not_and] at hreserved
  refine hreserved _ (Ctx.session_mem hj) ⟨htx, hpeer⟩ ?_
  rw [hid, UInt8.toNat_shiftRight, toNat_startSessionId ctx msg.addressTo hs.u_lt]
  show (2 * u + _) >>> 1 = u
  rw [Nat.shiftRight_eq_div_pow]
  split_ifs <;> omega

/-- The id that a transfer gets has the bit of its sender, and is not that of another
transfer to its address. -/
theorem StartSend.key_ne {ctx : Ctx} (h : ctx.Distinct) {msg : Msg} {i u : ℕ} {s : Session}
    {output : Output} (hs : StartSend ctx msg i u s output) {j : ℕ}
    (hlive : (ctx.session j).state ≠ .free) : (ctx.session j).key ≠ s.key := by
  intro heq
  simp only [Session.key, Prod.mk.injEq] at heq
  by_cases htx : sessionIsTx (ctx.session j) = true
  · exact hs.txKey_ne htx (Prod.ext heq.1 heq.2.2)
  · have hrx : (ctx.session j).state = .rx := by
      rw [Session.isTx_iff, not_and_or, not_not, not_not] at htx
      exact htx.resolve_left hlive
    rw [hs.peerAddress, hs.localAddress, hs.sessionId] at heq
    obtain ⟨hpeer, hlocal, hid⟩ := heq
    have hbit := h.rx j hrx hlocal (by rw [hpeer]; exact hs.other)
    rw [hpeer, hid, toNat_startSessionId ctx msg.addressTo hs.u_lt] at hbit
    refine idBit_ne hs.other ?_
    rw [← hbit, idBit]
    split_ifs <;> omega

/-- A call whose frames keep to the bits of their senders keeps the sessions apart. -/
theorem Ctx.Distinct.step {ctx : Ctx} (h : ctx.Distinct) (call : Call) (hctx : ctx.Ok)
    (hkeeps : call.Keeps ctx.ownAddress) : (device.step ctx call).1.Distinct := by
  obtain ⟨ctx', output, result, hstep, hdoes⟩ := device_step_does hctx call
  rw [hstep]
  cases hdoes with
  | nothing => exact h
  | started _ hs =>
    refine h.setSession hs.lt (fun _ j _ _ hlive => hs.key_ne h hlive) fun hrx => ?_
    have hstate := hs.state
    rw [hrx] at hstate
    split_ifs at hstate
  | @handled frame nowMs env hd i s s' _ _ _ _ hheading hhandles =>
    have hsession := frameSession_eq_some hhandles.found
    have hkept := hhandles.kept
    rcases hsession.origin with rfl | ⟨-, hcommand, hnone, -, hopen⟩
    · exact h.setSession_kept hsession.lt hkept
    · -- a session that the frame opens
      have hkeys : s'.state ≠ .free → s'.key = (hd.addressFrom, hd.addressTo, hd.sessionId) := by
        intro hlive
        rcases hkept with hfree | ⟨hkey, -⟩
        · exact absurd hfree hlive
        · rw [hkey, hopen]
          rfl
      refine h.setSession hsession.lt (fun hlive j _ hj hjlive heq => ?_) fun hrx => ?_
      · -- no other session is for this frame, or it would have been found
        rw [hkeys hlive] at heq
        simp only [Session.key, Prod.mk.injEq] at heq
        exact hnone j ⟨hj, hjlive, heq.1, heq.2.1, heq.2.2⟩
      · have hkey := hkeys (by rw [hrx]; simp)
        simp only [Session.key, Prod.mk.injEq] at hkey
        rw [hkey.1, hkey.2.1, hkey.2.2]
        exact hkeeps hd hheading hcommand
  | expired hi => exact h.setSession_kept hi (.inl rfl)
  | emitted hi hstate hemit => exact h.setSession_kept hi (hemit.kept hstate)

/-- No two sessions send transfers with the same address and id. -/
def Ctx.TxDistinct (ctx : Ctx) : Prop :=
  ∀ i j, sessionIsTx (ctx.session i) = true → sessionIsTx (ctx.session j) = true →
    (ctx.session i).txKey = (ctx.session j).txKey → i = j

/-- A session that sends no other transfer than before. -/
theorem Ctx.TxDistinct.setSession {ctx : Ctx} (h : ctx.TxDistinct) {i : ℕ} {s : Session}
    (hi : i < ctx.sessions.length) (hs : sessionIsTx s = true →
      sessionIsTx (ctx.session i) = true ∧ s.txKey = (ctx.session i).txKey) :
    (ctx.setSession i s).TxDistinct := by
  intro j k
  rw [Ctx.session_setSession hi, Ctx.session_setSession hi]
  split_ifs with hj hk hk
  · exact fun _ _ _ => hj.trans hk.symm
  · intro htx hktx heq
    rw [hj]
    exact h i k (hs htx).1 hktx ((hs htx).2.symm.trans heq)
  · intro hjtx htx heq
    rw [hk]
    exact h j i hjtx (hs htx).1 (heq.trans (hs htx).2)
  · exact h j k

/-- **A device gives no id twice**, whatever frames it gets. -/
theorem Ctx.TxDistinct.step {ctx : Ctx} (h : ctx.TxDistinct) (call : Call) (hctx : ctx.Ok) :
    (device.step ctx call).1.TxDistinct := by
  obtain ⟨ctx', output, result, hstep, hdoes⟩ := device_step_does hctx call
  rw [hstep]
  cases hdoes with
  | nothing => exact h
  | started _ hs =>
    intro j k
    simp only [Ctx.session_setSession hs.lt]
    split_ifs with hj hk hk
    · exact fun _ _ _ => hj.trans hk.symm
    · exact fun _ hktx heq => absurd heq.symm (hs.txKey_ne hktx)
    · exact fun hjtx _ heq => absurd heq (hs.txKey_ne hjtx)
    · exact h j k
  | handled _ hhandles =>
    have hsession := frameSession_eq_some hhandles.found
    refine h.setSession hsession.lt fun htx => ?_
    obtain ⟨hsends, hkey⟩ := hhandles.kept.sends htx
    rcases hsession.origin with rfl | ⟨-, -, -, -, rfl⟩
    · exact ⟨hsends, hkey⟩
    · exact absurd hsends (by simp [sessionIsTx, openSession])
  | expired hi =>
    exact h.setSession hi fun htx => absurd htx (by simp [sessionIsTx, sessionRelease])
  | emitted hi hstate hemit => exact h.setSession hi (hemit.kept hstate).sends

/-- A context that was just set up has no sessions. -/
theorem Ctx.Initial.free {ctx : Ctx} (h : ctx.Initial) (i : ℕ) : (ctx.session i).state = .free := by
  obtain ⟨calloc, cfg, hinit⟩ := h
  unfold init at hinit
  simp only at hinit
  split_ifs at hinit
  all_goals
    obtain rfl := Option.some.inj hinit
    rw [Ctx.session, List.getD_eq_getElem?_getD, List.getElem?_map]
    cases (List.range _)[i]? <;> rfl

theorem Ctx.Initial.distinct {ctx : Ctx} (h : ctx.Initial) : ctx.Distinct where
  unique i _ _ _ hlive := absurd (h.free i) hlive
  rx i hrx := absurd ((h.free i).symm.trans hrx) (by simp)

/-- The sessions stay apart in every run whose frames keep to the bits of their
senders. -/
theorem Ctx.Initial.final_distinct {ctx₀ : Ctx} (h : ctx₀.Initial) (calls : List Call)
    (hkeeps : ∀ call ∈ calls, call.Keeps ctx₀.ownAddress) :
    ctx₀.Moves (device.final ctx₀ calls) ∧ (device.final ctx₀ calls).Distinct :=
  device.final_of_step (P := fun ctx => ctx₀.Moves ctx ∧ ctx.Distinct) calls
    ⟨Ctx.Moves.refl h.ok, h.distinct⟩ fun _ call hcall ⟨hmoves, hdistinct⟩ =>
      ⟨hmoves.trans (device_step_moves hmoves.ok call).1,
        hdistinct.step call hmoves.ok (by rw [hmoves.ownAddress]; exact hkeeps call hcall)⟩

theorem Ctx.Initial.txDistinct {ctx : Ctx} (h : ctx.Initial) : ctx.TxDistinct :=
  fun i _ hi => absurd hi (by simp [sessionIsTx, h.free i])

theorem Ctx.Reachable.txDistinct {ctx : Ctx} (h : ctx.Reachable) : ctx.TxDistinct := by
  obtain ⟨ctx₀, h₀, calls, rfl⟩ := h
  have hrun : (device.final ctx₀ calls).Ok ∧ (device.final ctx₀ calls).TxDistinct :=
    device.final_of_step (P := fun ctx => ctx.Ok ∧ ctx.TxDistinct) calls ⟨h₀.ok, h₀.txDistinct⟩
      fun _ call _ ⟨hok, hdistinct⟩ =>
        ⟨(device_step_moves hok call).1.ok, hdistinct.step call hok⟩
  exact hrun.2

/-- The session that is found is the only one. -/
theorem Ctx.Distinct.findSession {ctx : Ctx} (h : ctx.Distinct) {i : ℕ}
    (hi : i < ctx.sessions.length) (hlive : (ctx.session i).state ≠ .free) :
    findSession ctx (ctx.session i).peerAddress (ctx.session i).localAddress
      (ctx.session i).sessionId = some i := by
  cases hfind : UniCan.Imp.findSession ctx (ctx.session i).peerAddress
      (ctx.session i).localAddress (ctx.session i).sessionId with
  | none => exact absurd ⟨hi, hlive, rfl, rfl, rfl⟩ (findSession_eq_none (i := i) hfind)
  | some j =>
    have hj := findSession_eq_some hfind
    rw [h.unique j i hj.lt hi hj.live hlive]
    rw [Session.key, hj.peerAddress, hj.localAddress, hj.sessionId, Session.key]

/-- **A session is found by its addresses and its id.**  In every run whose frames keep
to the bits of their senders, no two sessions in use have the same addresses and id; a
session is the one that is found with its own; and a frame with them reaches it. -/
theorem device_distinct {ctx₀ : Ctx} (h : ctx₀.Initial) (calls : List Call)
    (hkeeps : ∀ call ∈ calls, call.Keeps ctx₀.ownAddress) (ctx : Ctx)
    (hctx : ctx = device.final ctx₀ calls) {i : ℕ} (hi : i < ctx.sessions.length)
    (hlive : (ctx.session i).state ≠ .free) :
    (∀ j, j < ctx.sessions.length → (ctx.session j).state ≠ .free →
        (ctx.session j).key = (ctx.session i).key → j = i) ∧
      findSession ctx (ctx.session i).peerAddress (ctx.session i).localAddress
          (ctx.session i).sessionId = some i ∧
        ∀ command nowMs, frameSession ctx (ctx.session i).peerAddress (ctx.session i).localAddress
          (ctx.session i).sessionId command nowMs = some (i, ctx.session i) := by
  have hdistinct : ctx.Distinct := by
    rw [hctx]
    exact (h.final_distinct calls hkeeps).2
  have hfind := hdistinct.findSession hi hlive
  refine ⟨fun j hj hjlive heq => hdistinct.unique j i hj hi hjlive hlive heq, hfind, ?_⟩
  intro command nowMs
  rw [frameSession, hfind]

/-- A message of three bytes. -/
def smallMsg (mode : MsgMode) (addressFrom addressTo : UInt8) : Msg where
  mode := mode
  addressFrom := addressFrom
  addressTo := addressTo
  sessionId := 0
  length := 3
  data := some [7, 8, 9]

theorem smallMsg_readable (mode : MsgMode) (addressFrom addressTo : UInt8) :
    (smallMsg mode addressFrom addressTo).Readable := by
  intro data h
  cases h
  exact Nat.le_refl 3

theorem ackedMsg_readable : (smallMsg .withAck 1 2).Readable := smallMsg_readable _ _ _

theorem unackedMsg_readable : (smallMsg .withoutAck 1 2).Readable := smallMsg_readable _ _ _

/-- Device 2 starts a transfer with this id, and a transfer to it is started. -/
def crossing (sessionId : UInt8) : List Call :=
  [.addFrame (frameTo 2 1 sessionId .start []) 0 .ample,
    .startSend (smallMsg .withAck 1 2) ackedMsg_readable 0 .ample]

/-- An id with the bit of device 2. -/
theorem device_distinct_smallDevice :
    findSession (device.final (smallDevice 1 false) (crossing 1)) 2 1 0 = some 1 := by
  have hkeeps : ∀ call ∈ crossing 1, call.Keeps 1 := by
    intro call hcall
    rcases List.mem_cons.mp hcall with rfl | hcall
    · rintro h ⟨⟩
      exact fun _ _ _ => by decide
    · rw [List.mem_singleton.mp hcall]
      trivial
  exact (device_distinct (smallDevice_initial (show sourceAddressValid 1 = true by decide) false)
    (crossing 1) hkeeps _ rfl (show 1 < 2 by decide) (by decide)).2.1

/-- An id with the other bit: the transfer of device 1 gets the same id, and the session
that is found is not its own. -/
theorem device_not_distinct :
    ((device.final (smallDevice 1 false) (crossing 0)).session 0).state = .rx ∧
      ((device.final (smallDevice 1 false) (crossing 0)).session 1).state = .txWaitStartAck ∧
      ((device.final (smallDevice 1 false) (crossing 0)).session 0).key =
        ((device.final (smallDevice 1 false) (crossing 0)).session 1).key ∧
      findSession (device.final (smallDevice 1 false) (crossing 0)) 2 1 0 = some 0 := by
  decide

end Imp
end UniCan
