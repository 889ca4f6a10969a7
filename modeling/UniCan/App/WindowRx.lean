import Mathlib.Tactic.Common
import UniCan.App.Packet
import UniCan.Foundation.Selection

/-!
# The window of received messages

The window keeps every received frame and message, and for its two tables the places of
those that pass the filter, `window_can_rx.cpp`.  A reception adds at most one place.  The
check box and the edits of the ignore list compute the places anew; the close button of the
filter's window switches the filter off and computes nothing.

## Main definitions

* `WindowCanRx`, `Action`, `step` — the window, and what the user and the bus can do.
* `Matches` — the places are those of the messages that pass.
* `AllMatch` — every action of a run can be carried out, and the places match after it.
* `Proper` — a close that hides nothing, a removal from a list that is not empty.
* `messages`, `drawn` — the messages that are kept, and those that have a row in the table.

## Main results

* `matches_rebuildFilter`, `Matches.receiveMsg` — what keeps the places right.
* `matches_step_iff` — **an action keeps them right exactly if it is proper.**
* `allMatch_iff_properRun` — **so does a run, exactly if all its actions are.**
* `placesIn_step`, `Matches.drawn_eq` — whatever is done, the rows are messages that are
  kept; **if the places match, they are those that pass.**
-/

namespace UniCan.App

/-! ### The window -/

/-- A frame with the time of its reception. -/
structure RxRawEntry where
  ts : String
  msg : CanMessage
  deriving DecidableEq

/-- A message with the time of its reception. -/
structure RxProtoEntry where
  ts : String
  msg : ProtoPlexerMessage
  deriving DecidableEq

/-- `WindowCanRx`, and the file `filter.json`. -/
structure WindowCanRx where
  filter : Bool := false
  msgsRaw : List RxRawEntry := []
  msgsRawFiltered : List ℕ := []
  msgsPp : List RxProtoEntry := []
  msgsPpFiltered : List ℕ := []
  filterList : List UInt32 := []
  filterSelection : ℤ := -1
  filterFile : Option (List UInt32) := none
  deriving DecidableEq

namespace WindowCanRx

/-- Whether an identifier passes. -/
def filterMatch (w : WindowCanRx) (key : UInt32) : Bool :=
  if !w.filter then true else !w.filterList.contains key

/-- `filterMatch`, of a frame. -/
def passesRaw (w : WindowCanRx) (e : RxRawEntry) : Bool := w.filterMatch e.msg.id

/-- `filterMatch`, of a message. -/
def passesPp (w : WindowCanRx) (e : RxProtoEntry) : Bool := w.filterMatch e.msg.messageId.toUInt32

/-- The places computed anew. -/
def rebuildFilter (w : WindowCanRx) : WindowCanRx :=
  { w with
    msgsRawFiltered := w.msgsRaw.findIdxs w.passesRaw
    msgsPpFiltered := w.msgsPp.findIdxs w.passesPp }

/-- A reception. -/
def receiveMsg (w : WindowCanRx) (ts : String) : RxPacket → WindowCanRx
  | .raw msg =>
    let msgsRaw := w.msgsRaw ++ [⟨ts, msg⟩]
    { w with
      msgsRaw
      msgsRawFiltered :=
        if w.filterMatch msg.id then w.msgsRawFiltered ++ [msgsRaw.length - 1]
        else w.msgsRawFiltered }
  | .proto msg =>
    let msgsPp := w.msgsPp ++ [⟨ts, msg⟩]
    { w with
      msgsPp
      msgsPpFiltered :=
        if w.filterMatch msg.messageId.toUInt32 then w.msgsPpFiltered ++ [msgsPp.length - 1]
        else w.msgsPpFiltered }

def clear (w : WindowCanRx) : WindowCanRx :=
  { w with msgsRaw := [], msgsRawFiltered := [], msgsPp := [], msgsPpFiltered := [] }

/-- The messages that are kept. -/
def messages (w : WindowCanRx) : List ProtoPlexerMessage := w.msgsPp.map RxProtoEntry.msg

def filterSave (w : WindowCanRx) : WindowCanRx := { w with filterFile := some w.filterList }

/-- A new window, `filterLoad`: the ignore list is that of the file, if there is one. -/
def initial (filterFile : Option (List UInt32)) : WindowCanRx :=
  { filterList := filterFile.getD [], filterFile }

/-! ### What can be done -/

/-- What the bus and the user can do.  The last four are in the filter's window, which is
there while the filter is on. -/
inductive Action where
  | receive (ts : String) (msg : RxPacket)
  /-- The button `Clear`. -/
  | clear
  /-- The check box `Filter`. -/
  | toggleFilter
  /-- The close button of the filter's window. -/
  | closeFilter
  /-- A click on an entry of the ignore list. -/
  | select (n : ℕ)
  /-- The button `Remove`; the box with the list may have been scrolled out of sight. -/
  | remove (listShown : Bool)
  /-- The button `Add`. -/
  | add (value : UInt32)
  deriving DecidableEq

/-- The button `Remove`.  It takes the selected entry, or the first one if none is; erasing
from an empty list is undefined. -/
def remove (w : WindowCanRx) (listShown : Bool) : Option WindowCanRx :=
  let selected :=
    if listShown ∧ 0 ≤ w.filterSelection ∧ w.filterSelection < w.filterList.length then
      w.filterSelection.toNat
    else 0
  if w.filterList = [] then none
  else some { w with filterList := w.filterList.eraseIdx selected }.rebuildFilter

/-- The button `Add`. -/
def add (w : WindowCanRx) (value : UInt32) : WindowCanRx :=
  { w with filterList := w.filterList ++ [value] }.filterSave.rebuildFilter

/-- One action; nothing for one that is undefined. -/
def step (w : WindowCanRx) : Action → Option WindowCanRx
  | .receive ts msg => some (w.receiveMsg ts msg)
  | .clear => some w.clear
  | .toggleFilter => some { w with filter := !w.filter }.rebuildFilter
  | .closeFilter => some { w with filter := false }
  | .select n =>
    some (if w.filter ∧ n < w.filterList.length then { w with filterSelection := n } else w)
  | .remove listShown => if w.filter then w.remove listShown else some w
  | .add value => some (if w.filter then w.add value else w)

/-! ### Places that match -/

/-- The lists are what `rebuildFilter` would make of them: the places of the frames and of
the messages that pass, in increasing order. -/
structure Matches (w : WindowCanRx) : Prop where
  rebuilt : w.rebuildFilter = w
  raw : Selects w.passesRaw w.msgsRaw w.msgsRawFiltered
  pp : Selects w.passesPp w.msgsPp w.msgsPpFiltered

/-- Every action of a run can be carried out, and the lists match after it. -/
def AllMatch (w : WindowCanRx) : List Action → Prop
  | [] => True
  | a :: as => ∃ w', w.step a = some w' ∧ w'.Matches ∧ w'.AllMatch as

/-- No received frame or message is on the ignore list. -/
def NoneIgnored (w : WindowCanRx) : Prop :=
  (∀ e ∈ w.msgsRaw, e.msg.id ∉ w.filterList) ∧
    ∀ e ∈ w.msgsPp, e.msg.messageId.toUInt32 ∉ w.filterList

/-- The filter's window is closed while nothing is hidden, and nothing is removed from an
empty list. -/
def Proper (w : WindowCanRx) : Action → Prop
  | .closeFilter => w.filter → w.NoneIgnored
  | .remove _ => w.filter → w.filterList ≠ []
  | _ => True

/-- All actions of a run are proper, as far as it gets. -/
def ProperRun (w : WindowCanRx) : List Action → Prop
  | [] => True
  | a :: as => w.Proper a ∧ ∀ w', w.step a = some w' → w'.ProperRun as

/-! ### What keeps them matching -/

variable {w w' : WindowCanRx}

/-- Lists that select what passes are what `rebuildFilter` makes of them. -/
theorem matches_iff : w.Matches ↔
    Selects w.passesRaw w.msgsRaw w.msgsRawFiltered ∧
      Selects w.passesPp w.msgsPp w.msgsPpFiltered := by
  constructor
  · intro h
    exact ⟨h.raw, h.pp⟩
  · rintro ⟨hraw, hpp⟩
    refine ⟨?_, hraw, hpp⟩
    rw [rebuildFilter, ← selects_iff.mp hraw, ← selects_iff.mp hpp]

/-- Whatever the lists were, they match when they have been computed anew. -/
theorem matches_rebuildFilter (w : WindowCanRx) : w.rebuildFilter.Matches :=
  matches_iff.mpr ⟨selects_findIdxs _ _, selects_findIdxs _ _⟩

theorem matches_clear (w : WindowCanRx) : w.clear.Matches :=
  matches_iff.mpr ⟨selects_nil _, selects_nil _⟩

theorem matches_initial (file : Option (List UInt32)) : (initial file).Matches :=
  matches_iff.mpr ⟨selects_nil _, selects_nil _⟩

/-- **A reception adds at most its own place.** -/
theorem Matches.receiveMsg (h : w.Matches) (ts : String) (msg : RxPacket) :
    (w.receiveMsg ts msg).Matches := by
  cases msg with
  | raw msg =>
    let e : RxRawEntry := ⟨ts, msg⟩
    have hlast : w.msgsRaw.length = (w.msgsRaw ++ [e]).length - 1 := by simp
    have hpush := h.raw.push e
    rw [hlast] at hpush
    exact matches_iff.mpr ⟨hpush, h.pp⟩
  | proto msg =>
    let e : RxProtoEntry := ⟨ts, msg⟩
    have hlast : w.msgsPp.length = (w.msgsPp ++ [e]).length - 1 := by simp
    have hpush := h.pp.push e
    rw [hlast] at hpush
    exact matches_iff.mpr ⟨h.raw, hpush⟩

theorem filterMatch_of_off (hoff : w.filter = false) (key : UInt32) : w.filterMatch key = true := by
  simp [filterMatch, hoff]

theorem filterMatch_iff (hon : w.filter = true) (key : UInt32) :
    w.filterMatch key = true ↔ key ∉ w.filterList := by
  simp [filterMatch, hon]

/-- **Closing the filter's window**: everything passes now, and the places are those of the
messages that passed before. -/
theorem Matches.closeFilter_iff (h : w.Matches) :
    { w with filter := false }.Matches ↔ (w.filter → w.NoneIgnored) := by
  cases hfilter : w.filter with
  | false =>
    have hsame : { w with filter := false } = w := by rw [← hfilter]
    simp [hsame, h]
  | true =>
    have hraw := h.raw.weaken_iff (q := { w with filter := false }.passesRaw) fun _ _ _ => rfl
    have hpp := h.pp.weaken_iff (q := { w with filter := false }.passesPp) fun _ _ _ => rfl
    rw [matches_iff]
    refine (and_congr hraw hpp).trans ?_
    simp only [passesRaw, passesPp, filterMatch_of_off, filterMatch_iff hfilter, NoneIgnored,
      forall_const]

/-- The selection in the ignore list does not matter. -/
theorem Matches.select (h : w.Matches) (n : ℤ) : { w with filterSelection := n }.Matches :=
  matches_iff.mpr ⟨h.raw, h.pp⟩

theorem remove_matches_iff (listShown : Bool) :
    (∃ w', w.remove listShown = some w' ∧ w'.Matches) ↔ w.filterList ≠ [] := by
  rw [remove]
  by_cases hempty : w.filterList = []
  · simp [hempty]
  · simp [hempty, matches_rebuildFilter]

/-- **An action keeps the lists matching exactly if it is proper.** -/
theorem matches_step_iff (h : w.Matches) (a : Action) :
    (∃ w', w.step a = some w' ∧ w'.Matches) ↔ w.Proper a := by
  cases a with
  | receive ts msg => simp [step, Proper, h.receiveMsg ts msg]
  | clear => simp [step, Proper, matches_clear]
  | toggleFilter => simp [step, Proper, matches_rebuildFilter]
  | closeFilter => simpa [step, Proper] using h.closeFilter_iff
  | select n =>
    simp only [step, Proper, Option.some.injEq, exists_eq_left']
    split_ifs
    · simp [h.select n]
    · simp [h]
  | remove listShown =>
    simp only [step, Proper]
    split_ifs with hfilter
    · simp [hfilter, remove_matches_iff]
    · simp [hfilter, h]
  | add value =>
    simp only [step, Proper, Option.some.injEq, exists_eq_left']
    split_ifs
    · simp [add, matches_rebuildFilter]
    · simp [h]

/-- A run from a window that matches. -/
theorem Matches.allMatch_iff (h : w.Matches) (actions : List Action) :
    w.AllMatch actions ↔ w.ProperRun actions := by
  induction actions generalizing w with
  | nil => exact Iff.rfl
  | cons a actions ih =>
    rw [AllMatch, ProperRun, ← matches_step_iff h a]
    constructor
    · rintro ⟨w', hstep, hw', hrest⟩
      refine ⟨⟨w', hstep, hw'⟩, fun w'' hstep' => ?_⟩
      obtain rfl : w' = w'' := by simpa [hstep] using hstep'
      exact (ih hw').mp hrest
    · rintro ⟨⟨w', hstep, hw'⟩, hrest⟩
      exact ⟨w', hstep, hw', (ih hw').mpr (hrest w' hstep)⟩

/-- **The lists match throughout a run exactly if all its actions are proper.** -/
theorem allMatch_iff_properRun (file : Option (List UInt32)) (actions : List Action) :
    (initial file).AllMatch actions ↔ (initial file).ProperRun actions :=
  (matches_initial file).allMatch_iff actions

/-- A frame on the ignore list is received and hidden; when the filter's window is closed it
passes, but is not shown.  And a removal from an ignore list without entries is undefined. -/
theorem not_allMatch :
    ¬ (initial none).AllMatch
        [.toggleFilter, .add 0x10, .receive "12:00:00.000" (.raw { id := 0x10 }), .closeFilter] ∧
      ¬ (initial none).AllMatch [.toggleFilter, .remove true] := by
  constructor
  · rintro ⟨w₁, h₁, -, w₂, h₂, -, w₃, h₃, -, w₄, h₄, hmatches, -⟩
    cases h₁
    cases h₂
    cases h₃
    cases h₄
    have hhidden := hmatches.rebuilt
    revert hhidden
    decide
  · rintro ⟨w₁, h₁, -, w₂, h₂, -⟩
    cases h₁
    cases h₂

/-! ### What is drawn -/

/-- A reception leaves the places in the list. -/
theorem placesIn_receiveMsg (h : PlacesIn w.msgsPp w.msgsPpFiltered) (ts : String)
    (msg : RxPacket) :
    PlacesIn (w.receiveMsg ts msg).msgsPp (w.receiveMsg ts msg).msgsPpFiltered := by
  cases msg with
  | raw msg => exact h
  | proto msg =>
    let e : RxProtoEntry := ⟨ts, msg⟩
    have hlast : w.msgsPp.length = (w.msgsPp ++ [e]).length - 1 := by simp
    have hpush := h.push e (w.filterMatch msg.messageId.toUInt32)
    rw [hlast] at hpush
    exact hpush

/-- **Whatever is done**, also what is not proper, leaves the places in the list. -/
theorem placesIn_step (h : PlacesIn w.msgsPp w.msgsPpFiltered) {a : Action}
    (hstep : w.step a = some w') : PlacesIn w'.msgsPp w'.msgsPpFiltered := by
  have hrebuilt : ∀ w : WindowCanRx,
      PlacesIn w.rebuildFilter.msgsPp w.rebuildFilter.msgsPpFiltered :=
    fun w => (matches_rebuildFilter w).pp.placesIn
  cases a with
  | receive ts msg =>
    obtain rfl := Option.some.inj hstep
    exact placesIn_receiveMsg h ts msg
  | clear =>
    obtain rfl := Option.some.inj hstep
    exact placesIn_nil _
  | toggleFilter =>
    obtain rfl := Option.some.inj hstep
    exact hrebuilt _
  | closeFilter =>
    obtain rfl := Option.some.inj hstep
    exact h
  | select n =>
    obtain rfl := Option.some.inj hstep
    split_ifs
    · exact h
    · exact h
  | remove listShown =>
    simp only [step] at hstep
    split at hstep
    · simp only [remove] at hstep
      by_cases hempty : w.filterList = []
      · exact absurd hstep (by simp [hempty])
      · rw [if_neg hempty] at hstep
        obtain rfl := Option.some.inj hstep
        exact hrebuilt _
    · obtain rfl := Option.some.inj hstep
      exact h
  | add value =>
    obtain rfl := Option.some.inj hstep
    split_ifs
    · exact hrebuilt _
    · exact h

end WindowCanRx

end UniCan.App
