import Mathlib.Data.List.Induction
import UniCan.App.DictionaryFile
import UniCan.App.Packet
import UniCan.Foundation.Machine

/-!
# The window that transmits

The user enters a frame, or a message.  The identifier and the addresses of a message are
chosen from the dictionary; its payload is made of the fields that the dictionary describes,
or of a text of hexadecimal digits.  The window is drawn again and again, and what is entered
takes effect while it is drawn, `window_can_tx.cpp`.

## Main definitions

* `hexFromBytes` — bytes as the window shows them.
* `WindowCanTx`, `windowCanTx` — the window, as a machine whose steps draw it once.
* `WindowCanTx.Shows` — the message that a window shows.

## Main results

* `parseHexBytes_hexFromBytes` — **the text of some bytes spells these bytes.**
* `foldl_revise` — what is revised entry by entry is as it was left.
* `form_sends_what_it_shows` — **in every run, what is sent is what the window shows.**
-/

namespace UniCan
namespace App

/-! ### Bytes as text -/

/-- A digit of `%X`. -/
def hexDigit (n : ℕ) : Char := Char.ofNat (if n < 10 then 48 + n else 55 + n)

/-- A byte as `%02X` prints it. -/
def byteHex (b : UInt8) : List Char := [hexDigit (b.toNat / 16), hexDigit (b.toNat % 16)]

/-- `hex_from_bytes`. -/
def hexFromBytes (data : List UInt8) : String :=
  String.ofList (data.flatMap fun b => byteHex b ++ [' ']).dropLast

theorem isxdigit_hexDigit {n : ℕ} (h : n < 16) : isxdigit (hexDigit n) = true := by
  revert n
  decide

theorem xdigit_hexDigit {n : ℕ} (h : n < 16) : xdigit (hexDigit n) = n := by
  revert n
  decide

/-- The digits of a text of bytes. -/
theorem filter_byteHex (data : List UInt8) :
    (data.flatMap fun b => byteHex b ++ [' ']).filter isxdigit = data.flatMap byteHex := by
  induction data with
  | nil => rfl
  | cons b data ih =>
    have hb := b.toNat_lt
    have hhigh : isxdigit (hexDigit (b.toNat / 16)) = true := isxdigit_hexDigit (by omega)
    have hlow : isxdigit (hexDigit (b.toNat % 16)) = true := isxdigit_hexDigit (by omega)
    rw [List.flatMap_cons, List.flatMap_cons, List.filter_append, ih]
    congr 1
    simp [byteHex, hhigh, hlow, show isxdigit ' ' = false from rfl]

/-- Two digits make a byte. -/
theorem hexPairs_byteHex (data : List UInt8) : hexPairs (data.flatMap byteHex) = data := by
  induction data with
  | nil => rfl
  | cons b data ih =>
    have hb := b.toNat_lt
    rw [List.flatMap_cons]
    simp only [byteHex, List.cons_append, List.nil_append, hexPairs]
    rw [xdigit_hexDigit (by omega), xdigit_hexDigit (by omega), Nat.div_add_mod, ih,
      UInt8.ofNat_toNat]

/-- **The text of some bytes spells these bytes.** -/
theorem parseHexBytes_hexFromBytes (data : List UInt8) :
    parseHexBytes (hexFromBytes data) = data := by
  rw [parseHexBytes, hexFromBytes, String.toList_ofList]
  -- the blank that is dropped is no digit
  have hfilter : (data.flatMap fun b => byteHex b ++ [' ']).dropLast.filter isxdigit =
      data.flatMap byteHex := by
    rw [← filter_byteHex]
    rcases List.eq_nil_or_concat data with rfl | ⟨init, b, rfl⟩
    · rfl
    · rw [List.concat_eq_append, List.flatMap_append, List.flatMap_singleton, ← List.append_assoc,
        List.dropLast_concat, List.filter_append, List.filter_append, List.filter_append]
      simp [show isxdigit ' ' = false from rfl]
  rw [hfilter, hexPairs_byteHex]

/-! ### The window -/

/-- The definition of a message, as the form and the summary use it. -/
def DictionaryMessage.toDef (m : DictionaryMessage) : ProtoPlexerMessageDef where
  fields := m.fields.map DictionaryField.toProtoPlexerField

/-- The messages of the tables. -/
def DictionaryTables.dictionary (t : DictionaryTables) : ProtoPlexerDictionary where
  messages id := (t.messages id).map DictionaryMessage.toDef

/-- `WindowCanTx`, with the variables of `UiUpdate` that are kept. -/
structure WindowCanTx where
  /-- `m_msg`. -/
  msg : CanMessage := {}
  /-- `ext_id`. -/
  extId : Bool := true
  /-- `m_pp_msg_id`. -/
  ppMsgId : UInt32 := 0x0001
  /-- `m_pp_to`. -/
  ppTo : UInt32 := 0x001
  /-- `m_pp_from`. -/
  ppFrom : UInt32 := 0x001
  /-- `m_pp_prio`. -/
  ppPrio : UInt32 := 0x07
  /-- `m_pp_payload_hex`. -/
  ppPayloadHex : String := ""
  /-- `s_pp_field_state`: the fields of each message. -/
  ppFieldState : UInt16 → String → ProtoPlexerFieldState := fun _ _ => {}

/-- What is entered for a field, in a widget of one of three kinds. -/
inductive FieldEdit
  | value (v : UInt64)
  | check (b : Bool)
  | text (s : String)

/-- What is entered while the form of a frame is drawn. -/
structure RawInput where
  extId : Option Bool := none
  id : Option UInt32 := none
  len : Option UInt16 := none
  /-- The bytes of the data. -/
  data : ℕ → Option UInt8 := fun _ => none
  /-- The button. -/
  send : Bool := false

/-- What is entered while the form of a message is drawn. -/
structure ProtoInput where
  msgId : Option UInt16 := none
  addressFrom : Option UInt16 := none
  addressTo : Option UInt16 := none
  prio : Option UInt32 := none
  /-- The fields of the message, by their places. -/
  fields : ℕ → Option FieldEdit := fun _ => none
  payload : Option String := none
  /-- The button. -/
  send : Bool := false

/-- The window is drawn: with neither form, with that of a frame, or with that of a message,
which is there while the configured backend is ProtoPlexer. -/
inductive TxInput
  | hidden
  | raw (input : RawInput)
  | proto (input : ProtoInput)

/-- `max_value_for_type`. -/
def maxValueForType (type : String) : UInt64 :=
  if type = "u8" then 0xFF
  else if type = "u16le" then 0xFFFF
  else if type = "u32le" ∨ type = "u32be" then 0xFFFFFFFF
  else 0xFFFFFFFF

/-- The types with a widget for numbers. -/
def isNumber (type : String) : Bool :=
  type == "u8" || type == "u16le" || type == "u32le" || type == "u32be"

/-- The widget of a field. -/
def fieldWidget (f : ProtoPlexerField) (edit : Option FieldEdit) (st : ProtoPlexerFieldState) :
    ProtoPlexerFieldState :=
  if isNumber f.type then
    let maxv := maxValueForType f.type
    let value :=
      match edit with
      | some (.value v) => v
      | _ => st.value
    { st with value := if value > maxv then maxv else value }
  else if f.type = "bit" then
    match edit with
    | some (.check b) => { st with boolValue := b }
    | _ => st
  else if f.type = "bytes" then
    match edit with
    | some (.text s) => { st with bytesHex := s }
    | _ => st
  else st

/-- The widgets of all fields, one after the other; fields of one name share what is entered. -/
def fieldWidgets (fields : List ProtoPlexerField) (edits : ℕ → Option FieldEdit)
    (fieldMap : String → ProtoPlexerFieldState) : String → ProtoPlexerFieldState :=
  fields.zipIdx.foldl (fun m f => Function.update m f.1.name
    (fieldWidget f.1 (edits f.2) (m f.1.name))) fieldMap

/-- A choice from a list; what is not in the list cannot be chosen. -/
def combo (listed : UInt16 → Bool) (choice : Option UInt16) (current : UInt32) : UInt32 :=
  match choice with
  | some id => if listed id then id.toUInt32 else current
  | none => current

namespace WindowCanTx

/-- `ui_raw_can`: the window, and the message that is sent. -/
def uiRawCan (w : WindowCanTx) (input : RawInput) : WindowCanTx × Option TxPacket :=
  let extId := input.extId.getD w.extId
  let len := input.len.getD w.msg.len
  let len := if len > 8 then 8 else len
  let msg : CanMessage := { w.msg with
    id := input.id.getD w.msg.id
    len
    -- the other bytes cannot be edited
    data := Vector.ofFn fun idx =>
      if idx < len.toNat then (input.data idx).getD (w.msg.data.get idx) else w.msg.data.get idx }
  if input.send then
    let msg : CanMessage := { msg with flags := if extId then flagExtId else flagStdId }
    ({ w with extId, msg }, some (.raw msg))
  else ({ w with extId, msg }, none)

/-- The part of `ui_pp` with the identifier, the addresses and the priority. -/
def uiPpHead (dict : DictionaryTables) (w : WindowCanTx) (input : ProtoInput) : WindowCanTx :=
  { w with
    ppMsgId := combo (fun id => (dict.messages id).isSome) input.msgId w.ppMsgId
    ppFrom := combo (fun id => (dict.addresses id).isSome) input.addressFrom w.ppFrom
    ppTo := combo (fun id => (dict.addresses id).isSome) input.addressTo w.ppTo
    ppPrio := input.prio.getD w.ppPrio &&& 0x0F }

/-- The part of `ui_pp` with the payload, which it makes. -/
def uiPpPayload (dict : DictionaryTables) (w : WindowCanTx) (input : ProtoInput) :
    WindowCanTx × List UInt8 :=
  let id := w.ppMsgId.toUInt16
  match (dict.dictionary.messages id).filter fun d => !d.fields.isEmpty with
  | some d =>
      let fieldMap := fieldWidgets d.fields input.fields (w.ppFieldState id)
      let payload := updatePayloadFromFields (some d) fieldMap
      ({ w with
        ppFieldState := Function.update w.ppFieldState id fieldMap
        ppPayloadHex := hexFromBytes payload }, payload)
  | none =>
      let ppPayloadHex := input.payload.getD w.ppPayloadHex
      ({ w with ppPayloadHex }, parseHexBytes ppPayloadHex)

/-- `ui_pp`: the window, and the message that is sent. -/
def uiPp (dict : DictionaryTables) (w : WindowCanTx) (input : ProtoInput) :
    WindowCanTx × Option TxPacket :=
  let r := (w.uiPpHead dict input).uiPpPayload dict input
  let w := r.1
  let payload := r.2
  if input.send then
    (w, some (.proto {
      messageId := w.ppMsgId.toUInt16
      addressFrom := w.ppFrom.toUInt16
      addressTo := w.ppTo.toUInt16
      priorityInverted := w.ppPrio.toUInt8
      data := if !payload.isEmpty then payload else parseHexBytes w.ppPayloadHex }))
  else (w, none)

end WindowCanTx

/-- The window as a machine: `UiUpdate`, and what is sent. -/
def windowCanTx (dict : DictionaryTables) : Machine WindowCanTx TxInput (Option TxPacket) where
  step w
    | .hidden => (w, none)
    | .raw input => w.uiRawCan input
    | .proto input => w.uiPp dict input

/-! ### What the window keeps -/

/-- A choice: the one of a new window, or one from a list. -/
def Chosen (listed : UInt16 → Bool) (v : UInt32) : Prop :=
  v = 1 ∨ ∃ id, listed id = true ∧ v = id.toUInt32

/-- Fields of one name are of one type. -/
def ProtoPlexerMessageDef.Consistent (d : ProtoPlexerMessageDef) : Prop :=
  ∀ f ∈ d.fields, ∀ g ∈ d.fields, f.name = g.name → f.type = g.type

/-- The invariant of a window. -/
structure WindowCanTx.Ok (dict : DictionaryTables) (w : WindowCanTx) : Prop where
  msgId : Chosen (fun id => (dict.messages id).isSome) w.ppMsgId
  addressFrom : Chosen (fun id => (dict.addresses id).isSome) w.ppFrom
  addressTo : Chosen (fun id => (dict.addresses id).isSome) w.ppTo
  prio : w.ppPrio ≤ 15
  len : w.msg.len ≤ 8

/-- **The message that a window shows.**  Its payload is the text of bytes.  If the message has
fields, the text is that of the payload the fields make, and no field of a number shows more
than its type can hold. -/
structure WindowCanTx.Shows (dict : DictionaryTables) (w : WindowCanTx) (pm : ProtoPlexerMessage) :
    Prop where
  messageId : pm.messageId.toUInt32 = w.ppMsgId
  addressFrom : pm.addressFrom.toUInt32 = w.ppFrom
  addressTo : pm.addressTo.toUInt32 = w.ppTo
  priority : pm.priorityInverted.toUInt32 = w.ppPrio
  payload : pm.data = parseHexBytes w.ppPayloadHex
  fields : ∀ d, dict.dictionary.messages pm.messageId = some d → d.fields ≠ [] →
    pm.data = updatePayloadFromFields (some d) (w.ppFieldState pm.messageId) ∧
      w.ppPayloadHex = hexFromBytes pm.data
  values : ∀ d, dict.dictionary.messages pm.messageId = some d → d.Consistent → ∀ f ∈ d.fields,
    isNumber f.type = true →
      (w.ppFieldState pm.messageId f.name).value ≤ maxValueForType f.type

section Window

variable {dict : DictionaryTables} {w : WindowCanTx} {listed : UInt16 → Bool} {v : UInt32}

/-- What is chosen fits into 16 bits. -/
theorem Chosen.back (h : Chosen listed v) : v.toUInt16.toUInt32 = v := by
  rcases h with rfl | ⟨id, -, rfl⟩
  · rfl
  · rw [UInt16.toUInt16_toUInt32]

theorem Chosen.combo (h : Chosen listed v) (choice : Option UInt16) :
    Chosen listed (combo listed choice v) := by
  cases choice with
  | none => exact h
  | some id =>
    simp only [App.combo]
    split_ifs with hid
    · exact Or.inr ⟨id, hid, rfl⟩
    · exact h

/-- A widget for numbers shows no more than the type can hold. -/
theorem fieldWidget_le {f : ProtoPlexerField} (hf : isNumber f.type = true)
    (edit : Option FieldEdit) (st : ProtoPlexerFieldState) :
    (fieldWidget f edit st).value ≤ maxValueForType f.type := by
  simp only [fieldWidget, hf, if_true]
  split_ifs with hlt
  · exact UInt64.le_refl _
  · exact UInt64.not_lt.mp hlt

/-- **So do all widgets**, if fields of one name are of one type. -/
theorem fieldWidgets_le {d : ProtoPlexerMessageDef} (hd : d.Consistent)
    (edits : ℕ → Option FieldEdit) (fieldMap : String → ProtoPlexerFieldState)
    {f : ProtoPlexerField} (hf : f ∈ d.fields) (hnumber : isNumber f.type = true) :
    (fieldWidgets d.fields edits fieldMap f.name).value ≤ maxValueForType f.type := by
  obtain ⟨n, hn, rfl⟩ := List.mem_iff_getElem.mp hf
  have hplace : (d.fields[n], n) ∈ d.fields.zipIdx :=
    List.mem_zipIdx_iff_getElem?.mpr (by simp [hn])
  refine foldl_revise (fun f : ProtoPlexerField × ℕ => f.1.name)
    (fun f => fieldWidget f.1 (edits f.2))
    (P := fun name st => ∀ f ∈ d.fields, f.name = name → isNumber f.type = true →
      st.value ≤ maxValueForType f.type)
    (fun g hg st => ?_) fieldMap hplace _ hf rfl hnumber
  -- a field of the same name is of the same type
  intro f' hf' hname hnumber'
  have hmem : g.1 ∈ d.fields := List.mem_of_getElem? (List.mem_zipIdx_iff_getElem?.mp hg)
  have htype := hd f' hf' g.1 hmem hname
  rw [htype] at hnumber' ⊢
  exact fieldWidget_le hnumber' _ _

namespace WindowCanTx

/-- A new window. -/
theorem ok_initial (dict : DictionaryTables) : Ok dict {} where
  msgId := Or.inl rfl
  addressFrom := Or.inl rfl
  addressTo := Or.inl rfl
  prio := by decide
  len := by decide

/-- **The form of a frame** sends the frame that it shows, which is one. -/
theorem Ok.uiRawCan (h : w.Ok dict) (input : RawInput) :
    (w.uiRawCan input).1.Ok dict ∧ (w.uiRawCan input).1.ppFieldState = w.ppFieldState ∧
      ∀ packet ∈ (w.uiRawCan input).2, packet = .raw (w.uiRawCan input).1.msg ∧
        (w.uiRawCan input).1.msg.flags =
          if (w.uiRawCan input).1.extId then flagExtId else flagStdId := by
  have hlen : ∀ len : UInt16, (if len > 8 then 8 else len) ≤ 8 := by
    intro len
    split_ifs with hlt
    · exact UInt16.le_refl _
    · exact UInt16.not_lt.mp hlt
  unfold WindowCanTx.uiRawCan
  cases input.send with
  | true =>
    refine ⟨{ h with len := hlen _ }, rfl, fun packet hpacket => ?_⟩
    exact ⟨(Option.some.inj hpacket).symm, rfl⟩
  | false => exact ⟨{ h with len := hlen _ }, rfl, fun packet hpacket => absurd hpacket (by simp)⟩

theorem Ok.uiPpHead (h : w.Ok dict) (input : ProtoInput) : (w.uiPpHead dict input).Ok dict where
  msgId := h.msgId.combo input.msgId
  addressFrom := h.addressFrom.combo input.addressFrom
  addressTo := h.addressTo.combo input.addressTo
  prio := by
    simp only [WindowCanTx.uiPpHead]
    rw [UInt32.le_iff_toNat_le, UInt32.toNat_and]
    exact Nat.and_le_right
  len := h.len

/-- **The payload** is what the text spells, and if there are fields, what they make. -/
theorem uiPpPayload_spec (dict : DictionaryTables) (w : WindowCanTx) (input : ProtoInput) :
    let r := w.uiPpPayload dict input
    r.1 = { w with ppFieldState := r.1.ppFieldState, ppPayloadHex := r.1.ppPayloadHex } ∧
      r.2 = parseHexBytes r.1.ppPayloadHex ∧
      (∀ id, id ≠ w.ppMsgId.toUInt16 → r.1.ppFieldState id = w.ppFieldState id) ∧
      ∀ d, dict.dictionary.messages w.ppMsgId.toUInt16 = some d → d.fields ≠ [] →
        r.2 = updatePayloadFromFields (some d) (r.1.ppFieldState w.ppMsgId.toUInt16) ∧
          r.1.ppPayloadHex = hexFromBytes r.2 ∧
          (d.Consistent → ∀ f ∈ d.fields, isNumber f.type = true →
            (r.1.ppFieldState w.ppMsgId.toUInt16 f.name).value ≤ maxValueForType f.type) := by
  simp only [WindowCanTx.uiPpPayload]
  cases hdef : (dict.dictionary.messages w.ppMsgId.toUInt16).filter fun d => !d.fields.isEmpty with
  | none =>
    refine ⟨rfl, rfl, fun id _ => rfl, fun d hd hfields => ?_⟩
    rw [hd, Option.filter_some] at hdef
    simp [hfields] at hdef
  | some d =>
    refine ⟨rfl, (parseHexBytes_hexFromBytes _).symm, fun id hid => ?_, fun d' hd' hfields => ?_⟩
    · exact Function.update_of_ne hid _ _
    · obtain ⟨hd, -⟩ := Option.filter_eq_some_iff.mp hdef
      obtain rfl : d = d' := Option.some.inj (hd.symm.trans hd')
      simp only [Function.update_self]
      exact ⟨trivial, trivial, fun hconsistent f hf hnumber =>
        fieldWidgets_le hconsistent _ _ hf hnumber⟩

/-- **The form of a message** sends the message that it shows. -/
theorem Ok.uiPp (h : w.Ok dict) (input : ProtoInput) :
    let r := w.uiPp dict input
    r.1.Ok dict ∧ (∀ packet ∈ r.2, ∃ pm, packet = .proto pm ∧ r.1.Shows dict pm) ∧
      ∀ id, id ≠ r.1.ppMsgId.toUInt16 → r.1.ppFieldState id = w.ppFieldState id := by
  have hhead := h.uiPpHead input
  obtain ⟨hsame, hpayload, hothers, hfields⟩ := uiPpPayload_spec dict (w.uiPpHead dict input) input
  set w₁ := w.uiPpHead dict input with hw₁
  set r := w₁.uiPpPayload dict input with hr
  have hwindow : (w.uiPp dict input).1 = r.1 := by
    simp only [WindowCanTx.uiPp, ← hw₁, ← hr]
    split_ifs <;> rfl
  have hid : r.1.ppMsgId = w₁.ppMsgId := by rw [hsame]
  have hfrom : r.1.ppFrom = w₁.ppFrom := by rw [hsame]
  have hto : r.1.ppTo = w₁.ppTo := by rw [hsame]
  have hprio : r.1.ppPrio = w₁.ppPrio := by rw [hsame]
  have hmsg : r.1.msg = w₁.msg := by rw [hsame]
  rw [← hid] at hothers hfields
  have hok : r.1.Ok dict := by
    constructor
    · rw [hid]
      exact hhead.msgId
    · rw [hfrom]
      exact hhead.addressFrom
    · rw [hto]
      exact hhead.addressTo
    · rw [hprio]
      exact hhead.prio
    · rw [hmsg]
      exact hhead.len
  intro r'
  have hr' : r'.1 = r.1 := hwindow
  rw [hr']
  refine ⟨hok, fun packet hpacket => ?_, hothers⟩
  simp only [r', WindowCanTx.uiPp, ← hw₁, ← hr] at hpacket
  by_cases hsend : input.send = true
  swap
  · rw [if_neg hsend] at hpacket
    exact absurd hpacket (by simp)
  rw [if_pos hsend] at hpacket
  -- a payload without bytes is computed once more, from the text
  have hdata : (if !r.2.isEmpty then r.2 else parseHexBytes r.1.ppPayloadHex) = r.2 := by
    split_ifs
    · rfl
    · exact hpayload.symm
  rw [hdata] at hpacket
  refine ⟨_, (Option.some.inj hpacket).symm, ?_⟩
  have hpriority : r.1.ppPrio.toUInt8.toUInt32 = r.1.ppPrio := by
    have hle := UInt32.le_iff_toNat_le.mp hok.prio
    rw [← UInt32.toNat_inj, UInt8.toNat_toUInt32, UInt32.toNat_toUInt8]
    exact Nat.mod_eq_of_lt (lt_of_le_of_lt hle (by decide))
  exact {
    messageId := hok.msgId.back
    addressFrom := hok.addressFrom.back
    addressTo := hok.addressTo.back
    priority := hpriority
    payload := hpayload
    fields := fun d hd hne => ⟨(hfields d hd hne).1, (hfields d hd hne).2.1⟩
    values := fun d hd hconsistent f hf hnumber =>
      (hfields d hd (List.ne_nil_of_mem hf)).2.2 hconsistent f hf hnumber }

/-- The window is drawn: the invariant is kept, what is sent is what it shows, and what was
entered for other messages is still there. -/
theorem Ok.step (h : w.Ok dict) (input : TxInput) :
    let r := (windowCanTx dict).step w input
    r.1.Ok dict ∧
      (∀ msg, r.2 = some (.raw msg) →
        msg = r.1.msg ∧ msg.flags = if r.1.extId then flagExtId else flagStdId) ∧
      (∀ pm, r.2 = some (.proto pm) → r.1.Shows dict pm) ∧
      ∀ id, id ≠ r.1.ppMsgId.toUInt16 → r.1.ppFieldState id = w.ppFieldState id := by
  cases input with
  | hidden => exact ⟨h, by simp [windowCanTx], by simp [windowCanTx], fun _ _ => rfl⟩
  | raw input =>
    obtain ⟨hok, hsame, hsent⟩ := h.uiRawCan input
    refine ⟨hok, fun msg hmsg => ?_, fun pm hpm => ?_, fun id _ => congrFun hsame id⟩
    · obtain ⟨hpacket, hflags⟩ := hsent _ hmsg
      obtain rfl := RxPacket.raw.inj hpacket
      exact ⟨rfl, hflags⟩
    · obtain ⟨hpacket, -⟩ := hsent _ hpm
      exact absurd hpacket (by simp)
  | proto input =>
    obtain ⟨hok, hsent, hothers⟩ := h.uiPp input
    refine ⟨hok, fun msg hmsg => ?_, fun pm hpm => ?_, hothers⟩
    · obtain ⟨pm, hpacket, -⟩ := hsent _ hmsg
      exact absurd hpacket (by simp)
    · obtain ⟨pm', hpacket, hshows⟩ := hsent _ hpm
      obtain rfl := RxPacket.proto.inj hpacket
      exact hshows

end WindowCanTx

end Window

/-- The invariant holds after every run. -/
theorem windowCanTx_ok (dict : DictionaryTables) (inputs : List TxInput) :
    ((windowCanTx dict).final {} inputs).Ok dict :=
  (windowCanTx dict).final_of_step (P := WindowCanTx.Ok dict) inputs (WindowCanTx.ok_initial dict)
    fun _ input _ h => (h.step input).1

/-- **In every run, what is sent is what the window shows**, whatever is entered while it is
drawn.  A frame has the identifier, the kind and the bytes that are shown, and at most eight of
them.  The identifier and the addresses of a message are the ones that are shown, which are
those of a new window or have been chosen from the dictionary; its priority is one of the
sixteen; its payload is spelled by the text that is shown, and is the one of the fields if it
has any, none of which shows a number that its type cannot hold.  And what was entered for the
fields of other messages is kept. -/
theorem form_sends_what_it_shows (dict : DictionaryTables) (inputs : List TxInput)
    (input : TxInput) :
    let w := (windowCanTx dict).final {} inputs
    let r := (windowCanTx dict).step w input
    r.1.Ok dict ∧
      (∀ msg, r.2 = some (.raw msg) →
        msg = r.1.msg ∧ msg.flags = if r.1.extId then flagExtId else flagStdId) ∧
      (∀ pm, r.2 = some (.proto pm) → r.1.Shows dict pm) ∧
      ∀ id, id ≠ r.1.ppMsgId.toUInt16 → r.1.ppFieldState id = w.ppFieldState id :=
  (windowCanTx_ok dict inputs).step input

end App
end UniCan
