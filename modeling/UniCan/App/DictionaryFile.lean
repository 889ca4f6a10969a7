import Mathlib.Data.List.Basic
import UniCan.App.Dictionary
import UniCan.Foundation.Filling

/-!
# Loading the dictionary

The dictionary comes from a JSON file, `protoplexer_dictionary.cpp`.  The loader looks at
the path, the file and the root of the tree, empties the tables, and fills them while it
walks the tree.  A call that throws on the way ends the load, which then fails.

## Main definitions

* `Json`, `File` — the tree of a file, and what a path leads to.
* `stoul`, `stol`, `parseU16`, `parseU32`, `parseI32` — numbers.
* `readMessage`, `readMessageMember`, `readAddress`, `readAddressMember` — the elements.
* `tryLoadFromFile`, `getProtoPlexerDictionary` — the loader and its caller.
* `elements`, `Malformed` — the elements of a tree in their order, and the bad ones.
* `DictionaryTables.Holds` — tables with certain entries, the last one for each key.

## Main results

* `fillTables_eq_fill` — the loader's loops are one walk over the elements.
* `fillTables_holds` — **the tables hold what stands in front of the first bad element.**
* `tryLoadFromFile_ok_iff` — when the loader succeeds.
* `tryLoadFromFile_unchanged_iff` — **when a failed load leaves the tables alone.**
-/

namespace UniCan.App

/-! ### The tree of a file -/

/-- A JSON value as the parser yields it.  A number without a sign is unsigned, the others
are integers unless they have a fraction or an exponent; nobody reads the value of those or
of a Boolean.  The members of an object are in the order of iteration. -/
inductive Json where
  | null
  | boolean
  | unsigned (v : UInt64)
  | integer (v : Int64)
  | float
  | string (s : String)
  | array (items : List Json)
  | object (members : List (String × Json))

/-- What a call throws, each with the data its text is made from. -/
inductive Thrown where
  /-- `std::filesystem::exists`. -/
  | filesystemError (text : String)
  /-- The parser. -/
  | parseError (text : String)
  /-- A conversion to a string, from a value of another type. -/
  | typeError (found : String)
  /-- `std::stoul` or `std::stol`: no number. -/
  | invalidArgument (function : String)
  /-- `std::stoul` or `std::stol`: a number that does not fit. -/
  | outOfRange (function : String)
  deriving DecidableEq, Repr

/-- What a path leads to. -/
inductive File where
  | inaccessible (thrown : Thrown)
  | missing
  | unopenable
  | unparsable (thrown : Thrown)
  | tree (j : Json)

namespace Json

/-- The member of an object under a key, `contains` and `at`. -/
def at? : Json → String → Option Json
  | .object members, key => members.lookup key
  | _, _ => none

/-- `type_name`. -/
def typeName : Json → String
  | null => "null"
  | boolean => "boolean"
  | string _ => "string"
  | array _ => "array"
  | object _ => "object"
  | _ => "number"

/-- `get<std::string>`. -/
def getString : Json → Except Thrown String
  | string s => .ok s
  | j => .error (.typeError j.typeName)

/-- `value`: the text under a key, or the default. -/
def value (j : Json) (key default : String) : Except Thrown String :=
  match j.at? key with
  | none => .ok default
  | some v => v.getString

/-- A member that is converted if it is there. -/
def optional {α : Type} (j : Json) (key : String) (parse : Json → Except Thrown α) (default : α) :
    Except Thrown α :=
  match j.at? key with
  | none => .ok default
  | some v => parse v

def isObject : Json → Bool
  | object _ => true
  | _ => false

end Json

/-! ### Numbers -/

/-- `isspace`. -/
def isspace (c : Char) : Bool := c.toNat == 32 || (9 ≤ c.toNat && c.toNat ≤ 13)

/-- The base of a numeral and the text its digits start at: `0x` in front of a hexadecimal
digit, or `0`, or neither. -/
def detectBase : List Char → ℕ × List Char
  | '0' :: x :: d :: rest =>
    if (x = 'x' ∨ x = 'X') ∧ isxdigit d then (16, d :: rest) else (8, '0' :: x :: d :: rest)
  | '0' :: rest => (8, '0' :: rest)
  | text => (10, text)

/-- The number a text starts with: whether it has a minus, and its magnitude. -/
def leadingNumber (s : String) : Option (Bool × ℕ) :=
  let text := s.toList.dropWhile isspace
  let unsigned := if text.head? = some '-' ∨ text.head? = some '+' then text.tail else text
  let (base, rest) := detectBase unsigned
  let digits := rest.takeWhile fun c => isxdigit c && xdigit c < base
  if digits = [] then none
  else some (text.head? = some '-', digits.foldl (fun v c => base * v + xdigit c) 0)

/-- `std::stoul` in base 0, where `unsigned long` has 64 bits.  A minus negates within
that type. -/
def stoul (s : String) : Except Thrown UInt64 :=
  match leadingNumber s with
  | none => .error (.invalidArgument "stoul")
  | some (negative, v) =>
    if v < 2 ^ 64 then .ok (if negative then -UInt64.ofNat v else UInt64.ofNat v)
    else .error (.outOfRange "stoul")

/-- `std::stol` in base 0, where `long` has 64 bits. -/
def stol (s : String) : Except Thrown Int64 :=
  match leadingNumber s with
  | none => .error (.invalidArgument "stol")
  | some (negative, v) =>
    let value : ℤ := if negative then -v else v
    if -2 ^ 63 ≤ value ∧ value < 2 ^ 63 then .ok (Int64.ofInt value)
    else .error (.outOfRange "stol")

def parseU16 : Json → Except Thrown UInt16
  | .unsigned v => .ok (v.toUInt32 &&& 0xFFFF).toUInt16
  | .integer v => .ok (v.toUInt64.toUInt32 &&& 0xFFFF).toUInt16
  | .string s => (stoul s).map fun v => (v &&& 0xFFFF).toUInt16
  | _ => .ok 0

def parseU32 : Json → Except Thrown UInt32
  | .unsigned v => .ok v.toUInt32
  | .integer v => .ok v.toUInt64.toUInt32
  | .string s => (stoul s).map UInt64.toUInt32
  | _ => .ok 0

/-- An unsigned number is an integer too, so that its own branch is never taken. -/
def parseI32 : Json → Except Thrown Int32
  | .unsigned v => .ok v.toInt64.toInt32
  | .integer v => .ok v.toInt32
  | .string s => (stol s).map Int64.toInt32
  | _ => .ok 0

example : (stoul "0x11F junk").toOption = some 287 := by decide

/-! ### The tables -/

/-- A field as the file describes it, also with its size. -/
structure DictionaryField extends ProtoPlexerField where
  size : UInt32 := 0
  deriving DecidableEq, Repr

/-- A message as the file describes it. -/
structure DictionaryMessage where
  id : UInt16
  name : String
  fields : List DictionaryField := []
  deriving DecidableEq, Repr

/-- `m_messages` and `m_addresses`. -/
@[ext] structure DictionaryTables where
  messages : UInt16 → Option DictionaryMessage
  addresses : UInt16 → Option String

namespace DictionaryTables

/-- The tables after `clear`. -/
def empty : DictionaryTables := ⟨fun _ => none, fun _ => none⟩

def setMessage (t : DictionaryTables) (definition : DictionaryMessage) : DictionaryTables :=
  { t with messages := put t.messages (definition.id, definition) }

def setAddress (t : DictionaryTables) (entry : UInt16 × String) : DictionaryTables :=
  { t with addresses := put t.addresses entry }

end DictionaryTables

/-! ### The elements -/

/-- A field of a message; what is no object or has no name is skipped. -/
def readFieldDef (fj : Json) : Except Thrown (Option DictionaryField) :=
  match fj.at? "name" with
  | none => .ok none
  | some name => do
    let name ← name.getString
    let type ← fj.value "type" ""
    let offset ← fj.optional "offset" parseU32 0
    let size ← fj.optional "size" parseU32 0
    let bit ← fj.optional "bit" parseI32 (-1)
    return some { name, type, offset, size, bit := bit.toInt }

/-- The fields of a message; whatever is no array is left out. -/
def readFieldDefs : Option Json → Except Thrown (List DictionaryField)
  | some (.array items) => items.filterMapM readFieldDef
  | _ => .ok []

/-- An item of the array `message_ids`. -/
def readMessage (item : Json) : Except Thrown (Option DictionaryMessage) :=
  match item.at? "id", item.at? "name" with
  | some id, some name => do
    let id ← parseU16 id
    let name ← name.getString
    let fields ← readFieldDefs (item.at? "fields")
    return some { id, name, fields }
  | _, _ => .ok none

/-- A member of the object `message_ids`.  The key is converted before the value is looked
at, so that a bad key is an error even where the member would be skipped. -/
def readMessageMember (member : String × Json) : Except Thrown (Option DictionaryMessage) := do
  let id ← stoul member.1
  if member.2.isObject then
    let name ← member.2.value "name" ""
    return some { id := (id &&& 0xFFFF).toUInt16, name }
  else return none

/-- An item of the array `addresses`. -/
def readAddress (item : Json) : Except Thrown (Option (UInt16 × String)) :=
  match item.at? "addr", item.at? "name" with
  | some addr, some name => do
    let addr ← parseU16 addr
    let name ← name.getString
    return some (addr, name)
  | _, _ => .ok none

/-- A member of the object `addresses`. -/
def readAddressMember (member : String × Json) : Except Thrown (Option (UInt16 × String)) := do
  let addr ← stoul member.1
  match member.2 with
  | .string name => return some ((addr &&& 0xFFFF).toUInt16, name)
  | _ => return none

/-! ### The loader -/

/-- A loop over the items of an array or the members of an object; what is neither, or is
not there, is left out. -/
def fillEach {β : Type} (readItem : Json → Except Thrown (Option β))
    (readMember : String × Json → Except Thrown (Option β))
    (store : DictionaryTables → β → DictionaryTables) :
    Option Json → DictionaryTables → DictionaryTables × Option Thrown
  | some (.array items), t => fill readItem store items t
  | some (.object members), t => fill readMember store members t
  | _, t => (t, none)

/-- The loop over `message_ids`. -/
def fillMessages : Option Json → DictionaryTables → DictionaryTables × Option Thrown :=
  fillEach readMessage readMessageMember .setMessage

/-- The loop over `addresses`. -/
def fillAddresses : Option Json → DictionaryTables → DictionaryTables × Option Thrown :=
  fillEach readAddress readAddressMember .setAddress

/-- Both loops, on empty tables. -/
def fillTables (root : Json) : DictionaryTables × Option Thrown :=
  match fillMessages (root.at? "message_ids") .empty with
  | (t, none) => fillAddresses (root.at? "addresses") t
  | (t, some thrown) => (t, some thrown)

/-- The value the loader works on: that under the key `protoplexer` if there is one. -/
def rootOf (j : Json) : Json := (j.at? "protoplexer").getD j

/-- The outcome of a load.  The text is the one for `out_error`. -/
structure LoadResult where
  ok : Bool
  error : Option String
  tables : DictionaryTables

/-- **`TryLoadFromFile`**, of a path that leads to `file`.  The libraries' own texts are a
parameter. -/
def tryLoadFromFile (what : Thrown → String) (path : String) (file : File)
    (t : DictionaryTables) : LoadResult :=
  if path = "" then ⟨false, some "empty path", t⟩
  else
    match file with
    | .inaccessible thrown => ⟨false, some (what thrown), t⟩
    | .missing => ⟨false, some "file does not exist", t⟩
    | .unopenable => ⟨false, some "failed to open file", t⟩
    | .unparsable thrown => ⟨false, some (what thrown), t⟩
    | .tree j =>
      if (rootOf j).isObject then
        match fillTables (rootOf j) with
        | (t', none) => ⟨true, none, t'⟩
        | (t', some thrown) => ⟨false, some (what thrown), t'⟩
      else ⟨false, some "root is not an object", t⟩

/-- `GetProtoPlexerDictionary`: the tables after the first file, and after the second one if
the first was no good. -/
def getProtoPlexerDictionary (what : Thrown → String) (file file' : File) : DictionaryTables :=
  let first := tryLoadFromFile what "protoplexer_dict.json" file .empty
  if first.ok then first.tables
  else (tryLoadFromFile what "src_app/protoplexer_dict.json" file' first.tables).tables

/-! ### The elements of a tree -/

/-- An element of the tree that a loop reads. -/
inductive Element where
  | message (item : Json)
  | messageMember (member : String × Json)
  | address (item : Json)
  | addressMember (member : String × Json)

/-- What an element adds to the tables. -/
inductive Entry where
  | message (definition : DictionaryMessage)
  | address (entry : UInt16 × String)
  deriving DecidableEq, Repr

/-- The elements of an array or of an object. -/
def elementsOf (item : Json → Element) (member : String × Json → Element) :
    Option Json → List Element
  | some (.array items) => items.map item
  | some (.object members) => members.map member
  | _ => []

/-- The elements of a tree, in the order in which they are read. -/
def elements (root : Json) : List Element :=
  elementsOf .message .messageMember (root.at? "message_ids") ++
    elementsOf .address .addressMember (root.at? "addresses")

/-- What an element gives. -/
def Element.read : Element → Except Thrown (Option Entry)
  | .message item => (readMessage item).map (Option.map .message)
  | .messageMember member => (readMessageMember member).map (Option.map .message)
  | .address item => (readAddress item).map (Option.map .address)
  | .addressMember member => (readAddressMember member).map (Option.map .address)

/-- The entries in front of the first bad element. -/
def loaded (root : Json) : List Entry := front Element.read (elements root)

/-- A message by its identifier, if the entry is one. -/
def Entry.message? : Entry → Option (UInt16 × DictionaryMessage)
  | .message definition => some (definition.id, definition)
  | .address _ => none

/-- A name by its address, if the entry is one. -/
def Entry.address? : Entry → Option (UInt16 × String)
  | .message _ => none
  | .address entry => some entry

namespace DictionaryTables

/-- Tables that hold certain entries and no others; of several with one key, the last. -/
structure Holds (t : DictionaryTables) (entries : List Entry) : Prop where
  messages : ∀ id, t.messages id = (entries.filterMap Entry.message?).reverse.lookup id
  addresses : ∀ addr, t.addresses addr = (entries.filterMap Entry.address?).reverse.lookup addr

/-- An entry added to the tables. -/
def set (t : DictionaryTables) : Entry → DictionaryTables
  | .message definition => t.setMessage definition
  | .address entry => t.setAddress entry

theorem set_messages (t : DictionaryTables) (entry : Entry) :
    (t.set entry).messages = entry.message?.elim t.messages (put t.messages) := by
  cases entry <;> rfl

theorem set_addresses (t : DictionaryTables) (entry : Entry) :
    (t.set entry).addresses = entry.address?.elim t.addresses (put t.addresses) := by
  cases entry <;> rfl

theorem holds_foldl_set (entries : List Entry) : (entries.foldl set empty).Holds entries where
  messages id := by
    rw [foldl_component set_messages, foldl_put_apply]
    exact Option.or_none
  addresses addr := by
    rw [foldl_component set_addresses, foldl_put_apply]
    exact Option.or_none

/-- The entries determine the tables that hold them. -/
theorem Holds.eq {t t' : DictionaryTables} {entries : List Entry} (h : t.Holds entries)
    (h' : t'.Holds entries) : t = t' := by
  ext1
  · funext id
    rw [h.messages, h'.messages]
  · funext addr
    rw [h.addresses, h'.addresses]

end DictionaryTables

namespace Json

/-- There is a member under the key, and it is of the given kind. -/
def Has (j : Json) (key : String) (P : Json → Prop) : Prop := ∃ v, j.at? key = some v ∧ P v

/-- A text that is not the number it should be. -/
def NoNumber {α : Type} (convert : String → Except Thrown α) (j : Json) : Prop :=
  ∃ s, j = .string s ∧ Fails (convert s)

/-- A value that is no text. -/
def NoText (j : Json) : Prop := ∀ s, j ≠ .string s

/-- A field that has a name, but not every member as it should be. -/
def BadField (fj : Json) : Prop :=
  fj.Has "name" fun name => name.NoText ∨ fj.Has "type" NoText ∨
    fj.Has "offset" (NoNumber stoul) ∨ fj.Has "size" (NoNumber stoul) ∨
    fj.Has "bit" (NoNumber stol)

/-- An array with a bad field in it. -/
def BadFields (j : Json) : Prop := ∃ items, j = .array items ∧ ∃ fj ∈ items, BadField fj

end Json

/-- **A bad element**: one that would be stored but for a member of the wrong kind, or one
whose key is no number. -/
def Malformed : Element → Prop
  | .message item => item.Has "id" fun id => item.Has "name" fun name =>
      id.NoNumber stoul ∨ name.NoText ∨ item.Has "fields" Json.BadFields
  | .messageMember (key, value) =>
      Fails (stoul key) ∨ (value.isObject ∧ value.Has "name" Json.NoText)
  | .address item => item.Has "addr" fun addr => item.Has "name" fun name =>
      addr.NoNumber stoul ∨ name.NoText
  | .addressMember (key, _) => Fails (stoul key)

theorem fails_getString (j : Json) : Fails j.getString ↔ j.NoText := by
  cases j <;> simp [Json.getString, Json.NoText]

theorem fails_parseU16 (j : Json) : Fails (parseU16 j) ↔ j.NoNumber stoul := by
  cases j <;> simp [parseU16, Json.NoNumber]

theorem fails_parseU32 (j : Json) : Fails (parseU32 j) ↔ j.NoNumber stoul := by
  cases j <;> simp [parseU32, Json.NoNumber]

theorem fails_parseI32 (j : Json) : Fails (parseI32 j) ↔ j.NoNumber stol := by
  cases j <;> simp [parseI32, Json.NoNumber]

theorem fails_optional {α : Type} {parse : Json → Except Thrown α} {P : Json → Prop}
    (hparse : ∀ v, Fails (parse v) ↔ P v) (j : Json) (key : String) (default : α) :
    Fails (j.optional key parse default) ↔ j.Has key P := by
  rw [Json.optional, Json.Has]
  cases j.at? key with
  | none => simp
  | some v => simp [hparse]

theorem fails_value (j : Json) (key default : String) :
    Fails (j.value key default) ↔ j.Has key Json.NoText :=
  fails_optional fails_getString j key default

theorem bad_readFieldDef (fj : Json) : Bad readFieldDef fj ↔ fj.BadField := by
  rw [Bad, readFieldDef, Json.BadField, Json.Has]
  cases fj.at? "name" with
  | none => simp
  | some name =>
    simp only [Option.some.injEq, exists_eq_left']
    apply fails_bind (fails_getString name)
    intro _
    apply fails_bind (fails_value fj "type" "")
    intro _
    apply fails_bind (fails_optional fails_parseU32 fj "offset" 0)
    intro _
    apply fails_bind (fails_optional fails_parseU32 fj "size" 0)
    intro _
    exact fails_bind_pure (fails_optional fails_parseI32 fj "bit" (-1)) _

theorem fails_readFieldDefs (item : Json) :
    Fails (readFieldDefs (item.at? "fields")) ↔ item.Has "fields" Json.BadFields := by
  rw [Json.Has]
  cases item.at? "fields" with
  | none => simp [readFieldDefs]
  | some v =>
    cases v with
    | array items =>
      rw [readFieldDefs, fails_filterMapM]
      simp [Json.BadFields, bad_readFieldDef]
    | _ => simp [readFieldDefs, Json.BadFields]

theorem bad_readMessage (item : Json) : Bad readMessage item ↔ Malformed (.message item) := by
  rw [Bad, readMessage, Malformed, Json.Has]
  cases item.at? "id" with
  | none => simp
  | some id =>
    cases hname : item.at? "name" with
    | none => simp [Json.Has, hname]
    | some name =>
      simp only [Json.Has, hname, Option.some.injEq, exists_eq_left']
      apply fails_bind (fails_parseU16 id)
      intro _
      apply fails_bind (fails_getString name)
      intro _
      exact fails_bind_pure (fails_readFieldDefs item) _

theorem bad_readMessageMember (member : String × Json) :
    Bad readMessageMember member ↔ Malformed (.messageMember member) := by
  rw [Bad, readMessageMember, Malformed]
  apply fails_bind Iff.rfl
  intro _
  cases member.2.isObject with
  | false => simp [pure, Except.pure]
  | true => simpa using fails_bind_pure (fails_value member.2 "name" "") _

theorem bad_readAddress (item : Json) : Bad readAddress item ↔ Malformed (.address item) := by
  rw [Bad, readAddress, Malformed, Json.Has]
  cases item.at? "addr" with
  | none => simp
  | some addr =>
    cases hname : item.at? "name" with
    | none => simp [Json.Has, hname]
    | some name =>
      simp only [Json.Has, hname, Option.some.injEq, exists_eq_left']
      apply fails_bind (fails_parseU16 addr)
      intro _
      exact fails_bind_pure (fails_getString name) _

theorem bad_readAddressMember (member : String × Json) :
    Bad readAddressMember member ↔ Malformed (.addressMember member) := by
  rw [Bad, readAddressMember, Malformed]
  refine (fails_bind Iff.rfl fun addr => iff_false_intro ?_).trans (or_iff_left id)
  cases member.2 <;> simp [pure, Except.pure]

/-- **An element is bad exactly if it is malformed.** -/
theorem bad_read_iff (e : Element) : Bad Element.read e ↔ Malformed e := by
  cases e with
  | message item => exact (fails_map _ _).trans (bad_readMessage item)
  | messageMember member => exact (fails_map _ _).trans (bad_readMessageMember member)
  | address item => exact (fails_map _ _).trans (bad_readAddress item)
  | addressMember member => exact (fails_map _ _).trans (bad_readAddressMember member)

/-! ### What a load does -/

/-- A loop is a walk over its elements. -/
theorem fillEach_eq_fill {β : Type} {readItem : Json → Except Thrown (Option β)}
    {readMember : String × Json → Except Thrown (Option β)}
    {store : DictionaryTables → β → DictionaryTables} (item : Json → Element)
    (member : String × Json → Element) (entry : β → Entry)
    (hitem : ∀ j, (item j).read = (readItem j).map (Option.map entry))
    (hmember : ∀ m, (member m).read = (readMember m).map (Option.map entry))
    (hstore : ∀ t b, DictionaryTables.set t (entry b) = store t b) (j : Option Json)
    (t : DictionaryTables) :
    fillEach readItem readMember store j t =
      fill Element.read .set (elementsOf item member j) t := by
  cases j with
  | none => rfl
  | some j =>
    cases j with
    | array items => exact fill_map item entry hitem hstore items t
    | object members => exact fill_map member entry hmember hstore members t
    | _ => rfl

/-- **The loops are one walk** over the elements. -/
theorem fillTables_eq_fill (root : Json) :
    fillTables root = fill Element.read .set (elements root) .empty := by
  have hmessages (t : DictionaryTables) : fillMessages (root.at? "message_ids") t =
      fill Element.read .set (elementsOf .message .messageMember (root.at? "message_ids")) t :=
    fillEach_eq_fill _ _ Entry.message (fun _ => rfl) (fun _ => rfl) (fun _ _ => rfl) _ t
  have haddresses (t : DictionaryTables) : fillAddresses (root.at? "addresses") t =
      fill Element.read .set (elementsOf .address .addressMember (root.at? "addresses")) t :=
    fillEach_eq_fill _ _ Entry.address (fun _ => rfl) (fun _ => rfl) (fun _ _ => rfl) _ t
  rw [fillTables, elements, fill_append, hmessages]
  rcases fill Element.read DictionaryTables.set _ DictionaryTables.empty with ⟨t, _ | thrown⟩
  · exact haddresses t
  · rfl

/-- **The tables hold what stands in front of the first bad element.** -/
theorem fillTables_holds (root : Json) : (fillTables root).1.Holds (loaded root) := by
  rw [fillTables_eq_fill, fill_fst]
  exact DictionaryTables.holds_foldl_set (loaded root)

theorem fillTables_snd_eq_none_iff (root : Json) :
    (fillTables root).2 = none ↔ ∀ e ∈ elements root, ¬ Malformed e := by
  rw [fillTables_eq_fill, fill_snd_eq_none_iff]
  simp only [bad_read_iff]

/-- The path leads to a tree that is walked. -/
def Reaches (path : String) (file : File) (j : Json) : Prop :=
  path ≠ "" ∧ file = .tree j ∧ (rootOf j).isObject

section Load

variable (what : Thrown → String) {path : String} {file : File} {t : DictionaryTables} {j : Json}

/-- What a load does once it walks a tree. -/
theorem tryLoadFromFile_of_reaches (h : Reaches path file j) :
    ((tryLoadFromFile what path file t).ok ↔ ∀ e ∈ elements (rootOf j), ¬ Malformed e) ∧
      (tryLoadFromFile what path file t).tables.Holds (loaded (rootOf j)) := by
  obtain ⟨hpath, rfl, hroot⟩ := h
  have hends := fillTables_snd_eq_none_iff (rootOf j)
  have hholds := fillTables_holds (rootOf j)
  rw [tryLoadFromFile, if_neg hpath, ← hends]
  simp only [hroot, if_true]
  rcases htables : fillTables (rootOf j) with ⟨t', _ | thrown⟩
  · exact ⟨by simp, by simpa [htables] using hholds⟩
  · exact ⟨by simp, by simpa [htables] using hholds⟩

/-- A load that walks no tree fails and leaves the tables alone. -/
theorem tryLoadFromFile_of_not_reaches (h : ∀ j, ¬ Reaches path file j) :
    (tryLoadFromFile what path file t).ok = false ∧
      (tryLoadFromFile what path file t).tables = t := by
  unfold tryLoadFromFile
  by_cases hpath : path = ""
  · rw [if_pos hpath]
    exact ⟨rfl, rfl⟩
  · rw [if_neg hpath]
    cases file with
    | tree j =>
      have hroot : ¬ (rootOf j).isObject := fun hroot => h j ⟨hpath, rfl, hroot⟩
      simp [hroot]
    | _ => exact ⟨rfl, rfl⟩

/-- **When a load succeeds**: it walks a tree, and no element of it is malformed. -/
theorem tryLoadFromFile_ok_iff : (tryLoadFromFile what path file t).ok ↔
    ∃ j, Reaches path file j ∧ ∀ e ∈ elements (rootOf j), ¬ Malformed e := by
  constructor
  · intro hok
    by_contra hnone
    by_cases h : ∃ j, Reaches path file j
    · obtain ⟨j, hj⟩ := h
      exact hnone ⟨j, hj, (tryLoadFromFile_of_reaches what hj).1.mp hok⟩
    · have hfails := (tryLoadFromFile_of_not_reaches what (t := t) (not_exists.mp h)).1
      rw [hfails] at hok
      contradiction
  · rintro ⟨j, hj, hgood⟩
    exact (tryLoadFromFile_of_reaches what hj).1.mpr hgood

end Load

/-- **When a failed load leaves the tables alone**: it walks no tree, or one without a
malformed element, with which it does not fail, or the tables already are what it makes of
them: they hold what stands in front of the first malformed element. -/
theorem tryLoadFromFile_unchanged_iff (what : Thrown → String) (path : String) (file : File)
    (t : DictionaryTables) :
    ((tryLoadFromFile what path file t).ok = false →
        (tryLoadFromFile what path file t).tables = t) ↔
      ∀ j, Reaches path file j →
        (∀ e ∈ elements (rootOf j), ¬ Malformed e) ∨ t.Holds (loaded (rootOf j)) := by
  constructor
  · intro h j hj
    obtain ⟨hok, hholds⟩ := tryLoadFromFile_of_reaches what hj (t := t)
    cases hresult : (tryLoadFromFile what path file t).ok with
    | true => exact Or.inl (hok.mp hresult)
    | false =>
      rw [h hresult] at hholds
      exact Or.inr hholds
  · intro h hfails
    by_cases hreaches : ∃ j, Reaches path file j
    · obtain ⟨j, hj⟩ := hreaches
      obtain ⟨hok, hholds⟩ := tryLoadFromFile_of_reaches what hj (t := t)
      rcases h j hj with hgood | hsame
      · rw [hok.mpr hgood] at hfails
        contradiction
      · exact hholds.eq hsame
    · exact (tryLoadFromFile_of_not_reaches what (not_exists.mp hreaches)).2

/-- An identifier that is no number, in the first message of a file: a dictionary that had a
message has none afterwards. -/
theorem tryLoadFromFile_changed :
    let t := DictionaryTables.empty.setMessage { id := 0x120, name := "RecordingStarted" }
    let item := Json.object [("id", .string "abc"), ("name", .string "Ping")]
    let file := File.tree (.object [("message_ids", .array [item])])
    let result := tryLoadFromFile (fun _ => "stoul") "protoplexer_dict.json" file t
    result.ok = false ∧ result.tables ≠ t := by
  intro t item file result
  refine ⟨by decide, fun h => ?_⟩
  have hmessage : result.tables.messages 0x120 = t.messages 0x120 := by rw [h]
  revert hmessage
  decide

/-- **A bad first file is half used** if there is no second one: the dictionary does not
stay empty. -/
theorem getProtoPlexerDictionary_of_bad (what : Thrown → String) {file file' : File} {j : Json}
    (hfile : Reaches "protoplexer_dict.json" file j)
    (hbad : ∃ e ∈ elements (rootOf j), Malformed e)
    (hfile' : ∀ j', ¬ Reaches "src_app/protoplexer_dict.json" file' j') :
    (getProtoPlexerDictionary what file file').Holds (loaded (rootOf j)) := by
  obtain ⟨hok, hholds⟩ := tryLoadFromFile_of_reaches what hfile (t := .empty)
  have hfails : ¬ (tryLoadFromFile what "protoplexer_dict.json" file .empty).ok := by
    intro hresult
    obtain ⟨e, he, hmalformed⟩ := hbad
    exact hok.mp hresult e he hmalformed
  simp only [getProtoPlexerDictionary, if_neg hfails]
  rwa [(tryLoadFromFile_of_not_reaches what hfile').2]

end UniCan.App
