/-
`Decode.lean` -- from documents to records.

A record is written as an object, or as a list that gives the fields by position.
Which of several faults is reported is part of the contract, so the rules are
spelt out here once and every record uses them:

* the fields of an object are visited in the order the object holds them, which
  is ascending by key for a payload, and the first that does not fit is reported;
  a list is visited from its first item;
* only then is a missing field reported, the first in the order of declaration;
* last, a list may hold no more items than the record has fields, unless the format
  of the document allows it.

`Slot` keeps these apart: a slot decodes its field when the record is opened,
`Record.settle` reports the first fault in visiting order, and taking a value out
of a slot can then only find it missing.
-/
import LayerScript.Value

set_option autoImplicit false

namespace LayerScript

/-! ## 1. Faults -/

/-- Why a document does not fit what was expected. -/
inductive Fault where
  | wrongType (found expected : String)
  | outOfRange (found : Int) (expected : String)
  | notSingleKey
  | wrongLength (length : Nat) (expected : String)
  | unknownField (name : String) (known : List String)
  | unknownVariant (name : String) (known : List String)
  | missingField (name : String)
  | notParameter
  | invalidIdentifier (name : String)
  | reservedName (name : String)
  | invalidParameters (layer : String) (cause : Fault)
  | invalidKind (layer kind : String)
deriving DecidableEq, Repr

/-- A name between backquotes. -/
def backquoted (name : String) : String :=
  "`" ++ name ++ "`"

/-- The names that would have been accepted, as a message lists them. -/
def alternatives : List String → String
  | [a] => backquoted a
  | [a, b] => backquoted a ++ " or " ++ backquoted b
  | names => "one of " ++ ", ".intercalate (names.map backquoted)

/-- The text of a fault. -/
def Fault.message : Fault → String
  | .wrongType found expected => "invalid type: " ++ found ++ ", expected " ++ expected
  | .outOfRange found expected =>
    "invalid value: " ++ (Value.number (.int found)).describe ++ ", expected " ++ expected
  | .notSingleKey => "invalid value: map, expected map with a single key"
  | .wrongLength length expected =>
    "invalid length " ++ toString length ++ ", expected " ++ expected
  | .unknownField name known =>
    "unknown field " ++ backquoted name ++ ", expected " ++ alternatives known
  | .unknownVariant name known =>
    "unknown variant " ++ backquoted name ++ ", expected " ++ alternatives known
  | .missingField name => "missing field " ++ backquoted name
  | .notParameter => "data did not match any variant of untagged enum ParamValue"
  | .invalidIdentifier name => "invalid identifier " ++ backquoted name
  | .reservedName name =>
    "layer name " ++ backquoted name ++ " is reserved by the generated code"
  | .invalidParameters layer cause =>
    "invalid parameters for layer " ++ backquoted layer ++ ": " ++ cause.message
  | .invalidKind layer kind =>
    "invalid node type " ++ backquoted kind ++ " for layer " ++ backquoted layer

/-- A decoder: from a document to what it says, or to why it says nothing. -/
abbrev Decoder (α : Type) := Value → Except Fault α

/-- The fault of a document of the wrong kind. -/
def mismatch {α : Type} (found : Value) (expected : String) : Except Fault α :=
  .error (.wrongType found.describe expected)

/-- Where formats differ in what a document may say. -/
structure Format where
  /-- Whether a value is the one that stands where there is nothing to say. -/
  isEmpty : Value → Bool
  /-- Whether a list may go on after the last field of the record it stands for. -/
  allowsSurplus : Bool

/-- In a JSON document `null` is the empty value, and lists may not go on. -/
def Format.json : Format where
  isEmpty
    | .null => true
    | _ => false
  allowsSurplus := false

/-- A number of elements, in words. -/
def elements (n : Nat) : String :=
  if n = 1 then "1 element" else toString n ++ " elements"

namespace Decode

/-! ## 2. Simple values -/

/-- A text. -/
def text : Decoder String
  | .text s => .ok s
  | v => mismatch v "a string"

/-- A text that names a place on the disk. -/
def path : Decoder String
  | .text s => .ok s
  | v => mismatch v "path string"

/-- A switch. -/
def bool : Decoder Bool
  | .bool b => .ok b
  | v => mismatch v "a boolean"

/-- A floating-point value; an integer stands for the value nearest to it. -/
def real : Decoder Binary64
  | .number n => .ok n.toBinary64
  | v => mismatch v "f64"

/-- A count of 32 bits. -/
def count : Decoder Nat
  | .number (.int i) =>
    if 0 ≤ i ∧ i < (Nat.pow 2 32 : Int) then .ok i.toNat else .error (.outOfRange i "u32")
  | v => mismatch v "u32"

/-- A value that `null` leaves out. -/
def optional {α : Type} (decode : Decoder α) : Decoder (Option α)
  | .null => .ok none
  | v => some <$> decode v

/-- The items of a list, decoded from the first on. -/
def items {α : Type} (decode : Decoder α) : List Value → Except Fault (List α)
  | [] => .ok []
  | v :: rest => do
    let a ← decode v
    let more ← items decode rest
    .ok (a :: more)

/-- A list. -/
def list {α : Type} (decode : Decoder α) : Decoder (List α)
  | .list vs => items decode vs
  | v => mismatch v "a sequence"

/-- The entries of a table from texts to texts. -/
def entries : List (String × Value) → Except Fault (List (String × String))
  | [] => .ok []
  | (key, v) :: rest => do
    let s ← text v
    let more ← entries rest
    .ok ((key, s) :: more)

/-- A table from texts to texts. -/
def table : Decoder (List (String × String))
  | .object fields => entries fields
  | v => mismatch v "a map"

/-- One of a closed set of names. The name stands alone, or as the one key of an
object whose value is empty; what counts as empty differs between formats. -/
def choice {α : Type} (format : Format) (options : List (String × α)) : Decoder α
  | .text name => pick name
  | .object [(name, content)] => do
    let a ← pick name
    if format.isEmpty content then .ok a else mismatch content "unit"
  | .object _ => .error .notSingleKey
  | v => mismatch v "string or map"
where
  /-- The option with a name. -/
  pick (name : String) : Except Fault α :=
    match options.lookup name with
    | some a => .ok a
    | none => .error (.unknownVariant name (options.map (·.1)))

end Decode

/-! ## 3. Records -/

/-- A record before its fields are taken out: the fields in the order they are
visited, and the number of items when they were given by position. -/
structure Record where
  name : String
  keys : List String
  fields : List (String × Value)
  items? : Option Nat

namespace Record

/-- Opens a document as a record with these keys, in the order of declaration. -/
def ofValue (name : String) (keys : List String) : Decoder Record
  | .object fields => .ok ⟨name, keys, fields, none⟩
  | .list items => .ok ⟨name, keys, keys.zip items, some items.length⟩
  | v => mismatch v ("struct " ++ name)

/-- The fault of a field that has to be there and is not. -/
def missing (r : Record) (key : String) : Fault :=
  match r.items? with
  | none => .missingField key
  | some _ =>
    .wrongLength (r.keys.idxOf key) ("struct " ++ r.name ++ " with " ++ elements r.keys.length)

/-- The first fault in visiting order, given the fault of each field. -/
def settle (r : Record) (faults : List (String × Option Fault)) : Except Fault Unit :=
  match r.fields.findSome? fun (key, _) => (faults.lookup key).join with
  | some fault => .error fault
  | none => .ok ()

/-- A list may not hold more items than the record has fields, unless the format allows it. -/
def close (r : Record) (format : Format) : Except Fault Unit :=
  match r.items? with
  | some length =>
    if r.keys.length < length && !format.allowsSurplus then
      .error (.wrongLength length "fewer elements in array")
    else .ok ()
  | none => .ok ()

end Record

/-- A field of a record: its key, and what decoding it gave if it was there. -/
structure Slot (α : Type) where
  key : String
  found : Option (Except Fault α)

namespace Slot

/-- The fault of a field that was there and did not fit, under its key. -/
def fault {α : Type} (s : Slot α) : String × Option Fault :=
  (s.key, match s.found with
    | some (.error f) => some f
    | _ => none)

/-- The value of a field, which has to be there. -/
def required {α : Type} (s : Slot α) (r : Record) : Except Fault α :=
  s.found.getD (.error (r.missing s.key))

/-- The value of a field, or its default when it is not there. -/
def orElse {α : Type} (s : Slot α) (default : α) : Except Fault α :=
  s.found.getD (.ok default)

end Slot

/-- The field of a record at a key. -/
def Record.slot {α : Type} (r : Record) (key : String) (decode : Decoder α) : Slot α :=
  ⟨key, (r.fields.lookup key).map decode⟩

end LayerScript
