/-
`Value.lean` -- the tree that payloads and settings are read into.

A payload is JSON and a settings file is TOML, but both say the same kind of
thing: absent values, switches, numbers, texts, lists, and objects whose keys are
texts. One tree serves both, so a record is decoded by one set of rules whichever
way it was written (`Decode`), and what the program reports is built from the
same tree (`Json.Writer`).

A number keeps the way it was written, as an integer or as a floating-point
value: `1` and `1.0` are different parameters. An object read from a payload has
its keys in ascending order and each of them once; an object built for a report
keeps the order it was built in.
-/
import LayerScript.Decimal.Layout
import LayerScript.Text.Quoted

set_option autoImplicit false

namespace LayerScript

/-- A number of a document. -/
inductive Number where
  | int (value : Int)
  | float (value : Binary64)
deriving DecidableEq, Repr

/-- The text of a number, as a JSON document would hold it. -/
def Number.text : Number → String
  | .int value => toString value
  | .float value => Decimal.Layout.json.text value

/-- The binary64 value of a number. -/
def Number.toBinary64 : Number → Binary64
  | .int value => .ofInt value
  | .float value => value

/-- A document. -/
inductive Value where
  | null
  | bool (value : Bool)
  | number (value : Number)
  | text (value : String)
  | list (items : List Value)
  | object (fields : List (String × Value))
deriving Repr, Inhabited

namespace Value

/-- An integer as a document. -/
def ofNat (n : Nat) : Value := .number (.int n)

/-- A list of texts as a document. -/
def texts (items : List String) : Value := .list (items.map .text)

/-- An optional document; absence is `null`. -/
def ofOption {α : Type} (write : α → Value) : Option α → Value
  | none => .null
  | some a => write a

/-- What a message calls a value: its kind, and the value itself where that is short. -/
def describe : Value → String
  | .null => "null"
  | .bool value => "boolean `" ++ (if value then "true" else "false") ++ "`"
  | .number (.int value) => "integer `" ++ toString value ++ "`"
  | .number (.float value) => "floating point `" ++ (Number.float value).text ++ "`"
  | .text value => "string " ++ Text.quoted value
  | .list _ => "sequence"
  | .object _ => "map"

/-- The fields of an object; other documents have none. -/
def fields : Value → List (String × Value)
  | .object fields => fields
  | _ => []

/-- The value at a key of an object. -/
def field? (v : Value) (key : String) : Option Value :=
  v.fields.lookup key

end Value

/-! ## Objects in key order -/

/-- Puts a field in its place among fields that ascend by key. A key that is there
already gets the new value. -/
def insertField (key : String) (value : Value) : List (String × Value) → List (String × Value)
  | [] => [(key, value)]
  | (k, v) :: rest =>
    if key = k then (key, value) :: rest
    else if key < k then (key, value) :: (k, v) :: rest
    else (k, v) :: insertField key value rest

/-- The object with these fields, keys ascending, where of equal keys the last one counts. -/
def Value.ofFields (fields : List (String × Value)) : Value :=
  .object (fields.foldl (fun sorted (key, value) => insertField key value sorted) [])

end LayerScript
