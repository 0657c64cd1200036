/-
`Address/Hierarchy.lean` -- paths that lead from a root.

The path of an address is a list of segments. Two segments are not names: a single
point stays where it is, and two points lead one segment up, or nowhere at the
root. Either may be spelt by its bytes. A segment that names a drive is a root of
its own, so nothing leads up from it.
-/
import LayerScript.Address.Escape
import LayerScript.Text.Split

set_option autoImplicit false

namespace LayerScript.Address.Hierarchy

/-! ## 1. Segments -/

/-- A segment whose points are not spelt by their bytes. -/
def plainPoints : List Char → List Char
  | '%' :: '2' :: 'e' :: rest => '.' :: plainPoints rest
  | '%' :: '2' :: 'E' :: rest => '.' :: plainPoints rest
  | c :: rest => c :: plainPoints rest
  | [] => []

/-- Whether a segment stays where it is. -/
def isHere (segment : List Char) : Bool := plainPoints segment == ['.']

/-- Whether a segment leads up. -/
def isUp (segment : List Char) : Bool := plainPoints segment == ['.', '.']

/-- Whether a segment names a drive: a letter and a colon, or a bar for it. -/
def isDrive : List Char → Bool
  | [letter, mark] => letter.isAlpha && (mark == ':' || mark == '|')
  | _ => false

/-- Whether nothing leads up from a segment: it names a drive, alone or before a backslash. -/
def isRoot (segment : List Char) : Bool := isDrive (segment.takeWhile (· != '\\'))

/-! ## 2. Following segments -/

/-- Where one is led up to from a place. -/
def parent (place : List (List Char)) : List (List Char) :=
  match place.getLast? with
  | some last => if isRoot last then place else place.dropLast
  | none => []

/-- The place that a segment leads to, when another one follows. -/
def enter (place : List (List Char)) (segment : List Char) : List (List Char) :=
  if isUp segment then parent place
  else if isHere segment then place
  else place ++ [segment]

/-- The segments that the last segment of a path ends it with. After one that is not a name
the path ends in a slash. -/
def finish (place : List (List Char)) (segment : List Char) : List (List Char) :=
  if isUp segment then parent place ++ [[]]
  else if isHere segment then place ++ [[]]
  else place ++ [segment]

/-- The segments of a path without those that are not names, from those it is written with,
starting at a place. -/
def resolveFrom (place : List (List Char)) : List (List Char) → List (List Char)
  | [] => place ++ [[]]
  | [last] => finish place last
  | segment :: rest => resolveFrom (enter place segment) rest

/-- The segments of a path without those that are not names. -/
def resolve (segments : List (List Char)) : List (List Char) :=
  resolveFrom [] segments

/-! ## 3. Reading and writing -/

/-- The segments of a path that is written without its first slash. With a second separator
given, slashes may be written as that. -/
def ofText (backslash : Bool) (text : List Char) : List (List Char) :=
  let text := if backslash then text.map fun c => if c = '\\' then '/' else c else text
  resolve ((Text.split '/' text).map (escape pathSet))

/-- The text of a path. -/
def text (segments : List (List Char)) : List Char :=
  segments.flatMap ('/' :: ·)

end LayerScript.Address.Hierarchy
