/-
`Toml/Table.lean` -- tables that are put together piece by piece.

The tables of a settings file grow from three sources: a header names one, a
header names one below it, or a dotted key runs through it. Which of these made a
table decides what may still be done to it:

* a header may name a table that so far only lay on the way of other headers, and
  no other table that exists;
* a dotted key may run through tables that dotted keys made, and through no table
  that a header named;
* a dotted key may end only in a table that a dotted key made;
* a value that was written out, a list and an inline table among them, is closed.
-/
import LayerScript.Value

set_option autoImplicit false

namespace LayerScript.Toml

/-- What made a table. -/
inductive Origin where
  | header
  | onTheWay
  | dottedKey
deriving DecidableEq, Repr

/-- What stands at a key while a file is read. -/
inductive Node where
  | closed (value : Value)
  | table (origin : Origin) (entries : List (String × Node))
  /-- The tables that headers in double brackets made, the last one first. -/
  | tables (lastFirst : List (List (String × Node)))

/-- The entries of a table, in the order they were made. -/
structure Table where
  entries : List (String × Node)

/-- The entries with another node at a key, which is added at the end if it is new. -/
def put (key : String) (node : Node) : List (String × Node) → List (String × Node)
  | [] => [(key, node)]
  | (k, n) :: rest => if k = key then (key, node) :: rest else (k, n) :: put key node rest

/-- Changes the table that a path leads to. Tables that are missing on the way are
made, by a dotted key or on the way of a header; of tables in double brackets the
last is meant. -/
def change (byDottedKey : Bool) (edit : Origin → List (String × Node) → Option (List (String × Node))) :
    List String → Origin → List (String × Node) → Option (List (String × Node))
  | [], origin, entries => edit origin entries
  | key :: path, _, entries =>
    match entries.lookup key with
    | none => do
      let origin := if byDottedKey then Origin.dottedKey else .onTheWay
      let inner ← change byDottedKey edit path origin []
      some (put key (.table origin inner) entries)
    | some (.closed _) => none
    | some (.table origin inner) =>
      if byDottedKey && origin = .header then none
      else do
        let inner ← change byDottedKey edit path origin inner
        some (put key (.table origin inner) entries)
    | some (.tables []) => none
    | some (.tables (last :: earlier)) => do
      let last ← change byDottedKey edit path .header last
      some (put key (.tables (last :: earlier)) entries)

/-- Puts a value at a new key of a table. -/
def putNew (key : String) (value : Value) (entries : List (String × Node)) :
    Option (List (String × Node)) :=
  if (entries.lookup key).isSome then none else some (entries ++ [(key, .closed value)])

/-- Puts a value where a key leads from a table: its last segment names the value, the
others the tables that lead to it. -/
def insertAt (path : List String) (value : Value) (origin : Origin)
    (entries : List (String × Node)) : Option (List (String × Node)) :=
  match path.getLast?, path.dropLast with
  | none, _ => none
  | some key, [] => putNew key value entries
  | some key, way =>
    change true (fun made inner => if made = .dottedKey then putNew key value inner else none)
      way origin entries

namespace Table

/-- The table without entries. -/
def empty : Table := ⟨[]⟩

/-- Puts a value where a key leads from this table. -/
def insert (t : Table) (path : List String) (value : Value) : Option Table :=
  (insertAt path value .header t.entries).map Table.mk

/-- Puts a value where a key leads from the table that a header named. -/
def insertBelow (t : Table) (header path : List String) (value : Value) : Option Table :=
  (change false (fun origin inner => insertAt path value origin inner) header .header
    t.entries).map Table.mk

/-- Names a table by a header in single brackets. -/
def openTable (t : Table) (header : List String) : Option Table := do
  let key ← header.getLast?
  let entries ← change false (fun _ inner =>
    match inner.lookup key with
    | none => some (put key (.table .header []) inner)
    | some (.table .onTheWay below) => some (put key (.table .header below) inner)
    | some _ => none) header.dropLast .header t.entries
  some ⟨entries⟩

/-- Adds a table by a header in double brackets. -/
def openNext (t : Table) (header : List String) : Option Table := do
  let key ← header.getLast?
  let entries ← change false (fun _ inner =>
    match inner.lookup key with
    | none => some (put key (.tables [[]]) inner)
    | some (.tables earlier) => some (put key (.tables ([] :: earlier)) inner)
    | some _ => none) header.dropLast .header t.entries
  some ⟨entries⟩

end Table

/-! ## Documents -/

mutual

/-- The document of what stands at a key. -/
def Node.toValue : Node → Value
  | .closed value => value
  | .table _ entries => .object (fieldsOf entries)
  | .tables lastFirst => .list (objectsOf lastFirst).reverse

/-- The fields of a table. -/
def fieldsOf : List (String × Node) → List (String × Value)
  | [] => []
  | (key, node) :: rest => (key, node.toValue) :: fieldsOf rest

/-- The documents of several tables. -/
def objectsOf : List (List (String × Node)) → List Value
  | [] => []
  | entries :: rest => .object (fieldsOf entries) :: objectsOf rest

end

/-- The document of a table. -/
def Table.toValue (t : Table) : Value :=
  .object (fieldsOf t.entries)

end LayerScript.Toml
