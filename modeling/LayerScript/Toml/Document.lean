/-
`Toml/Document.lean` -- reading a settings file.

A file is a sequence of lines: empty ones and comments, headers that name the
table for the lines after them, and keys with their values. A mark of the byte
order at the very beginning is skipped.
-/
import LayerScript.Decode
import LayerScript.Toml.Reader

set_option autoImplicit false

namespace LayerScript.Toml

/-- What has been read of a file: its tables, and the header whose table is open. -/
structure Progress where
  tables : Table
  header : List String

/-- A header in single or double brackets, after the first bracket. -/
def header (p : Progress) (s : List Char) : Option (Progress × List Char) :=
  match s with
  | '[' :: rest => do
    let (path, rest) ← key rest
    let ((), rest) ← expect ']' rest
    let ((), rest) ← expect ']' rest
    let tables ← p.tables.openNext path
    some (⟨tables, path⟩, rest)
  | s => do
    let (path, rest) ← key s
    let ((), rest) ← expect ']' rest
    let tables ← p.tables.openTable path
    some (⟨tables, path⟩, rest)

/-- A line with a key and its value. -/
def entry (p : Progress) (s : List Char) : Option (Progress × List Char) := do
  let ((path, v), rest) ← keyValue (value depthLimit) s
  let tables ← p.tables.insertBelow p.header path v
  some (⟨tables, p.header⟩, rest)

/-- The lines of a file. Every round takes at least a line break. -/
def lines : Nat → Progress → List Char → Option Progress
  | 0, p, s => if s.isEmpty then some p else none
  | fuel + 1, p, s =>
    match skipSpace s with
    | [] => some p
    | '#' :: rest => do
      let rest ← finishLine ('#' :: rest)
      lines fuel p rest
    | '[' :: rest => do
      let (p, rest) ← header p rest
      let rest ← finishLine rest
      lines fuel p rest
    | c :: rest =>
      match lineBreak? (c :: rest) with
      | some rest => lines fuel p rest
      | none => do
        let (p, rest) ← entry p (c :: rest)
        let rest ← finishLine rest
        lines fuel p rest

/-- What follows a mark of the byte order. -/
def skipMark : List Char → List Char
  | '\uFEFF' :: rest => rest
  | s => s

/-- Reads a file: the document of its tables. -/
def read (text : String) : Option Value := do
  let s := skipMark text.toList
  let p ← lines (s.length + 1) ⟨.empty, []⟩ s
  some p.tables.toValue

/-- In a settings file an empty table or list is the empty value, and a list may go on
after the last field of a record. -/
def format : Format where
  isEmpty
    | .object [] => true
    | .list [] => true
    | _ => false
  allowsSurplus := true

end LayerScript.Toml
