/-
`Disk/Path.lean` -- the paths that requests and settings are written with.

A path is a text, and reports show it as it was written. What it leads to depends
only on its steps: slashes side by side count as one, a single point stays where
it is, two points lead to the directory above, any other name leads into what
bears it. A path that begins with a slash starts at the root, any other where the
program was started.
-/
import LayerScript.Text.Split

set_option autoImplicit false

namespace LayerScript

/-- Where something stands on a disk: the names that lead to it from the root. -/
abbrev Location := List String

/-- One step of a path. -/
inductive Step where
  | up
  | into (name : String)
deriving DecidableEq, Repr

namespace Step

/-- The step that a segment of a path stands for. Nothing at all and a single point stand
for none. -/
def ofSegment : List Char → Option Step
  | [] => none
  | ['.'] => none
  | ['.', '.'] => some .up
  | name => some (.into (String.ofList name))

/-- The most bytes that a name may have. -/
def maxSize : Nat := 255

/-- Whether a step needs a name that no file can bear. -/
def isTooLong : Step → Bool
  | .up => false
  | .into name => maxSize < name.utf8ByteSize

/-- The location that a step leads to. There is nothing above the root. -/
def apply : Step → Location → Location
  | .up, l => l.dropLast
  | .into name, l => l ++ [name]

end Step

/-- A path that was taken apart. -/
structure Path where
  fromRoot : Bool
  steps : List Step
  /-- Whether the text ends in a slash or a single point, as only a directory's may. -/
  wantsDirectory : Bool
deriving DecidableEq, Repr

namespace Path

/-- The most bytes that a path may have. -/
def maxSize : Nat := 4095

/-- Takes a path apart. The empty text leads nowhere. -/
def ofText (text : String) : Option Path :=
  match text.toList with
  | [] => none
  | c :: rest =>
    let segments := Text.split '/' (c :: rest)
    some {
      fromRoot := c == '/'
      steps := segments.filterMap Step.ofSegment
      wantsDirectory := segments.getLast?.any fun s => s.isEmpty || s == ['.']
    }

/-- The location that the first step of a path starts from. -/
def start (p : Path) (workingDirectory : Location) : Location :=
  if p.fromRoot then [] else workingDirectory

/-- The path of a name in the directory that a path leads to. -/
def join (directory name : String) : String :=
  match directory.toList.getLast? with
  | none => name
  | some c => if c = '/' then directory ++ name else directory ++ "/" ++ name

end Path

end LayerScript
