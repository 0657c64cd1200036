/-
`Disk/Access.lean` -- reading and changing a disk through paths.

A path is followed step by step, and every step needs a directory to start from;
what the last one leads to may be missing. A path with a NUL in it is refused
before anything is looked up, and so is one that is too long; a single name that
is too long is refused where it is looked up, after the steps before it. Each
operation is refused for one of a few reasons, and a refused operation leaves the
disk as it was. Only making a directory together with those above it consists of
several operations, of which the last may be refused after others were carried
out.
-/
import LayerScript.Disk.Tree

set_option autoImplicit false

namespace LayerScript

/-- Why an operation on a disk is refused. -/
inductive DiskFault where
  | missing
  | alreadyExists
  | notADirectory
  | isADirectory
  | nameTooLong
  | nulInName
  | notText
deriving DecidableEq, Repr

/-- The text of a fault. -/
def DiskFault.message : DiskFault → String
  | .missing => "No such file or directory (os error 2)"
  | .alreadyExists => "File exists (os error 17)"
  | .notADirectory => "Not a directory (os error 20)"
  | .isADirectory => "Is a directory (os error 21)"
  | .nameTooLong => "File name too long (os error 36)"
  | .nulInName => "file name contained an unexpected NUL byte"
  | .notText => "stream did not contain valid UTF-8"

namespace Disk

/-! ## 1. Following a path -/

/-- The location that steps lead to. -/
def follow (d : Disk) : Location → List Step → Except DiskFault Location
  | l, [] => .ok l
  | l, step :: rest =>
    match d.at? l with
    | some .directory =>
      if step.isTooLong then .error .nameTooLong else d.follow (step.apply l) rest
    | some (.file _) => .error .notADirectory
    | none => .error .missing

/-- The fault of a path that is refused as it is written. -/
def writtenFault (path : String) : Option DiskFault :=
  if path.toList.contains '\x00' then some .nulInName
  else if Path.maxSize < path.utf8ByteSize then some .nameTooLong
  else none

/-- The location that a path leads to, and whether it has to be a directory. -/
def locate (d : Disk) (workingDirectory : Location) (path : String) :
    Except DiskFault (Location × Bool) :=
  match writtenFault path, Path.ofText path with
  | some fault, _ => .error fault
  | none, none => .error .missing
  | none, some p => do
    let l ← d.follow (p.start workingDirectory) p.steps
    .ok (l, p.wantsDirectory)

/-- What a path leads to. -/
def entry (d : Disk) (workingDirectory : Location) (path : String) : Except DiskFault Entry := do
  let (l, wantsDirectory) ← d.locate workingDirectory path
  match d.at? l with
  | none => .error .missing
  | some .directory => .ok .directory
  | some (.file content) =>
    if wantsDirectory then .error .notADirectory else .ok (.file content)

/-- Whether a path leads to anything. -/
def contains (d : Disk) (workingDirectory : Location) (path : String) : Bool :=
  (d.entry workingDirectory path).isOk

/-! ## 2. Files -/

/-- The bytes of a file. -/
def read (d : Disk) (workingDirectory : Location) (path : String) :
    Except DiskFault ByteArray := do
  match ← d.entry workingDirectory path with
  | .directory => .error .isADirectory
  | .file content => .ok content

/-- The text of a file. -/
def readText (d : Disk) (workingDirectory : Location) (path : String) :
    Except DiskFault String := do
  let content ← d.read workingDirectory path
  match String.fromUTF8? content with
  | some text => .ok text
  | none => .error .notText

/-- The disk after a file got new content, which may depend on what it held. A missing
file is made; the directory it is in has to be there. -/
def alter (d : Disk) (workingDirectory : Location) (path : String)
    (content : Option ByteArray → ByteArray) : Except DiskFault Disk := do
  let (l, wantsDirectory) ← d.locate workingDirectory path
  if wantsDirectory then .error .isADirectory
  else
    match d.at? l with
    | some .directory => .error .isADirectory
    | some (.file old) => .ok (d.put l (.file (content (some old))))
    | none => .ok (d.put l (.file (content none)))

/-- The disk after a file was written. -/
def write (d : Disk) (workingDirectory : Location) (path : String) (text : String) :
    Except DiskFault Disk :=
  d.alter workingDirectory path fun _ => text.toUTF8

/-- The disk after a text was added to the end of a file. -/
def append (d : Disk) (workingDirectory : Location) (path : String) (text : String) :
    Except DiskFault Disk :=
  d.alter workingDirectory path fun old => old.getD .empty ++ text.toUTF8

/-! ## 3. Directories -/

/-- The location of a directory. -/
def enter (d : Disk) (workingDirectory : Location) (path : String) :
    Except DiskFault Location := do
  let (l, _) ← d.locate workingDirectory path
  match d.at? l with
  | some .directory => .ok l
  | some (.file _) => .error .notADirectory
  | none => .error .missing

/-- Whether steps lead to a directory. -/
def isDirectory (d : Disk) (start : Location) (steps : List Step) : Bool :=
  match d.follow start steps with
  | .ok l => d.at? l = some .directory
  | .error _ => false

/-- The disk after a directory was made where steps lead. Nothing may stand there yet. -/
def makeDirectory (d : Disk) (start : Location) (steps : List Step) : Except DiskFault Disk := do
  let l ← d.follow start steps
  match d.at? l with
  | some _ => .error .alreadyExists
  | none => .ok (d.put l .directory)

/-- The disk after a directory was made, and whether it is there now. One that was there
already is as good as a new one. -/
def ensureDirectory (d : Disk) (start : Location) (steps : List Step) :
    Disk × Except DiskFault Unit :=
  match d.makeDirectory start steps with
  | .ok made => (made, .ok ())
  | .error fault => (d, if d.isDirectory start steps then .ok () else .error fault)

/-- The disk after a directory was made together with those above it, given its steps from
the last to the first. The path as a whole is tried first, and where a directory is missing
on the way the one above it is made before. -/
def ensureDirectories (start : Location) : List Step → Disk → Disk × Except DiskFault Unit
  | [], d => (d, .ok ())
  | last :: above, d =>
    let steps := (last :: above).reverse
    match d.ensureDirectory start steps with
    | (_, .error .missing) =>
      match ensureDirectories start above d with
      | (d, .error fault) => (d, .error fault)
      | (d, .ok ()) => d.ensureDirectory start steps
    | result => result

/-- The disk after the directory of a path was made, and those above it that were missing.
When one cannot be made those made before it stay. -/
def createDirectories (d : Disk) (workingDirectory : Location) (path : String) :
    Disk × Except DiskFault Unit :=
  match writtenFault path, Path.ofText path with
  | some fault, _ => (d, .error fault)
  | none, none => (d, .ok ())
  | none, some p => ensureDirectories (p.start workingDirectory) p.steps.reverse d

end Disk

end LayerScript
