/-
`Artifacts.lean` -- the files of a request.

Everything generated for a request goes into one directory, named for its user,
inside the directory for all requests. First the directory is made, then the model
script, the training script and the data set are written, in this order. The first
step that is refused ends it, and what was written before stays.
-/
import LayerScript.Disk.Access
import LayerScript.Project

set_option autoImplicit false

namespace LayerScript

/-- A path that could not be made or written, and why. -/
structure StorageError where
  path : String
  fault : DiskFault
deriving DecidableEq, Repr

/-- The text of a fault. -/
def StorageError.message (e : StorageError) : String :=
  "cannot write " ++ e.path ++ ": " ++ e.fault.message

/-- The texts of the faults that a fault was caused by. -/
def StorageError.causes (e : StorageError) : List String :=
  [e.fault.message]

/-- The text of a fault, followed by those of the faults it was caused by. -/
def StorageError.chain (e : StorageError) : String :=
  ": ".intercalate (e.message :: e.causes)

/-- What is reported about a script that was written. -/
structure ArtifactReport where
  name : String
  path : String
  sha256 : String
  statements : Nat
deriving DecidableEq, Repr

/-- The report about a script in a directory. -/
def Script.report (directory : String) (s : Script) : ArtifactReport :=
  ⟨s.name.file, Path.join directory s.name.file, s.digest, s.statements.length⟩

/-- The files of a request with their paths, in the order they are written. -/
def artifactFiles (directory : String) (p : Project) (c : Compiled) : List (String × String) :=
  [ (Path.join directory c.model.name.file, c.model.text),
    (Path.join directory c.trainer.name.file, c.trainer.text),
    (Path.join directory datasetFile, p.dataset.compact) ]

/-- The disk after files were written one after another, and which of them could not be. -/
def writeFiles (workingDirectory : Location) :
    List (String × String) → Disk → Disk × Except StorageError Unit
  | [], d => (d, .ok ())
  | (path, text) :: rest, d =>
    match d.write workingDirectory path text with
    | .error fault => (d, .error ⟨path, fault⟩)
    | .ok d => writeFiles workingDirectory rest d

/-- The directory of a user. -/
def userDirectory (outDir user : String) : String :=
  Path.join outDir user

/-- The disk after the files of a request were written, and what is reported about the
scripts. -/
def writeArtifacts (workingDirectory : Location) (outDir : String) (p : Project) (c : Compiled)
    (d : Disk) : Disk × Except StorageError (List ArtifactReport) :=
  let directory := userDirectory outDir p.user
  match d.createDirectories workingDirectory directory with
  | (d, .error fault) => (d, .error ⟨directory, fault⟩)
  | (d, .ok ()) =>
    match writeFiles workingDirectory (artifactFiles directory p c) d with
    | (d, .error e) => (d, .error e)
    | (d, .ok ()) => (d, .ok [c.model.report directory, c.trainer.report directory])

end LayerScript
