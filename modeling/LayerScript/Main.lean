/-
`Main.lean` -- the program on a real system.

A run works on a disk that is a value. So the program first looks up what stands
at the paths that the run can reach, carries the run out on that, and then makes
the same changes to the real files. Of the events only those that matter more than
a detail are shown.
-/
import LayerScript.Session
import Std.Time.DateTime.Timestamp

set_option autoImplicit false

namespace LayerScript

namespace Main

/-- The path of a location. -/
def pathOf (l : Location) : String :=
  "/" ++ "/".intercalate l

/-- The location of an absolute path without points. -/
def locationOf (path : String) : Location :=
  ((Text.split '/' path.toList).filter (!·.isEmpty)).map String.ofList

/-- Looks up what stands at a location of the real disk. -/
def lookUp (d : Disk) (l : Location) : IO Disk := do
  if (d.at? l).isSome then return d
  let place := (← IO.currentDir) / pathOf l
  if ← place.isDir then return d.put l .directory
  else if ← place.pathExists then return d.put l (.file (← IO.FS.readBinFile place))
  else return d

/-- Looks up everything that a path leads through, and what it leads to. -/
def lookUpPath (workingDirectory : Location) (d : Disk) (path : String) : IO Disk := do
  match Path.ofText path with
  | none => return d
  | some p =>
    let mut l := p.start workingDirectory
    let mut d ← lookUp d l
    for step in p.steps do
      l := step.apply l
      d ← lookUp d l
    return d

/-- Makes the changes of a run on the real disk, the earliest first. -/
def store (before after : Disk) : IO Unit := do
  for (l, e) in after.entries.reverse do
    if before.at? l ≠ some e then
      match e with
      | .directory => IO.FS.createDir (pathOf l)
      | .file content => IO.FS.writeBinFile (pathOf l) content

/-- What is shown when a command line is not carried out. -/
def usage : String :=
  unlines [
    "Usage: [--json] [--settings FILE] COMMAND",
    "",
    "Commands:",
    "  compile PAYLOAD     write the model and training scripts of a project",
    "  train PAYLOAD       write them, then run the training script",
    "  emit PAYLOAD        print one of the scripts",
    "  order PAYLOAD       print the order of the layers",
    "  train-body PAYLOAD  print what a remote trainer is sent",
    "  submit PAYLOAD      send it to a remote trainer",
    "  layers              list the kinds of layers and their parameters",
    "",
    "A payload of - is read from the standard input."]

/-- What is shown for a refusal, and whether it goes to the errors. -/
def explain : Refusal → String × Bool
  | .version => (unlines ["netforge 0.1.0"], false)
  | .help => (usage, false)
  | .helpForNothing => (usage, true)
  | .unknownCommand => (unlines ["error: unrecognized subcommand"] ++ usage, true)
  | .missingCommand => (unlines ["error: no subcommand was given"] ++ usage, true)
  | .unknownArgument => (unlines ["error: unexpected argument"] ++ usage, true)
  | .missingPayload => (unlines ["error: no payload was given"] ++ usage, true)
  | .invalidValue => (unlines ["error: an option has no value or a wrong one"] ++ usage, true)
  | .givenTwice => (unlines ["error: an option was given twice"] ++ usage, true)
  | .unexpectedValue => (unlines ["error: an option takes no value"] ++ usage, true)

/-- Shows a refusal. -/
def refuse (r : Refusal) : IO UInt32 := do
  let (text, isError) := explain r
  if isError then IO.eprint text else IO.print text
  return UInt32.ofNat r.exit

/-- Carries out an invocation on the real disk. -/
def perform (i : Invocation) : IO UInt32 := do
  let input ← if i.command.payload? = some "-" then (← IO.getStdin).readBinToEnd else pure .empty
  let now ← Std.Time.Timestamp.now
  let host : Host := {
    workingDirectory := locationOf (← IO.currentDir).toString
    home := ← IO.getEnv "HOME"
    input := input
    time := now.toSecondsSinceUnixEpoch.val.toNat
    programs := standardPrograms
  }
  let found ← (host.inputPaths i).foldlM (lookUpPath host.workingDirectory) .empty
  let before ← (host.outputPaths i found).foldlM (lookUpPath host.workingDirectory) found
  let outcome := host.answer i before
  store before outcome.disk
  for e in outcome.events do
    if e.level ≠ .debug then IO.eprintln e.line
  IO.print outcome.printed.output
  IO.eprint outcome.printed.errors
  return UInt32.ofNat outcome.printed.exit

end Main

end LayerScript

/-- Reads the command line and carries it out. -/
def main (arguments : List String) : IO UInt32 :=
  match LayerScript.Invocation.ofArguments arguments with
  | .error refusal => LayerScript.Main.refuse refusal
  | .ok invocation => LayerScript.Main.perform invocation
