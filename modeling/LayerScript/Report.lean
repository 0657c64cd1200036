/-
`Report.lean` -- what a run that succeeded has to say.

Every report has two forms: lines of text for a reader, and a JSON document for a
program. A document is never printed bare. It stands in an envelope that says
whether the run succeeded, and a failure comes in the same envelope. To print a report is a
step of a run like any other; a failure is printed when the run has ended.
-/
import LayerScript.Action

set_option autoImplicit false

namespace LayerScript

/-! ## 1. Reports -/

/-- What is reported about a request whose files were written. -/
structure CompileReport where
  user : String
  outDir : String
  artifacts : List ArtifactReport
  order : List String
  dropped : List String
deriving DecidableEq, Repr

/-- What is reported about a request that was sent. -/
structure SubmitReport where
  address : String
  status : Nat
  body : String
deriving DecidableEq, Repr

/-- What a run reports. -/
inductive Report where
  | compiled (report : CompileReport)
  | trained (report : CompileReport) (run : Finished)
  | script (s : Script)
  | order (layers dropped : List String)
  | trainBody (body : Value)
  | submitted (report : SubmitReport)
  | catalog (entries : List CatalogEntry)

/-- The document about a script that was written. -/
def ArtifactReport.toValue (r : ArtifactReport) : Value :=
  .object [("name", .text r.name), ("path", .text r.path), ("sha256", .text r.sha256),
    ("statements", .ofNat r.statements)]

/-- The document about a request whose files were written. -/
def CompileReport.toValue (r : CompileReport) : Value :=
  .object [("namespace", .text r.user), ("out_dir", .text r.outDir),
    ("artifacts", .list (r.artifacts.map ArtifactReport.toValue)), ("order", .texts r.order),
    ("dropped", .texts r.dropped)]

/-- The document about a request that was sent. -/
def SubmitReport.toValue (r : SubmitReport) : Value :=
  .object [("url", .text r.address), ("status", .ofNat r.status), ("body", .text r.body)]

/-- The document of an entry of the catalog. -/
def CatalogEntry.toValue (e : CatalogEntry) : Value :=
  .object [("kind", .text e.kind), ("required", .texts e.required), ("optional", .texts e.optional)]

/-- Lines, each with its line break. -/
def unlines (lines : List String) : String :=
  String.join (lines.map (· ++ "\n"))

/-- The lines about a request whose files were written. -/
def CompileReport.lines (r : CompileReport) : List String :=
  ["namespace: " ++ r.user]
    ++ r.artifacts.map (fun a => "wrote " ++ a.path ++ "\t" ++ a.sha256)
    ++ (if r.dropped.isEmpty then [] else ["dropped: " ++ ", ".intercalate r.dropped])

/-- The line of an entry of the catalog. A dash stands for no optional parameter. -/
def CatalogEntry.line (e : CatalogEntry) : String :=
  e.kind ++ "\trequired=" ++ ",".intercalate e.required
    ++ "\toptional=" ++ (if e.optional.isEmpty then "-" else ",".intercalate e.optional)

namespace Report

/-- The document of a report. -/
def toValue : Report → Value
  | .compiled report => report.toValue
  | .trained report run =>
    .object [("compile", report.toValue), ("exit_code", .ofOption .ofNat run.ending.status?),
      ("stdout", .text run.output), ("stderr", .text run.errors)]
  | .script s =>
    .object [("name", .text s.name.file), ("sha256", .text s.digest), ("content", .text s.text)]
  | .order layers dropped => .object [("order", .texts layers), ("dropped", .texts dropped)]
  | .trainBody body => body
  | .submitted report => report.toValue
  | .catalog entries => .list (entries.map CatalogEntry.toValue)

/-- The text of a report. A script loses the white space at its end, and the output of a
training program is passed on as it is. -/
def text : Report → String
  | .compiled report => unlines report.lines
  | .trained report run => run.output ++ unlines ["trained " ++ report.user]
  | .script s => unlines [String.ofList (Text.trimEnd s.text.toList)]
  | .order layers dropped =>
    unlines (layers ++ if dropped.isEmpty then [] else
      ["(dropped: " ++ ", ".intercalate dropped ++ ")"])
  | .trainBody body => unlines [body.pretty]
  | .submitted report =>
    unlines ["submitted to " ++ report.address ++ " (" ++ toString report.status ++ ")"]
  | .catalog entries => unlines (entries.map CatalogEntry.line)

end Report

/-! ## 2. Envelopes -/

/-- The envelope of a report. -/
def Report.envelope (r : Report) : Value :=
  .object [("ok", .bool true), ("data", r.toValue)]

/-- The envelope of a failure. -/
def Failure.envelope (e : Failure) : Value :=
  .object [("ok", .bool false),
    ("error", .object [("code", .text e.code), ("message", .text e.chain)])]

/-- What is printed of a report, as JSON or as text. -/
def Report.shown (json : Bool) (r : Report) : String :=
  if json then unlines [r.envelope.pretty] else r.text

/-- Prints a report and ends with it. -/
def Report.print (json : Bool) (r : Report) : Action Report := do
  Action.print (r.shown json)
  return r

/-- To print a report is all that this step does. -/
theorem Report.print_eq (json : Bool) (r : Report) (d : Disk) :
    r.print json d = (d, ⟨[], r.shown json, .ok r⟩) := by
  have hprint : Action.print (r.shown json) d = (d, ⟨[], r.shown json, .ok ()⟩) := rfl
  refine (Action.bind_of_ok hprint _).trans ?_
  exact congrArg (fun output => (d, Traced.mk [] output (.ok r))) String.append_empty

/-- What is printed by the end of a run, and its exit status. -/
structure Printed where
  exit : Nat
  output : String
  errors : String
deriving DecidableEq, Repr

/-- What is printed by the end of a run that printed this output before it ended. A failure is
printed then, as JSON to the output and as text to the errors. -/
def Printed.ofEnd (json : Bool) (output : String) : Except Failure Report → Printed
  | .ok _ => ⟨0, output, ""⟩
  | .error failure =>
    if json then ⟨1, output ++ unlines [failure.envelope.pretty], ""⟩
    else ⟨1, output, unlines ["error: " ++ failure.chain]⟩

end LayerScript
