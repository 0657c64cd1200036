/-
`Session.lean` -- carrying out a command.

A run reads the settings, then the payload, binds it, puts its layers in order and
generates the scripts. Up to here it only looks at the disk. Only a command that
writes, trains or was sent goes on with actions, so a request that fails before
leaves nothing behind. Each command prints its report as its last step.
-/
import LayerScript.Audit
import LayerScript.Command.Arguments
import LayerScript.Report

set_option autoImplicit false

namespace LayerScript

/-- What surrounds a run: the directory it is started in, the home directory of whoever
started it, its standard input, the time in seconds, and the programs it can start or send to. -/
structure Host where
  workingDirectory : Location
  home : Option String
  input : ByteArray
  time : Nat
  programs : Programs

namespace Host

/-! ## 1. Looking -/

/-- Reads a settings file. -/
def readSettings (h : Host) (path : String) (d : Disk) : Traced Settings := do
  let text ← Traced.lift (.settingsUnread path) (d.readText h.workingDirectory path)
  match Settings.ofFile? text with
  | none => ⟨[], "", .error (.settingsInvalid path)⟩
  | some settings => do
    Traced.note [.loadedSettings path]
    return settings

/-- The path of the settings file that is read when none is named. -/
def settingsFile (home : String) : String :=
  Path.join (configDirectory home) "settings.toml"

/-- The settings of a run. A file that is named has to be there; the one in the home
directory need not be. -/
def loadSettings (h : Host) (named : Option String) (d : Disk) : Traced Settings :=
  match named, h.home with
  | some path, _ => h.readSettings path d
  | none, none => return {}
  | none, some home =>
    if d.contains h.workingDirectory (settingsFile home) then
      h.readSettings (settingsFile home) d
    else return {}

/-- The text of a payload. -/
def readPayload (h : Host) (path : String) (d : Disk) : Except Failure String :=
  if path = "-" then
    match String.fromUTF8? h.input with
    | some text => .ok text
    | none => .error (.inputUnread .notText)
  else (d.readText h.workingDirectory path).mapError (.payloadUnread path)

/-- The project that a payload asks for. -/
def bind (h : Host) (path : String) (user : Option String) (d : Disk) : Traced Project := do
  let payload ← Traced.lift id (h.readPayload path d)
  let project ← Traced.lift .bind (Project.ofPayload payload user)
  Traced.note [.boundProject project.user project.network.modules.length]
  return project

end Host

/-- The events of putting a network in order: which layers were left out, and the order,
unless it is refused. -/
def Network.events (c : Network) (policy : Policy) : List Event :=
  match c.order policy with
  | .error _ => []
  | .ok order =>
    let dropped := if order.dropped.isEmpty then [] else [.dropped policy order.dropped]
    let resolved :=
      match c.droppedEndpoints order with
      | [] => [.resolved (order.names.headD "") order.names]
      | _ => []
    dropped ++ resolved

/-- Puts a network in order. -/
def Network.resolveTraced (c : Network) (policy : Policy) : Traced Order := do
  Traced.note (c.events policy)
  Traced.lift (fun fault => .compile (.graph fault)) (c.resolve policy)

/-- Generates the scripts of a project. -/
def Project.compileTraced (dialect : Dialect) (options : Options) (p : Project) :
    Traced Compiled := do
  Traced.note (p.network.events options.unreachable)
  let compiled ← Traced.lift .compile (p.compile dialect options)
  Traced.note [.compiled p.user compiled.order.length compiled.dropped.length]
  return compiled

/-- The options of a run: its own policy counts before that of the settings. -/
def Settings.optionsWith (s : Settings) (policy : Option Policy) : Options :=
  { s.options with unreachable := policy.getD s.unreachable }

namespace Host

/-- Everything that is generated for a target. -/
def prepare (h : Host) (settings : Settings) (t : Target) (d : Disk) :
    Traced (Project × Compiled) := do
  let project ← h.bind t.payload t.user d
  let compiled ← project.compileTraced settings.dialect (settings.optionsWith t.unreachable)
  return (project, compiled)

/-- The order of the layers of a payload. -/
def resolve (h : Host) (settings : Settings) (payload : String) (policy : Option Policy)
    (d : Disk) : Traced Order := do
  let project ← h.bind payload none d
  project.network.resolveTraced (settings.optionsWith policy).unreachable

/-- Sends a payload to a remote trainer. That it was accepted is noted before its answer is
read to the end. -/
def send (h : Host) (settings : Settings) (payload : String) (user address : Option String)
    (d : Disk) : Traced (Project × SubmitReport) := do
  let project ← h.bind payload user d
  let (text, response) ← Traced.lift .submission
    (LayerScript.send h.programs (address <|> settings.trainerUrl) project.trainBody)
  Traced.note [.submitted text response.status project.user]
  let body ← Traced.lift (fun fault => .submission (.notAnswered fault)) response.body
  return (project, ⟨text, response.status, body⟩)

/-! ## 2. Acting -/

/-- Puts an event on record. -/
def record (h : Host) (e : AuditEvent) (d : Disk) : Disk :=
  d.record h.workingDirectory h.home h.time e

/-- Writes the files of a target. Nothing is printed yet. -/
def compile (h : Host) (settings : Settings) (t : Target) (outDir : String) :
    Action CompileReport := do
  let (project, compiled) ← Action.observe (h.prepare settings t)
  let artifacts ← Action.attempt .storage
    (writeArtifacts h.workingDirectory outDir project compiled)
  Action.note (.wroteArtifacts (userDirectory outDir project.user))
  Action.change (h.record (.compiled project.user compiled.model.digest))
  return ⟨project.user, outDir, artifacts, compiled.order, compiled.dropped⟩

/-- Runs the training script of a user and puts on record how it ended. -/
def runTraining (h : Host) (interpreter outDir user : String) : Action Finished := do
  Action.note (.startingTraining interpreter (trainingArgument user))
  Action.attempt .training fun d =>
    let (d, outcome) := LayerScript.train h.programs h.workingDirectory interpreter outDir user d
    (h.record (.trained user outcome.isOk) d, outcome)

/-! ## 3. Commands -/

/-- Carries out a command, and prints its report as JSON or as text. -/
def perform (h : Host) (json : Bool) (settings : Settings) : Command → Action Report
  | .compile t outDir => do
    let report ← h.compile settings t (outDir.getD settings.outDir)
    Report.print json (.compiled report)
  | .train t outDir interpreter => do
    let outDir := outDir.getD settings.outDir
    let report ← h.compile settings t outDir
    let run ← h.runTraining (interpreter.getD settings.interpreter) outDir report.user
    Report.print json (.trained report run)
  | .emit t name => do
    let (_, compiled) ← Action.observe (h.prepare settings t)
    Report.print json (.script (match name with
      | .model => compiled.model
      | .train => compiled.trainer))
  | .order payload policy => do
    let order ← Action.observe (h.resolve settings payload policy)
    Report.print json (.order order.names order.dropped)
  | .trainBody payload user => do
    let project ← Action.observe (h.bind payload user)
    Report.print json (.trainBody project.trainBody)
  | .submit payload user address => do
    let (project, report) ← Action.observe (h.send settings payload user address)
    Action.change (h.record (.submitted project.user report.status))
    Report.print json (.submitted report)
  | .layers => Report.print json (.catalog catalog)

/-- Carries out an invocation. -/
def run (h : Host) (i : Invocation) : Action Report := do
  let settings ← Action.observe (h.loadSettings i.settings)
  h.perform i.json settings i.command

/-- What a run leaves: the disk, the events it noted, and what it prints. -/
structure Outcome where
  disk : Disk
  events : List Event
  printed : Printed

/-- Carries out an invocation to its end. -/
def answer (h : Host) (i : Invocation) (d : Disk) : Outcome :=
  let (d, t) := h.run i d
  ⟨d, t.events, .ofEnd i.json t.output t.result⟩

/-! ## 4. Reach -/

/-- The paths that a run looks at before it knows the user of its request. -/
def inputPaths (h : Host) (i : Invocation) : List String :=
  let settings :=
    match i.settings, h.home with
    | some path, _ => [path]
    | none, some home => [settingsFile home]
    | none, none => []
  match i.command.payload? with
  | some path => settings ++ [path]
  | none => settings

/-- The paths that a run may write to, once its settings and its payload can be read. -/
def outputPaths (h : Host) (i : Invocation) (d : Disk) : List String :=
  match (h.loadSettings i.settings d).result, i.command.written? with
  | .ok settings, some (t, outDir) =>
    match (h.bind t.payload t.user d).result with
    | .ok project =>
      let directory := userDirectory (outDir.getD settings.outDir) project.user
      [ScriptName.model.file, ScriptName.train.file, datasetFile].map (Path.join directory)
        ++ h.home.toList.map auditFile
    | .error _ => []
  | .ok _, none => if i.command.sends then h.home.toList.map auditFile else []
  | .error _, _ => []

end Host

end LayerScript
