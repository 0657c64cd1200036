/-
`Proofs/Commands.lean` -- the commands agree with each other.

Four commands bind a payload and put its layers in order, and each goes on differently: one
shows the order, one shows a script, one writes the scripts, and one trains with them besides.
What they have in common is said here once, as what the result of each is made of
(`Run.result_order`, `Run.result_emit`, `Run.exists_of_compile`), and that they agree is
read off that. Two things are left to see. The order is shown without a user, which
changes nothing when the user is one that may be named (`Project.ofPayload_eq_map`). And what
is shown of a script has lost the white space at its end, of which there is none but the last
line break, since every script ends in a call (`Script.unlines_trimEnd_text`).
-/
import LayerScript.Proofs.Artifacts
import LayerScript.Proofs.Printing

set_option autoImplicit false

namespace LayerScript

/-! ## 1. Binding for a user -/

/-- **A user who may be named changes nothing but whose project it is.** -/
theorem Project.ofPayload_eq_map {payload : String} {user : Option String}
    (huser : ∀ name ∈ user, isUser name = true) :
    Project.ofPayload payload user
      = (Project.ofPayload payload none).map fun p => { p with user := user.getD p.user } := by
  -- The user is judged after the rest, so up to then both sides fail alike.
  cases user with
  | none => cases Project.ofPayload payload none <;> rfl
  | some name =>
      have hname : bindUser name = .ok name := by
        rw [bindUser, if_pos (huser name rfl)]
      simp only [ofPayload, hname]
      cases (Json.readObject payload).mapError BindError.malformed with
      | error fault => rfl
      | ok fields =>
          simp only [bind, Except.bind]
          cases bindPart fields .config Config.ofValue with
          | error fault => rfl
          | ok config =>
              dsimp only
              by_cases hoptimizer : (!Literal.isName config.optimizer) = true
              · simp only [hoptimizer, if_true]
                rfl
              · simp only [hoptimizer]
                cases bindPart fields .content Network.ofValue <;> rfl

/-- A payload that is bound for a user is bound without one, to the same network. -/
theorem Project.exists_of_ofPayload {payload : String} {user : Option String}
    (huser : ∀ name ∈ user, isUser name = true) {p : Project}
    (hp : Project.ofPayload payload user = .ok p) :
    ∃ q, Project.ofPayload payload none = .ok q ∧ q.network = p.network := by
  rw [ofPayload_eq_map huser] at hp
  cases hq : Project.ofPayload payload none with
  | error fault =>
      rw [hq] at hp
      cases hp
  | ok q =>
      rw [hq] at hp
      cases hp
      exact ⟨q, rfl, rfl⟩

/-! ## 2. The ends of scripts -/

/-- Whether a statement is written with a call at its end. -/
def Statement.EndsInCall (s : Statement) : Prop :=
  ∃ front, s.text.toList = front ++ [')']

theorem Statement.endsInCall_evaluate (function : Expr) (arguments : List Expr) :
    (Statement.evaluate (.call function arguments)).EndsInCall :=
  ⟨(function.text ++ "(" ++ Expr.textList arguments).toList, String.toList_append⟩

theorem Statement.endsInCall_assign (target : String) (function : Expr) (arguments : List Expr) :
    (Statement.assign target (.call function arguments)).EndsInCall :=
  ⟨(target ++ " = " ++ (function.text ++ "(" ++ Expr.textList arguments)).toList, by
    simp [Statement.text, Expr.text]⟩

theorem Config.endsInCall_of_mem_statements {d : Dialect} {config : Config} {s : Statement}
    (hs : s ∈ config.statements d) : s.EndsInCall := by
  rw [statements, List.cons_append, List.mem_cons, List.mem_append] at hs
  rcases hs with rfl | hs | hs
  · exact Statement.endsInCall_evaluate _ _
  · unfold EarlyStopping.statements at hs
    split at hs
    · rw [List.mem_singleton.mp hs]
      exact Statement.endsInCall_assign _ _ _
    · cases hs
  · unfold RateReduction.statements at hs
    split at hs
    · rw [List.mem_singleton.mp hs]
      exact Statement.endsInCall_assign _ _ _
    · cases hs

/-- Every script ends in a call. -/
theorem Project.exists_last_of_compile {p : Project} {dialect : Dialect} {options : Options}
    {c : Compiled} (h : p.compile dialect options = .ok c) (name : ScriptName) :
    ∃ last, (c.script name).statements.getLast? = some last ∧ last.EndsInCall := by
  obtain ⟨o, model, -, hmodel, rfl⟩ := Project.compile_eq_ok_iff.mp h
  cases name with
  | train =>
      refine ⟨saveStatement p.user, ?_, Statement.endsInCall_evaluate _ _⟩
      rw [Compiled.script, trainScript, Config.trainScript, List.getLast?_append]
      rfl
  | model =>
      obtain ⟨layers, -, hstatements⟩ := Network.exists_of_modelScript hmodel
      -- Callbacks are optional, but the statement that compiles the model is always there.
      have hne : p.config.statements dialect ≠ [] := List.cons_ne_nil _ _
      refine ⟨(p.config.statements dialect).getLast hne, ?_,
        Config.endsInCall_of_mem_statements (List.getLast_mem hne)⟩
      change model.statements.getLast? = _
      rw [hstatements, List.getLast?_append, List.getLast?_eq_some_getLast hne, Option.some_or]

/-- **What is shown of a script is what is written**: at its end only the last line break is
white space, and that is shown again. -/
theorem Script.unlines_trimEnd_text {s : Script}
    (h : ∃ last, s.statements.getLast? = some last ∧ last.EndsInCall) :
    unlines [String.ofList (Text.trimEnd s.text.toList)] = s.text := by
  obtain ⟨last, hlast, front, hfront⟩ := h
  obtain ⟨init, hinit⟩ := List.getLast?_eq_some_iff.mp hlast
  obtain ⟨before, hbefore⟩ := Text.exists_intercalate_concat ['\n'] (init.map (·.text.toList))
    last.text.toList
  have hlines : s.lines.map String.toList = init.map (·.text.toList) ++ [last.text.toList] := by
    simp [lines, hinit]
  have htext : s.text.toList = (before ++ front ++ [')']) ++ ['\n'] := by
    rw [text, String.toList_append, String.toList_intercalate, hlines]
    change ['\n'].intercalate _ ++ ['\n'] = _
    rw [hbefore, hfront, ← List.append_assoc before]
  have htrim : Text.trimEnd s.text.toList = before ++ front ++ [')'] := by
    rw [htext, Text.trimEnd]
    simp [List.dropWhile, show Text.isBlank '\n' = true by decide,
      show Text.isBlank ')' = false by decide]
  refine String.toList_injective ?_
  rw [htrim, htext]
  simp [unlines, String.join]

/-! ## 3. What is written -/

/-- A target that was written was prepared, its artifacts were written, and that was put on
record. -/
theorem Host.exists_of_compile {h : Host} {s : Settings} {t : Target} {outDir : String} {d : Disk}
    {report : CompileReport} (hreport : (h.compile s t outDir d).2.result = .ok report) :
    ∃ p c artifacts written, (h.prepare s t d).result = .ok (p, c) ∧
      writeArtifacts h.workingDirectory outDir p c d = (written, .ok artifacts) ∧
      (h.compile s t outDir d).1 = h.record (.compiled p.user c.model.digest) written ∧
      report = ⟨p.user, outDir, artifacts, c.order, c.dropped⟩ := by
  rw [result_compile] at hreport
  obtain ⟨⟨p, c⟩, hprepared, hreport⟩ := bind_eq_ok_iff.mp hreport
  obtain ⟨artifacts, hartifacts, hreport⟩ := bind_eq_ok_iff.mp hreport
  have hstored : writeArtifacts h.workingDirectory outDir p c d = (_, .ok artifacts) :=
    Prod.ext rfl (mapError_eq_ok_iff.mp hartifacts)
  -- Noting an event and putting one on record cannot fail, so nothing is left to go wrong.
  exact ⟨p, c, artifacts, _, hprepared, hstored, (h.compile_of_stored s d hprepared hstored).2,
    (Except.ok.inj hreport).symm⟩

/-! ## 4. Runs on one request -/

/-- A run that is given this payload and these settings, wherever it finds them. -/
structure Run (payload : String) (settings : Settings) where
  host : Host
  disk : Disk
  json : Bool
  /-- The settings file that is named, if one is. -/
  named : Option String
  /-- The path of the payload. -/
  path : String
  loaded : (host.loadSettings named disk).result = .ok settings
  found : host.readPayload path disk = .ok payload

/-- What scripts are based on: the project of a payload, and what is generated for it. -/
def generated (payload : String) (s : Settings) (user : Option String) (policy : Option Policy) :
    Except Failure (Project × Compiled) := do
  let p ← (Project.ofPayload payload user).mapError .bind
  let c ← (p.compile s.dialect (s.optionsWith policy)).mapError .compile
  .ok (p, c)

namespace Run

variable {payload : String} {s : Settings} {user : Option String} {policy : Option Policy}
  (r : Run payload s)

/-- What is left and printed of a command for the payload. -/
def outcome (command : String → Command) : Host.Outcome :=
  r.host.answer ⟨r.json, r.named, command r.path⟩ r.disk

/-- The result of a command for the payload. -/
def result (command : String → Command) : Except Failure Report :=
  (r.host.run ⟨r.json, r.named, command r.path⟩ r.disk).2.result

/-- What is printed is the result. -/
theorem printed_outcome (command : String → Command) :
    (r.outcome command).printed = .ofResult r.json (r.result command) :=
  r.host.printed_answer _ _

/-- Once the settings are loaded the command is carried out. -/
theorem result_eq (command : String → Command) :
    r.result command = (r.host.perform r.json s (command r.path) r.disk).2.result := by
  rw [result, Host.run, Action.result_bind]
  change ((r.host.loadSettings r.named r.disk).result >>= _) = _
  rw [r.loaded]
  rfl

/-- Loading the settings leaves the disk to the command. -/
theorem disk_eq (command : String → Command) :
    (r.outcome command).disk = (r.host.perform r.json s (command r.path) r.disk).1 :=
  Action.disk_bind_of_ok r.loaded _

/-- The payload is bound from wherever it is found. -/
theorem result_bind (user : Option String) :
    (r.host.bind r.path user r.disk).result
      = (Project.ofPayload payload user).mapError .bind := by
  rw [Host.result_bind, r.found]
  rfl

theorem result_prepare (user : Option String) (policy : Option Policy) :
    (r.host.prepare s ⟨r.path, user, policy⟩ r.disk).result = generated payload s user policy := by
  rw [Host.result_prepare, r.result_bind]
  rfl

/-- What the order of a payload is. -/
theorem result_order (policy : Option Policy) :
    r.result (.order · policy)
      = (Project.ofPayload payload none).mapError .bind >>= fun p =>
          (p.network.resolve (s.optionsWith policy).unreachable).mapError (.compile ∘ .graph)
            >>= fun o => .ok (.order o.names o.dropped) := by
  rw [result_eq, Host.result_perform_order, r.result_bind]

/-- What is shown of a script. -/
theorem result_emit (user : Option String) (policy : Option Policy) (name : ScriptName) :
    r.result (.emit ⟨·, user, policy⟩ name)
      = generated payload s user policy >>= fun (_, c) => .ok (.script (c.script name)) := by
  rw [result_eq, Host.result_perform_emit, r.result_prepare]
  cases name <;> rfl

/-- Nothing is written for a payload for which nothing is generated, nor is training started. -/
theorem result_of_error {e : Failure} (h : generated payload s user policy = .error e)
    (outDir interpreter : Option String) :
    (∀ name, r.result (.emit ⟨·, user, policy⟩ name) = .error e) ∧
      r.result (.compile ⟨·, user, policy⟩ outDir) = .error e ∧
      r.result (.train ⟨·, user, policy⟩ outDir interpreter) = .error e := by
  have hcompile : ∀ directory,
      (r.host.compile s ⟨r.path, user, policy⟩ directory r.disk).2.result = .error e := by
    intro directory
    rw [Host.compile, Action.result_bind]
    change ((r.host.prepare s _ r.disk).result >>= _) = _
    rw [r.result_prepare, h]
    rfl
  refine ⟨fun name => ?_, ?_, ?_⟩
  · rw [result_emit, h]
    rfl
  · rw [result_eq, Host.result_perform_compile, hcompile]
    rfl
  · rw [result_eq, Host.result_perform_train, hcompile]
    rfl

/-- **What a run that writes leaves**: the artifacts of what is generated, put on record. -/
theorem exists_of_compile {outDir : Option String} {report : Report}
    (h : r.result (.compile ⟨·, user, policy⟩ outDir) = .ok report) :
    ∃ p c artifacts written, generated payload s user policy = .ok (p, c) ∧
      writeArtifacts r.host.workingDirectory (outDir.getD s.outDir) p c r.disk
        = (written, .ok artifacts) ∧
      (r.outcome (.compile ⟨·, user, policy⟩ outDir)).disk
        = r.host.record (.compiled p.user c.model.digest) written ∧
      report = .compiled ⟨p.user, outDir.getD s.outDir, artifacts, c.order, c.dropped⟩ := by
  rw [result_eq, Host.result_perform_compile] at h
  obtain ⟨compiled, hcompiled, rfl⟩ := map_eq_ok_iff.mp h
  obtain ⟨p, c, artifacts, written, hprepared, hwritten, hdisk, rfl⟩ :=
    Host.exists_of_compile hcompiled
  rw [r.result_prepare] at hprepared
  refine ⟨p, c, artifacts, written, hprepared, hwritten, ?_, rfl⟩
  rw [disk_eq, Host.disk_perform_compile, hdisk]

end Run

/-! ## 5. Agreement -/

section

variable {payload : String} {s : Settings} {user : Option String} {policy : Option Policy}

/-- Where nothing can be put in order nothing is compiled. -/
theorem Project.compile_of_resolve_error {p : Project} {dialect : Dialect} {options : Options}
    {fault : GraphError} (h : p.network.resolve options.unreachable = .error fault) :
    p.compile dialect options = .error (.graph fault) :=
  compile_eq_error_iff.mpr (Or.inl ⟨fault, h, rfl⟩)

/-- After the order only a layer without a constructor stands in the way. -/
theorem Project.compile_of_resolve_ok {p : Project} {dialect : Dialect} {options : Options}
    {o : Order} (h : p.network.resolve options.unreachable = .ok o) {fault : CompileError}
    (hfault : p.compile dialect options = .error fault) : ∃ e, fault = .unsupported e := by
  rcases compile_eq_error_iff.mp hfault with ⟨e, he, rfl⟩ | ⟨_, e, -, -, rfl⟩
  · rw [h] at he
    cases he
  · exact ⟨e, rfl⟩

/-- Both parts of what is generated. -/
theorem generated_eq_ok_iff {p : Project} {c : Compiled} :
    generated payload s user policy = .ok (p, c) ↔
      Project.ofPayload payload user = .ok p ∧
        p.compile s.dialect (s.optionsWith policy) = .ok c := by
  unfold generated
  simp only [bind_eq_ok_iff, mapError_eq_ok_iff]
  constructor
  · rintro ⟨q, hq, out, hout, heq⟩
    cases heq
    exact ⟨hq, hout⟩
  · rintro ⟨hp, hc⟩
    exact ⟨p, hp, c, hc, rfl⟩

/-- What is generated for a user comes from the network that is bound without one. -/
theorem exists_generated_eq (s : Settings) (policy : Option Policy)
    (huser : ∀ name ∈ user, isUser name = true) {q : Project}
    (hq : Project.ofPayload payload none = .ok q) :
    ∃ p : Project, p.network = q.network ∧
      generated payload s user policy
        = (p.compile s.dialect (s.optionsWith policy)).mapError .compile >>= fun c =>
            .ok (p, c) := by
  refine ⟨{ q with user := user.getD q.user }, rfl, ?_⟩
  rw [generated, Project.ofPayload_eq_map huser, hq]
  rfl

namespace Run

/-- The order is that in which the scripts were generated. -/
theorem result_order_of_generated (huser : ∀ name ∈ user, isUser name = true) {p : Project}
    {c : Compiled} (h : generated payload s user policy = .ok (p, c)) (r : Run payload s) :
    r.result (.order · policy) = .ok (.order c.order c.dropped) := by
  obtain ⟨hp, hc⟩ := generated_eq_ok_iff.mp h
  obtain ⟨q, hq, hnetwork⟩ := Project.exists_of_ofPayload huser hp
  obtain ⟨o, model, ho, -, rfl⟩ := Project.compile_eq_ok_iff.mp hc
  rw [← hnetwork] at ho
  rw [result_order, hq]
  change ((q.network.resolve _).mapError _ >>= _) = _
  rw [ho]
  rfl

/-- Where the order is refused nothing is generated, for the same reason. -/
theorem generated_of_order_refused (huser : ∀ name ∈ user, isUser name = true) (r : Run payload s)
    {e : Failure} (h : r.result (.order · policy) = .error e) (hcode : e.code = "GRAPH_ERROR") :
    generated payload s user policy = .error e := by
  rw [result_order] at h
  cases hq : Project.ofPayload payload none with
  | error fault =>
      rw [hq] at h
      cases h
      exact absurd (show "BIND_ERROR" = "GRAPH_ERROR" from hcode) (by decide)
  | ok q =>
      rw [hq] at h
      change ((q.network.resolve _).mapError _ >>= _) = _ at h
      cases ho : q.network.resolve (s.optionsWith policy).unreachable with
      | ok o =>
          rw [ho] at h
          cases h
      | error fault =>
          rw [ho] at h
          cases h
          obtain ⟨p, hnetwork, hgenerated⟩ := exists_generated_eq s policy huser hq
          rw [← hnetwork] at ho
          rw [hgenerated, Project.compile_of_resolve_error ho]
          rfl

/-- Where there is an order, only a layer without a constructor stands in the way. -/
theorem code_of_order_found (huser : ∀ name ∈ user, isUser name = true) (r : Run payload s)
    {report : Report} (h : r.result (.order · policy) = .ok report) {e : Failure}
    (he : generated payload s user policy = .error e) : e.code = "UNSUPPORTED_TYPE" := by
  rw [result_order] at h
  obtain ⟨q, hq, h⟩ := bind_eq_ok_iff.mp h
  obtain ⟨o, ho, -⟩ := bind_eq_ok_iff.mp h
  rw [mapError_eq_ok_iff] at hq ho
  obtain ⟨p, hnetwork, hgenerated⟩ := exists_generated_eq s policy huser hq
  rw [← hnetwork] at ho
  rw [hgenerated] at he
  cases hc : p.compile s.dialect (s.optionsWith policy) with
  | ok c =>
      rw [hc] at he
      cases he
  | error fault =>
      obtain ⟨missing, rfl⟩ := Project.compile_of_resolve_ok ho hc
      rw [hc] at he
      cases he
      rfl

end Run

/-- The document that is printed about a script. -/
def scriptDocument (name : ScriptName) (content : String) : Value :=
  .object [("ok", .bool true), ("data", .object [("name", .text name.file),
    ("sha256", .text (Digest.sha256 content)), ("content", .text content)])]

/-- What is printed of a script that was generated: its text and nothing else, or the document
about it. -/
theorem Run.printed_emit {p : Project} {c : Compiled}
    (h : generated payload s user policy = .ok (p, c)) (r : Run payload s) (name : ScriptName) :
    (r.outcome (.emit ⟨·, user, policy⟩ name)).printed
      = ⟨0, if r.json then unlines [(scriptDocument name (c.script name).text).pretty]
          else (c.script name).text, ""⟩ := by
  obtain ⟨-, hc⟩ := generated_eq_ok_iff.mp h
  have hname := Project.name_script_of_compile hc name
  have hshown := Script.unlines_trimEnd_text (Project.exists_last_of_compile hc name)
  rw [printed_outcome, result_emit, h]
  change Printed.ofResult r.json (.ok (.script (c.script name))) = _
  simp only [Printed.ofResult, Report.shown, Report.text, hshown, Report.envelope, Report.toValue,
    hname, scriptDocument, Script.digest]

/-- **What was written can be read**, at the path that is reported and with the digest of what
is read there, also after the request was put on record. -/
theorem Run.exists_of_written {outDir : Option String} (r : Run payload s)
    (hexit : (r.outcome (.compile ⟨·, user, policy⟩ outDir)).printed.exit = 0) :
    ∃ p c, generated payload s user policy = .ok (p, c) ∧
      r.result (.compile ⟨·, user, policy⟩ outDir) = .ok (.compiled ⟨p.user, outDir.getD s.outDir,
        [c.model.report (userDirectory (outDir.getD s.outDir) p.user),
          c.trainer.report (userDirectory (outDir.getD s.outDir) p.user)],
        c.order, c.dropped⟩) ∧
      ∀ name : ScriptName,
        (r.outcome (.compile ⟨·, user, policy⟩ outDir)).disk.read r.host.workingDirectory
            (Path.join (userDirectory (outDir.getD s.outDir) p.user) name.file)
          = .ok (c.script name).text.toUTF8 := by
  cases hresult : r.result (.compile ⟨·, user, policy⟩ outDir) with
  | error e =>
      rw [r.printed_outcome, hresult, Printed.ofResult] at hexit
      split at hexit <;> cases hexit
  | ok report =>
      obtain ⟨p, c, artifacts, written, hgenerated, hwritten, hdisk, rfl⟩ :=
        r.exists_of_compile hresult
      obtain ⟨-, hc⟩ := generated_eq_ok_iff.mp hgenerated
      obtain ⟨rfl, hread⟩ := read_of_writeArtifacts (Project.name_script_of_compile hc .model)
        (Project.name_script_of_compile hc .train) hwritten
      refine ⟨p, c, hgenerated, rfl, fun name => ?_⟩
      have hfile := hread _ (c.mem_files p name)
      rw [Project.name_script_of_compile hc name] at hfile
      -- The record has a name of its own.
      have hother : name.file ∉ ["audit.jsonl"] := by cases name <;> decide
      have hkeeps := written.keeps_record r.host.workingDirectory r.host.home r.host.time
        (.compiled p.user c.model.digest)
      rw [hdisk]
      exact hkeeps.read_join name.isEntryName_file hother hfile

end

/-- **The commands agree.** For a payload, a user who may be named, settings and a policy, and
wherever each run finds the payload and the settings:

* when the files are written, the order that is shown is that of the report, with the same
  layers left out; each script can be read at its path, with the digest of what is read there
  in the report; and to show the script prints exactly that, or a document with the same digest
  that holds it;
* when the order is refused for the network, showing a script, writing the files and training
  all fail for the same reason, and with it the same code and message;
* when there is an order, showing a script fails only for a layer without a constructor. -/
theorem commands_agree {payload : String} {s : Settings} {user : Option String}
    (huser : ∀ name ∈ user, isUser name = true) (policy : Option Policy) :
    (∀ (r : Run payload s) (outDir : Option String),
      (r.outcome (.compile ⟨·, user, policy⟩ outDir)).printed.exit = 0 →
      ∃ report, r.result (.compile ⟨·, user, policy⟩ outDir) = .ok (.compiled report) ∧
        (∀ o : Run payload s,
          o.result (.order · policy) = .ok (.order report.order report.dropped)) ∧
        ∀ name : ScriptName, ∃ content, ∃ a ∈ report.artifacts,
          a.name = name.file ∧
          a.path = Path.join (userDirectory (outDir.getD s.outDir) report.user) name.file ∧
          a.sha256 = Digest.sha256 content ∧
          (r.outcome (.compile ⟨·, user, policy⟩ outDir)).disk.read r.host.workingDirectory a.path
            = .ok content.toUTF8 ∧
          ∀ e : Run payload s, (e.outcome (.emit ⟨·, user, policy⟩ name)).printed
            = ⟨0, if e.json then unlines [(scriptDocument name content).pretty] else content, ""⟩) ∧
    (∀ (o : Run payload s) (failure : Failure), o.result (.order · policy) = .error failure →
      failure.code = "GRAPH_ERROR" →
      ∀ (r : Run payload s) (outDir interpreter : Option String),
        (∀ name, r.result (.emit ⟨·, user, policy⟩ name) = .error failure) ∧
        r.result (.compile ⟨·, user, policy⟩ outDir) = .error failure ∧
        r.result (.train ⟨·, user, policy⟩ outDir interpreter) = .error failure) ∧
    ∀ (o : Run payload s) (report : Report), o.result (.order · policy) = .ok report →
      ∀ (r : Run payload s) (name : ScriptName) (failure : Failure),
        r.result (.emit ⟨·, user, policy⟩ name) = .error failure →
        failure.code = "UNSUPPORTED_TYPE" := by
  refine ⟨fun r outDir hexit => ?_, fun o failure horder hcode r outDir interpreter => ?_,
    fun o report horder r name failure hfailure => ?_⟩
  · obtain ⟨p, c, hgenerated, hreport, hread⟩ := r.exists_of_written hexit
    obtain ⟨-, hc⟩ := generated_eq_ok_iff.mp hgenerated
    refine ⟨_, hreport, Run.result_order_of_generated huser hgenerated, fun name => ?_⟩
    have hname := Project.name_script_of_compile hc name
    refine ⟨(c.script name).text,
      (c.script name).report (userDirectory (outDir.getD s.outDir) p.user), ?_, ?_, ?_, rfl, ?_,
      fun e => Run.printed_emit hgenerated e name⟩
    · cases name with
      | model => exact List.mem_cons_self
      | train => exact List.mem_cons_of_mem _ List.mem_cons_self
    · rw [Script.report, hname]
    · rw [Script.report, hname]
    · rw [Script.report, hname]
      exact hread name
  · exact r.result_of_error (Run.generated_of_order_refused huser o horder hcode) outDir interpreter
  · rw [Run.result_emit] at hfailure
    cases hgenerated : generated payload s user policy with
    | error e =>
        rw [hgenerated] at hfailure
        cases hfailure
        exact o.code_of_order_found huser horder hgenerated
    | ok both =>
        rw [hgenerated] at hfailure
        cases hfailure

/-- A run that reads a payload from its standard input, without settings of its own. -/
def pipedRun (payload : String) : Run payload {} where
  host := ⟨[], none, payload.toUTF8, 0, standardPrograms⟩
  disk := .empty
  json := false
  named := none
  path := "-"
  loaded := rfl
  found := by rw [Host.readPayload, if_pos rfl, Text.fromUTF8?_toUTF8]

/-- A payload with a text that ends in white space. -/
def looseEndPayload : String :=
  "\x7b\"config\":[\"SGD\",1,\"mse \\n\",[],2,3],\"content\":[\"x\",\"x\","
    ++ "[[\"Layer\",\"Input\",\"x\",null,null,[4,1,\"\"]]]]\x7d"

/-- A payload in which a layer is applied to itself. -/
def ownInputPayload : String :=
  "\x7b\"config\":[\"SGD\",1,\"mse\",[],2,3],\"content\":[\"x\",\"x\","
    ++ "[[\"Layer\",\"Input\",\"x\",null,\"y\",[4,1,\"\"]],"
    ++ "[\"Layer\",\"Flatten\",\"y\",\"y\"]]]\x7d"

theorem commands_agree_piped :
    (∃ report content,
      (pipedRun looseEndPayload).result (.compile ⟨·, some "u", none⟩ none)
        = .ok (.compiled report) ∧
      ((pipedRun looseEndPayload).outcome (.compile ⟨·, some "u", none⟩ none)).disk.read []
          (Path.join (userDirectory "generated" report.user) "model.py") = .ok content.toUTF8 ∧
      ((pipedRun looseEndPayload).outcome (.emit ⟨·, some "u", none⟩ .model)).printed
        = ⟨0, content, ""⟩) ∧
    ∃ failure : Failure, failure.code = "GRAPH_ERROR" ∧
      (pipedRun ownInputPayload).result (.order · none) = .error failure ∧
      (pipedRun ownInputPayload).result (.compile ⟨·, some "u", none⟩ none) = .error failure := by
  have huser : ∀ name ∈ some "u", isUser name = true := by
    rintro name hname
    cases hname
    decide
  constructor
  · have hexit : ((pipedRun looseEndPayload).outcome
        (.compile ⟨·, some "u", none⟩ none)).printed.exit = 0 := by
      decide +kernel
    obtain ⟨report, hreport, -, hscripts⟩ :=
      (commands_agree huser none).1 (pipedRun looseEndPayload) none hexit
    obtain ⟨content, a, -, -, hpath, -, hread, hshown⟩ := hscripts .model
    rw [hpath] at hread
    exact ⟨report, content, hreport, hread, hshown (pipedRun looseEndPayload)⟩
  · have hcode : (((pipedRun ownInputPayload).result (.order · none)).map fun _ => ()).mapError
        Failure.code = .error "GRAPH_ERROR" := by
      decide +kernel
    cases horder : (pipedRun ownInputPayload).result (.order · none) with
    | ok report =>
        rw [horder] at hcode
        cases hcode
    | error failure =>
        rw [horder] at hcode
        have hgraph : failure.code = "GRAPH_ERROR" := Except.error.inj hcode
        exact ⟨failure, hgraph, rfl, ((commands_agree huser none).2.1 _ failure horder hgraph
          (pipedRun ownInputPayload) none none).2.1⟩

end LayerScript
