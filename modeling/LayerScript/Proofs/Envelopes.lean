/-
`Proofs/Envelopes.lean` -- one answer per run, and the stage that decides its code.

Every command prints at its end and nowhere else, so what is printed depends on the result of the
run alone (`Host.printed_answer`). Two things are left to say. The answer in JSON is one object and
a line break, whatever texts, numbers and documents it holds; that is a fact about how documents
are written, and `Json.behindObject?_pretty` has it. And the code of a failure, which is that of
the first of its causes that has one, is that of the stage at which the run failed.

A stage fails when everything before it went well and its own function refuses. This is what
`Host.FailsAt` says, in terms of the functions and not of failures, and it is shown that a
run fails exactly when a stage does, command by command. That a command has no stages besides
those of `Host.FailsAt` is what could have gone wrong.
-/
import LayerScript.Proofs.Brackets
import LayerScript.Proofs.Commands
import LayerScript.Proofs.Failures

set_option autoImplicit false

namespace LayerScript

/-! ## 1. Stages -/

/-- The stages of a run. -/
inductive Stage where
  | settings
  | payload
  | binding
  | ordering
  | emission
  | writing
  | training
  | submission
deriving DecidableEq, Repr

/-- The code of a stage. -/
def Stage.code : Stage → String
  | .settings => "INTERNAL"
  | .payload => "INTERNAL"
  | .binding => "BIND_ERROR"
  | .ordering => "GRAPH_ERROR"
  | .emission => "UNSUPPORTED_TYPE"
  | .writing => "PERSISTENCE_ERROR"
  | .training => "PROCESS_ERROR"
  | .submission => "REMOTE_ERROR"

namespace Command

/-- The user that a command names. -/
def user? : Command → Option String
  | .compile t _ => t.user
  | .train t _ _ => t.user
  | .emit t _ => t.user
  | .order .. => none
  | .trainBody _ user => user
  | .submit _ user _ => user
  | .layers => none

/-- The policy that a command names. -/
def policy? : Command → Option Policy
  | .compile t _ => t.unreachable
  | .train t _ _ => t.unreachable
  | .emit t _ => t.unreachable
  | .order _ policy => policy
  | .trainBody .. => none
  | .submit .. => none
  | .layers => none

/-- The target that a command generates scripts for. -/
def target? : Command → Option Target
  | .compile t _ => some t
  | .train t _ _ => some t
  | .emit t _ => some t
  | _ => none

/-- Whether a command puts layers in order. -/
def orders : Command → Bool
  | .order .. => true
  | c => c.target?.isSome

theorem of_target? {c : Command} {t : Target} (h : c.target? = some t) :
    c.payload? = some t.payload ∧ c.user? = t.user ∧ c.policy? = t.unreachable := by
  cases c <;> cases h <;> exact ⟨rfl, rfl, rfl⟩

theorem target?_of_written? {c : Command} {t : Target} {outDir : Option String}
    (h : c.written? = some (t, outDir)) : c.target? = some t := by
  cases c <;> cases h <;> rfl

theorem orders_of_target? {c : Command} (h : c.target?.isSome = true) : c.orders = true := by
  cases c with
  | order => rfl
  | _ => exact h

end Command

namespace Host

/-- How far a run has come when it has settings and a project. -/
structure Binds (h : Host) (i : Invocation) (d : Disk) (s : Settings) (p : Project) : Prop where
  settled : (h.loadSettings i.settings d).result = .ok s
  bound : ∃ path text, i.command.payload? = some path ∧ h.readPayload path d = .ok text ∧
    Project.ofPayload text i.command.user? = .ok p

/-- How far it has come when it has scripts. -/
structure Generates (h : Host) (i : Invocation) (d : Disk) (s : Settings) (p : Project)
    (c : Compiled) : Prop where
  binds : h.Binds i d s p
  compiled : p.compile s.dialect (s.optionsWith i.command.policy?) = .ok c

/-- The stage at which a run fails, and the text of the fault: what comes before went well, and
the function of the stage refuses. -/
inductive FailsAt (h : Host) (i : Invocation) (d : Disk) : Stage → String → Prop
  | settings {e : Failure} (unsettled : (h.loadSettings i.settings d).result = .error e) :
      FailsAt h i d .settings e.chain
  | payload {s : Settings} {path : String} {e : Failure}
      (settled : (h.loadSettings i.settings d).result = .ok s)
      (named : i.command.payload? = some path) (unread : h.readPayload path d = .error e) :
      FailsAt h i d .payload e.chain
  | binding {s : Settings} {path text : String} {fault : BindError}
      (settled : (h.loadSettings i.settings d).result = .ok s)
      (named : i.command.payload? = some path) (found : h.readPayload path d = .ok text)
      (refused : Project.ofPayload text i.command.user? = .error fault) :
      FailsAt h i d .binding fault.chain
  | ordering {s : Settings} {p : Project} {fault : GraphError} (binds : h.Binds i d s p)
      (orders : i.command.orders = true)
      (refused : p.network.resolve (s.optionsWith i.command.policy?).unreachable = .error fault) :
      FailsAt h i d .ordering fault.message
  | emission {s : Settings} {p : Project} {o : Order} {fault : UnsupportedError}
      (binds : h.Binds i d s p) (generates : i.command.target?.isSome = true)
      (resolved : p.network.resolve (s.optionsWith i.command.policy?).unreachable = .ok o)
      (refused : p.network.modelScript s.dialect p.config o = .error fault) :
      FailsAt h i d .emission fault.message
  | writing {s : Settings} {p : Project} {c : Compiled} {t : Target} {outDir : Option String}
      {fault : StorageError} (generates : h.Generates i d s p c)
      (writes : i.command.written? = some (t, outDir))
      (refused : (writeArtifacts h.workingDirectory (outDir.getD s.outDir) p c d).2
        = .error fault) :
      FailsAt h i d .writing fault.chain
  | training {s : Settings} {p : Project} {c : Compiled} {t : Target}
      {outDir interpreter : Option String} {artifacts : List ArtifactReport} {written : Disk}
      {fault : TrainingError} (generates : h.Generates i d s p c)
      (trains : i.command = .train t outDir interpreter)
      (stored : writeArtifacts h.workingDirectory (outDir.getD s.outDir) p c d
        = (written, .ok artifacts))
      (failed : (LayerScript.train h.programs h.workingDirectory
        (interpreter.getD s.interpreter) (outDir.getD s.outDir) p.user
        (h.record (.compiled p.user c.model.digest) written)).2 = .error fault) :
      FailsAt h i d .training fault.chain
  | unsent {s : Settings} {p : Project} {path : String} {user address : Option String}
      {fault : SubmissionError} (binds : h.Binds i d s p)
      (submits : i.command = .submit path user address)
      (refused : LayerScript.send h.programs (address <|> s.trainerUrl) p.trainBody
        = .error fault) :
      FailsAt h i d .submission fault.chain
  | unanswered {s : Settings} {p : Project} {path text : String} {user address : Option String}
      {response : Response} {fault : RequestFault} (binds : h.Binds i d s p)
      (submits : i.command = .submit path user address)
      (sent : LayerScript.send h.programs (address <|> s.trainerUrl) p.trainBody
        = .ok (text, response))
      (broken : response.body = .error fault) :
      FailsAt h i d .submission (SubmissionError.notAnswered fault).chain

/-! ## 2. What fails at a stage -/

variable {h : Host} {i : Invocation} {d : Disk} {s : Settings} {e : Failure} {json : Bool}

/-- A failure that is that of a stage, with its code and its text. -/
def Explains (h : Host) (i : Invocation) (d : Disk) (e : Failure) : Prop :=
  ∃ stage, h.FailsAt i d stage e.chain ∧ e.code = stage.code

/-- A stage that fails with a text explains a failure that has it. -/
theorem FailsAt.explains {stage : Stage} {chain : String} (hfails : h.FailsAt i d stage chain)
    (hchain : e.chain = chain) (hcode : e.code = stage.code) : h.Explains i d e :=
  ⟨stage, hchain ▸ hfails, hcode⟩

/-- Settings that cannot be loaded have one code. -/
theorem code_of_loadSettings_error {named : Option String}
    (he : (h.loadSettings named d).result = .error e) : e.code = "INTERNAL" := by
  have hread : ∀ path, (h.readSettings path d).result = .error e → e.code = "INTERNAL" := by
    intro path hpath
    rw [readSettings, Traced.result_bind, Traced.result_lift] at hpath
    rcases bind_eq_error_iff.mp hpath with hunread | ⟨text, -, hinvalid⟩
    · obtain ⟨fault, -, rfl⟩ := mapError_eq_error_iff.mp hunread
      rfl
    · split at hinvalid
      · cases hinvalid
        rfl
      · cases hinvalid
  unfold loadSettings at he
  split at he
  · exact hread _ he
  · cases he
  · split at he
    · exact hread _ he
    · cases he

theorem code_of_readPayload_error {path : String} (he : h.readPayload path d = .error e) :
    e.code = "INTERNAL" := by
  unfold readPayload at he
  split at he
  · split at he
    · cases he
    · cases he
      rfl
  · obtain ⟨fault, -, rfl⟩ := mapError_eq_error_iff.mp he
    rfl

/-- What is not bound was not read, or was refused. -/
theorem explains_of_bind_error {path : String}
    (settled : (h.loadSettings i.settings d).result = .ok s)
    (named : i.command.payload? = some path)
    (he : (h.bind path i.command.user? d).result = .error e) : h.Explains i d e := by
  rw [result_bind] at he
  rcases bind_eq_error_iff.mp he with hunread | ⟨text, htext, hrefused⟩
  · exact ⟨.payload, .payload settled named hunread, code_of_readPayload_error hunread⟩
  · obtain ⟨fault, hfault, rfl⟩ := mapError_eq_error_iff.mp hrefused
    exact (FailsAt.binding settled named htext hfault).explains (Failure.chain_bind _) rfl

/-- What is bound was read. -/
theorem binds_of_bind_ok {path : String} {p : Project}
    (settled : (h.loadSettings i.settings d).result = .ok s)
    (named : i.command.payload? = some path)
    (hp : (h.bind path i.command.user? d).result = .ok p) : h.Binds i d s p := by
  rw [result_bind] at hp
  obtain ⟨text, htext, hbound⟩ := bind_eq_ok_iff.mp hp
  exact ⟨settled, path, text, named, htext, mapError_eq_ok_iff.mp hbound⟩

theorem Binds.result_bind {p : Project} (hbinds : h.Binds i d s p) {path : String}
    (named : i.command.payload? = some path) :
    (h.bind path i.command.user? d).result = .ok p := by
  obtain ⟨-, found, text, hfound, htext, hp⟩ := hbinds
  cases named.symm.trans hfound
  rw [Host.result_bind]
  exact bind_eq_ok_iff.mpr ⟨text, htext, mapError_eq_ok_iff.mpr hp⟩

/-- A target that is not prepared fails at a stage. -/
theorem explains_of_prepare_error {t : Target}
    (settled : (h.loadSettings i.settings d).result = .ok s) (ht : i.command.target? = some t)
    (he : (h.prepare s t d).result = .error e) : h.Explains i d e := by
  obtain ⟨named, huser, hpolicy⟩ := Command.of_target? ht
  rw [result_prepare, ← huser] at he
  rcases bind_eq_error_iff.mp he with hbind | ⟨p, hp, hcompile⟩
  · exact explains_of_bind_error settled named hbind
  · have hbinds := binds_of_bind_ok settled named hp
    rcases bind_eq_error_iff.mp hcompile with hrefused | ⟨c, -, hrest⟩
    · obtain ⟨fault, hfault, rfl⟩ := mapError_eq_error_iff.mp hrefused
      rw [← hpolicy] at hfault
      have htarget : i.command.target?.isSome = true := by rw [ht]; rfl
      -- Scripts are wanting because there is no order, or because a layer cannot be written.
      rcases Project.compile_eq_error_iff.mp hfault with ⟨g, hg, rfl⟩ | ⟨o, u, ho, hu, rfl⟩
      · exact ⟨.ordering, .ordering hbinds (Command.orders_of_target? htarget) hg, rfl⟩
      · exact ⟨.emission, .emission hbinds htarget ho hu, rfl⟩
    · cases hrest

/-- A target that is prepared has scripts. -/
theorem generates_of_prepare_ok {t : Target} {p : Project} {c : Compiled}
    (settled : (h.loadSettings i.settings d).result = .ok s) (ht : i.command.target? = some t)
    (hc : (h.prepare s t d).result = .ok (p, c)) : h.Generates i d s p c := by
  obtain ⟨named, huser, hpolicy⟩ := Command.of_target? ht
  rw [result_prepare, ← huser] at hc
  obtain ⟨q, hq, hcompile⟩ := bind_eq_ok_iff.mp hc
  obtain ⟨out, hout, heq⟩ := bind_eq_ok_iff.mp hcompile
  cases heq
  refine ⟨binds_of_bind_ok settled named hq, ?_⟩
  rw [hpolicy]
  exact mapError_eq_ok_iff.mp hout

theorem Generates.result_prepare {p : Project} {c : Compiled} (hgenerates : h.Generates i d s p c)
    {t : Target} (ht : i.command.target? = some t) : (h.prepare s t d).result = .ok (p, c) := by
  obtain ⟨named, huser, hpolicy⟩ := Command.of_target? ht
  have hcompiled := hgenerates.compiled
  rw [hpolicy] at hcompiled
  rw [Host.result_prepare, ← huser]
  exact bind_eq_ok_iff.mpr ⟨p, hgenerates.binds.result_bind named,
    bind_eq_ok_iff.mpr ⟨c, mapError_eq_ok_iff.mpr hcompiled, rfl⟩⟩

/-- A target that is not written fails at a stage. -/
theorem explains_of_compile_error {t : Target} {outDir : Option String}
    (settled : (h.loadSettings i.settings d).result = .ok s)
    (hw : i.command.written? = some (t, outDir))
    (he : (h.compile s t (outDir.getD s.outDir) d).2.result = .error e) : h.Explains i d e := by
  have ht := Command.target?_of_written? hw
  rw [result_compile] at he
  rcases bind_eq_error_iff.mp he with hprepare | ⟨⟨p, c⟩, hprepared, hwrite⟩
  · exact explains_of_prepare_error settled ht hprepare
  · rcases bind_eq_error_iff.mp hwrite with hrefused | ⟨artifacts, -, hrest⟩
    · obtain ⟨fault, hfault, rfl⟩ := mapError_eq_error_iff.mp hrefused
      have hgenerates := generates_of_prepare_ok settled ht hprepared
      exact (FailsAt.writing hgenerates hw hfault).explains (Failure.chain_storage _) rfl
    · cases hrest

/-- **A command that fails does so at a stage.** -/
theorem explains_of_perform_error (settled : (h.loadSettings i.settings d).result = .ok s)
    (he : (h.perform json s i.command d).2.result = .error e) : h.Explains i d e := by
  cases hcommand : i.command with
  | compile t outDir =>
      rw [hcommand, result_perform_compile] at he
      have hw : i.command.written? = some (t, outDir) := by rw [hcommand]; rfl
      exact explains_of_compile_error settled hw (map_eq_error_iff.mp he)
  | train t outDir interpreter =>
      rw [hcommand, result_perform_train] at he
      have hw : i.command.written? = some (t, outDir) := by rw [hcommand]; rfl
      rcases bind_eq_error_iff.mp he with hcompile | ⟨report, hreport, htrain⟩
      · exact explains_of_compile_error settled hw hcompile
      · rcases bind_eq_error_iff.mp htrain with hfailed | ⟨run, -, hrest⟩
        · obtain ⟨fault, hfault, rfl⟩ := mapError_eq_error_iff.mp hfailed
          obtain ⟨p, c, artifacts, written, hprepared, hstored, hdisk, rfl⟩ :=
            exists_of_compile hreport
          -- The program is started on the disk that writing left, with its event on record.
          rw [hdisk] at hfault
          have hgenerates := generates_of_prepare_ok settled (Command.target?_of_written? hw)
            hprepared
          exact (FailsAt.training hgenerates hcommand hstored hfault).explains
            (Failure.chain_training _) rfl
        · cases hrest
  | emit t name =>
      rw [hcommand, result_perform_emit] at he
      rcases bind_eq_error_iff.mp he with hprepare | ⟨p, -, hrest⟩
      · exact explains_of_prepare_error settled (by rw [hcommand]; rfl) hprepare
      · cases hrest
  | order payload policy =>
      have named : i.command.payload? = some payload := by rw [hcommand]; rfl
      have huser : i.command.user? = none := by rw [hcommand]; rfl
      have hpolicy : i.command.policy? = policy := by rw [hcommand]; rfl
      rw [hcommand, result_perform_order, ← huser] at he
      rcases bind_eq_error_iff.mp he with hbind | ⟨p, hp, horder⟩
      · exact explains_of_bind_error settled named hbind
      · rcases bind_eq_error_iff.mp horder with hrefused | ⟨o, -, hrest⟩
        · obtain ⟨fault, hfault, rfl⟩ := mapError_eq_error_iff.mp hrefused
          rw [← hpolicy] at hfault
          have hbinds := binds_of_bind_ok settled named hp
          exact ⟨.ordering, .ordering hbinds (by rw [hcommand]; rfl) hfault, rfl⟩
        · cases hrest
  | trainBody payload user =>
      have huser : i.command.user? = user := by rw [hcommand]; rfl
      rw [hcommand, result_perform_trainBody, ← huser] at he
      rcases bind_eq_error_iff.mp he with hbind | ⟨p, -, hrest⟩
      · exact explains_of_bind_error settled (by rw [hcommand]; rfl) hbind
      · cases hrest
  | submit payload user address =>
      have named : i.command.payload? = some payload := by rw [hcommand]; rfl
      have huser : i.command.user? = user := by rw [hcommand]; rfl
      rw [hcommand, result_perform_submit, ← huser] at he
      rcases bind_eq_error_iff.mp he with hbind | ⟨p, hp, hsubmit⟩
      · exact explains_of_bind_error settled named hbind
      · have hbinds := binds_of_bind_ok settled named hp
        rcases bind_eq_error_iff.mp hsubmit with hunsent | ⟨⟨text, response⟩, hsent, hanswer⟩
        · obtain ⟨fault, hfault, rfl⟩ := mapError_eq_error_iff.mp hunsent
          exact (FailsAt.unsent hbinds hcommand hfault).explains (Failure.chain_submission _) rfl
        · rw [mapError_eq_ok_iff] at hsent
          rcases bind_eq_error_iff.mp hanswer with hbroken | ⟨body, -, hrest⟩
          · obtain ⟨fault, hfault, rfl⟩ := mapError_eq_error_iff.mp hbroken
            exact (FailsAt.unanswered hbinds hcommand hsent hfault).explains
              (Failure.chain_submission _) rfl
          · cases hrest
  | layers =>
      rw [hcommand, perform, Report.print_eq] at he
      cases he

/-! ## 3. What a stage fails with -/

theorem perform_of_prepare_error {t : Target} (ht : i.command.target? = some t)
    (he : (h.prepare s t d).result = .error e) :
    (h.perform json s i.command d).2.result = .error e := by
  cases hcommand : i.command with
  | compile t outDir =>
      rw [hcommand] at ht
      cases ht
      rw [result_perform_compile, result_compile, he]
      rfl
  | train t outDir interpreter =>
      rw [hcommand] at ht
      cases ht
      rw [result_perform_train, result_compile, he]
      rfl
  | emit t name =>
      rw [hcommand] at ht
      cases ht
      rw [result_perform_emit, he]
      rfl
  | _ =>
      rw [hcommand] at ht
      cases ht

theorem perform_of_bind_error {path : String} (named : i.command.payload? = some path)
    (he : (h.bind path i.command.user? d).result = .error e) :
    (h.perform json s i.command d).2.result = .error e := by
  cases ht : i.command.target? with
  | some t =>
      obtain ⟨htarget, huser, -⟩ := Command.of_target? ht
      cases htarget.symm.trans named
      refine perform_of_prepare_error ht ?_
      rw [result_prepare, ← huser, he]
      rfl
  | none =>
      cases hcommand : i.command with
      | order payload policy =>
          rw [hcommand] at named he
          cases named
          rw [result_perform_order]
          exact bind_eq_error_iff.mpr (Or.inl he)
      | trainBody payload user =>
          rw [hcommand] at named he
          cases named
          rw [result_perform_trainBody]
          exact bind_eq_error_iff.mpr (Or.inl he)
      | submit payload user address =>
          rw [hcommand] at named he
          cases named
          rw [result_perform_submit]
          exact bind_eq_error_iff.mpr (Or.inl he)
      | layers =>
          rw [hcommand] at named
          cases named
      | _ =>
          rw [hcommand] at ht
          cases ht

/-- What is compiled with a fault is not prepared. -/
theorem prepare_of_compile_fault {t : Target} {p : Project} {fault : CompileError}
    (ht : i.command.target? = some t) (hbinds : h.Binds i d s p)
    (hfault : p.compile s.dialect (s.optionsWith i.command.policy?) = .error fault) :
    (h.prepare s t d).result = .error (.compile fault) := by
  obtain ⟨named, huser, hpolicy⟩ := Command.of_target? ht
  rw [hpolicy] at hfault
  rw [result_prepare, ← huser]
  exact bind_eq_error_iff.mpr
    (Or.inr ⟨p, hbinds.result_bind named, mapError_bind_of_error hfault _ _⟩)

/-- **A run fails with the code and the text of the stage that fails.** -/
theorem exists_error_of_failsAt {stage : Stage} {chain : String}
    (hfails : h.FailsAt i d stage chain) :
    ∃ e, (h.run i d).2.result = .error e ∧ e.code = stage.code ∧ e.chain = chain := by
  -- Settings are loaded first; behind them it is the command that fails.
  have hsettled : ∀ {s : Settings} {e : Failure},
      (h.loadSettings i.settings d).result = .ok s →
      (h.perform i.json s i.command d).2.result = .error e →
      (h.run i d).2.result = .error e := by
    intro s e hload he
    rw [run_of_settled hload]
    exact he
  cases hfails with
  | settings unsettled =>
      refine ⟨_, ?_, code_of_loadSettings_error unsettled, rfl⟩
      rw [run_of_unsettled unsettled]
  | payload settled named unread =>
      refine ⟨_, hsettled settled (perform_of_bind_error named ?_),
        code_of_readPayload_error unread, rfl⟩
      rw [result_bind, unread]
      rfl
  | @binding s path text fault settled named found refused =>
      refine ⟨.bind fault, hsettled settled (perform_of_bind_error named ?_), rfl,
        Failure.chain_bind _⟩
      rw [result_bind]
      exact bind_eq_error_iff.mpr
        (Or.inr ⟨text, found, mapError_eq_error_iff.mpr ⟨fault, refused, rfl⟩⟩)
  | @ordering s p fault binds orders refused =>
      refine ⟨.compile (.graph fault), hsettled binds.settled ?_, rfl, rfl⟩
      cases ht : i.command.target? with
      | some t =>
          exact perform_of_prepare_error ht (prepare_of_compile_fault ht binds
            (Project.compile_eq_error_iff.mpr (Or.inl ⟨fault, refused, rfl⟩)))
      | none =>
          -- Of the commands without a target only one puts layers in order.
          cases hcommand : i.command with
          | order payload policy =>
              have named : i.command.payload? = some payload := by rw [hcommand]; rfl
              have hbind := binds.result_bind named
              rw [hcommand] at hbind refused
              rw [result_perform_order]
              exact bind_eq_error_iff.mpr
                (Or.inr ⟨p, hbind, mapError_bind_of_error refused _ _⟩)
          | compile | train | emit =>
              rw [hcommand] at ht
              cases ht
          | trainBody | submit | layers =>
              rw [hcommand] at orders
              cases orders
  | @emission s p o fault binds generates resolved refused =>
      obtain ⟨t, ht⟩ := Option.isSome_iff_exists.mp generates
      refine ⟨.compile (.unsupported fault), hsettled binds.settled ?_, rfl, rfl⟩
      exact perform_of_prepare_error ht (prepare_of_compile_fault ht binds
        (Project.compile_eq_error_iff.mpr (Or.inr ⟨o, fault, resolved, refused, rfl⟩)))
  | @writing s p c t outDir fault generates writes refused =>
      refine ⟨.storage fault, hsettled generates.binds.settled ?_, rfl, Failure.chain_storage _⟩
      have hcompile : (h.compile s t (outDir.getD s.outDir) d).2.result
          = .error (.storage fault) := by
        have hprepared := generates.result_prepare (Command.target?_of_written? writes)
        rw [result_compile]
        exact bind_eq_error_iff.mpr
          (Or.inr ⟨(p, c), hprepared, mapError_bind_of_error refused _ _⟩)
      cases hcommand : i.command with
      | compile t outDir =>
          rw [hcommand] at writes
          cases writes
          rw [result_perform_compile, hcompile]
          rfl
      | train t outDir interpreter =>
          rw [hcommand] at writes
          cases writes
          rw [result_perform_train, hcompile]
          rfl
      | _ =>
          rw [hcommand] at writes
          cases writes
  | @training s p c t outDir interpreter artifacts written fault generates trains stored failed =>
      refine ⟨.training fault, hsettled generates.binds.settled ?_, rfl,
        Failure.chain_training _⟩
      have hprepared := generates.result_prepare (t := t) (by rw [trains]; rfl)
      obtain ⟨hcompile, hdisk⟩ := compile_of_stored h s d hprepared stored
      rw [← hdisk] at failed
      rw [trains, result_perform_train]
      exact bind_eq_error_iff.mpr (Or.inr ⟨_, hcompile, mapError_bind_of_error failed _ _⟩)
  | @unsent s p path user address fault binds submits refused =>
      refine ⟨.submission fault, hsettled binds.settled ?_, rfl, Failure.chain_submission _⟩
      have hbind := binds.result_bind (by rw [submits]; rfl : i.command.payload? = some path)
      rw [submits] at hbind ⊢
      rw [result_perform_submit]
      exact bind_eq_error_iff.mpr (Or.inr ⟨p, hbind, mapError_bind_of_error refused _ _⟩)
  | @unanswered s p path text user address response fault binds submits sent broken =>
      refine ⟨.submission (.notAnswered fault), hsettled binds.settled ?_, rfl,
        Failure.chain_submission _⟩
      have hbind := binds.result_bind (by rw [submits]; rfl : i.command.payload? = some path)
      rw [submits] at hbind ⊢
      rw [result_perform_submit]
      refine bind_eq_error_iff.mpr (Or.inr ⟨p, hbind, ?_⟩)
      exact bind_eq_error_iff.mpr (Or.inr ⟨(text, response), mapError_eq_ok_iff.mpr sent,
        mapError_bind_of_error broken _ _⟩)

theorem explains_of_run_error (he : (h.run i d).2.result = .error e) : h.Explains i d e := by
  rcases hload : (h.loadSettings i.settings d).result with fault | s
  · rw [run_of_unsettled hload] at he
    cases he
    exact ⟨.settings, .settings hload, code_of_loadSettings_error hload⟩
  · rw [run_of_settled hload] at he
    exact explains_of_perform_error hload he

end Host

/-! ## 4. Answers -/

/-- What is printed of a failure with this code and this text. -/
def Printed.ofFault (json : Bool) (code chain : String) : Printed :=
  if json then
    ⟨1, (Value.object [("ok", .bool false),
      ("error", .object [("code", .text code), ("message", .text chain)])]).pretty ++ "\n", ""⟩
  else ⟨1, "", "error: " ++ chain ++ "\n"⟩

theorem unlines_singleton (line : String) : unlines [line] = line ++ "\n" := by
  simp [unlines, String.join]

theorem Printed.ofResult_error (json : Bool) (e : Failure) :
    ofResult json (.error e) = ofFault json e.code e.chain := by
  simp only [ofResult, ofFault, unlines_singleton, Failure.envelope]

/-- **Every run gives one answer, and the stage decides its code.** The exit status is zero when
no stage fails and one when a stage does, and then what is printed is made of the code of the
stage and the text of its fault. In JSON the answer is one object on the output and a line break,
which says whether the run went well, and the errors are empty. Without it a failure prints one
message to the errors and nothing to the output. -/
theorem run_gives_one_answer (h : Host) (i : Invocation) (d : Disk) :
    ((h.answer i d).printed.exit = 0 ∧ (∀ stage chain, ¬ h.FailsAt i d stage chain) ∨
      (h.answer i d).printed.exit = 1 ∧ ∃ stage chain, h.FailsAt i d stage chain) ∧
    (∀ stage chain, h.FailsAt i d stage chain →
      (h.answer i d).printed = .ofFault i.json stage.code chain) ∧
    ((h.answer i d).printed.exit = 0 → (h.answer i d).printed.errors = "" ∧
      (i.json = true → ∃ report : Report, (h.answer i d).printed.output
        = (Value.object [("ok", .bool true), ("data", report.toValue)]).pretty ++ "\n")) ∧
    (i.json = true → (h.answer i d).printed.errors = "" ∧
      Json.behindObject? (h.answer i d).printed.output.toList = some ['\n']) := by
  -- Nothing is printed but this, and it does not look at the events or the disk.
  have hprinted := h.printed_answer i d
  have hfails : ∀ stage chain, h.FailsAt i d stage chain →
      (h.answer i d).printed = .ofFault i.json stage.code chain := by
    intro stage chain hfails
    obtain ⟨e, he, hcode, hchain⟩ := Host.exists_error_of_failsAt hfails
    rw [hprinted, he, Printed.ofResult_error, hcode, hchain]
  refine ⟨?_, hfails, ?_, ?_⟩
  · cases hresult : (h.run i d).2.result with
    | error e =>
        obtain ⟨stage, hstage, -⟩ := Host.explains_of_run_error hresult
        refine Or.inr ⟨?_, stage, e.chain, hstage⟩
        rw [hprinted, hresult, Printed.ofResult]
        split <;> rfl
    | ok report =>
        refine Or.inl ⟨by rw [hprinted, hresult]; rfl, fun stage chain hstage => ?_⟩
        obtain ⟨e, he, -⟩ := Host.exists_error_of_failsAt hstage
        rw [hresult] at he
        cases he
  · intro hexit
    cases hresult : (h.run i d).2.result with
    | error e =>
        rw [hprinted, hresult, Printed.ofResult] at hexit
        split at hexit <;> cases hexit
    | ok report =>
        rw [hprinted, hresult]
        refine ⟨rfl, fun hjson => ⟨report, ?_⟩⟩
        rw [Printed.ofResult, hjson, Report.shown, if_pos rfl, unlines_singleton, Report.envelope]
  · intro hjson
    rw [hprinted, hjson]
    cases (h.run i d).2.result with
    | error e =>
        refine ⟨rfl, ?_⟩
        rw [Printed.ofResult, if_pos rfl, unlines_singleton, String.toList_append]
        exact Json.behindObject?_pretty _ _
    | ok report =>
        refine ⟨rfl, ?_⟩
        rw [Printed.ofResult, Report.shown, if_pos rfl, unlines_singleton, String.toList_append]
        exact Json.behindObject?_pretty _ _

end LayerScript
