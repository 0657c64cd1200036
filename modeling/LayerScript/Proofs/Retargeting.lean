/-
`Proofs/Retargeting.lean` -- what another dialect does to the names of layers.

The settings may name another dialect, and then the scripts begin their paths at other
variables. Which names a layer may not have was settled before: a module is judged while its
payload is bound, against a list that does not change, and the dialect is first looked at when
the scripts are written. So the list protects what it happens to hold, in every dialect, and
nothing else. A layer takes over what a path begins at whenever the two are called the same.

This is what the first theorem says, with nothing left open: in every dialect, the layers that
take over a name that the scripts need are those that are called `open` or like the first segment
of a path that is used. For a dialect whose paths begin at reserved names, as those of the
runtime's own dialect do, the second half is empty. For one that imports `keras` it is not.
-/
import LayerScript.Proofs.Capture

set_option autoImplicit false

namespace LayerScript

section

variable {payload : String} {user : Option String} {p : Project} {d : Dialect} {options : Options}
  {o : Order} {out : Compiled}

/-- What a path begins at is needed by a statement that uses the path. -/
theorem Project.exists_needed_of_mem_roots (hp : Project.ofPayload payload user = .ok p)
    (ho : p.network.resolve options.unreachable = .ok o) (hout : p.compile d options = .ok out)
    {name : String} (h : name ∈ d.roots o.modules) :
    ∃ s ∈ out.model.statements ++ out.trainer.statements, name ∈ s.needed := by
  obtain ⟨_, model, ho', hmodel, rfl⟩ := Project.compile_eq_ok_iff.mp hout
  cases ho.symm.trans ho'
  obtain ⟨layers, hlayers, hstatements⟩ := Network.exists_of_modelScript hmodel
  obtain ⟨path, hpath, rfl⟩ := List.mem_map.mp h
  -- The path of a category is used by a layer; each of the other three by a statement of its own.
  rcases List.mem_append.mp hpath with hpath | hpath
  · obtain ⟨m, hm, hpath⟩ := List.mem_filterMap.mp hpath
    obtain ⟨s, hs, hstatement⟩ := Module.exists_statement_of_mem hlayers hm
    obtain ⟨found, hfound, hreads⟩ := Project.reads_of_mem_order hp ho hm hstatement
    cases hpath.symm.trans hfound
    refine ⟨s, ?_, (Statement.mem_needed_iff hreads _).mpr List.mem_cons_self⟩
    simp [hstatements, hs]
  · simp only [List.mem_cons, List.not_mem_nil, or_false] at hpath
    rcases hpath with rfl | rfl | rfl
    · refine ⟨p.network.statement d, ?_, ?_⟩
      · simp [hstatements]
      · exact (Statement.mem_needed_iff (Project.reads_of_ends d hp ho) _).mpr List.mem_cons_self
    · refine ⟨p.config.compileStatement d, ?_, ?_⟩
      · simp [hstatements, Config.statements]
      · rw [Statement.needed, p.config.layersNamed_of_mem_statements d List.mem_cons_self,
          List.diff_nil, Config.reads_compileStatement]
        exact List.mem_cons_of_mem _ List.mem_cons_self
    · refine ⟨d.monitorStatement options.monitorRoot, ?_, ?_⟩
      · simp [trainScript, Config.trainScript]
      · exact (Statement.mem_needed_iff (Config.reads_monitorStatement d _) _).mpr
          List.mem_cons_self

/-- The training script needs reserved names, the function that opens the data set, and what the
callback that reports progress is found below. -/
theorem Project.needed_of_mem_trainer (hout : p.compile d options = .ok out) {s : Statement}
    (h : s ∈ out.trainer.statements) {name : String} (hname : name ∈ s.needed) :
    name ∈ reservedNames ∨ name = "open" ∨ name ∈ d.roots o.modules := by
  obtain ⟨-, -, -, -, htrainer⟩ := Project.exists_of_compile hout
  rw [htrainer] at h
  -- Only the statement about the callback looks at the dialect.
  by_cases hmonitor : s = d.monitorStatement options.monitorRoot
  · rw [hmonitor, Statement.mem_needed_iff (Config.reads_monitorStatement d _),
      List.mem_singleton] at hname
    rw [hname]
    exact Or.inr (Or.inr (d.fixed_mem_roots o.modules).2.2)
  · have hs := p.config.needed_of_mem_trainScript_of_ne d _ _ _ h hmonitor
    split at hs
    · rw [hs, List.mem_pair] at hname
      rcases hname with rfl | rfl
      · exact Or.inl (by decide)
      · exact Or.inr (Or.inl rfl)
    · exact Or.inl (hs name hname)

theorem Project.exists_needed_open (hout : p.compile d options = .ok out) :
    ∃ s ∈ out.model.statements ++ out.trainer.statements, "open" ∈ s.needed := by
  obtain ⟨-, -, -, -, htrainer⟩ := Project.exists_of_compile hout
  obtain ⟨load, rest, hload, -, hneeded, -⟩ := needed_loadStatements p.user
  refine ⟨load, ?_, ?_⟩
  · rw [htrainer]
    simp [trainScript, Config.trainScript, hload]
  · rw [hneeded]
    decide

/-- **The layers that take over a name that the scripts need** are those that are called `open`,
and those that are called like what a path begins at that the scripts use. None of them has a
reserved name, so a dialect keeps layers apart from its paths when these begin at such names. -/
theorem captured_iff_root (hp : Project.ofPayload payload user = .ok p)
    (ho : p.network.resolve options.unreachable = .ok o) (hout : p.compile d options = .ok out) :
    (∀ layer, (∃ s, out.Captured layer s) ↔
      layer ∈ out.order ∧ (layer = "open" ∨ layer ∈ d.roots o.modules)) ∧
    (∀ layer s, out.Captured layer s → layer ∉ reservedNames) ∧
    ((∀ name ∈ d.roots o.modules, name ∈ reservedNames) →
      ∀ layer ∈ out.order, layer ∉ d.roots o.modules) := by
  have hfree : ∀ layer ∈ out.order, layer ∉ reservedNames := fun layer hlayer =>
    (Project.isBound_of_mem_order hp hout hlayer).2
  refine ⟨fun layer => ⟨?_, ?_⟩, fun layer s hs => hfree layer hs.written,
    fun hroots layer hlayer hroot => hfree layer hlayer (hroots layer hroot)⟩
  · rintro ⟨s, hwritten, hstated, hneeded⟩
    refine ⟨hwritten, ?_⟩
    rcases List.mem_append.mp hstated with hs | hs
    · rcases Project.needed_of_mem_model hp ho hout hs hneeded with rfl | hroot
      · exact absurd (by decide) (hfree _ hwritten)
      · exact Or.inr hroot
    · -- A name on the list can be needed here, but no layer has it.
      rcases Project.needed_of_mem_trainer hout hs hneeded with hreserved | hneeded
      · exact absurd hreserved (hfree _ hwritten)
      · exact hneeded
  · rintro ⟨hwritten, rfl | hroot⟩
    · obtain ⟨s, hs, hneeded⟩ := Project.exists_needed_open hout
      exact ⟨s, hwritten, hs, hneeded⟩
    · obtain ⟨s, hs, hneeded⟩ := Project.exists_needed_of_mem_roots hp ho hout hroot
      exact ⟨s, hwritten, hs, hneeded⟩

end

/-- A dialect of `keras` by itself. -/
def keras : Dialect where
  imports := ["import keras"]
  namespaces := [("Layer", "keras.layers")]
  model := "keras.Model"
  optimizers := "keras.optimizers"
  callbacks := "keras.callbacks"

theorem captured_iff_root_keras :
    ∃ p o out, Project.ofPayload chainPayload (some "u") = .ok p ∧
      p.network.resolve .drop = .ok o ∧ p.compile keras chainOptions = .ok out ∧
      keras.roots o.modules = ["keras", "keras", "keras", "keras", "keras"] ∧
      ∀ layer s, ¬ out.Captured layer s := by
  obtain ⟨p, out, hp, hout, hrun⟩ := Project.exists_of_run
    (fun p out =>
      (out.order, (p.network.resolve .drop).toOption.map fun o => keras.roots o.modules))
    (by decide +kernel : ((Project.ofPayload chainPayload (some "u")).toOption.bind fun p =>
        (p.compile keras chainOptions).toOption.map _)
      = some (["x", "y"], some ["keras", "keras", "keras", "keras", "keras"]))
  obtain ⟨horder, hroots⟩ := Prod.mk.inj hrun
  obtain ⟨o, ho, hroots⟩ := Option.map_eq_some_iff.mp hroots
  have ho : p.network.resolve chainOptions.unreachable = .ok o := toOption_eq_some_iff.mp ho
  refine ⟨p, o, out, hp, ho, hout, hroots, fun layer s hcaptured => ?_⟩
  obtain ⟨hwritten, htaken⟩ := ((captured_iff_root hp ho hout).1 layer).mp ⟨s, hcaptured⟩
  rw [horder] at hwritten
  rw [hroots] at htaken
  rcases List.mem_pair.mp hwritten with rfl | rfl
  · exact absurd htaken (by decide)
  · exact absurd htaken (by decide)

/-- A settings file with this dialect. -/
def kerasSettings : String :=
  "[dialect]\nimports = [\"import keras\"]\nmodel = \"keras.Model\"\n"
    ++ "optimizers = \"keras.optimizers\"\ncallbacks = \"keras.callbacks\"\n"
    ++ "namespaces = \x7b Layer = \"keras.layers\" \x7d\n"

/-- A payload whose input layer is called `keras`. -/
def kerasPayload : String :=
  "\x7b\"config\":[\"SGD\",1,\"mse\",[],2,3],\"content\":[\"keras\",\"y\","
    ++ "[[\"Layer\",\"Input\",\"keras\",null,\"y\",[4,1,\"\"]],"
    ++ "[\"Layer\",\"Flatten\",\"y\",\"keras\"]]]\x7d"

theorem layer_called_keras_is_captured :
    ∃ s p out, Settings.ofFile? kerasSettings = some s ∧ s.dialect = keras ∧
      Project.ofPayload kerasPayload (some "u") = .ok p ∧
      p.compile s.dialect s.options = .ok out ∧
      "keras" ∈ out.order ∧ Expr.head s.dialect.model = "keras" ∧
      out.model.lines = ["import keras",
        "keras = keras.layers.Input(shape=4, batch_size=1, dtype=\"\")",
        "y = keras.layers.Flatten()(keras)",
        "model = keras.Model(inputs=keras, outputs=y)",
        "model.compile(optimizer=keras.optimizers.SGD(learning_rate=1), loss=\"mse\", metrics=[])"]
      := by
  have hsettings : Settings.ofFile? kerasSettings = some { dialect := keras } := by
    decide +kernel
  obtain ⟨p, out, hp, hout, hrun⟩ := Project.exists_of_run
    (fun _ out => (out.order, out.model.lines))
    (by decide +kernel : ((Project.ofPayload kerasPayload (some "u")).toOption.bind fun p =>
        (p.compile keras ({ dialect := keras } : Settings).options).toOption.map _)
      = some (["keras", "y"], ["import keras",
        "keras = keras.layers.Input(shape=4, batch_size=1, dtype=\"\")",
        "y = keras.layers.Flatten()(keras)",
        "model = keras.Model(inputs=keras, outputs=y)",
        "model.compile(optimizer=keras.optimizers.SGD(learning_rate=1), loss=\"mse\", metrics=[])"]))
  obtain ⟨horder, hlines⟩ := Prod.mk.inj hrun
  refine ⟨_, p, out, hsettings, rfl, hp, hout, ?_, by decide, hlines⟩
  rw [horder]
  decide

end LayerScript
