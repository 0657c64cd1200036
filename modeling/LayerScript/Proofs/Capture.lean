/-
`Proofs/Capture.lean` -- which names the scripts need, and whether a layer can take one.

A layer's name becomes a variable of the model script, and the training script takes over every
variable of that. So a layer that is called like something else that a statement looks up would
stand in its place. What protects the scripts is a list of names that no layer may have, kept
apart from the templates it has to cover. Here the two are compared: what each statement looks
up, less the layers it names, is read off its structure, a family of statements at a time
(`Statement.Shielded`).

The list covers everything but one name. The function that opens the data set is looked up by
the training script like `json`, but while `json` is on the list, `open` is not. So a layer may
be called `open`, and then the training script calls that layer in place of the function.

What the statements look up is read off for every dialect. They are compared with the list for
the runtime's own dialect only, since another may begin its paths anywhere.
-/
import LayerScript.Proofs.Scripts
import Mathlib.Data.List.TakeWhile

set_option autoImplicit false

namespace LayerScript

/-! ## 1. Names that are needed -/

/-- The variables that a statement looks up besides the layers that it names. -/
def Statement.needed (s : Statement) : List String :=
  s.reads.diff s.layersNamed

/-- Whether no layer can take a name that a statement needs. -/
def Statement.Shielded (s : Statement) : Prop :=
  ∀ name ∈ s.needed, name ∈ reservedNames

/-- Whether a statement of a project needs the name of a layer that is written. -/
structure Compiled.Captured (out : Compiled) (layer : String) (s : Statement) : Prop where
  written : layer ∈ out.order
  stated : s ∈ out.model.statements ++ out.trainer.statements
  needed : layer ∈ s.needed

/-- What a statement needs is what it looks up before the layers that it names. -/
theorem Statement.mem_needed_iff {s : Statement} {names : List String}
    (hreads : s.reads = names ++ s.layersNamed) (name : String) :
    name ∈ s.needed ↔ name ∈ names := by
  rw [needed, hreads, ← List.count_pos_iff, List.count_diff, List.count_append,
    Nat.add_sub_cancel, List.count_pos_iff]

/-- A statement is shielded when it looks up reserved names and the layers that it names. -/
theorem Statement.shielded_of_reads {s : Statement} (names : List String)
    (hreads : s.reads = names ++ s.layersNamed) (hnames : ∀ name ∈ names, name ∈ reservedNames) :
    s.Shielded := fun name hname => hnames name ((mem_needed_iff hreads name).mp hname)

theorem Statement.shielded_verbatim (line : String) : (verbatim line).Shielded :=
  shielded_of_reads [] rfl (by simp)

/-! ## 2. Expressions -/

namespace Expr

/-- What is found below a path has the first segment of the path. -/
theorem head_below (path name : String) : head (path ++ "." ++ name) = head path := by
  have hlist : ∀ front : List Char,
      (front ++ '.' :: name.toList).takeWhile (· ≠ '.') = front.takeWhile (· ≠ '.') := by
    intro front
    induction front with
    | nil => simp
    | cons c rest ih =>
        rw [List.cons_append, List.takeWhile_cons, List.takeWhile_cons, ih]
  have hpath : (path ++ "." ++ name).toList = path.toList ++ '.' :: name.toList := by
    simp
  rw [head, head, hpath, hlist]

/-- A name is its own first segment. -/
theorem head_of_isName {name : String} (h : Literal.isName name = true) : head name = name := by
  -- A point neither begins a name nor goes on in one.
  have hpoint : '.' ∉ name.toList := by
    intro hmem
    unfold Literal.isName at h
    split at h
    · cases h
    · rename_i c rest hlist
      rw [hlist] at hmem
      rw [Bool.and_eq_true, List.all_eq_true] at h
      rcases List.mem_cons.mp hmem with rfl | hrest
      · exact absurd h.1 (by decide)
      · exact absurd (h.2 _ hrest) (by decide)
  have hall : name.toList.takeWhile (· ≠ '.') = name.toList := by
    rw [List.takeWhile_eq_self_iff]
    intro c hc
    rw [decide_eq_true_eq]
    rintro rfl
    exact hpoint hc
  rw [head, hall, String.ofList_toList]

theorem readsList_append (front back : List Expr) :
    readsList (front ++ back) = readsList front ++ readsList back := by
  induction front with
  | nil => rfl
  | cons e rest ih => rw [List.cons_append, readsList, readsList, ih, List.append_assoc]

theorem readsList_eq_nil {items : List Expr} (h : ∀ e ∈ items, e.reads = []) :
    readsList items = [] := by
  induction items with
  | nil => rfl
  | cons e rest ih =>
      rw [readsList, h e List.mem_cons_self, List.nil_append]
      exact ih fun e he => h e (List.mem_cons_of_mem _ he)

theorem readsList_map_path (paths : List String) :
    readsList (paths.map path) = paths.map head := by
  induction paths with
  | nil => rfl
  | cons p rest ih =>
      rw [List.map_cons, readsList, ih]
      rfl

end Expr

/-- Parameters are literals. -/
theorem Params.reads_arguments (params : Params) : Expr.readsList params.arguments = [] := by
  apply Expr.readsList_eq_nil
  intro e he
  obtain ⟨entry, -, rfl⟩ := List.mem_map.mp he
  rfl

/-! ## 3. The model script -/

/-- The paths of a dialect that the scripts use for some layers: those of their categories, and
the three that every model needs. -/
def Dialect.usedPaths (d : Dialect) (modules : List Module) : List String :=
  modules.filterMap (d.path? ·.category) ++ [d.model, d.optimizers, d.callbacks]

/-- The variables that these paths begin at. -/
def Dialect.roots (d : Dialect) (modules : List Module) : List String :=
  (d.usedPaths modules).map Expr.head

namespace Dialect

variable {d : Dialect} {modules : List Module}

/-- A path begins at one of these variables when it is that of the category of a layer. -/
theorem head_mem_roots {m : Module} (hm : m ∈ modules) {path : String}
    (hpath : d.path? m.category = some path) : Expr.head path ∈ d.roots modules :=
  List.mem_map.mpr ⟨path, List.mem_append_left _ (List.mem_filterMap.mpr ⟨m, hm, hpath⟩), rfl⟩

theorem fixed_mem_roots (d : Dialect) (modules : List Module) :
    Expr.head d.model ∈ d.roots modules ∧
    Expr.head d.optimizers ∈ d.roots modules ∧ Expr.head d.callbacks ∈ d.roots modules := by
  simp [roots, usedPaths]

/-- The paths of the runtime's own dialect begin at the runtime. -/
theorem eq_of_mem_roots_tensorflow {name : String} (h : name ∈ tensorflow.roots modules) :
    name = "tf" := by
  have hcategory : ∀ category : Category, ∀ path, tensorflow.path? category = some path →
      Expr.head path = "tf" := by
    rintro (_ | _) path hpath <;> cases hpath <;> decide
  obtain ⟨path, hpath, rfl⟩ := List.mem_map.mp h
  rcases List.mem_append.mp hpath with hpath | hpath
  · obtain ⟨m, -, hm⟩ := List.mem_filterMap.mp hpath
    exact hcategory _ _ hm
  · simp only [List.mem_cons, List.not_mem_nil, or_false] at hpath
    rcases hpath with rfl | rfl | rfl <;> decide

end Dialect

/-- **A layer needs what its category is found below and nothing else**, besides the layer that
it is applied to. -/
theorem Module.reads_of_statement {d : Dialect} {m : Module} {s : Statement}
    (h : m.statement d = .ok s)
    (hinput : m.isInput = false → ∀ input ∈ m.input, Literal.isName input = true) :
    ∃ path, d.path? m.category = some path ∧ s.reads = [Expr.head path] ++ s.layersNamed := by
  rw [(target?_of_statement h).2]
  unfold statement at h
  split at h
  · cases h
  · rename_i params _
    split at h
    · cases h
    · rename_i path hpath
      cases h
      refine ⟨path, hpath, ?_⟩
      have hconstruct : (Expr.call (.path (path ++ "." ++ m.layer.kindName))
          params.arguments).reads = [Expr.head path] := by
        rw [Expr.reads, Expr.reads, Expr.head_below, params.reads_arguments, List.append_nil]
      rw [Statement.reads, apply]
      by_cases hroot : m.isInput = true
      · rw [if_pos hroot, if_pos hroot, hconstruct, List.append_nil]
      · rw [if_neg hroot, if_neg hroot]
        cases hm : m.input with
        | none => rw [hconstruct, Option.toList_none, List.append_nil]
        | some input =>
            -- Applied to a layer by its name, of which the first segment is all there is.
            have hname := hinput (Bool.eq_false_iff.mpr hroot) input hm
            rw [Expr.reads, hconstruct]
            change [Expr.head path] ++ [Expr.head input] = _
            rw [Expr.head_of_isName hname, Option.toList_some]

/-- The model needs what its constructor is found below, besides the layers at its ends. -/
theorem Network.reads_statement {c : Network} (d : Dialect)
    (hinput : Literal.isName c.input = true) (houtput : Literal.isName c.output = true) :
    (c.statement d).reads = [Expr.head d.model] ++ (c.statement d).layersNamed := by
  change [Expr.head d.model, Expr.head c.input, Expr.head c.output]
    = [Expr.head d.model, c.input, c.output]
  rw [Expr.head_of_isName hinput, Expr.head_of_isName houtput]

/-- What is given by name only when it has a value looks up what that looks up. -/
theorem Expr.readsList_namedIf {α : Type} {name : String} {write : α → Expr}
    (h : ∀ a, (write a).reads = []) (x : Option α) : readsList (namedIf name write x) = [] := by
  cases x with
  | none => rfl
  | some a => exact readsList_eq_nil fun e he => by rw [List.mem_singleton.mp he, reads, h a]

/-- A callback needs what callbacks are found below. -/
theorem Dialect.reads_callback (d : Dialect) (kind : String) (arguments : List Expr) :
    (d.callback kind arguments).reads = Expr.head d.callbacks :: Expr.readsList arguments := by
  change Expr.head (d.callbacks ++ "." ++ kind) :: _ = _
  rw [Expr.head_below]
  rfl

namespace Config

variable (c : Config) (d : Dialect)

/-- What prepares training needs the model and what optimizers are found below. -/
theorem reads_compileStatement :
    (c.compileStatement d).reads = ["model", Expr.head d.optimizers] := by
  have hmetrics : Expr.readsList (c.metrics.map .quoted) = [] := by
    apply Expr.readsList_eq_nil
    intro e he
    obtain ⟨name, -, rfl⟩ := List.mem_map.mp he
    rfl
  change ["model"] ++ ([Expr.head (d.optimizers ++ "." ++ c.optimizer)] ++
    (Expr.readsList (c.metrics.map .quoted) ++ [])) = _
  rw [Expr.head_below, hmetrics]
  rfl

/-- The other statements that prepare training define callbacks. -/
theorem reads_of_mem_statements {s : Statement} (h : s ∈ c.statements d) :
    s = c.compileStatement d ∨ s.reads = [Expr.head d.callbacks] := by
  unfold statements EarlyStopping.statements RateReduction.statements at h
  rcases List.mem_append.mp h with h | h
  · rcases List.mem_cons.mp h with rfl | h
    · exact Or.inl rfl
    · split at h
      · rw [List.mem_singleton.mp h]
        refine Or.inr ?_
        rw [Statement.reads, Dialect.reads_callback, Expr.readsList_append, Expr.readsList_append,
          Expr.readsList_append, Expr.readsList_namedIf fun _ => rfl,
          Expr.readsList_namedIf fun _ => rfl, Expr.readsList_namedIf fun _ => rfl]
        rfl
      · cases h
  · split at h
    · rw [List.mem_singleton.mp h]
      refine Or.inr ?_
      rw [Statement.reads, Dialect.reads_callback, Expr.readsList_append,
        Expr.readsList_namedIf fun _ => rfl]
      rfl
    · cases h

end Config

/-! ## 4. The training script -/

/-- The statement of the training script that loads the data set, and needs `open` for it. -/
theorem needed_loadStatements (user : String) :
    ∃ load rest, loadStatements user = load :: rest ∧
      load.target? = some Variable.dataset ∧ load.needed = ["json", "open"] ∧
      ∀ s ∈ rest, s.target? ≠ some Variable.dataset ∧ s.Shielded := by
  refine ⟨_, _, rfl, rfl, rfl, ?_⟩
  intro s hs
  rcases List.mem_pair.mp hs with rfl | rfl
  · exact ⟨by decide, Statement.shielded_of_reads ["dataset"] rfl (by decide)⟩
  · exact ⟨by decide, Statement.shielded_of_reads ["dataset"] rfl (by decide)⟩

namespace Config

variable (c : Config)

/-- Training needs the model, the data, and the callbacks. -/
theorem shielded_fitStatement (x : Binary64) : (c.fitStatement x).Shielded := by
  have hcallbacks : ∀ name ∈ c.callbacks.map Expr.head, name ∈ reservedNames := by
    unfold callbacks
    -- Two of the callbacks are optional, and their variables are on the list.
    cases c.earlyStopping.usage <;> cases c.rateReduction.usage <;> decide
  refine Statement.shielded_of_reads ("model" :: "x_train" :: "y_train" ::
    c.callbacks.map Expr.head) ?_ ?_
  · change "model" :: "x_train" :: "y_train" :: (Expr.readsList (c.callbacks.map .path) ++ []) = _
    rw [Expr.readsList_map_path]
    rfl
  · intro name hname
    simp only [List.mem_cons] at hname
    rcases hname with rfl | rfl | rfl | hname
    · decide
    · decide
    · decide
    · exact hcallbacks name hname

/-- **The training script needs one name that is not reserved**, in the statement that loads
the data set, besides what the callback that reports progress is found below. -/
theorem needed_of_mem_trainScript_of_ne (d : Dialect) (x : Binary64) (root user : String)
    {s : Statement} (h : s ∈ (c.trainScript d x root user).statements)
    (hmonitor : s ≠ d.monitorStatement root) :
    if s.target? = some Variable.dataset then s.needed = ["json", "open"] else s.Shielded := by
  obtain ⟨load, rest, hload, htarget, hneeded, hrest⟩ := needed_loadStatements user
  rw [trainScript, hload] at h
  simp only [List.mem_append, List.mem_cons, List.mem_map, List.not_mem_nil, or_false] at h
  rcases h with (((⟨line, -, rfl⟩ | rfl | rfl) | (rfl | hs)) | rfl | rfl | rfl)
  · exact Statement.shielded_verbatim line
  · exact Statement.shielded_of_reads [] rfl (by simp)
  · exact Statement.shielded_of_reads [] rfl (by simp)
  · rw [if_pos htarget]
    exact hneeded
  · rw [if_neg (hrest s hs).1]
    exact (hrest s hs).2
  · exact absurd rfl hmonitor
  · exact c.shielded_fitStatement x
  · exact Statement.shielded_of_reads ["model"] rfl (by decide)

/-- That callback needs nothing else. -/
theorem reads_monitorStatement (d : Dialect) (root : String) :
    (d.monitorStatement root).reads
      = [Expr.head d.callbacks] ++ (d.monitorStatement root).layersNamed := by
  rw [Dialect.monitorStatement, Statement.reads, Dialect.reads_callback]
  rfl

/-- In the runtime's own dialect it is found below the runtime. -/
theorem needed_of_mem_trainScript (x : Binary64) (root user : String) {s : Statement}
    (h : s ∈ (c.trainScript .tensorflow x root user).statements) :
    if s.target? = some Variable.dataset then s.needed = ["json", "open"] else s.Shielded := by
  by_cases hmonitor : s = Dialect.tensorflow.monitorStatement root
  · subst hmonitor
    exact Statement.shielded_of_reads ["tf"] (reads_monitorStatement .tensorflow root) (by decide)
  · exact c.needed_of_mem_trainScript_of_ne .tensorflow x root user h hmonitor

end Config

/-! ## 5. Both scripts -/

section

variable {payload : String} {user : Option String} {p : Project} {options : Options}
  {out : Compiled}

/-- Layers that are written have names, and none that is reserved. -/
theorem Project.isBound_of_mem_order {d : Dialect} (hp : Project.ofPayload payload user = .ok p)
    (hout : p.compile d options = .ok out) {layer : String} (h : layer ∈ out.order) :
    Literal.isName layer = true ∧ layer ∉ reservedNames := by
  obtain ⟨o, hresolved, horder, -, -⟩ := Project.exists_of_compile hout
  rw [horder] at h
  obtain ⟨m, hm, rfl⟩ := List.mem_map.mp h
  have hbound := Project.isBound_of_ofPayload hp m (hresolved.declared m hm)
  exact ⟨hbound.isName, hbound.not_reserved⟩

theorem Project.isName_of_mem_order {o : Order} (hp : Project.ofPayload payload user = .ok p)
    (ho : p.network.resolve options.unreachable = .ok o) :
    ∀ m ∈ o.modules, Literal.isName m.name = true := fun m hm =>
  (Project.isBound_of_ofPayload hp m ((Network.resolved ho).declared m hm)).isName

/-- The statement of a layer needs what its category is found below: the layer that it is applied
to is one that the order has before it. -/
theorem Project.reads_of_mem_order {d : Dialect} {o : Order}
    (hp : Project.ofPayload payload user = .ok p)
    (ho : p.network.resolve options.unreachable = .ok o) {m : Module} (hm : m ∈ o.modules)
    {s : Statement} (hs : m.statement d = .ok s) :
    ∃ path, d.path? m.category = some path ∧ s.reads = [Expr.head path] ++ s.layersNamed := by
  refine Module.reads_of_statement hs fun hroot input hinput => ?_
  obtain ⟨before, after, hmodules⟩ := List.append_of_mem hm
  obtain ⟨q, hq, rfl⟩ := (Network.resolved ho).applied before m after hmodules hroot input hinput
  refine Project.isName_of_mem_order hp ho q ?_
  rw [hmodules]
  exact List.mem_append_left _ hq

theorem Project.reads_of_ends (d : Dialect) {o : Order}
    (hp : Project.ofPayload payload user = .ok p)
    (ho : p.network.resolve options.unreachable = .ok o) :
    (p.network.statement d).reads
      = [Expr.head d.model] ++ (p.network.statement d).layersNamed := by
  have hresolved := Network.resolved ho
  obtain ⟨m, hm, hinput⟩ := hresolved.input_mem
  obtain ⟨n, hn, houtput⟩ := hresolved.output_mem
  refine Network.reads_statement d ?_ ?_
  · rw [← hinput]
    exact Project.isName_of_mem_order hp ho m hm
  · rw [← houtput]
    exact Project.isName_of_mem_order hp ho n hn

/-- The model script needs the model, and what the paths of the dialect begin at. -/
theorem Project.needed_of_mem_model {d : Dialect} {o : Order}
    (hp : Project.ofPayload payload user = .ok p)
    (ho : p.network.resolve options.unreachable = .ok o)
    (hout : p.compile d options = .ok out) {s : Statement} (h : s ∈ out.model.statements)
    {name : String} (hname : name ∈ s.needed) :
    name = Variable.model ∨ name ∈ d.roots o.modules := by
  obtain ⟨_, model, ho', hmodel, rfl⟩ := Project.compile_eq_ok_iff.mp hout
  cases ho.symm.trans ho'
  obtain ⟨hmodelRoot, hoptimizers, hcallbacks⟩ := d.fixed_mem_roots o.modules
  obtain ⟨layers, hlayers, hstatements⟩ := Network.exists_of_modelScript hmodel
  rw [hstatements] at h
  simp only [List.mem_append, List.mem_map, List.mem_singleton] at h
  -- Imports, layers, the model, and what prepares training.
  rcases h with ((⟨line, -, rfl⟩ | hs) | rfl) | hs
  · cases hname
  · obtain ⟨m, hm, hstatement⟩ := Module.exists_module_of_mem hlayers hs
    obtain ⟨path, hpath, hreads⟩ := Project.reads_of_mem_order hp ho hm hstatement
    rw [Statement.mem_needed_iff hreads, List.mem_singleton] at hname
    rw [hname]
    exact Or.inr (d.head_mem_roots hm hpath)
  · rw [Statement.mem_needed_iff (Project.reads_of_ends d hp ho), List.mem_singleton] at hname
    rw [hname]
    exact Or.inr hmodelRoot
  · -- No layer is named here, so all that is looked up is needed.
    have hnone := p.config.layersNamed_of_mem_statements d hs
    rw [Statement.needed, hnone, List.diff_nil] at hname
    rcases p.config.reads_of_mem_statements d hs with rfl | hreads
    · rw [Config.reads_compileStatement, List.mem_pair] at hname
      rcases hname with rfl | rfl
      · exact Or.inl rfl
      · exact Or.inr hoptimizers
    · rw [hreads, List.mem_singleton] at hname
      rw [hname]
      exact Or.inr hcallbacks

/-- In the runtime's own dialect the model script needs reserved names only. -/
theorem Project.shielded_of_mem_model (hp : Project.ofPayload payload user = .ok p)
    (hout : p.compile .tensorflow options = .ok out) {s : Statement}
    (h : s ∈ out.model.statements) : s.Shielded := by
  obtain ⟨o, -, ho, -, -⟩ := Project.compile_eq_ok_iff.mp hout
  intro name hname
  rcases Project.needed_of_mem_model hp ho hout h hname with rfl | hroot
  · decide
  · rw [Dialect.eq_of_mem_roots_tensorflow hroot]
    decide

/-- **A name that the scripts need is taken by a layer exactly when a layer is called `open`**,
and then it is taken in the statement of the training script that loads the data set. -/
theorem captured_iff_open (hp : Project.ofPayload payload user = .ok p)
    (hout : p.compile .tensorflow options = .ok out) (layer : String) (s : Statement) :
    out.Captured layer s ↔ layer = "open" ∧ "open" ∈ out.order ∧
      s ∈ out.trainer.statements ∧ s.target? = some Variable.dataset := by
  obtain ⟨-, -, -, -, htrainer⟩ := Project.exists_of_compile hout
  have htrain : ∀ t ∈ out.trainer.statements,
      if t.target? = some Variable.dataset then t.needed = ["json", "open"] else t.Shielded := by
    rw [htrainer]
    exact fun t => p.config.needed_of_mem_trainScript _ _ _
  constructor
  · rintro ⟨hwritten, hstated, hneeded⟩
    have hreserved := (Project.isBound_of_mem_order hp hout hwritten).2
    rcases List.mem_append.mp hstated with hs | hs
    · exact absurd (Project.shielded_of_mem_model hp hout hs layer hneeded) hreserved
    · -- Of the two names that loading the data needs one is not reserved.
      have hs' := htrain s hs
      split at hs'
      · rename_i htarget
        rw [hs'] at hneeded
        rcases List.mem_pair.mp hneeded with rfl | rfl
        · exact absurd (by decide) hreserved
        · exact ⟨rfl, hwritten, hs, htarget⟩
      · exact absurd (hs' layer hneeded) hreserved
  · rintro ⟨rfl, hwritten, hs, htarget⟩
    have hs' := htrain s hs
    rw [if_pos htarget] at hs'
    refine ⟨hwritten, List.mem_append_right _ hs, ?_⟩
    rw [hs']
    decide

end

theorem captured_iff_open_chain :
    ∃ p out, Project.ofPayload chainPayload (some "u") = .ok p ∧
      p.compile .tensorflow chainOptions = .ok out ∧ out.order = ["x", "y"] ∧
      ∀ layer s, ¬ out.Captured layer s := by
  obtain ⟨p, out, hp, hout, horder⟩ :=
    Project.exists_of_run (fun _ out => out.order) (by decide +kernel :
      ((Project.ofPayload chainPayload (some "u")).toOption.bind fun p =>
        (p.compile .tensorflow chainOptions).toOption.map Compiled.order) = some ["x", "y"])
  refine ⟨p, out, hp, hout, horder, fun layer s hcaptured => ?_⟩
  obtain ⟨-, hwritten, -⟩ := (captured_iff_open hp hout layer s).mp hcaptured
  rw [horder] at hwritten
  exact absurd hwritten (by decide)

/-- A payload whose input layer is called `open`. -/
def openPayload : String :=
  "\x7b\"config\":[\"SGD\",1,\"mse\",[],2,3],\"content\":[\"open\",\"y\","
    ++ "[[\"Layer\",\"Input\",\"open\",null,\"y\",[4,1,\"\"]],"
    ++ "[\"Layer\",\"Flatten\",\"y\",\"open\"]]]\x7d"

theorem layer_called_open_is_captured :
    ∃ p out, Project.ofPayload openPayload (some "u") = .ok p ∧
      p.compile ({} : Settings).dialect ({} : Settings).options = .ok out ∧
      ∃ s, out.Captured "open" s ∧
        s.text = "dataset = json.load(open(\"./u/dataset.json\"))" := by
  obtain ⟨p, out, hp, hout, hrun⟩ := Project.exists_of_run
    (fun _ out => out.order.contains "open" && out.trainer.statements.any fun s =>
      s.needed.contains "open" && s.text == "dataset = json.load(open(\"./u/dataset.json\"))")
    (by decide +kernel :
      ((Project.ofPayload openPayload (some "u")).toOption.bind fun p =>
        (p.compile ({} : Settings).dialect ({} : Settings).options).toOption.map _) = some true)
  simp only [Bool.and_eq_true, List.any_eq_true, List.contains_iff_mem, beq_iff_eq] at hrun
  obtain ⟨hwritten, s, hs, hneeded, htext⟩ := hrun
  exact ⟨p, out, hp, hout, s, ⟨hwritten, List.mem_append_right _ hs, hneeded⟩, htext⟩

end LayerScript
