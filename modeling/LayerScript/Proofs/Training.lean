/-
`Proofs/Training.lean` -- the numbers that training is given.

Unlike the parameters of a layer, the numbers of a configuration are written as they are printed,
and nobody looks at the text again. So a value whose text is no number would end up in a script
as a variable that is not defined. The numbers of a payload are finite and thus printed as numbers
(`Project.isFinite_of_ofPayload`, `Decimal.Layout.isNumber_text`). The part of the data that is
kept back comes from the settings instead, whose format knows values that are not finite, and no
rule refuses them: this one number is a number in the script just when it is finite.

The arguments are found by their names wherever they stand in a script. A layer has none of these
names among its parameters, since its kind decides which it may have.
-/
import LayerScript.Proofs.Config
import LayerScript.Proofs.Decimal.Text
import LayerScript.Proofs.Records
import LayerScript.Proofs.Scripts

set_option autoImplicit false

namespace LayerScript

/-! ## 1. Arguments given by name -/

namespace Expr

mutual

/-- The arguments that are given by name in an expression, with the texts of their values. -/
def given : Expr → List (String × String)
  | .path _ => []
  | .literal _ => []
  | .list items => givenList items
  | .item container index => container.given ++ index.given
  | .call function arguments => function.given ++ givenList arguments
  | .named name value => (name, value.text) :: value.given

/-- The arguments that are given by name in several expressions. -/
def givenList : List Expr → List (String × String)
  | [] => []
  | e :: rest => e.given ++ givenList rest

end

theorem givenList_append (es fs : List Expr) :
    givenList (es ++ fs) = givenList es ++ givenList fs := by
  induction es with
  | nil => rfl
  | cons e rest ih => rw [List.cons_append, givenList, givenList, ih, List.append_assoc]

/-- Without arguments of its own, a value adds nothing to the argument that it is given to. -/
theorem givenList_namedIf {α : Type} (name : String) (write : α → Expr) (o : Option α)
    (hwrite : ∀ a, (write a).given = []) :
    givenList (namedIf name write o) = o.toList.map fun a => (name, (write a).text) := by
  cases o with
  | none => rfl
  | some a => simp [namedIf, givenList, given, hwrite]

/-- Items that are no calls have no arguments. -/
theorem givenList_map {α : Type} {write : α → Expr} (hwrite : ∀ a, (write a).given = [])
    (items : List α) : givenList (items.map write) = [] := by
  induction items with
  | nil => rfl
  | cons a rest ih => rw [List.map_cons, givenList, hwrite, ih, List.append_nil]

end Expr

/-- The arguments that are given by name in a statement. -/
def Statement.given : Statement → List (String × String)
  | .assign _ value => value.given
  | .evaluate value => value.given
  | _ => []

/-- The arguments with some names that are given in statements, from the first to the last. -/
def Statement.givenAs (names : List String) (statements : List Statement) :
    List (String × String) :=
  (statements.flatMap given).filter fun argument => argument.1 ∈ names

/-- The arguments with some names that are given in a script. -/
def Script.given (names : List String) (s : Script) : List (String × String) :=
  Statement.givenAs names s.statements

namespace Statement

variable (names : List String)

@[simp] theorem givenAs_append (before after : List Statement) :
    givenAs names (before ++ after) = givenAs names before ++ givenAs names after := by
  simp [givenAs]

@[simp] theorem givenAs_cons (s : Statement) (rest : List Statement) :
    givenAs names (s :: rest)
      = s.given.filter (fun argument => argument.1 ∈ names) ++ givenAs names rest := by
  simp [givenAs]

@[simp] theorem givenAs_nil : givenAs names [] = [] := rfl

/-- Lines that are copied have no arguments that can be read off. -/
@[simp] theorem givenAs_verbatim (lines : List String) :
    givenAs names (lines.map .verbatim) = [] := by
  simp [givenAs, given]

end Statement

/-! ## 2. Layers -/

/-- The names of the numbers in the script that builds the model. -/
def Config.modelNames : List String :=
  ["learning_rate", "patience", "min_delta", "factor", "min_lr"]

theorem Params.givenList_arguments (params : Params) :
    Expr.givenList params.arguments = params.map fun (key, value) => (key, value.literal) := by
  induction params with
  | nil => rfl
  | cons entry rest ih =>
      rw [arguments] at ih
      rw [arguments, List.map_cons, Expr.givenList, ih]
      rfl

/-- A layer is given its parameters, and applying it gives it no more. -/
theorem Module.given_of_statement {d : Dialect} {m : Module} {s : Statement}
    (h : m.statement d = .ok s) :
    ∃ params, m.layer.params? = some params ∧
      s.given = params.map fun (key, value) => (key, value.literal) := by
  unfold statement at h
  split at h
  · cases h
  · rename_i params hparams
    split at h
    · cases h
    · rename_i path _
      cases h
      refine ⟨params, hparams, ?_⟩
      have hconstruct : ∀ function, (Expr.call (.path function) params.arguments).given
          = params.map fun (key, value) => (key, value.literal) := by
        intro function
        rw [Expr.given, Expr.given, List.nil_append, params.givenList_arguments]
      unfold apply
      by_cases hroot : m.isInput = true
      · rw [if_pos hroot]
        exact hconstruct _
      · rw [if_neg hroot]
        cases m.input with
        | none => exact hconstruct _
        | some input =>
            simp only [Statement.given]
            rw [Expr.given, hconstruct]
            simp [Expr.givenList, Expr.given]

/-- No record has a parameter with one of these names. -/
theorem ParamRecord.not_mem_modelNames {r : ParamRecord} {values : FieldValues} :
    ∀ e ∈ r.params values, e.1 ∉ Config.modelNames := by
  intro e he
  have hentries : ∀ key ∈ r.entries.map (·.1), key ∉ Config.modelNames := by
    cases r <;> decide
  exact hentries e.1 (mem_entries_of_mem_params he)

/-- So none of these arguments is that of a layer. -/
theorem Module.givenAs_modelNames {d : Dialect} {ms : List Module} {ss : List Statement}
    (h : WrittenAs d ms ss) : Statement.givenAs Config.modelNames ss = [] := by
  induction h with
  | nil => rfl
  | @cons m s ms ss hs _ ih =>
      obtain ⟨params, hparams, hgiven⟩ := given_of_statement hs
      rw [Statement.givenAs_cons, ih, List.append_nil, List.filter_eq_nil_iff, hgiven]
      intro argument hargument
      obtain ⟨e, he, rfl⟩ := List.mem_map.mp hargument
      cases hlayer : m.layer with
      | unsupported =>
          rw [hlayer] at hparams
          cases hparams
      | supported kind values =>
          rw [hlayer] at hparams
          cases hparams
          simpa using ParamRecord.not_mem_modelNames e he

/-! ## 3. The configuration -/

/-- The text of a floating-point value in a script. -/
abbrev realText (x : Binary64) : String :=
  Decimal.Layout.script.text x

/-- The numbers that the callback is given, if it is used. -/
def EarlyStopping.numbers (e : EarlyStopping) : List (String × String) :=
  if e.usage then
    ("patience", toString e.patience) :: e.minDelta.toList.map fun x => ("min_delta", realText x)
  else []

/-- The numbers that the callback is given, if it is used. -/
def RateReduction.numbers (l : RateReduction) : List (String × String) :=
  if l.usage then
    ("factor", realText l.factor) :: ("patience", toString l.patience)
      :: l.minRate.toList.map fun x => ("min_lr", realText x)
  else []

namespace Config

/-- The numbers in the script that builds the model. -/
def modelNumbers (c : Config) : List (String × String) :=
  ("learning_rate", realText c.learningRate) :: c.earlyStopping.numbers ++ c.rateReduction.numbers

/-- The names of the numbers in the script that trains it. -/
def trainNames : List String :=
  ["epochs", "batch_size", "validation_split"]

/-- The numbers in the script that trains the model. -/
def trainNumbers (validationSplit : Binary64) (c : Config) : List (String × String) :=
  [("epochs", toString c.epochs), ("batch_size", toString c.batchSize),
   ("validation_split", realText validationSplit)]

end Config

/-- An argument that may be left out counts when its name does. -/
theorem filter_toList_map {α : Type} (names : List String) (name : String) (o : Option α)
    (text : α → String) :
    (o.toList.map fun a => (name, text a)).filter (fun argument => argument.1 ∈ names)
      = if name ∈ names then o.toList.map fun a => (name, text a) else [] := by
  by_cases hname : name ∈ names
  · simp [hname]
  · simp [hname]

theorem Expr.given_callback (d : Dialect) (kind : String) (arguments : List Expr) :
    (d.callback kind arguments).given = givenList arguments := by
  rw [Dialect.callback, given, given, List.nil_append]

theorem EarlyStopping.givenAs_statements (d : Dialect) (e : EarlyStopping) :
    Statement.givenAs Config.modelNames (e.statements d) = e.numbers := by
  unfold statements numbers
  by_cases husage : e.usage = true
  · rw [if_pos husage, if_pos husage, Statement.givenAs_cons, Statement.givenAs_nil,
      List.append_nil, Statement.given, Expr.given_callback]
    have hdelta := Expr.givenList_namedIf "min_delta" .real e.minDelta fun _ => rfl
    have hmode := Expr.givenList_namedIf "mode" .quoted e.mode fun _ => rfl
    have hrestore := Expr.givenList_namedIf "restore_best_weights"
      (fun b => .literal (Literal.ofBool b)) e.restoreBestWeights fun _ => rfl
    simp only [Expr.givenList_append, hdelta, hmode, hrestore, List.filter_append,
      filter_toList_map]
    simp [Expr.givenList, Expr.given, Expr.real, Expr.count, Expr.quoted, Expr.text,
      Config.modelNames]
  · rw [if_neg husage, if_neg husage]
    rfl

theorem RateReduction.givenAs_statements (d : Dialect) (l : RateReduction) :
    Statement.givenAs Config.modelNames (l.statements d) = l.numbers := by
  unfold statements numbers
  by_cases husage : l.usage = true
  · rw [if_pos husage, if_pos husage, Statement.givenAs_cons, Statement.givenAs_nil,
      List.append_nil, Statement.given, Expr.given_callback]
    have hrate := Expr.givenList_namedIf "min_lr" .real l.minRate fun _ => rfl
    simp only [Expr.givenList_append, hrate, List.filter_append, filter_toList_map]
    simp [Expr.givenList, Expr.given, Expr.real, Expr.count, Expr.quoted, Expr.text,
      Config.modelNames]
  · rw [if_neg husage, if_neg husage]
    rfl

namespace Config

variable (d : Dialect) (c : Config)

theorem filter_given_compileStatement :
    (c.compileStatement d).given.filter (fun argument => argument.1 ∈ modelNames)
      = [("learning_rate", realText c.learningRate)] := by
  have hmetrics : Expr.givenList (c.metrics.map Expr.quoted) = [] :=
    Expr.givenList_map (fun _ => rfl) _
  simp [compileStatement, Statement.given, Expr.given, Expr.givenList, Expr.real, Expr.quoted,
    Expr.text, hmetrics, modelNames]

theorem givenAs_statements : Statement.givenAs modelNames (c.statements d) = c.modelNumbers := by
  rw [statements, Statement.givenAs_append, Statement.givenAs_cons, filter_given_compileStatement,
    EarlyStopping.givenAs_statements, RateReduction.givenAs_statements]
  rfl

theorem given_trainScript (x : Binary64) (root user : String) :
    (c.trainScript d x root user).given trainNames = c.trainNumbers x := by
  have hcallbacks : Expr.givenList (c.callbacks.map Expr.path) = [] :=
    Expr.givenList_map (fun _ => rfl) _
  simp [Script.given, trainScript, loadStatements, Dialect.monitorStatement, Dialect.callback,
    fitStatement, saveStatement, Statement.given, Expr.given, Expr.givenList, Expr.real,
    Expr.count, Expr.quoted, Expr.text, hcallbacks, trainNames, trainNumbers]

end Config

/-! ## 4. Numbers -/

/-- A finite value is a number in a script. -/
theorem isNumber_realText {x : Binary64} (h : x.isFinite = true) :
    Literal.isNumber (realText x) = true := by
  rw [realText, Decimal.Layout.isNumber_text, h]

theorem EarlyStopping.isNumber_of_mem_numbers {e : EarlyStopping} (h : e.IsFinite) :
    ∀ argument ∈ e.numbers, Literal.isNumber argument.2 = true := by
  intro argument hargument
  unfold numbers at hargument
  split at hargument
  · rcases List.mem_cons.mp hargument with rfl | hargument
    · exact isNumber_toString _
    · obtain ⟨x, hx, rfl⟩ := List.mem_map.mp hargument
      exact isNumber_realText (h.minDelta x (Option.mem_toList.mp hx))
  · cases hargument

theorem RateReduction.isNumber_of_mem_numbers {l : RateReduction} (h : l.IsFinite) :
    ∀ argument ∈ l.numbers, Literal.isNumber argument.2 = true := by
  intro argument hargument
  unfold numbers at hargument
  split at hargument
  · rcases List.mem_cons.mp hargument with rfl | hargument
    · exact isNumber_realText h.factor
    · rcases List.mem_cons.mp hargument with rfl | hargument
      · exact isNumber_toString _
      · obtain ⟨x, hx, rfl⟩ := List.mem_map.mp hargument
        exact isNumber_realText (h.minRate x (Option.mem_toList.mp hx))
  · cases hargument

/-- The numbers of a finite configuration are numbers in the script that builds the model. -/
theorem Config.isNumber_of_mem_modelNumbers {c : Config} (h : c.IsFinite) :
    ∀ argument ∈ c.modelNumbers, Literal.isNumber argument.2 = true := by
  intro argument hargument
  rcases List.mem_append.mp hargument with hargument | hargument
  · rcases List.mem_cons.mp hargument with rfl | hargument
    · exact isNumber_realText h.learningRate
    · exact EarlyStopping.isNumber_of_mem_numbers h.earlyStopping argument hargument
  · exact RateReduction.isNumber_of_mem_numbers h.rateReduction argument hargument

theorem Network.givenAs_statement (d : Dialect) (c : Network) :
    Statement.givenAs Config.modelNames [c.statement d] = [] := by
  simp [statement, Statement.given, Expr.given, Expr.givenList, Config.modelNames]

namespace Project

variable {payload : String} {user : Option String} {p : Project} {d : Dialect} {options : Options}
  {out : Compiled}

/-- The numbers of the configuration are what the script that builds the model is given by their
names, and all that is given by them. -/
theorem given_model (hout : p.compile d options = .ok out) :
    out.model.given Config.modelNames = p.config.modelNumbers := by
  obtain ⟨o, model, ho, hmodel, rfl⟩ := compile_eq_ok_iff.mp hout
  obtain ⟨layers, hlayers, hstatements⟩ := Network.exists_of_modelScript hmodel
  simp only [Script.given, hstatements, Statement.givenAs_append, Statement.givenAs_verbatim,
    Module.givenAs_modelNames hlayers, Network.givenAs_statement, Config.givenAs_statements,
    List.nil_append]

/-- **The numbers that training is given are numbers in the scripts**, with one exception: the
part of the data that is kept back is a number just when it is finite. -/
theorem isNumber_given_iff (hp : Project.ofPayload payload user = .ok p)
    (hout : p.compile d options = .ok out) :
    out.model.given Config.modelNames = p.config.modelNumbers ∧
    out.trainer.given Config.trainNames = p.config.trainNumbers options.validationSplit ∧
    ∀ argument ∈ out.model.given Config.modelNames ++ out.trainer.given Config.trainNames,
      Literal.isNumber argument.2 = true ↔
        (argument.1 = "validation_split" → options.validationSplit.isFinite = true) := by
  have hmodel := given_model hout
  have htrainer : out.trainer.given Config.trainNames
      = p.config.trainNumbers options.validationSplit := by
    obtain ⟨o, model, -, -, rfl⟩ := compile_eq_ok_iff.mp hout
    exact p.config.given_trainScript d _ _ _
  refine ⟨hmodel, htrainer, ?_⟩
  intro argument hargument
  rcases List.mem_append.mp hargument with hargument | hargument
  · have hname : argument.1 ≠ "validation_split" := by
      intro heq
      have hin := (List.mem_filter.mp hargument).2
      rw [heq] at hin
      exact absurd hin (by decide)
    rw [hmodel] at hargument
    exact iff_of_true
      (Config.isNumber_of_mem_modelNumbers (isFinite_of_ofPayload hp) argument hargument)
      (fun heq => absurd heq hname)
  · rw [htrainer] at hargument
    simp only [Config.trainNumbers, List.mem_cons, List.not_mem_nil, or_false] at hargument
    rcases hargument with rfl | rfl | rfl
    · exact iff_of_true (isNumber_toString _) (fun heq => absurd heq (by simp))
    · exact iff_of_true (isNumber_toString _) (fun heq => absurd heq (by simp))
    · simp [realText, Decimal.Layout.isNumber_text]

end Project

/-- A payload that asks for both callbacks and leaves out none of their numbers. -/
def callbacksPayload : String :=
  "\x7b\"config\":[\"SGD\",1e-7,\"mse\",[],2,3,[true,\"loss\",4,-0.0],"
    ++ "[true,\"loss\",1e21,5,0.25]],\"content\":[\"x\",\"y\","
    ++ "[[\"Layer\",\"Input\",\"x\",null,\"y\",[4,1,\"\"]],[\"Layer\",\"Flatten\",\"y\",\"x\"]]]\x7d"

theorem isNumber_given_iff_quarter :
    ∃ s p out, Settings.ofFile? "validation_split = 0.25" = some s ∧
      Project.ofPayload callbacksPayload (some "u") = .ok p ∧
      p.compile s.dialect s.options = .ok out ∧
      out.model.given Config.modelNames = [("learning_rate", "0.0000001"), ("patience", "4"),
        ("min_delta", "-0"), ("factor", "1000000000000000000000"), ("patience", "5"),
        ("min_lr", "0.25")] ∧
      out.trainer.given Config.trainNames
        = [("epochs", "3"), ("batch_size", "2"), ("validation_split", "0.25")] ∧
      ∀ argument ∈ out.model.given Config.modelNames ++ out.trainer.given Config.trainNames,
        Literal.isNumber argument.2 = true := by
  have hsettings : Settings.ofFile? "validation_split = 0.25"
      = some { validationSplit := .finite false (2 ^ 52) (-54) } := by
    decide +kernel
  obtain ⟨p, out, hp, hout, hrun⟩ := Project.exists_of_run
    (fun _ out => (out.model.given Config.modelNames, out.trainer.given Config.trainNames))
    (by decide +kernel : ((Project.ofPayload callbacksPayload (some "u")).toOption.bind fun p =>
        (p.compile .tensorflow
          ({ validationSplit := .finite false (2 ^ 52) (-54) } : Settings).options).toOption.map _)
      = some ([("learning_rate", "0.0000001"), ("patience", "4"), ("min_delta", "-0"),
          ("factor", "1000000000000000000000"), ("patience", "5"), ("min_lr", "0.25")],
        [("epochs", "3"), ("batch_size", "2"), ("validation_split", "0.25")]))
  obtain ⟨hmodel, htrainer⟩ := Prod.mk.inj hrun
  refine ⟨_, p, out, hsettings, hp, hout, hmodel, htrainer, fun argument hargument => ?_⟩
  exact ((Project.isNumber_given_iff hp hout).2.2 argument hargument).mpr fun _ => rfl

/-- **A settings file may keep back a part that is not a number**, and then the script that trains
the model has a name in its place that nothing defines. -/
theorem split_that_is_no_number :
    ∃ s p out, Settings.ofFile? "validation_split = nan" = some s ∧
      Project.ofPayload callbacksPayload (some "u") = .ok p ∧
      p.compile s.dialect s.options = .ok out ∧
      ("validation_split", "NaN") ∈ out.trainer.given Config.trainNames ∧
      Literal.isNumber "NaN" = false ∧
      "model.fit(x_train, y_train, epochs=3, batch_size=2, validation_split=NaN, "
        ++ "callbacks=[remote_monitor, early_stopping, reduce_lr])" ∈ out.trainer.lines := by
  have hsettings : Settings.ofFile? "validation_split = nan"
      = some { validationSplit := .notANumber } := by
    decide +kernel
  obtain ⟨p, out, hp, hout, hrun⟩ := Project.exists_of_run
    (fun _ out => (out.trainer.given Config.trainNames, out.trainer.lines[8]?))
    (by decide +kernel : ((Project.ofPayload callbacksPayload (some "u")).toOption.bind fun p =>
        (p.compile .tensorflow
          ({ validationSplit := .notANumber } : Settings).options).toOption.map _)
      = some ([("epochs", "3"), ("batch_size", "2"), ("validation_split", "NaN")],
        some ("model.fit(x_train, y_train, epochs=3, batch_size=2, validation_split=NaN, "
          ++ "callbacks=[remote_monitor, early_stopping, reduce_lr])")))
  obtain ⟨htrainer, hline⟩ := Prod.mk.inj hrun
  refine ⟨_, p, out, hsettings, hp, hout, ?_, by decide, List.mem_of_getElem? hline⟩
  rw [htrainer]
  decide

end LayerScript
