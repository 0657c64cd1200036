/-
`Proofs/Keywords.lean` -- which words the script language keeps for itself, and where they get
into the scripts.

A payload says how its layers and its optimizer are called, and the scripts write these names
bare: a layer's in front of an equal sign and as an argument, the optimizer's behind a point. Each
of them is an identifier, for that is looked at when the payload is bound. But the language keeps
some identifiers for itself, and a statement with one of those in such a place is none. Nothing
looks at that.

What makes the names of a statement legal is read off its structure (`Statement.NamesLegal`), for
every dialect whose own paths are legal. The answer is the same for all statements: one that takes
a keyword from the payload is illegal, and no other is. There is one more word that may be looked
up but not be given a value.
-/
import LayerScript.Proofs.Capture
import LayerScript.Proofs.Encoding
import LayerScript.Proofs.Layers

set_option autoImplicit false

namespace LayerScript

/-! ## 1. Identifiers -/

/-- The letters of an identifier, an underscore among them. Those beyond ASCII are left out. -/
def IsIdentifierLetter (c : Char) : Prop :=
  ('A' ≤ c ∧ c ≤ 'Z') ∨ ('a' ≤ c ∧ c ≤ 'z') ∨ c = '_'

/-- The identifiers of the script language: a letter, then letters and digits. -/
inductive IsIdentifier : List Char → Prop
  | letter {c : Char} (h : IsIdentifierLetter c) : IsIdentifier [c]
  | next {front : List Char} {c : Char} (hfront : IsIdentifier front)
      (h : IsIdentifierLetter c ∨ ('0' ≤ c ∧ c ≤ '9')) : IsIdentifier (front ++ [c])

namespace Literal

theorem isNameStart_iff {c : Char} : isNameStart c = true ↔ IsIdentifierLetter c := by
  have hupper : c.isUpper = true ↔ 'A' ≤ c ∧ c ≤ 'Z' := decide_eq_true_iff
  have hlower : c.isLower = true ↔ 'a' ≤ c ∧ c ≤ 'z' :=
    Bool.and_eq_true_iff.trans (and_congr decide_eq_true_iff decide_eq_true_iff)
  have hletter : c.isAlpha = true ↔ ('A' ≤ c ∧ c ≤ 'Z') ∨ ('a' ≤ c ∧ c ≤ 'z') :=
    Bool.or_eq_true_iff.trans (or_congr hupper hlower)
  rw [isNameStart, IsIdentifierLetter, Bool.or_eq_true, hletter, beq_iff_eq, or_assoc]

theorem isNamePart_iff {c : Char} :
    isNamePart c = true ↔ IsIdentifierLetter c ∨ ('0' ≤ c ∧ c ≤ '9') := by
  rw [← isNameStart_iff]
  simp only [isNameStart, isNamePart, Char.isAlphanum, Char.isDigit, Bool.or_eq_true,
    Bool.and_eq_true, decide_eq_true_eq, ge_iff_le]
  exact or_right_comm

/-- An identifier goes on with letters and digits. -/
theorem isIdentifier_append {front : List Char} (hfront : IsIdentifier front) {rest : List Char}
    (hrest : ∀ c ∈ rest, isNamePart c = true) : IsIdentifier (front ++ rest) := by
  induction rest generalizing front with
  | nil => rwa [List.append_nil]
  | cons c more ih =>
      have hc := isNamePart_iff.mp (hrest c List.mem_cons_self)
      rw [← List.singleton_append, ← List.append_assoc]
      exact ih (.next hfront hc) fun d hd => hrest d (List.mem_cons_of_mem _ hd)

/-- **A text has the shape of a name exactly when it is an identifier.** -/
theorem isIdentifier_iff {name : String} : IsIdentifier name.toList ↔ isName name = true := by
  unfold isName
  constructor
  · intro h
    generalize name.toList = text at h
    -- The last character is looked at as a part, unless it is the first as well.
    have hparts : ∃ c rest, text = c :: rest ∧ isNameStart c = true ∧
        ∀ d ∈ rest, isNamePart d = true := by
      induction h with
      | letter h => exact ⟨_, [], rfl, isNameStart_iff.mpr h, nofun⟩
      | @next front d _ hd ih =>
          obtain ⟨c, rest, rfl, hstart, hrest⟩ := ih
          refine ⟨c, rest ++ [d], rfl, hstart, fun e he => ?_⟩
          rcases List.mem_append.mp he with he | he
          · exact hrest e he
          · rw [List.mem_singleton.mp he]
            exact isNamePart_iff.mpr hd
    obtain ⟨c, rest, rfl, hstart, hrest⟩ := hparts
    exact Bool.and_eq_true_iff.mpr ⟨hstart, List.all_eq_true.mpr hrest⟩
  · intro h
    split at h
    · cases h
    · rename_i c rest hlist
      rw [Bool.and_eq_true, List.all_eq_true] at h
      rw [hlist, ← List.singleton_append]
      exact isIdentifier_append (.letter (isNameStart_iff.mp h.1)) h.2

end Literal

/-! ## 2. Words that are kept -/

/-- The identifiers that the script language keeps for itself. -/
def keywords : List String :=
  ["False", "None", "True", "and", "as", "assert", "async", "await", "break", "class",
   "continue", "def", "del", "elif", "else", "except", "finally", "for", "from", "global", "if",
   "import", "in", "is", "lambda", "nonlocal", "not", "or", "pass", "raise", "return", "try",
   "while", "with", "yield"]

/-- The one word besides that may be looked up but not be given a value. -/
def fixedName : String := "__debug__"

/-- Whether a name may be looked up, on its own or behind a point. -/
structure IsReadable (name : String) : Prop where
  isIdentifier : IsIdentifier name.toList
  not_keyword : name ∉ keywords

/-- Whether a name may be given a value, or be that of an argument. -/
structure IsAssignable (name : String) : Prop extends IsReadable name where
  not_fixed : name ≠ fixedName

/-- Whether a dotted path is made of names that may be looked up. -/
def IsPath (dotted : String) : Prop :=
  ∀ segment ∈ Text.split '.' dotted.toList, IsReadable (.ofList segment)

section

variable {name : String}

theorem isReadable_iff : IsReadable name ↔ Literal.isName name = true ∧ name ∉ keywords := by
  rw [← Literal.isIdentifier_iff]
  exact ⟨fun h => ⟨h.isIdentifier, h.not_keyword⟩, fun h => ⟨h.1, h.2⟩⟩

theorem isAssignable_iff :
    IsAssignable name ↔ Literal.isName name = true ∧ name ∉ keywords ∧ name ≠ fixedName := by
  rw [← and_assoc, ← isReadable_iff]
  exact ⟨fun h => ⟨h.toIsReadable, h.not_fixed⟩, fun h => ⟨h.1, h.2⟩⟩

instance : Decidable (IsReadable name) := decidable_of_iff _ isReadable_iff.symm

instance : Decidable (IsAssignable name) := decidable_of_iff _ isAssignable_iff.symm

instance : Decidable (IsPath name) := by unfold IsPath; infer_instance

/-- A name that is no keyword may be looked up. -/
theorem isReadable_iff_of_isName (h : Literal.isName name = true) :
    IsReadable name ↔ name ∉ keywords := by
  rw [isReadable_iff, and_iff_right h]

/-- It may be given a value, unless it is the word that may not. -/
theorem isAssignable_iff_of_isName (h : Literal.isName name = true) :
    IsAssignable name ↔ name ∉ keywords ∧ name ≠ fixedName := by
  rw [isAssignable_iff, and_iff_right h]

/-- A name is a path of its own. -/
theorem isPath_iff_of_isName (h : Literal.isName name = true) :
    IsPath name ↔ name ∉ keywords := by
  rw [← isReadable_iff_of_isName h, IsPath,
    Text.split_of_not_mem (Literal.not_mem_of_isName h (by decide)), List.forall_mem_singleton,
    String.ofList_toList]

/-- What is found below a path. -/
theorem isPath_below_iff (path name : String) :
    IsPath (path ++ "." ++ name) ↔ IsPath path ∧ IsPath name := by
  have hlist : (path ++ "." ++ name).toList = path.toList ++ '.' :: name.toList := by
    simp
  rw [IsPath, hlist, Text.split_append_cons, List.forall_mem_append]
  rfl

end

/-! ## 3. Statements -/

mutual

/-- Whether the names of an expression are legal where they stand. Literals have none. -/
def Expr.NamesLegal : Expr → Prop
  | .path dotted => IsPath dotted
  | .literal _ => True
  | .list items => Expr.AllNamesLegal items
  | .item container index => container.NamesLegal ∧ index.NamesLegal
  | .call function arguments => function.NamesLegal ∧ Expr.AllNamesLegal arguments
  | .named name value => IsAssignable name ∧ value.NamesLegal

/-- Whether those of several expressions are. -/
def Expr.AllNamesLegal : List Expr → Prop
  | [] => True
  | e :: rest => e.NamesLegal ∧ Expr.AllNamesLegal rest

end

mutual

/-- It can be computed. -/
instance Expr.decidableNamesLegal : (e : Expr) → Decidable e.NamesLegal
  | .path dotted => inferInstanceAs (Decidable (IsPath dotted))
  | .literal _ => inferInstanceAs (Decidable True)
  | .list items => Expr.decidableAllNamesLegal items
  | .item container index =>
    let _ := Expr.decidableNamesLegal container
    let _ := Expr.decidableNamesLegal index
    inferInstanceAs (Decidable (container.NamesLegal ∧ index.NamesLegal))
  | .call function arguments =>
    let _ := Expr.decidableNamesLegal function
    let _ := Expr.decidableAllNamesLegal arguments
    inferInstanceAs (Decidable (function.NamesLegal ∧ Expr.AllNamesLegal arguments))
  | .named name value =>
    let _ := Expr.decidableNamesLegal value
    inferInstanceAs (Decidable (IsAssignable name ∧ value.NamesLegal))

/-- It can be computed of several expressions. -/
instance Expr.decidableAllNamesLegal : (items : List Expr) → Decidable (Expr.AllNamesLegal items)
  | [] => inferInstanceAs (Decidable True)
  | e :: rest =>
    let _ := Expr.decidableNamesLegal e
    let _ := Expr.decidableAllNamesLegal rest
    inferInstanceAs (Decidable (e.NamesLegal ∧ Expr.AllNamesLegal rest))

end

/-- Whether the names of a statement are legal where they stand. A line that is copied comes from
the dialect as it is. -/
def Statement.NamesLegal : Statement → Prop
  | .verbatim _ => True
  | .importModule name => IsAssignable name
  | .importAll module => IsPath module
  | .assign target value => IsAssignable target ∧ value.NamesLegal
  | .evaluate value => value.NamesLegal

namespace Expr

theorem allNamesLegal_iff {items : List Expr} :
    AllNamesLegal items ↔ ∀ e ∈ items, e.NamesLegal := by
  induction items with
  | nil => simp [AllNamesLegal]
  | cons e rest ih => rw [AllNamesLegal, ih, List.forall_mem_cons]

theorem allNamesLegal_append {front back : List Expr} :
    AllNamesLegal (front ++ back) ↔ AllNamesLegal front ∧ AllNamesLegal back := by
  simp only [allNamesLegal_iff, List.forall_mem_append]

/-- Literals can be listed. -/
theorem allNamesLegal_quoted (texts : List String) : AllNamesLegal (texts.map quoted) := by
  rw [allNamesLegal_iff]
  intro e he
  obtain ⟨text, -, rfl⟩ := List.mem_map.mp he
  trivial

/-- So can they be given by name, if there is one to give. -/
theorem allNamesLegal_namedIf {α : Type} {name : String} (hname : IsAssignable name)
    {write : α → Expr} (hwrite : ∀ a, (write a).NamesLegal) (x : Option α) :
    AllNamesLegal (namedIf name write x) := by
  cases x with
  | none => trivial
  | some a => exact ⟨⟨hname, hwrite a⟩, trivial⟩

end Expr

/-- Whether the paths of a dialect are legal. -/
structure Dialect.PathsLegal (d : Dialect) : Prop where
  category : ∀ category path, d.path? category = some path → IsPath path
  model : IsPath d.model
  optimizers : IsPath d.optimizers
  callbacks : IsPath d.callbacks

/-- Those of the runtime's own dialect are. -/
theorem Dialect.pathsLegal_tensorflow : tensorflow.PathsLegal where
  category := by
    rintro (_ | _) path hpath <;> cases hpath <;> decide
  model := by decide
  optimizers := by decide
  callbacks := by decide

/-- The names of kinds are those of constructors. -/
theorem Kind.isPath_name (kind : Kind) : IsPath kind.name := by
  cases kind <;> decide

/-- The names of parameters are those of arguments. -/
theorem ParamRecord.isAssignable_of_mem_params {r : ParamRecord} {values : FieldValues} :
    ∀ e ∈ r.params values, IsAssignable e.1 := by
  intro e he
  have hentries : ∀ key ∈ r.entries.map (·.1), IsAssignable key := by
    cases r <;> decide
  exact hentries e.1 (mem_entries_of_mem_params he)

namespace Module

variable {d : Dialect} {m : Module}

/-- A layer may be applied to any whose name is not kept. -/
theorem namesLegal_apply_iff (hm : m.IsWritable) {e : Expr} (he : e.NamesLegal) :
    (m.apply e).NamesLegal ↔ ∀ input ∈ m.applied?, input ∉ keywords := by
  unfold apply applied?
  by_cases hroot : m.isInput = true
  · simp [if_pos hroot, he]
  · cases hinput : m.input with
    | none => simp [he]
    | some input =>
        have hname := isPath_iff_of_isName (hm.input input hinput)
        simp [if_neg hroot, Expr.NamesLegal, Expr.AllNamesLegal, he, hname]

/-- **The statement of a layer is legal unless its name is kept, or that of the layer that it is
applied to.** -/
theorem namesLegal_iff (hd : d.PathsLegal) (hm : m.IsWritable) {s : Statement}
    (h : m.statement d = .ok s) :
    s.NamesLegal ↔ (m.name ∉ keywords ∧ m.name ≠ fixedName) ∧
      ∀ input ∈ m.applied?, input ∉ keywords := by
  cases hlayer : m.layer with
  | unsupported =>
      rw [statement, hlayer] at h
      cases h
  | supported kind values =>
      rw [statement, hlayer] at h
      cases hpath : d.path? m.category with
      | none =>
          rw [hpath] at h
          cases h
      | some path =>
          rw [hpath] at h
          cases h
          -- The names of the constructor and of its arguments are not from the payload.
          have hconstruct : (Expr.call (.path (path ++ "." ++ kind.name))
              (kind.record.params values).arguments).NamesLegal := by
            refine ⟨(isPath_below_iff _ _).mpr ⟨hd.category _ _ hpath, kind.isPath_name⟩, ?_⟩
            rw [Expr.allNamesLegal_iff]
            intro argument hargument
            obtain ⟨e, he, rfl⟩ := List.mem_map.mp hargument
            exact ⟨ParamRecord.isAssignable_of_mem_params e he, trivial⟩
          exact and_congr (isAssignable_iff_of_isName hm.name) (namesLegal_apply_iff hm hconstruct)

end Module

/-- The model can be built between layers whose names are not kept. -/
theorem Network.namesLegal_statement_iff {d : Dialect} (hd : d.PathsLegal) {c : Network}
    (hinput : Literal.isName c.input = true) (houtput : Literal.isName c.output = true) :
    (c.statement d).NamesLegal ↔ c.input ∉ keywords ∧ c.output ∉ keywords := by
  have hmodel : IsAssignable Variable.model := by decide
  have hinputs : IsAssignable "inputs" := by decide
  have houtputs : IsAssignable "outputs" := by decide
  simp [statement, Statement.NamesLegal, Expr.NamesLegal, Expr.AllNamesLegal, hmodel, hinputs,
    houtputs, hd.model, isPath_iff_of_isName hinput, isPath_iff_of_isName houtput]

/-- A callback is found below a path of the dialect. -/
theorem Dialect.namesLegal_callback {d : Dialect} (hd : d.PathsLegal) {kind : String}
    (hkind : IsPath kind) {arguments : List Expr} (h : Expr.AllNamesLegal arguments) :
    (d.callback kind arguments).NamesLegal :=
  ⟨(isPath_below_iff _ _).mpr ⟨hd.callbacks, hkind⟩, h⟩

namespace Config

variable {d : Dialect} (hd : d.PathsLegal) (c : Config)

include hd

/-- Training can be prepared with an optimizer whose name is not kept. -/
theorem namesLegal_compileStatement_iff (hoptimizer : Literal.isName c.optimizer = true) :
    (c.compileStatement d).NamesLegal ↔ c.optimizer ∉ keywords := by
  have hcompile : IsPath (Variable.model ++ ".compile") := by decide
  have hnames : ∀ name ∈ ["optimizer", "learning_rate", "loss", "metrics"], IsAssignable name := by
    decide
  simp only [List.forall_mem_cons] at hnames
  obtain ⟨hfirst, hrate, hloss, hmetrics, -⟩ := hnames
  simp [compileStatement, Statement.NamesLegal, Expr.NamesLegal, Expr.AllNamesLegal, hcompile,
    hfirst, hrate, hloss, hmetrics, isPath_below_iff, hd.optimizers, Expr.real, Expr.quoted,
    isPath_iff_of_isName hoptimizer, Expr.allNamesLegal_quoted]

/-- The callbacks that a configuration asks for have names of their own. -/
theorem namesLegal_of_mem_statements {s : Statement} (h : s ∈ c.statements d) :
    s = c.compileStatement d ∨ s.NamesLegal := by
  unfold statements EarlyStopping.statements RateReduction.statements at h
  rcases List.mem_append.mp h with h | h
  · rcases List.mem_cons.mp h with rfl | h
    · exact Or.inl rfl
    · split at h
      · rw [List.mem_singleton.mp h]
        refine Or.inr ⟨by decide, Dialect.namesLegal_callback hd (by decide) ?_⟩
        simp only [Expr.allNamesLegal_append]
        refine ⟨⟨⟨⟨⟨by decide, trivial⟩, ⟨by decide, trivial⟩, trivial⟩, ?_⟩, ?_⟩, ?_⟩
        · exact Expr.allNamesLegal_namedIf (by decide) (fun _ => by trivial) _
        · exact Expr.allNamesLegal_namedIf (by decide) (fun _ => by trivial) _
        · exact Expr.allNamesLegal_namedIf (by decide) (fun _ => by trivial) _
      · cases h
  · split at h
    · rw [List.mem_singleton.mp h]
      refine Or.inr ⟨by decide, Dialect.namesLegal_callback hd (by decide) ?_⟩
      rw [Expr.allNamesLegal_append]
      refine ⟨⟨⟨by decide, trivial⟩, ⟨by decide, trivial⟩, ⟨by decide, trivial⟩, trivial⟩, ?_⟩
      exact Expr.allNamesLegal_namedIf (by decide) (fun _ => by trivial) _
    · cases h

/-- **The training script takes no name from the payload.** -/
theorem namesLegal_of_mem_trainScript (x : Binary64) (root user : String) {s : Statement}
    (h : s ∈ (c.trainScript d x root user).statements) : s.NamesLegal := by
  have hload : ∀ s ∈ loadStatements user, s.NamesLegal := by
    intro s hs
    unfold loadStatements at hs
    simp only [List.mem_cons, List.not_mem_nil, or_false] at hs
    have hpart : IsPath Variable.dataset := by decide
    rcases hs with rfl | rfl | rfl
    · exact ⟨by decide, by decide, ⟨by decide, trivial, trivial⟩, trivial⟩
    · exact ⟨by decide, hpart, trivial⟩
    · exact ⟨by decide, hpart, trivial⟩
  have hcallbacks : Expr.AllNamesLegal (c.callbacks.map .path) := by
    rw [Expr.allNamesLegal_iff]
    unfold callbacks
    cases c.earlyStopping.usage <;> cases c.rateReduction.usage <;>
      simp [Expr.NamesLegal] <;> decide
  unfold trainScript at h
  simp only [List.mem_append, List.mem_cons, List.mem_map, List.not_mem_nil, or_false] at h
  rcases h with (((⟨line, -, rfl⟩ | rfl | rfl) | hs) | rfl | rfl | rfl)
  · trivial
  · change IsAssignable "json"
    decide
  · change IsPath "model"
    decide
  · exact hload s hs
  · exact ⟨by decide, Dialect.namesLegal_callback hd (by decide) ⟨⟨by decide, trivial⟩, trivial⟩⟩
  · exact ⟨by decide, by decide, by decide, ⟨by decide, trivial⟩, ⟨by decide, trivial⟩,
      ⟨by decide, trivial⟩, ⟨by decide, hcallbacks⟩, trivial⟩
  · exact ⟨by decide, trivial, trivial⟩

end Config

/-! ## 4. What keeps them out -/

/-- The words that are kept have the shape of names, and none is on the list of those that no
layer may have. -/
theorem isName_of_kept : ∀ word ∈ fixedName :: keywords,
    Literal.isName word = true ∧ word ∉ reservedNames := by
  decide

/-- What is on that list is none of these words. -/
theorem not_kept_of_reserved : ∀ name ∈ reservedNames, name ∉ keywords ∧ name ≠ fixedName := by
  decide

/-- **A layer that is accepted under some name is accepted under a word that is kept.** -/
theorem Module.ofDeclaration_of_kept {decl : Declaration} {m : Module}
    (h : ofDeclaration decl = .ok m) {word : String} (hword : word ∈ fixedName :: keywords) :
    ofDeclaration { decl with name := word } = .ok { m with name := word } := by
  obtain ⟨hname, hreserved⟩ := isName_of_kept word hword
  unfold ofDeclaration at h ⊢
  rw [hname, Bool.not_true, if_neg Bool.false_ne_true, if_neg hreserved]
  split at h
  · cases h
  · split at h
    · cases h
    · cases hlayer : Layer.ofFields [("param", decl.params), ("type", .text decl.kind)] with
      | error fault =>
          rw [hlayer] at h
          cases h
      | ok layer =>
          rw [hlayer] at h
          cases layer with
          | unsupported => cases h
          | supported kind params =>
              cases h
              rfl

/-- **So is a project when its optimizer is called by such a word.** -/
theorem Project.ofFields_of_kept {fields fields' : List (String × Value)}
    {user : Except BindError String} {p : Project} (h : ofFields fields user = .ok p)
    {word : String} (hword : word ∈ fixedName :: keywords) {e : Value}
    (he : Config.ofValue e = .ok { p.config with optimizer := word })
    (hfields : Replaces "config" e fields fields') :
    ofFields fields' user = .ok { p with config := { p.config with optimizer := word } } :=
  ofFields_of_replaces he (isName_of_kept word hword).1 h hfields

/-! ## 5. The scripts of a project -/

/-- Whether a statement has no word that is kept where the payload says how something is called:
a variable that gets a value, a layer that is named, the optimizer. -/
structure Project.Spares (p : Project) (d : Dialect) (s : Statement) : Prop where
  target : ∀ name ∈ s.target?, name ∉ keywords ∧ name ≠ fixedName
  layers : ∀ layer ∈ s.layersNamed, layer ∉ keywords
  optimizer : s = p.config.compileStatement d → p.config.optimizer ∉ keywords

/-- A variable that gets a value may get it. -/
theorem Statement.NamesLegal.isAssignable {s : Statement} (h : s.NamesLegal) :
    ∀ name ∈ s.target?, IsAssignable name := by
  intro name hname
  cases s with
  | importModule =>
      cases hname
      exact h
  | assign =>
      cases hname
      exact h.1
  | _ => cases hname

/-- A path is no keyword. -/
theorem IsPath.not_keyword {name : String} (h : IsPath name) : name ∉ keywords := by
  intro hname
  exact (isPath_iff_of_isName (isName_of_kept name (List.mem_cons_of_mem _ hname)).1).mp h hname

/-- A layer that is named may be looked up. -/
theorem Statement.NamesLegal.isPath_layer {s : Statement} (h : s.NamesLegal) :
    ∀ layer ∈ s.layersNamed, IsPath layer := by
  intro layer hlayer
  unfold layersNamed at hlayer
  split at hlayer
  · rw [List.mem_singleton.mp hlayer]
    exact h.2.2.1
  · rcases List.mem_pair.mp hlayer with rfl | rfl
    · exact h.2.2.1.2
    · exact h.2.2.2.1.2
  · cases hlayer

section

variable {payload : String} {user : Option String} {p : Project} {options : Options}
  {out : Compiled} {d : Dialect}

/-- The optimizer of a project has a name. -/
theorem Project.isName_optimizer (hp : ofPayload payload user = .ok p) :
    Literal.isName p.config.optimizer = true := by
  obtain ⟨fields, hread, -⟩ := exists_parts_of_ofPayload hp
  exact (ofFields_eq_ok_iff.mp (ofFields_of_ofPayload hp hread)).2.1

/-- The names of a statement are not legal unless it spares the words that are kept. -/
theorem Project.spares_of_namesLegal (hp : ofPayload payload user = .ok p) (hd : d.PathsLegal)
    {s : Statement} (h : s.NamesLegal) : p.Spares d s where
  target name hname :=
    ⟨(h.isAssignable name hname).not_keyword, (h.isAssignable name hname).not_fixed⟩
  layers layer hlayer := (h.isPath_layer layer hlayer).not_keyword
  optimizer hs :=
    (Config.namesLegal_compileStatement_iff hd p.config (isName_optimizer hp)).mp (hs ▸ h)

/-- They are legal in the model script if it does. -/
theorem Project.namesLegal_of_spares (hp : ofPayload payload user = .ok p) (hd : d.PathsLegal)
    (hout : p.compile d options = .ok out) {s : Statement} (hs : s ∈ out.model.statements)
    (h : p.Spares d s) : s.NamesLegal := by
  obtain ⟨o, model, ho, hmodel, rfl⟩ := compile_eq_ok_iff.mp hout
  obtain ⟨v, hv⟩ := exists_network_of_ofPayload hp
  have hresolved := Network.resolved ho
  obtain ⟨layers, hlayers, hstatements⟩ := Network.exists_of_modelScript hmodel
  rw [hstatements] at hs
  simp only [List.mem_append, List.mem_map, List.mem_singleton] at hs
  -- Imports, layers, the model, and what prepares training.
  rcases hs with ((⟨line, -, rfl⟩ | hs) | rfl) | hs
  · trivial
  · obtain ⟨m, hm, hstatement⟩ := Module.exists_module_of_mem hlayers hs
    obtain ⟨htarget, hnamed⟩ := Module.target?_of_statement hstatement
    refine (Module.namesLegal_iff hd (Network.isWritable_of_resolve hv ho m hm) hstatement).mpr
      ⟨h.target m.name htarget, fun input hinput => h.layers input ?_⟩
    rw [hnamed]
    unfold Module.applied? at hinput
    by_cases hroot : m.isInput = true
    · rw [if_pos hroot] at hinput
      cases hinput
    · rw [if_neg hroot] at hinput ⊢
      exact Option.mem_toList.mpr hinput
  · obtain ⟨m, hm, hinput⟩ := hresolved.input_mem
    obtain ⟨n, hn, houtput⟩ := hresolved.output_mem
    refine (Network.namesLegal_statement_iff hd ?_ ?_).mpr
      ⟨h.layers _ List.mem_cons_self, h.layers _ (List.mem_cons_of_mem _ List.mem_cons_self)⟩
    · rw [← hinput]
      exact isName_of_mem_order hp ho m hm
    · rw [← houtput]
      exact isName_of_mem_order hp ho n hn
  · rcases Config.namesLegal_of_mem_statements hd p.config hs with rfl | hlegal
    · exact (Config.namesLegal_compileStatement_iff hd p.config (isName_optimizer hp)).mpr
        (h.optimizer rfl)
    · exact hlegal

/-- The scripts spare the words that are kept when the layers and the optimizer do: a layer that
is named was given a value before. -/
theorem Project.spares_of_mem_model (hout : p.compile d options = .ok out)
    (hoptimizer : p.config.optimizer ∉ keywords)
    (hlayers : ∀ layer ∈ out.order, layer ∉ keywords ∧ layer ≠ fixedName) {s : Statement}
    (hs : s ∈ out.model.statements) : p.Spares d s := by
  obtain ⟨o, hresolved, horder, hmodel, -⟩ := exists_of_compile hout
  have htarget : ∀ t ∈ out.model.statements, ∀ name ∈ t.target?,
      name ∉ keywords ∧ name ≠ fixedName := by
    intro t ht name hname
    have hmem : name ∈ Statement.targets out.model.statements :=
      List.mem_filterMap.mpr ⟨t, ht, hname⟩
    rw [Network.targets_of_modelScript hmodel, ← horder] at hmem
    rcases List.mem_append.mp hmem with hlayer | hother
    · exact hlayers name hlayer
    · exact not_kept_of_reserved name ((p.config.sublist_reservedNames d).subset hother)
  refine ⟨htarget s hs, fun layer hlayer => ?_, fun _ => hoptimizer⟩
  obtain ⟨before, after, hsplit⟩ := List.append_of_mem hs
  obtain ⟨t, ht, -, hdefines⟩ := hresolved.defined hmodel hsplit hlayer
  refine (htarget t ?_ layer hdefines).1
  rw [hsplit]
  exact List.mem_append_left _ ht

/-- **The names that scripts take from a payload are identifiers, and legal unless they are kept
by the language.** A statement has a name that is illegal exactly when a word that is kept stands
in it where the payload says how a layer or the optimizer is called. So the scripts are free of
such names exactly when no layer that is written and no optimizer is called by a keyword, and no
layer by the one word that cannot be given a value. -/
theorem names_legal_unless_kept (hp : Project.ofPayload payload user = .ok p)
    (hd : d.PathsLegal) (hout : p.compile d options = .ok out) :
    (∀ name ∈ p.config.optimizer :: p.network.modules.map (·.name), IsIdentifier name.toList) ∧
    (∀ s ∈ out.model.statements ++ out.trainer.statements, s.NamesLegal ↔ p.Spares d s) ∧
    ((∀ s ∈ out.model.statements ++ out.trainer.statements, s.NamesLegal) ↔
      p.config.optimizer ∉ keywords ∧
        ∀ layer ∈ out.order, layer ∉ keywords ∧ layer ≠ fixedName) := by
  obtain ⟨o, hresolved, horder, hmodel, htrainer⟩ := Project.exists_of_compile hout
  have htrain : ∀ s ∈ out.trainer.statements, s.NamesLegal := by
    rw [htrainer]
    exact fun s => Config.namesLegal_of_mem_trainScript hd p.config _ _ _
  refine ⟨?_, fun s hs => ⟨Project.spares_of_namesLegal hp hd, fun h => ?_⟩, ?_⟩
  · rw [List.forall_mem_cons, List.forall_mem_map]
    exact ⟨Literal.isIdentifier_iff.mpr (Project.isName_optimizer hp), fun m hm =>
      Literal.isIdentifier_iff.mpr (Project.isBound_of_ofPayload hp m hm).isName⟩
  · rcases List.mem_append.mp hs with hs | hs
    · exact Project.namesLegal_of_spares hp hd hout hs h
    · exact htrain s hs
  · constructor
    · intro hlegal
      have hspares : ∀ s ∈ out.model.statements, p.Spares d s := fun s hs =>
        Project.spares_of_namesLegal hp hd (hlegal s (List.mem_append_left _ hs))
      constructor
      · obtain ⟨layers, -, hstatements⟩ := Network.exists_of_modelScript hmodel
        refine (hspares (p.config.compileStatement d) ?_).optimizer rfl
        rw [hstatements]
        exact List.mem_append_right _ List.mem_cons_self
      · intro layer hlayer
        rw [horder] at hlayer
        obtain ⟨m, hm, rfl⟩ := List.mem_map.mp hlayer
        obtain ⟨s, hs, hstatement⟩ := Network.exists_statement_of_modelScript hmodel hm
        exact (hspares s hs).target _ (Module.target?_of_statement hstatement).1
    · rintro ⟨hoptimizer, hlayers⟩ s hs
      rcases List.mem_append.mp hs with hs | hs
      · exact Project.namesLegal_of_spares hp hd hout hs
          (Project.spares_of_mem_model hout hoptimizer hlayers hs)
      · exact htrain s hs

end

theorem names_legal_unless_kept_chain :
    ∃ p out, Project.ofPayload chainPayload (some "u") = .ok p ∧
      p.compile .tensorflow chainOptions = .ok out ∧ out.order = ["x", "y"] ∧
      p.config.optimizer = "SGD" ∧
      ∀ s ∈ out.model.statements ++ out.trainer.statements, s.NamesLegal := by
  obtain ⟨p, out, hp, hout, hrun⟩ :=
    Project.exists_of_run (fun p out => (out.order, p.config.optimizer)) (by decide +kernel :
      ((Project.ofPayload chainPayload (some "u")).toOption.bind fun p =>
        (p.compile .tensorflow chainOptions).toOption.map _) = some (["x", "y"], "SGD"))
  obtain ⟨horder, hoptimizer⟩ := Prod.mk.inj hrun
  have hnames := names_legal_unless_kept hp Dialect.pathsLegal_tensorflow hout
  refine ⟨p, out, hp, hout, horder, hoptimizer, hnames.2.2.mpr ?_⟩
  rw [horder, hoptimizer]
  decide

/-- A payload whose input layer is called `class`. -/
def classPayload : String :=
  "\x7b\"config\":[\"SGD\",1,\"mse\",[],2,3],\"content\":[\"class\",\"y\","
    ++ "[[\"Layer\",\"Input\",\"class\",null,\"y\",[4,1,\"\"]],"
    ++ "[\"Layer\",\"Flatten\",\"y\",\"class\"]]]\x7d"

theorem layer_called_class_is_no_variable :
    ∃ p out, Project.ofPayload classPayload (some "u") = .ok p ∧
      p.compile ({} : Settings).dialect ({} : Settings).options = .ok out ∧
      "class" ∈ out.order ∧ "class" ∈ keywords ∧
      ∃ s ∈ out.model.statements, s.target? = some "class" ∧ ¬ s.NamesLegal ∧
        s.text = "class = tf.keras.layers.Input(shape=4, batch_size=1, dtype=\"\")" := by
  obtain ⟨p, out, hp, hout, hrun⟩ := Project.exists_of_run
    (fun _ out => out.order.contains "class" && out.model.statements.any fun s =>
      s.target? == some "class" &&
        s.text == "class = tf.keras.layers.Input(shape=4, batch_size=1, dtype=\"\")")
    (by decide +kernel :
      ((Project.ofPayload classPayload (some "u")).toOption.bind fun p =>
        (p.compile ({} : Settings).dialect ({} : Settings).options).toOption.map _) = some true)
  simp only [Bool.and_eq_true, List.any_eq_true, List.contains_iff_mem, beq_iff_eq] at hrun
  obtain ⟨hwritten, s, hs, htarget, htext⟩ := hrun
  have hkept : "class" ∈ keywords := by decide
  refine ⟨p, out, hp, hout, hwritten, hkept, s, hs, htarget, fun hlegal => ?_, htext⟩
  exact (hlegal.isAssignable "class" htarget).not_keyword hkept

end LayerScript
