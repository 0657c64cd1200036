/-
`Proofs/Layers.lean` -- a layer can be read back from its statement.

A statement that constructs a layer reads `name = path.Kind(key=value, ...)(input)`, and the
values in it may hold quotes, parentheses and equal signs. It is read back from both ends.
The name goes up to the first space, the constructor up to the first parenthesis, and the
kind in it starts behind the last point. What is left are the arguments and, if the layer is
applied, the variable between the last two parentheses; no arguments can be mistaken for
that (`Literal.EndsOpen`). The arguments are cut where a comma has a space behind it, which
happens in none of them (`Literal.IsCompact`), and each of them at its first equal sign.
-/
import LayerScript.Proofs.Binding
import LayerScript.Proofs.Literal
import LayerScript.Proofs.Network
import LayerScript.Proofs.Records
import LayerScript.Script.Model

set_option autoImplicit false

namespace LayerScript

/-! ## 1. Commas and spaces -/

namespace Literal

/-- A compact text has nowhere to be cut. -/
theorem not_isCompact (front back : List Char) : ¬ IsCompact (front ++ ',' :: ' ' :: back) := by
  intro h
  have hpair := List.isChain_cons_cons.mp (List.isChain_append.mp h).2.1
  exact hpair.1 rfl rfl

/-- What is cut off behind a compact text does not begin inside it. -/
theorem IsCompact.eq_nil {front middle rest₁ rest₂ : List Char} (h : IsCompact (front ++ middle))
    (heq : ',' :: ' ' :: rest₁ = middle ++ ',' :: ' ' :: rest₂) : middle = [] := by
  rcases middle with _ | ⟨a, _ | ⟨b, more⟩⟩
  · rfl
  · simp at heq
  · simp only [List.cons_append, List.cons.injEq] at heq
    obtain ⟨rfl, rfl, -⟩ := heq
    exact absurd h (not_isCompact front more)

/-- A text is cut at the first comma that has a space behind it. -/
theorem IsCompact.cut {item₁ item₂ rest₁ rest₂ : List Char} (h₁ : IsCompact item₁)
    (h₂ : IsCompact item₂) (h : item₁ ++ ',' :: ' ' :: rest₁ = item₂ ++ ',' :: ' ' :: rest₂) :
    item₁ = item₂ ∧ rest₁ = rest₂ := by
  have hitem : item₁ = item₂ := by
    rcases List.append_eq_append_iff.mp h with ⟨middle, rfl, heq⟩ | ⟨middle, rfl, heq⟩
    · rw [h₂.eq_nil heq, List.append_nil]
    · rw [h₁.eq_nil heq, List.append_nil]
  rw [hitem] at h
  exact ⟨hitem, by simpa using h⟩

/-- Compact items that are each followed by a comma and a space are told apart. -/
theorem flatMap_inj {items₁ items₂ : List (List Char)} (h₁ : ∀ item ∈ items₁, IsCompact item)
    (h₂ : ∀ item ∈ items₂, IsCompact item)
    (h : items₁.flatMap (· ++ [',', ' ']) = items₂.flatMap (· ++ [',', ' '])) :
    items₁ = items₂ := by
  induction items₁ generalizing items₂ with
  | nil =>
      cases items₂ with
      | nil => rfl
      | cons item more => simp at h
  | cons item₁ more₁ ih =>
      cases items₂ with
      | nil => simp at h
      | cons item₂ more₂ =>
          rw [List.forall_mem_cons] at h₁ h₂
          rw [List.flatMap_cons, List.flatMap_cons, List.append_assoc, List.append_assoc] at h
          obtain ⟨rfl, hrest⟩ := h₁.1.cut h₂.1 h
          rw [ih h₁.2 h₂.2 hrest]

/-- A list that is joined lacks only the last separator. -/
theorem intercalate_append_separator (item : List Char) (more : List (List Char)) :
    [',', ' '].intercalate (item :: more) ++ [',', ' ']
      = (item :: more).flatMap (· ++ [',', ' ']) := by
  induction more generalizing item with
  | nil => simp
  | cons next rest ih =>
      rw [List.intercalate_cons_cons, List.append_assoc, ih]
      rfl

/-- Joined by commas and spaces, compact items are told apart. -/
theorem intercalate_inj {items₁ items₂ : List (List Char)}
    (h₁ : ∀ item ∈ items₁, item ≠ [] ∧ IsCompact item)
    (h₂ : ∀ item ∈ items₂, item ≠ [] ∧ IsCompact item)
    (h : [',', ' '].intercalate items₁ = [',', ' '].intercalate items₂) : items₁ = items₂ := by
  have hclosed := congrArg (· ++ [',', ' ']) h
  -- The text of no items at all would be that of one empty item.
  have hempty : ∀ {item : List Char} {more : List (List Char)},
      item ≠ [] ∧ IsCompact item → [',', ' '] ≠ (item :: more).flatMap (· ++ [',', ' ']) := by
    intro item more hitem heq
    rw [List.flatMap_cons, List.append_assoc] at heq
    exact hitem.1 (IsCompact.cut .nil hitem.2 heq).1.symm
  cases items₁ with
  | nil =>
      cases items₂ with
      | nil => rfl
      | cons item more =>
          exact absurd (hclosed.trans (intercalate_append_separator item more))
            (hempty (h₂ item List.mem_cons_self))
  | cons item₁ more₁ =>
      cases items₂ with
      | nil =>
          exact absurd (hclosed.symm.trans (intercalate_append_separator item₁ more₁))
            (hempty (h₁ item₁ List.mem_cons_self))
      | cons item₂ more₂ =>
          simp only [intercalate_append_separator] at hclosed
          exact flatMap_inj (fun i hi => (h₁ i hi).2) (fun i hi => (h₂ i hi).2) hclosed

end Literal

/-! ## 2. Arguments -/

/-- A parameter as it is written: its key and the literal of its value. -/
def Params.entries (params : Params) : List (String × String) :=
  params.map fun (key, value) => (key, value.literal)

/-- The text of one argument. -/
def argumentText (e : String × Param) : List Char :=
  e.1.toList ++ '=' :: e.2.literal.toList

/-- An argument is cut at its first equal sign. -/
def readArgument (text : List Char) : String × String :=
  (.ofList (text.takeWhile (· ≠ '=')), .ofList (text.dropWhile (· ≠ '=')).tail)

/-- What is written of a record has keys in the shape of names. -/
theorem ParamRecord.isName_of_mem_params {r : ParamRecord} {values : FieldValues} :
    ∀ e ∈ r.params values, Literal.isName e.1 = true := by
  intro e he
  have hentries : ∀ key ∈ r.entries.map (·.1), Literal.isName key = true := by
    cases r <;> decide
  exact hentries e.1 (mem_entries_of_mem_params he)

namespace Params

/-- The text of the arguments of a layer. -/
theorem toList_textList_arguments (params : Params) :
    (Expr.textList params.arguments).toList = [',', ' '].intercalate (params.map argumentText) := by
  have htext : ∀ e : String × Param,
      (Expr.named e.1 (.literal e.2.literal)).text.toList = argumentText e := by
    intro e
    simp [Expr.text, argumentText]
  induction params with
  | nil => rfl
  | cons e rest ih =>
      cases rest with
      | nil =>
          rw [List.map_singleton, List.intercalate_singleton, ← htext]
          rfl
      | cons next more =>
          rw [List.map_cons, List.map_cons, List.intercalate_cons_cons, ← htext]
          rw [List.map_cons] at ih
          rw [← ih]
          change (_ ++ ", " ++ Expr.textList _ : String).toList = _
          rw [String.toList_append, String.toList_append]
          rfl

/-- Arguments can be read back when their keys are names. -/
theorem map_readArgument {params : Params} (hkeys : ∀ e ∈ params, Literal.isName e.1 = true) :
    (params.map argumentText).map readArgument = params.entries := by
  rw [List.map_map, entries]
  refine List.map_congr_left fun e he => ?_
  have hnot := Literal.not_mem_of_isName (hkeys e he) (c := '=') (by decide)
  have hkey : ∀ c ∈ e.1.toList, decide (c ≠ '=') = true := by
    intro c hc
    rw [decide_eq_true_iff]
    rintro rfl
    exact hnot hc
  have htake : (argumentText e).takeWhile (· ≠ '=') = e.1.toList := by
    rw [argumentText, List.takeWhile_append_of_pos hkey]
    simp
  have hdrop : (argumentText e).dropWhile (· ≠ '=') = '=' :: e.2.literal.toList := by
    rw [argumentText, List.dropWhile_append_of_pos hkey]
    simp
  rw [Function.comp_apply, readArgument, htake, hdrop]
  simp

/-- An argument with a name for its key can be told from what follows a comma and a space. -/
theorem isCompact_argumentText {e : String × Param} (hkey : Literal.isName e.1 = true) :
    argumentText e ≠ [] ∧ Literal.IsCompact (argumentText e) := by
  refine ⟨by simp [argumentText], ?_⟩
  refine (Literal.isCompact_of_not_mem (Literal.not_mem_of_isName hkey (by decide))).append
    (List.isChain_cons.mpr ⟨fun _ _ h => absurd h (by decide), e.2.isCompact_literal⟩) ?_
  simp

/-- **Arguments are read back from their text.** -/
theorem entries_eq_of_text_eq {params₁ params₂ : Params}
    (h₁ : ∀ e ∈ params₁, Literal.isName e.1 = true) (h₂ : ∀ e ∈ params₂, Literal.isName e.1 = true)
    (h : (Expr.textList params₁.arguments).toList = (Expr.textList params₂.arguments).toList) :
    params₁.entries = params₂.entries := by
  have hitems : ∀ {params : Params}, (∀ e ∈ params, Literal.isName e.1 = true) →
      ∀ item ∈ params.map argumentText, item ≠ [] ∧ Literal.IsCompact item := by
    intro params hkeys item hitem
    obtain ⟨e, he, rfl⟩ := List.mem_map.mp hitem
    exact isCompact_argumentText (hkeys e he)
  rw [toList_textList_arguments, toList_textList_arguments] at h
  have hsame := Literal.intercalate_inj (hitems h₁) (hitems h₂) h
  rw [← map_readArgument h₁, ← map_readArgument h₂, hsame]

/-- Arguments do not end in a name behind an opening parenthesis. -/
theorem not_endsOpen_arguments (params : Params) :
    ¬ Literal.EndsOpen (Expr.textList params.arguments).toList := by
  rw [toList_textList_arguments]
  rcases List.eq_nil_or_concat params with rfl | ⟨init, e, rfl⟩
  · rintro ⟨before, name, htext, -⟩
    simp at htext
  · -- The text ends as its last argument does.
    obtain ⟨before, hbefore⟩ :=
      Text.exists_intercalate_concat [',', ' '] (init.map argumentText) (argumentText e)
    rw [List.concat_eq_append, List.map_append, List.map_singleton, hbefore, argumentText,
      ← List.append_assoc]
    exact e.2.not_endsOpen_literal _

end Params

/-! ## 3. Application -/

/-- The layer that a module is applied to. Where data enters, nothing is. -/
def Module.applied? (m : Module) : Option String :=
  if m.isInput then none else m.input

/-- What stands behind the arguments of a layer: nothing, or the variable it is applied to. -/
def applicationText : Option String → List Char
  | none => []
  | some name => '(' :: (name.toList ++ [')'])

/-- **An application is not mistaken for an argument**, nor an argument for an application. -/
theorem application_eq_of_text_eq {arguments₁ arguments₂ : List Char}
    {applied₁ applied₂ : Option String} (h₁ : ¬ Literal.EndsOpen arguments₁)
    (h₂ : ¬ Literal.EndsOpen arguments₂) (hname₁ : ∀ name ∈ applied₁, Literal.isName name = true)
    (hname₂ : ∀ name ∈ applied₂, Literal.isName name = true)
    (h : arguments₁ ++ ')' :: applicationText applied₁
      = arguments₂ ++ ')' :: applicationText applied₂) :
    arguments₁ = arguments₂ ∧ applied₁ = applied₂ := by
  -- An application read as the end of the arguments would leave them open.
  have hopen : ∀ {name : String} {arguments before : List Char}, Literal.isName name = true →
      arguments ++ [')'] = before ++ ')' :: '(' :: (name.toList ++ [')']) →
      Literal.EndsOpen arguments := by
    intro name arguments before hname heq
    refine ⟨before ++ [')'], name.toList, ?_, (Literal.isNamePart_of_isName hname).2⟩
    have hcut : arguments ++ [')'] = (before ++ [')'] ++ '(' :: name.toList) ++ [')'] := by
      simpa using heq
    exact List.append_cancel_right hcut
  cases applied₁ with
  | none =>
      cases applied₂ with
      | none => exact ⟨List.append_cancel_right h, rfl⟩
      | some name₂ => exact absurd (hopen (hname₂ name₂ rfl) h) h₁
  | some name₁ =>
      cases applied₂ with
      | none => exact absurd (hopen (hname₁ name₁ rfl) h.symm) h₂
      | some name₂ =>
          have hshape : ∀ (arguments : List Char) (name : String),
              arguments ++ ')' :: applicationText (some name)
                = (arguments ++ [')'] ++ '(' :: name.toList) ++ [')'] := by
            simp [applicationText]
          rw [hshape, hshape] at h
          obtain ⟨hfront, hname⟩ := Text.cut_last
            (Literal.not_mem_of_isName (hname₁ name₁ rfl) (by decide))
            (Literal.not_mem_of_isName (hname₂ name₂ rfl) (by decide))
            (List.append_cancel_right h)
          exact ⟨List.append_cancel_right hfront, congrArg some (String.toList_injective hname)⟩

/-! ## 4. Statements -/

/-- Whether a dialect tells the categories apart, and shows where its paths end. -/
structure Dialect.TellsApart (d : Dialect) : Prop where
  /-- No path has a parenthesis. -/
  closed : ∀ category path, d.path? category = some path → '(' ∉ path.toList
  /-- The two categories have different paths, where both have one. -/
  apart : ∀ path, d.path? .layer = some path → d.path? .math ≠ some path

/-- The dialect of TensorFlow does. -/
theorem Dialect.tellsApart_tensorflow : Dialect.tensorflow.TellsApart := by
  have hlayer : Dialect.tensorflow.path? .layer = some "tf.keras.layers" := by decide +kernel
  have hmath : Dialect.tensorflow.path? .math = some "tf.math" := by decide +kernel
  refine ⟨fun category path hpath => ?_, fun path hpath hother => ?_⟩
  · cases category with
    | layer =>
        rw [hlayer, Option.some.injEq] at hpath
        rw [← hpath]
        decide
    | math =>
        rw [hmath, Option.some.injEq] at hpath
        rw [← hpath]
        decide
  · rw [hlayer, ← hother, hmath] at hpath
    revert hpath
    decide

/-- Whether the names that a module gives, its own and that of its input, are names. -/
structure Module.IsWritable (m : Module) : Prop where
  name : Literal.isName m.name = true
  input : ∀ name ∈ m.input, Literal.isName name = true

/-- The names of kinds have no point and no parenthesis. -/
theorem Kind.not_mem_name (kind : Kind) : '.' ∉ kind.name.toList ∧ '(' ∉ kind.name.toList := by
  cases kind <;> decide

/-- A dialect that tells the categories apart has one category for a path. -/
theorem Dialect.TellsApart.category_eq {d : Dialect} (hd : d.TellsApart) {c₁ c₂ : Category}
    {path : String} (h₁ : d.path? c₁ = some path) (h₂ : d.path? c₂ = some path) : c₁ = c₂ := by
  cases c₁ with
  | layer =>
      cases c₂ with
      | layer => rfl
      | math => exact absurd h₂ (hd.apart path h₁)
  | math =>
      cases c₂ with
      | layer => exact absurd h₁ (hd.apart path h₂)
      | math => rfl

namespace Module

variable {d : Dialect} {m : Module} {s : Statement}

/-- An applied layer is followed by what it is applied to. -/
theorem toList_text_apply (m : Module) (e : Expr) :
    (m.apply e).text.toList = e.text.toList ++ applicationText m.applied? := by
  unfold apply applied?
  by_cases hroot : m.isInput = true
  · rw [if_pos hroot, if_pos hroot, applicationText, List.append_nil]
  · rw [if_neg hroot, if_neg hroot]
    cases m.input with
    | none => rw [applicationText, List.append_nil]
    | some name => simp [applicationText, Expr.text, Expr.textList]

/-- The text of the statement of a layer, part by part. -/
theorem exists_of_statement (h : m.statement d = .ok s) :
    ∃ kind values path, m.layer = .supported kind values ∧ d.path? m.category = some path ∧
      s.text.toList = m.name.toList ++ ' ' :: '=' :: ' ' ::
        (path.toList ++ '.' :: kind.name.toList ++ '(' ::
          ((Expr.textList (kind.record.params values).arguments).toList
            ++ ')' :: applicationText m.applied?)) := by
  cases hlayer : m.layer with
  | unsupported =>
      rw [statement, hlayer] at h
      cases h
  | supported kind values =>
      rw [statement, hlayer] at h
      cases hpath : d.path? m.category with
      | none =>
          rw [hpath] at h
          cases h
      | some path =>
          rw [hpath] at h
          cases h
          refine ⟨kind, values, path, rfl, rfl, ?_⟩
          simp [Statement.text, toList_text_apply, Expr.text, Layer.kindName]

/-- What a writable module is applied to has a name. -/
theorem IsWritable.isName_applied (h : m.IsWritable) :
    ∀ name ∈ m.applied?, Literal.isName name = true := by
  intro name hname
  unfold applied? at hname
  by_cases hroot : m.isInput = true
  · rw [if_pos hroot] at hname
    cases hname
  · rw [if_neg hroot] at hname
    exact h.input name hname

/-- **Modules that are written alike are alike**, as far as it is written. -/
theorem eq_of_text_eq (hd : d.TellsApart) {m₁ m₂ : Module} {s₁ s₂ : Statement}
    (h₁ : m₁.IsWritable) (h₂ : m₂.IsWritable) (hs₁ : m₁.statement d = .ok s₁)
    (hs₂ : m₂.statement d = .ok s₂) (htext : s₁.text = s₂.text) :
    m₁.name = m₂.name ∧ m₁.category = m₂.category ∧ m₁.applied? = m₂.applied? ∧
      ∃ kind values₁ values₂, m₁.layer = .supported kind values₁ ∧
        m₂.layer = .supported kind values₂ ∧
        (kind.record.params values₁).entries = (kind.record.params values₂).entries := by
  obtain ⟨kind₁, values₁, path₁, hlayer₁, hpath₁, htext₁⟩ := exists_of_statement hs₁
  obtain ⟨kind₂, values₂, path₂, hlayer₂, hpath₂, htext₂⟩ := exists_of_statement hs₂
  have hsame := htext₁.symm.trans ((congrArg String.toList htext).trans htext₂)
  -- The name goes up to the first space, the constructor up to the first parenthesis.
  obtain ⟨hname, hvalue⟩ := Text.cut_first (Literal.not_mem_of_isName h₁.name (by decide))
    (Literal.not_mem_of_isName h₂.name (by decide)) hsame
  have hconstructor : ∀ {m : Module} {kind : Kind} {path : String},
      d.path? m.category = some path → '(' ∉ path.toList ++ '.' :: kind.name.toList := by
    intro m kind path hpath hmem
    rcases List.mem_append.mp hmem with hin | hin
    · exact hd.closed _ _ hpath hin
    · exact kind.not_mem_name.2 ((List.mem_cons.mp hin).resolve_left (by decide))
  obtain ⟨hpaths, hcall⟩ := Text.cut_first (hconstructor hpath₁) (hconstructor hpath₂)
    (List.cons.inj (List.cons.inj hvalue).2).2
  -- The kind stands behind the last point.
  obtain ⟨hpath, hkind⟩ := Text.cut_last kind₁.not_mem_name.1 kind₂.not_mem_name.1 hpaths
  obtain rfl : path₁ = path₂ := String.toList_injective hpath
  obtain rfl : kind₁ = kind₂ := Kind.name_injective (String.toList_injective hkind)
  obtain ⟨harguments, happlied⟩ := application_eq_of_text_eq
    (Params.not_endsOpen_arguments _) (Params.not_endsOpen_arguments _)
    h₁.isName_applied h₂.isName_applied hcall
  exact ⟨String.toList_injective hname, hd.category_eq hpath₁ hpath₂, happlied,
    kind₁, values₁, values₂, hlayer₁, hlayer₂,
    Params.entries_eq_of_text_eq ParamRecord.isName_of_mem_params
      ParamRecord.isName_of_mem_params harguments⟩

end Module

/-- The modules of a decoded network that are written can be told apart: each is applied to a
module of the network. -/
theorem Network.isWritable_of_resolve {v : Value} {c : Network} {policy : Policy} {o : Order}
    (hc : Network.ofValue v = .ok c) (ho : c.resolve policy = .ok o) :
    ∀ m ∈ o.modules, m.IsWritable := by
  have hbound := Network.isBound_of_ofValue hc
  obtain ⟨w, hw, -⟩ := Network.resolve_eq_ok_iff.mp ho
  intro m hm
  have hdeclared := (Network.resolved ho).declared m hm
  refine ⟨(hbound m hdeclared).isName, fun name hname => ?_⟩
  have hknown := ((Wiring.resolves_of_ofModules hw).refersTo m hdeclared).1 name hname
  obtain ⟨producer, hproducer, rfl⟩ := List.mem_map.mp hknown
  exact (hbound producer hproducer).isName

/-- **A layer is read back from its statement**, under any dialect that tells the categories
apart: modules that are written alike have the same name, category and kind, the same
parameters, as they are written, and are applied to the same layer or both to none. This holds
of any text for a parameter, and of all modules that are written of a decoded network. -/
theorem layer_statements_unambiguous {d : Dialect} (hd : d.TellsApart) :
    (∀ m₁ m₂ s₁ s₂, Module.IsWritable m₁ → Module.IsWritable m₂ →
      m₁.statement d = .ok s₁ → m₂.statement d = .ok s₂ → s₁.text = s₂.text →
      m₁.name = m₂.name ∧ m₁.category = m₂.category ∧ m₁.applied? = m₂.applied? ∧
        ∃ kind values₁ values₂, m₁.layer = .supported kind values₁ ∧
          m₂.layer = .supported kind values₂ ∧
          (kind.record.params values₁).entries = (kind.record.params values₂).entries) ∧
    ∀ v c policy o, Network.ofValue v = .ok c → c.resolve policy = .ok o →
      ∀ m ∈ o.modules, m.IsWritable :=
  ⟨fun _ _ _ _ h₁ h₂ hs₁ hs₂ htext => Module.eq_of_text_eq hd h₁ h₂ hs₁ hs₂ htext,
    fun _ _ _ _ hc ho => Network.isWritable_of_resolve hc ho⟩

/-- A layer with a parameter that looks like the end of a call. -/
def decoy (units : Param) (output : Option String) : Module :=
  ⟨.layer, "y", some "x", output,
    .supported .dense [(.units, units), (.activation, .text "a)(x")]⟩

theorem isWritable_decoy (units : Param) (output : Option String) :
    (decoy units output).IsWritable := by
  have hname : Literal.isName "y" = true := by decide
  refine ⟨hname, fun name hinput => ?_⟩
  cases hinput
  decide

/-- The document of a network with a single layer. -/
def lonelyDocument : Value :=
  .object [("input", .text "x"), ("output", .text "x"), ("layers", .list [.object [
    ("category", .text "Layer"), ("type", .text "Input"), ("name", .text "x"),
    ("param", .object [("shape", .text "4, 1")])]])]

/-- The two layers are written as `y = tf.keras.layers.Dense(units=3, activation="a)(x")(x)`. -/
theorem layer_statements_unambiguous_decoy :
    Dialect.tensorflow.TellsApart ∧
    (∃ s₁ s₂, (decoy (.text "3") none).statement .tensorflow = .ok s₁ ∧
      (decoy (.number (.int 3)) (some "z")).statement .tensorflow = .ok s₂ ∧
      s₁.text = s₂.text ∧
      (decoy (.text "3") none).applied? = (decoy (.number (.int 3)) (some "z")).applied?) ∧
    ∃ c o, Network.ofValue lonelyDocument = .ok c ∧ c.resolve .warn = .ok o ∧
      o.names = ["x"] ∧ ∀ m ∈ o.modules, m.IsWritable := by
  obtain ⟨hsame, hwritable⟩ := layer_statements_unambiguous Dialect.tellsApart_tensorflow
  refine ⟨Dialect.tellsApart_tensorflow, ?_, ?_⟩
  · refine ⟨_, _, rfl, rfl, by decide +kernel, ?_⟩
    exact (hsame _ _ _ _ (isWritable_decoy (.text "3") none)
      (isWritable_decoy (.number (.int 3)) (some "z")) rfl rfl (by decide +kernel)).2.2.1
  · have hrun : ((Network.ofValue lonelyDocument).toOption.bind fun c =>
        (c.resolve .warn).toOption.map fun o => o.names) = some ["x"] := by
      decide +kernel
    cases hc : Network.ofValue lonelyDocument with
    | error fault =>
        rw [hc] at hrun
        cases hrun
    | ok c =>
        cases ho : c.resolve .warn with
        | error fault =>
            simp [Except.toOption, hc, ho] at hrun
        | ok o =>
            simp only [Except.toOption, hc, ho, Option.bind_some, Option.map_some,
              Option.some.injEq] at hrun
            exact ⟨c, o, rfl, ho, hrun, hwritable _ c .warn o hc ho⟩

end LayerScript
