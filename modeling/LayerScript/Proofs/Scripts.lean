/-
`Proofs/Scripts.lean` -- the scripts name only what is defined, and define it once.

The two scripts are read as one program, statement by statement: `model.py` first,
then `train.py`, which takes over what the first defines. A layer is applied to a
layer that an earlier statement constructs, since the order writes the layer that a
module names before the module itself. No variable is given a value twice, since
layers have names of their own and none of the names that the scripts use. And
training is given exactly the callbacks that were defined, although the two places
that decide this never meet.

The import lines of a dialect are copied as they stand; nothing is said about them.
-/
import LayerScript.Proofs.Binding
import LayerScript.Proofs.Network
import Mathlib.Data.List.Forall2

set_option autoImplicit false

open Relation

namespace LayerScript

/-! ## 1. Reading statements -/

namespace Statement

/-- The layer variables that a statement names: the one that a layer is applied to, or the
two that the model is built between. -/
def layersNamed : Statement → List String
  | .assign _ (.call (.call _ _) [.path layer]) => [layer]
  | .assign _ (.call _ [.named "inputs" (.path input), .named "outputs" (.path output)]) =>
    [input, output]
  | _ => []

/-- The items of a list of callbacks that is given by name. -/
def callbackList? : Expr → Option (List String)
  | .named "callbacks" (.list items) => some (items.map Expr.text)
  | _ => none

/-- The callbacks that a statement trains a model with. -/
def callbacks? : Statement → Option (List String)
  | .evaluate (.call _ arguments) => arguments.findSome? callbackList?
  | _ => none

/-- The variables that statements give a value, from the first to the last. -/
def targets (statements : List Statement) : List String :=
  statements.filterMap target?

@[simp] theorem targets_append (before after : List Statement) :
    targets (before ++ after) = targets before ++ targets after :=
  List.filterMap_append

/-- Lines that are copied define nothing that can be read off. -/
@[simp] theorem targets_verbatim (lines : List String) :
    targets (lines.map .verbatim) = [] := by
  simp [targets, List.filterMap_map, Function.comp_def, target?]

end Statement

/-- Whether a statement constructs one of the layers of a network. -/
def Network.IsLayer (d : Dialect) (c : Network) (s : Statement) : Prop :=
  ∃ m ∈ c.modules, m.statement d = .ok s

/-- A place in a list that was put together from two is a place in the first or in the
second. -/
theorem split_append {α : Type} {xs ys before after : List α} {a : α}
    (h : xs ++ ys = before ++ a :: after) :
    (∃ rest, xs = before ++ a :: rest) ∨
      ∃ front, before = xs ++ front ∧ ys = front ++ a :: after := by
  rcases List.append_eq_append_iff.mp h with ⟨front, hbefore, hys⟩ | ⟨rest, hxs, hrest⟩
  · exact Or.inr ⟨front, hbefore, hys⟩
  · cases rest with
    | nil =>
        refine Or.inr ⟨[], ?_, hrest.symm⟩
        rw [hxs, List.append_nil, List.append_nil]
    | cons b rest =>
        obtain ⟨rfl, -⟩ := List.cons.inj hrest
        exact Or.inl ⟨rest, hxs⟩

/-! ## 2. Layers -/

namespace Module

variable {d : Dialect}

/-- A layer that is constructed and not applied names no layer: its arguments are literals. -/
theorem layersNamed_construct (name path : String) (params : Params) :
    (Statement.assign name (.call (.path path) params.arguments)).layersNamed = [] := by
  unfold Statement.layersNamed
  split
  · rename_i hcall
    cases hcall
  · -- `inputs` and `outputs` are given variables, the parameters of a layer never are.
    rename_i hcall
    injection hcall with _ hcall
    injection hcall with _ harguments
    rcases params with _ | ⟨⟨key, value⟩, rest⟩
    · cases harguments
    · cases harguments
  · rfl

/-- The statement of a module defines its variable, and names the layer that the module is
applied to. Where data enters, nothing is applied. -/
theorem target?_of_statement {m : Module} {s : Statement} (h : m.statement d = .ok s) :
    s.target? = some m.name ∧
      s.layersNamed = if m.isInput then [] else m.input.toList := by
  unfold statement at h
  split at h
  · cases h
  · rename_i params _
    split at h
    · cases h
    · cases h
      refine ⟨rfl, ?_⟩
      unfold apply
      by_cases hroot : m.isInput = true
      · rw [if_pos hroot, if_pos hroot]
        exact layersNamed_construct _ _ _
      · rw [if_neg hroot, if_neg hroot]
        cases m.input with
        | none => exact layersNamed_construct _ _ _
        | some input => rfl

/-- Modules with their statements, in the same order. -/
abbrev WrittenAs (d : Dialect) : List Module → List Statement → Prop :=
  List.Forall₂ fun m s => m.statement d = .ok s

/-- Layers are written one statement each. -/
theorem writtenAs_of_statements {ms : List Module} {ss : List Statement}
    (h : statements d ms = .ok ss) : WrittenAs d ms ss := by
  induction ms generalizing ss with
  | nil =>
      cases h
      exact .nil
  | cons m rest ih =>
      obtain ⟨s, hs, h⟩ := bind_eq_ok_iff.mp h
      obtain ⟨more, hmore, h⟩ := bind_eq_ok_iff.mp h
      cases h
      exact .cons hs (ih hmore)

/-- Their statements define the names of the modules, in the same order. -/
theorem targets_of_statements {ms : List Module} {ss : List Statement}
    (h : WrittenAs d ms ss) :
    Statement.targets ss = ms.map (·.name) := by
  induction h with
  | nil => rfl
  | cons hs _ ih =>
      rw [Statement.targets, List.filterMap_cons, (target?_of_statement hs).1, List.map_cons,
        ← ih]
      rfl

theorem exists_statement_of_mem {ms : List Module} {ss : List Statement}
    (h : WrittenAs d ms ss) {m : Module} (hm : m ∈ ms) :
    ∃ s ∈ ss, m.statement d = .ok s := by
  induction h with
  | nil => cases hm
  | @cons p t ms ss hp _ ih =>
      rcases List.mem_cons.mp hm with rfl | hm
      · exact ⟨t, List.mem_cons_self, hp⟩
      · obtain ⟨s, hs, hms⟩ := ih hm
        exact ⟨s, List.mem_cons_of_mem _ hs, hms⟩

theorem exists_module_of_mem {ms : List Module} {ss : List Statement}
    (h : WrittenAs d ms ss) {s : Statement} (hs : s ∈ ss) :
    ∃ m ∈ ms, m.statement d = .ok s := by
  induction h with
  | nil => cases hs
  | @cons p t ms ss hp _ ih =>
      rcases List.mem_cons.mp hs with rfl | hs
      · exact ⟨p, List.mem_cons_self, hp⟩
      · obtain ⟨m, hm, hms⟩ := ih hs
        exact ⟨m, List.mem_cons_of_mem _ hm, hms⟩

/-- The statements before that of a module are those of the modules before it. -/
theorem exists_split_of_statements {ms : List Module} {before after : List Statement}
    {s : Statement}
    (h : WrittenAs d ms (before ++ s :: after)) :
    ∃ front m rest, ms = front ++ m :: rest ∧ m.statement d = .ok s ∧
      WrittenAs d front before := by
  -- On the statements before, since it is those that say where the modules are to be split.
  induction before generalizing ms with
  | nil =>
      obtain ⟨m, rest, hm, -, rfl⟩ := List.forall₂_cons_right_iff.mp h
      exact ⟨[], m, rest, rfl, hm, .nil⟩
  | cons t before ih =>
      obtain ⟨p, rest, hp, hrest, rfl⟩ := List.forall₂_cons_right_iff.mp h
      obtain ⟨front, m, back, rfl, hm, hfront⟩ := ih hrest
      exact ⟨p :: front, m, back, rfl, hm, .cons hp hfront⟩

end Module

/-! ## 3. Training -/

namespace Config

variable (d : Dialect) (c : Config)

/-- **The callbacks that training lists are those that are defined**, and the one that
reports progress. -/
theorem callbacks_eq :
    c.callbacks = Variable.remoteMonitor :: Statement.targets (c.statements d) := by
  unfold callbacks statements EarlyStopping.statements RateReduction.statements
  cases c.earlyStopping.usage <;> cases c.rateReduction.usage <;> rfl

theorem layersNamed_of_mem_statements {s : Statement} (h : s ∈ c.statements d) :
    s.layersNamed = [] := by
  unfold statements EarlyStopping.statements RateReduction.statements at h
  rcases List.mem_append.mp h with h | h
  · rcases List.mem_cons.mp h with rfl | h
    · rfl
    · split at h
      · rw [List.mem_singleton.mp h]
        rfl
      · cases h
  · split at h
    · rw [List.mem_singleton.mp h]
      rfl
    · cases h

theorem callbacks?_fitStatement (x : Binary64) :
    (c.fitStatement x).callbacks? = some c.callbacks := by
  have hlist : (c.callbacks.map Expr.path).map Expr.text = c.callbacks := by
    rw [List.map_map]
    exact List.map_id'' (fun _ => rfl) _
  show some ((c.callbacks.map Expr.path).map Expr.text) = _
  rw [hlist]

/-- What the model script defines besides layers is reserved. -/
theorem sublist_reservedNames :
    (Variable.model :: Statement.targets (c.statements d)).Sublist reservedNames := by
  -- The callbacks are looked at instead, as they do not depend on the dialect.
  have htargets : Statement.targets (c.statements d) = c.callbacks.tail := by
    rw [c.callbacks_eq d]
    rfl
  rw [htargets]
  unfold callbacks
  cases c.earlyStopping.usage <;> cases c.rateReduction.usage <;> decide

variable (x : Binary64) (root user : String)

/-- So is everything that the training script defines. -/
theorem sublist_reservedNames_of_train :
    (Statement.targets (c.trainScript d x root user).statements).Sublist reservedNames := by
  have htargets : Statement.targets (c.trainScript d x root user).statements =
      ["json", Variable.dataset, Variable.data, Variable.labels, Variable.remoteMonitor] := by
    simp only [trainScript, Statement.targets_append, Statement.targets_verbatim]
    rfl
  rw [htargets]
  decide

/-- Before the statement that trains the model, no statement does, and progress can already
be reported. -/
theorem eq_callbacks_of_train {before after : List Statement} {s : Statement}
    {names : List String} (h : (c.trainScript d x root user).statements = before ++ s :: after)
    (hs : s.callbacks? = some names) :
    names = c.callbacks ∧ Variable.remoteMonitor ∈ Statement.targets before := by
  -- Imports and what loads the data train nothing.
  have hlead : ∀ t ∈ d.imports.map .verbatim
      ++ [.importModule "json", .importAll ScriptName.model.stem] ++ loadStatements user,
      t.callbacks? = none := by
    intro t ht
    simp only [loadStatements, List.mem_append, List.mem_map, List.mem_cons, List.not_mem_nil,
      or_false] at ht
    rcases ht with (⟨line, -, rfl⟩ | rfl | rfl) | rfl | rfl | rfl <;> rfl
  rcases split_append h with ⟨rest, hin⟩ | ⟨front, rfl, hrest⟩
  · have hmem : s ∈ before ++ s :: rest := List.mem_append_cons_self
    rw [← hin] at hmem
    rw [hlead s hmem] at hs
    cases hs
  · -- Three statements are left: the second trains, and follows the one that defines
    -- the monitor.
    rcases front with _ | ⟨monitor, _ | ⟨fit, _ | ⟨save, front⟩⟩⟩
    · cases hrest
      cases hs
    · cases hrest
      rw [callbacks?_fitStatement] at hs
      cases hs
      refine ⟨rfl, ?_⟩
      rw [Statement.targets_append]
      exact List.mem_append_right _ List.mem_cons_self
    · cases hrest
      cases hs
    · simp at hrest

end Config

/-! ## 4. The two scripts -/

/-- What the scripts of a network promise about their variables. -/
structure WellSequenced (d : Dialect) (c : Network) (out : Compiled) : Prop where
  /-- A layer that a statement names is constructed by an earlier one. -/
  defined : ∀ before s after, out.model.statements = before ++ s :: after →
    ∀ layer ∈ s.layersNamed, ∃ t ∈ before, c.IsLayer d t ∧ t.target? = some layer
  /-- Every layer in the order is constructed under a name that looks like a variable, and
  its statement names the layer it is applied to. -/
  layers : ∀ name ∈ out.order, Literal.isName name = true ∧ ∃ m ∈ c.modules,
    ∃ s ∈ out.model.statements, m.statement d = .ok s ∧ s.target? = some name ∧
      s.layersNamed = if m.isInput then [] else m.input.toList
  /-- The model is built between the ends of the network. -/
  ends : ∃ s ∈ out.model.statements,
    s.target? = some Variable.model ∧ s.layersNamed = [c.input, c.output]
  /-- The first script gives no variable a value twice. -/
  once : (Statement.targets out.model.statements).Nodup
  /-- The second gives none to a variable that is named like a layer. -/
  apart : ∀ m ∈ c.modules, m.name ∉ Statement.targets out.trainer.statements
  /-- The second script trains the model. -/
  trained : ∃ fit ∈ out.trainer.statements, fit.callbacks?.isSome
  /-- A callback that training is given is defined: the one that reports progress before
  it in the second script, the others in the first. -/
  given : ∀ before fit after names, out.trainer.statements = before ++ fit :: after →
    fit.callbacks? = some names → ∀ name ∈ names,
      if name = Variable.remoteMonitor then name ∈ Statement.targets before
      else name ∈ Statement.targets out.model.statements
  /-- A callback that the first script defines is given to training. -/
  used : ∀ fit ∈ out.trainer.statements, ∀ names, fit.callbacks? = some names →
    ∀ name ∈ [Variable.earlyStopping, Variable.reduceLR],
      name ∈ Statement.targets out.model.statements → name ∈ names

/-- The model script: the lines of the dialect, a statement for each layer, the model, and
what prepares training. -/
theorem Network.exists_of_modelScript {d : Dialect} {config : Config} {c : Network} {o : Order}
    {model : Script} (h : c.modelScript d config o = .ok model) :
    ∃ layers, Module.WrittenAs d o.modules layers ∧
      model.statements
        = d.imports.map .verbatim ++ layers ++ [c.statement d] ++ config.statements d := by
  obtain ⟨layers, hlayers, h⟩ := bind_eq_ok_iff.mp h
  cases h
  exact ⟨layers, Module.writtenAs_of_statements hlayers, rfl⟩

/-- A project is compiled when its network can be resolved and the layers be written. -/
theorem Project.compile_eq_ok_iff {d : Dialect} {options : Options} {p : Project}
    {out : Compiled} :
    p.compile d options = .ok out ↔
      ∃ o model, p.network.resolve options.unreachable = .ok o ∧
        p.network.modelScript d p.config o = .ok model ∧
        out = ⟨model, p.trainScript d options, o.names, o.dropped⟩ := by
  unfold compile
  simp only [bind_eq_ok_iff, mapError_eq_ok_iff]
  constructor
  · rintro ⟨o, ho, model, hmodel, h⟩
    cases h
    exact ⟨o, model, ho, hmodel, rfl⟩
  · rintro ⟨o, model, ho, hmodel, rfl⟩
    exact ⟨o, ho, model, hmodel, rfl⟩

/-- It cannot be compiled when its network cannot be resolved, or when it can and a layer cannot
be written. -/
theorem Project.compile_eq_error_iff {d : Dialect} {options : Options} {p : Project}
    {fault : CompileError} :
    p.compile d options = .error fault ↔
      (∃ e, p.network.resolve options.unreachable = .error e ∧ fault = .graph e) ∨
      ∃ o e, p.network.resolve options.unreachable = .ok o ∧
        p.network.modelScript d p.config o = .error e ∧ fault = .unsupported e := by
  unfold compile
  simp only [bind_eq_error_iff, mapError_eq_error_iff, mapError_eq_ok_iff, reduceCtorEq, and_false,
    exists_false, or_false]
  constructor
  · rintro (⟨e, he, rfl⟩ | ⟨o, ho, e, he, rfl⟩)
    · exact Or.inl ⟨e, he, rfl⟩
    · exact Or.inr ⟨o, e, ho, he, rfl⟩
  · rintro (⟨e, he, rfl⟩ | ⟨o, e, ho, he, rfl⟩)
    · exact Or.inl ⟨e, he, rfl⟩
    · exact Or.inr ⟨o, ho, e, he, rfl⟩

/-- The parts of a compiled project. -/
theorem Project.exists_of_compile {d : Dialect} {options : Options} {p : Project}
    {out : Compiled} (h : p.compile d options = .ok out) :
    ∃ o, p.network.Resolved o ∧ out.order = o.names ∧
      p.network.modelScript d p.config o = .ok out.model ∧
      out.trainer = p.trainScript d options := by
  obtain ⟨o, model, ho, hmodel, rfl⟩ := compile_eq_ok_iff.mp h
  exact ⟨o, Network.resolved ho, rfl, hmodel, rfl⟩

section

variable {d : Dialect} {config : Config} {c : Network} {o : Order} {model : Script}

/-- What the model script defines: the layers in their order, the model, the callbacks. -/
theorem Network.targets_of_modelScript (h : c.modelScript d config o = .ok model) :
    Statement.targets model.statements
      = o.names ++ Variable.model :: Statement.targets (config.statements d) := by
  obtain ⟨layers, hlayers, hmodel⟩ := exists_of_modelScript h
  rw [hmodel, Statement.targets_append, Statement.targets_append, Statement.targets_append,
    Statement.targets_verbatim, Module.targets_of_statements hlayers, List.nil_append,
    List.append_assoc]
  rfl

/-- A module in the order is constructed under its name. -/
theorem Network.Resolved.exists_isLayer (hresolved : c.Resolved o) {layers : List Statement}
    (h : Module.WrittenAs d o.modules layers) {layer : String}
    (hlayer : ∃ m ∈ o.modules, m.name = layer) :
    ∃ t ∈ layers, c.IsLayer d t ∧ t.target? = some layer := by
  obtain ⟨m, hm, rfl⟩ := hlayer
  obtain ⟨t, ht, hmt⟩ := Module.exists_statement_of_mem h hm
  exact ⟨t, ht, ⟨m, hresolved.declared m hm, hmt⟩, (Module.target?_of_statement hmt).1⟩

/-- A layer is constructed before another is applied to it. -/
theorem Network.Resolved.exists_isLayer_before (hresolved : c.Resolved o)
    {before after : List Statement} {s : Statement}
    (h : Module.WrittenAs d o.modules (before ++ s :: after))
    {layer : String} (hlayer : layer ∈ s.layersNamed) :
    ∃ t ∈ before, c.IsLayer d t ∧ t.target? = some layer := by
  -- The modules are split where the statements are; the order puts the layer in the front.
  obtain ⟨front, m, rest, hmodules, hm, hfront⟩ := Module.exists_split_of_statements h
  rw [(Module.target?_of_statement hm).2] at hlayer
  by_cases hroot : m.isInput = true
  · rw [if_pos hroot] at hlayer
    cases hlayer
  · rw [if_neg hroot, Option.mem_toList] at hlayer
    obtain ⟨p, hp, rfl⟩ :=
      hresolved.applied front m rest hmodules (Bool.eq_false_iff.mpr hroot) layer hlayer
    obtain ⟨t, ht, hpt⟩ := Module.exists_statement_of_mem hfront hp
    have hmem : p ∈ o.modules := by
      rw [hmodules]
      exact List.mem_append_left _ hp
    exact ⟨t, ht, ⟨p, hresolved.declared p hmem, hpt⟩, (Module.target?_of_statement hpt).1⟩

/-- A layer is constructed before it is named. -/
theorem Network.Resolved.defined (hresolved : c.Resolved o)
    (h : c.modelScript d config o = .ok model) {before after : List Statement} {s : Statement}
    (hsplit : model.statements = before ++ s :: after) {layer : String}
    (hlayer : layer ∈ s.layersNamed) :
    ∃ t ∈ before, c.IsLayer d t ∧ t.target? = some layer := by
  obtain ⟨layers, hlayers, hmodel⟩ := exists_of_modelScript h
  rw [hmodel] at hsplit
  -- Lines that are copied and what prepares training name no layer.
  rcases split_append hsplit with ⟨rest, hfront⟩ | ⟨front, rfl, hconfig⟩
  · rcases split_append hfront with ⟨rest, hfront⟩ | ⟨front, rfl, hends⟩
    · rcases split_append hfront with ⟨rest, himports⟩ | ⟨front, rfl, rfl⟩
      · have hs : s ∈ d.imports.map Statement.verbatim := by
          rw [himports]
          exact List.mem_append_cons_self
        obtain ⟨line, -, rfl⟩ := List.mem_map.mp hs
        cases hlayer
      · obtain ⟨t, ht, hlayer⟩ := hresolved.exists_isLayer_before hlayers hlayer
        exact ⟨t, List.mem_append_right _ ht, hlayer⟩
    · obtain ⟨rfl, rfl⟩ : front = [] ∧ c.statement d = s := by
        rcases List.singleton_eq_append_iff.mp hends with ⟨rfl, hs⟩ | ⟨-, hs⟩
        · exact ⟨rfl, (List.cons.inj hs).1.symm⟩
        · cases hs
      have hwritten : ∃ m ∈ o.modules, m.name = layer := by
        change layer ∈ [c.input, c.output] at hlayer
        rcases List.mem_pair.mp hlayer with rfl | rfl
        · exact hresolved.input_mem
        · exact hresolved.output_mem
      obtain ⟨t, ht, hlayer⟩ := hresolved.exists_isLayer hlayers hwritten
      exact ⟨t, List.mem_append_left _ (List.mem_append_right _ ht), hlayer⟩
  · have hs : s ∈ config.statements d := by
      rw [hconfig]
      exact List.mem_append_cons_self
    rw [config.layersNamed_of_mem_statements d hs] at hlayer
    cases hlayer

/-- A layer in the order has its statement in the model script. -/
theorem Network.exists_statement_of_modelScript (h : c.modelScript d config o = .ok model)
    {m : Module} (hm : m ∈ o.modules) : ∃ s ∈ model.statements, m.statement d = .ok s := by
  obtain ⟨layers, hlayers, hmodel⟩ := exists_of_modelScript h
  obtain ⟨s, hs, hms⟩ := Module.exists_statement_of_mem hlayers hm
  refine ⟨s, ?_, hms⟩
  rw [hmodel, List.append_assoc, List.append_assoc]
  exact List.mem_append_right _ (List.mem_append_left _ hs)

/-- The model script gives no variable a value twice, when no layer has a reserved name. -/
theorem Network.nodup_of_modelScript (hresolved : c.Resolved o)
    (hbound : ∀ m ∈ c.modules, m.IsBound) (h : c.modelScript d config o = .ok model) :
    (Statement.targets model.statements).Nodup := by
  have hreserved := config.sublist_reservedNames d
  rw [targets_of_modelScript h, List.nodup_append]
  refine ⟨hresolved.nodup, hreserved.nodup (by decide), ?_⟩
  -- A layer with the name of the model or of a callback would not have been bound.
  rintro name hname _ hother rfl
  obtain ⟨m, hm, rfl⟩ := List.mem_map.mp hname
  exact (hbound m (hresolved.declared m hm)).not_reserved (hreserved.subset hother)

end

/-- **The scripts of a project name only what is defined before, define it once, and train
with the callbacks that are defined.** -/
theorem scripts_define_before_use {payload : String} {user : Option String} {p : Project}
    (hp : Project.ofPayload payload user = .ok p) {d : Dialect} {options : Options}
    {out : Compiled} (hout : p.compile d options = .ok out) :
    WellSequenced d p.network out := by
  have hbound := Project.isBound_of_ofPayload hp
  obtain ⟨o, hresolved, horder, hmodel, htrainer⟩ := Project.exists_of_compile hout
  have htargets := Network.targets_of_modelScript hmodel
  have hcallbacks := p.config.callbacks_eq d
  refine {
    defined := fun _ _ _ hsplit _ hlayer => hresolved.defined hmodel hsplit hlayer
    layers := ?_
    ends := ?_
    once := Network.nodup_of_modelScript hresolved hbound hmodel
    apart := ?_
    trained := ?_
    given := ?_
    used := ?_ }
  · intro name hname
    rw [horder] at hname
    obtain ⟨m, hm, rfl⟩ := List.mem_map.mp hname
    obtain ⟨s, hs, hms⟩ := Network.exists_statement_of_modelScript hmodel hm
    have hdeclared := hresolved.declared m hm
    exact ⟨(hbound m hdeclared).isName, m, hdeclared, s, hs, hms, Module.target?_of_statement hms⟩
  · obtain ⟨layers, -, hstatements⟩ := Network.exists_of_modelScript hmodel
    refine ⟨p.network.statement d, ?_, rfl, rfl⟩
    rw [hstatements, List.append_assoc]
    exact List.mem_append_right _ List.mem_cons_self
  · intro m hm hname
    rw [htrainer] at hname
    exact (hbound m hm).not_reserved
      ((p.config.sublist_reservedNames_of_train d _ _ _).subset hname)
  · refine ⟨p.config.fitStatement options.validationSplit, ?_, ?_⟩
    · rw [htrainer]
      exact List.mem_append_right _ (List.mem_cons_of_mem _ List.mem_cons_self)
    · rw [Config.callbacks?_fitStatement]
      rfl
  · intro before fit after names hsplit hfit name hname
    rw [htrainer] at hsplit
    obtain ⟨rfl, hmonitor⟩ := p.config.eq_callbacks_of_train d _ _ _ hsplit hfit
    split
    · rename_i heq
      rw [heq]
      exact hmonitor
    · rename_i hne
      rw [hcallbacks] at hname
      rw [htargets]
      exact List.mem_append_right _ (List.mem_cons_of_mem _
        ((List.mem_cons.mp hname).resolve_left hne))
  · intro fit hmem names hfit name hname hdefined
    obtain ⟨before, after, hsplit⟩ := List.append_of_mem hmem
    rw [htrainer] at hsplit
    obtain ⟨rfl, -⟩ := p.config.eq_callbacks_of_train d _ _ _ hsplit hfit
    have hreserved : name ∈ reservedNames ∧ name ≠ Variable.model := by
      rcases List.mem_pair.mp hname with rfl | rfl <;> decide
    rw [htargets] at hdefined
    rcases List.mem_append.mp hdefined with hlayer | hdefined
    · obtain ⟨m, hm, rfl⟩ := List.mem_map.mp hlayer
      exact absurd hreserved.1 (hbound m (hresolved.declared m hm)).not_reserved
    · rw [hcallbacks]
      exact List.mem_cons_of_mem _ ((List.mem_cons.mp hdefined).resolve_left hreserved.2)

/-- A payload is bound and compiled when something can be computed from what comes of it. -/
theorem Project.exists_of_run {payload : String} {user : Option String} {d : Dialect}
    {options : Options} {α : Type} (f : Project → Compiled → α) {a : α}
    (h : ((ofPayload payload user).toOption.bind fun p => (p.compile d options).toOption.map (f p))
      = some a) :
    ∃ p out, ofPayload payload user = .ok p ∧ p.compile d options = .ok out ∧ f p out = a := by
  obtain ⟨p, hp, hrest⟩ := Option.bind_eq_some_iff.mp h
  obtain ⟨out, hout, ha⟩ := Option.map_eq_some_iff.mp hrest
  exact ⟨p, out, toOption_eq_some_iff.mp hp, toOption_eq_some_iff.mp hout, ha⟩

/-- A payload whose records are given by position. The layer `y` is declared before `x`, which
it is applied to, and training may end early. -/
def chainPayload : String :=
  "\x7b\"config\":[\"SGD\",1,\"mse\",[],2,3,[true]],\"content\":[\"x\",\"y\","
    ++ "[[\"Layer\",\"Flatten\",\"y\",\"x\"],[\"Layer\",\"Input\",\"x\",null,\"y\",[4,1,\"\"]]]]\x7d"

/-- Options that leave layers out without a word. -/
def chainOptions : Options := ⟨.drop, .ofInt 0, "r"⟩

theorem scripts_define_before_use_chain :
    ∃ p out, Project.ofPayload chainPayload (some "u") = .ok p ∧
      p.compile .tensorflow chainOptions = .ok out ∧
      Statement.targets out.model.statements = ["x", "y", "model", "early_stopping"] ∧
      WellSequenced .tensorflow p.network out := by
  have hrun : ((Project.ofPayload chainPayload (some "u")).toOption.bind fun p =>
      (p.compile .tensorflow chainOptions).toOption.map fun out =>
        Statement.targets out.model.statements)
      = some ["x", "y", "model", "early_stopping"] := by
    decide +kernel
  cases hp : Project.ofPayload chainPayload (some "u") with
  | error fault =>
      rw [hp] at hrun
      cases hrun
  | ok p =>
      rw [hp] at hrun
      cases hout : p.compile .tensorflow chainOptions with
      | error fault =>
          simp [Except.toOption, hout] at hrun
      | ok out =>
          simp only [Except.toOption, hout, Option.bind_some, Option.map_some,
            Option.some.injEq] at hrun
          exact ⟨p, out, rfl, hout, hrun, scripts_define_before_use hp hout⟩

end LayerScript
