/-
`Proofs/Categories.lean` -- what becomes of a layer whose category the dialect does not know.

A layer is written under the path that the dialect gives its category, so a dialect without the
category cannot write the layer. The network is resolved before anything is written, and writing
stops at the first layer that has no path. So such a layer is reported only when the network can
be resolved, and the one that is named is the first in the order of writing, which need not be
the first that was declared.

What a layer that is left out belongs to is never asked. For this it is not enough that only the
layers of the order are looked up, since the order could depend on categories too. It does not:
`Network.resolve_recategorize` gives modules other categories, and what comes out is what came out
before with the other categories in it.
-/
import LayerScript.Proofs.Pruning
import LayerScript.Proofs.Scripts

set_option autoImplicit false

namespace LayerScript

/-! ## 1. The first layer that cannot be written -/

/-- Whether a dialect says where the constructors of a category are found. -/
def Dialect.Knows (d : Dialect) (category : Category) : Prop :=
  category.name ∈ d.namespaces.map (·.1)

theorem Dialect.path?_eq_none_iff {d : Dialect} {category : Category} :
    d.path? category = none ↔ ¬ d.Knows category := by
  unfold path? Knows
  rw [List.lookup_eq_none_iff, List.mem_map]
  simp only [bne_iff_ne, not_exists, not_and]
  exact forall₂_congr fun _ _ => not_congr eq_comm

/-- The first module of a list whose category a dialect does not know. -/
structure Dialect.FirstUnknown (d : Dialect) (modules : List Module) (m : Module) : Prop where
  unknown : ¬ d.Knows m.category
  first : ∃ before after, modules = before ++ m :: after ∧ ∀ p ∈ before, d.Knows p.category

namespace Dialect

variable {d : Dialect} {q m : Module} {rest : List Module}

/-- Behind a module that is known the first is that of the rest. -/
theorem firstUnknown_cons_of_knows (hq : d.Knows q.category) :
    d.FirstUnknown (q :: rest) m ↔ d.FirstUnknown rest m := by
  constructor
  · rintro ⟨hunknown, before, after, hsplit, hbefore⟩
    cases before with
    | nil =>
        cases hsplit
        exact absurd hq hunknown
    | cons p before =>
        cases hsplit
        exact ⟨hunknown, before, after, rfl, fun p hp => hbefore p (List.mem_cons_of_mem _ hp)⟩
  · rintro ⟨hunknown, before, after, rfl, hbefore⟩
    refine ⟨hunknown, q :: before, after, rfl, fun p hp => ?_⟩
    rcases List.mem_cons.mp hp with rfl | hp
    · exact hq
    · exact hbefore p hp

/-- A module that is not known is the first itself. -/
theorem firstUnknown_cons_of_not_knows (hq : ¬ d.Knows q.category) :
    d.FirstUnknown (q :: rest) m ↔ m = q := by
  constructor
  · rintro ⟨-, before, after, hsplit, hbefore⟩
    cases before with
    | nil =>
        cases hsplit
        rfl
    | cons p before =>
        cases hsplit
        exact absurd (hbefore q List.mem_cons_self) hq
  · rintro rfl
    exact ⟨hq, [], rest, rfl, by simp⟩

theorem exists_firstUnknown_iff {modules : List Module} :
    (∃ m, d.FirstUnknown modules m) ↔ ∃ m ∈ modules, ¬ d.Knows m.category := by
  constructor
  · rintro ⟨m, hunknown, before, after, rfl, -⟩
    exact ⟨m, List.mem_append_cons_self, hunknown⟩
  · rintro ⟨m, hm, hunknown⟩
    -- The witness need not be the first: the search goes on behind `q` only while `q` is known.
    induction modules with
    | nil => cases hm
    | cons q rest ih =>
        by_cases hq : d.Knows q.category
        · rcases List.mem_cons.mp hm with rfl | hrest
          · exact absurd hq hunknown
          · obtain ⟨found, hfound⟩ := ih hrest
            exact ⟨found, (firstUnknown_cons_of_knows hq).mpr hfound⟩
        · exact ⟨q, (firstUnknown_cons_of_not_knows hq).mpr rfl⟩

end Dialect

namespace Module

variable {d : Dialect}

/-- A supported layer can be written when its category is known. -/
theorem exists_statement_of_knows {m : Module} (hm : ∃ params, m.layer.params? = some params)
    (h : d.Knows m.category) : ∃ s, m.statement d = .ok s := by
  obtain ⟨params, hparams⟩ := hm
  simp only [statement, hparams]
  cases hpath : d.path? m.category with
  | none => exact absurd h (Dialect.path?_eq_none_iff.mp hpath)
  | some path => exact ⟨_, rfl⟩

theorem statement_of_not_knows {m : Module} (hm : ∃ params, m.layer.params? = some params)
    (h : ¬ d.Knows m.category) : m.statement d = .error (.category m.name m.category) := by
  obtain ⟨params, hparams⟩ := hm
  simp only [statement, hparams, Dialect.path?_eq_none_iff.mpr h]

/-- **Writing stops at the first layer that cannot be written.** -/
theorem statements_eq_error_iff {modules : List Module}
    (hmodules : ∀ m ∈ modules, ∃ params, m.layer.params? = some params) (e : UnsupportedError) :
    statements d modules = .error e ↔
      ∃ m, d.FirstUnknown modules m ∧ e = .category m.name m.category := by
  induction modules with
  | nil =>
      constructor
      · intro h
        cases h
      · rintro ⟨m, ⟨-, before, after, hsplit, -⟩, -⟩
        simp at hsplit
  | cons q rest ih =>
      have hq := hmodules q List.mem_cons_self
      specialize ih fun m hm => hmodules m (List.mem_cons_of_mem _ hm)
      simp only [statements, bind_eq_error_iff]
      -- A known `q` is written and the fault is that of `rest`; otherwise it is that of `q`.
      by_cases hknown : d.Knows q.category
      · obtain ⟨s, hs⟩ := exists_statement_of_knows hq hknown
        simp [hs, Dialect.firstUnknown_cons_of_knows hknown, ih]
      · simp [statement_of_not_knows hq hknown, Dialect.firstUnknown_cons_of_not_knows hknown,
          eq_comm]

end Module

/-- The layers are all that can keep the script of a model from being written. -/
theorem Network.modelScript_eq_error_iff {d : Dialect} {config : Config} {c : Network} {o : Order}
    {e : UnsupportedError} :
    c.modelScript d config o = .error e ↔ Module.statements d o.modules = .error e := by
  simp [modelScript, bind_eq_error_iff]

/-! ## 2. Categories do not bear on the order -/

/-- A module that belongs to another category. -/
def Module.recategorize (f : Module → Category) (m : Module) : Module :=
  { m with category := f m }

namespace Module

variable {f : Module → Category}

@[simp] theorem recategorize_name (m : Module) : (m.recategorize f).name = m.name := rfl

@[simp] theorem recategorize_isInput (m : Module) :
    (m.recategorize f).isInput = m.isInput := rfl

@[simp] theorem recategorize_feeds_iff {p q : Module} :
    (p.recategorize f).Feeds (q.recategorize f) ↔ p.Feeds q := Iff.rfl

@[simp] theorem map_name_recategorize (modules : List Module) :
    (modules.map (recategorize f)).map (·.name) = modules.map (·.name) := by
  rw [List.map_map]
  rfl

end Module

section

variable {f : Module → Category} {modules : List Module}

/-- Where a module of another category stood before. -/
def former (f : Module → Category) (modules : List Module)
    (i : Fin (modules.map (Module.recategorize f)).length) : Fin modules.length :=
  i.cast (List.length_map _)

theorem get_map_recategorize (i : Fin (modules.map (Module.recategorize f)).length) :
    (modules.map (Module.recategorize f)).get i
      = (modules.get (former f modules i)).recategorize f := by
  simp [former]

theorem former_surjective : Function.Surjective (former f modules) :=
  fun i => ⟨i.cast (List.length_map _).symm, rfl⟩

theorem map_former_finRange (f : Module → Category) (modules : List Module) :
    (List.finRange _).map (former f modules) = List.finRange modules.length := by
  -- Over an arbitrary equation of lengths, so that it can be substituted.
  have hcast : ∀ {m n : Nat} (h : m = n), (List.finRange m).map (Fin.cast h) = List.finRange n := by
    rintro m _ rfl
    simp
  exact hcast (List.length_map _)

theorem map_name_get_former (positions : List (Fin (modules.map (Module.recategorize f)).length)) :
    (positions.map fun i => ((modules.map (Module.recategorize f)).get i).name)
      = (positions.map (former f modules)).map fun i => (modules.get i).name := by
  simp only [get_map_recategorize, Module.recategorize_name, List.map_map]
  rfl

theorem map_former_inputPositions :
    (inputPositions (modules.map (Module.recategorize f))).map (former f modules)
      = inputPositions modules := by
  simp only [inputPositions, get_map_recategorize, Module.recategorize_isInput]
  rw [← map_former_finRange f modules, List.filter_map]
  rfl

/-- **Whether modules can be wired does not depend on their categories**, nor does what is
reported when they cannot. -/
theorem Wiring.ofModules_recategorize (f : Module → Category) (modules : List Module) :
    match Wiring.ofModules modules with
    | .error fault => Wiring.ofModules (modules.map (Module.recategorize f)) = .error fault
    | .ok _ => ∃ v, Wiring.ofModules (modules.map (Module.recategorize f)) = .ok v := by
  have hdangling : ∀ names, (modules.map (Module.recategorize f)).findSome?
      (danglingReference names) = modules.findSome? (danglingReference names) := by
    intro names
    rw [List.findSome?_map]
    rfl
  simp only [ofModules, Module.map_name_recategorize, hdangling]
  cases firstRepeated [] (modules.map (·.name)) with
  | some name => rfl
  | none =>
      -- The two lists of input positions are lists over different `Fin`s; the old one is the
      -- image of the new one, so both are empty, single or longer together.
      rw [← map_former_inputPositions (f := f)]
      rcases inputPositions (modules.map (Module.recategorize f)) with _ | ⟨root, _ | ⟨i, rest⟩⟩
      · rfl
      · cases modules.findSome? (danglingReference (modules.map (·.name))) with
        | some fault => rfl
        | none => exact ⟨_, rfl⟩
      · exact congrArg (fun names => Except.error (GraphError.multipleInputs names))
          (map_name_get_former (root :: i :: rest))

variable {v : Wiring (modules.map (Module.recategorize f)).length} {w : Wiring modules.length}

/-- The wiring is the same. -/
theorem Wiring.Resolves.embeds_former (hv : v.Resolves) (hw : w.Resolves) :
    v.Embeds w (former f modules) := by
  refine ⟨fun _ _ h => h, ?_, fun i j => ?_, fun j _ => Option.ext fun i => ?_,
    fun i _ => former_surjective i⟩
  · rw [← hw.isInput_iff, ← Module.recategorize_isInput (f := f), ← get_map_recategorize,
      hv.isInput_iff]
  · rw [Bool.eq_iff_iff, hw.edge_iff, hv.edge_iff, get_map_recategorize, get_map_recategorize,
      Module.recategorize_feeds_iff]
  · -- A producer is the module that an input names, and both names and inputs are kept.
    rw [Option.map_eq_some_iff, hw.producer_eq_some_iff]
    constructor
    · intro hinput
      obtain ⟨k, rfl⟩ := former_surjective (f := f) i
      refine ⟨k, (hv.producer_eq_some_iff k j).mpr ?_, rfl⟩
      rw [get_map_recategorize, get_map_recategorize]
      exact hinput
    · rintro ⟨k, hk, rfl⟩
      rw [hv.producer_eq_some_iff, get_map_recategorize, get_map_recategorize] at hk
      exact hk

/-- An order whose modules belong to other categories. -/
def Order.recategorize (f : Module → Category) (o : Order) : Order :=
  { o with modules := o.modules.map (Module.recategorize f) }

/-- **The order is the same**, or the same stands in its way. -/
theorem Wiring.Resolves.order_recategorize (hv : v.Resolves) (hw : w.Resolves) (policy : Policy) :
    v.order (modules.map (Module.recategorize f)) policy
      = (w.order modules policy).map (Order.recategorize f) := by
  have hembeds := hv.embeds_former hw
  have hunsupported :
      (v.unsupported.map fun i => ((modules.map (Module.recategorize f)).get i).name)
        = w.unsupported.map fun i => (modules.get i).name := by
    rw [map_name_get_former, unsupported, unsupported,
      ← map_former_finRange f modules, List.filter_map]
    refine congrArg _ (congrArg _ (List.filter_congr fun i _ => ?_))
    simp [hembeds.mem_supported_iff]
  -- What is scheduled, or stuck, is found on the wiring alone; modules are looked up afterwards.
  simp only [order, hembeds.schedule_map, hunsupported]
  cases v.schedule with
  | error stuck =>
      simp only [map_name_get_former]
      rfl
  | ok written =>
      have hwritten : written.map (modules.map (Module.recategorize f)).get
          = ((written.map (former f modules)).map modules.get).map (Module.recategorize f) := by
        simp only [List.map_map]
        exact List.map_congr_left fun i _ => get_map_recategorize i
      simp only [Except.mapError, Except.map, hwritten]
      split
      · rfl
      · rfl

end

/-- A network whose modules belong to other categories. -/
def Network.recategorize (f : Module → Category) (c : Network) : Network :=
  { c with modules := c.modules.map (Module.recategorize f) }

namespace Network

variable (f : Module → Category) (c : Network) (policy : Policy)

theorem unknownEndpoint_recategorize :
    (c.recategorize f).unknownEndpoint = c.unknownEndpoint := by
  have hdeclares : ∀ name, (c.recategorize f).declares name = c.declares name := by
    intro name
    rw [declares, declares, recategorize, List.any_map]
    rfl
  simp only [unknownEndpoint, hdeclares]
  rfl

theorem order_recategorize :
    (c.recategorize f).order policy = (c.order policy).map (Order.recategorize f) := by
  have hwiring := Wiring.ofModules_recategorize f c.modules
  cases hw : Wiring.ofModules c.modules with
  | error fault =>
      rw [hw] at hwiring
      have hv : Wiring.ofModules (c.recategorize f).modules = .error fault := hwiring
      simp only [order, hw, hv]
      rfl
  | ok w =>
      rw [hw] at hwiring
      obtain ⟨v, hv⟩ := hwiring
      have hv' : Wiring.ofModules (c.recategorize f).modules = .ok v := hv
      simp only [order, hw, hv', unknownEndpoint_recategorize]
      cases c.unknownEndpoint with
      | some fault => rfl
      | none =>
          exact (Wiring.resolves_of_ofModules hv).order_recategorize
            (Wiring.resolves_of_ofModules hw) policy

/-- **Networks are resolved alike, whatever their modules belong to.** -/
theorem resolve_recategorize :
    (c.recategorize f).resolve policy = (c.resolve policy).map (Order.recategorize f) := by
  simp only [resolve, order_recategorize]
  cases c.order policy with
  | error fault => rfl
  | ok o =>
      have hends : (c.recategorize f).droppedEndpoints (o.recategorize f)
          = c.droppedEndpoints o := rfl
      simp only [Except.map, hends]
      cases c.droppedEndpoints o with
      | nil => rfl
      | cons name rest => rfl

end Network

/-! ## 3. Compiling -/

/-- A project whose modules belong to other categories. -/
def Project.recategorize (f : Module → Category) (p : Project) : Project :=
  { p with network := p.network.recategorize f }

namespace Project

variable {d : Dialect} {options : Options} {p : Project}

/-- An unknown category is reported once the network is resolved, and is that of the first layer
in the order whose category the dialect does not know. -/
theorem compile_eq_unsupported_iff {payload : String} {user : Option String}
    (hp : Project.ofPayload payload user = .ok p) (e : UnsupportedError) :
    p.compile d options = .error (.unsupported e) ↔
      ∃ o m, p.network.resolve options.unreachable = .ok o ∧ d.FirstUnknown o.modules m ∧
        e = .category m.name m.category := by
  have hsupported : ∀ o, p.network.resolve options.unreachable = .ok o →
      ∀ m ∈ o.modules, ∃ params, m.layer.params? = some params := fun o ho m hm =>
    isSupported_of_ofPayload hp m ((Network.resolved ho).declared m hm)
  rw [compile_eq_error_iff]
  constructor
  · rintro (⟨_, -, hfault⟩ | ⟨o, _, ho, he, hfault⟩)
    · cases hfault
    · cases hfault
      rw [Network.modelScript_eq_error_iff,
        Module.statements_eq_error_iff (hsupported o ho)] at he
      obtain ⟨m, hm, rfl⟩ := he
      exact ⟨o, m, ho, hm, rfl⟩
  · rintro ⟨o, m, ho, hm, rfl⟩
    refine Or.inr ⟨o, _, ho, ?_, rfl⟩
    rw [Network.modelScript_eq_error_iff, Module.statements_eq_error_iff (hsupported o ho)]
    exact ⟨m, hm, rfl⟩

/-- A project compiles to the same, or fails for the same reason, when no layer that is written
gets another category. -/
theorem compile_recategorize {f : Module → Category}
    (hkept : ∀ o, p.network.resolve options.unreachable = .ok o →
      ∀ m ∈ o.modules, f m = m.category) :
    (p.recategorize f).compile d options = p.compile d options := by
  have hresolve : (p.recategorize f).network.resolve options.unreachable
      = (p.network.resolve options.unreachable).map (Order.recategorize f) :=
    p.network.resolve_recategorize f options.unreachable
  cases ho : p.network.resolve options.unreachable with
  | error fault =>
      rw [ho] at hresolve
      rw [compile, compile, ho, hresolve]
      rfl
  | ok o =>
      -- On the layers that are written `f` changes nothing, so the order is the same order.
      have hmodules : o.modules.map (Module.recategorize f) = o.modules.map id :=
        List.map_congr_left fun m hm => by rw [Module.recategorize, hkept o ho m hm, id]
      have hsame : o.recategorize f = o := by
        rw [Order.recategorize, hmodules, List.map_id]
      have hmodel : (p.recategorize f).network.modelScript d p.config o
          = p.network.modelScript d p.config o :=
        Network.modelScript_congr rfl rfl d p.config rfl
      rw [ho, Except.map, hsame] at hresolve
      rw [compile, compile, ho, hresolve]
      change ((Network.modelScript d p.config _ o).mapError _ >>= _) = _
      rw [hmodel]
      rfl

end Project

/-- **An unknown category is the last thing that is reported.** A project that was bound fails
for want of a category exactly when its network is resolved and the dialect does not know the
category of a layer that is written; the first such layer in the order of writing is named. No
layer is ever reported for its kind. What keeps the network from being resolved is reported
before any category, and what layers that are left out belong to makes no difference at all. -/
theorem first_unknown_category_is_reported {payload : String} {user : Option String} {p : Project}
    (hp : Project.ofPayload payload user = .ok p) (d : Dialect) (options : Options) :
    ((∃ e, p.compile d options = .error (.unsupported e)) ↔
      ∃ o, p.network.resolve options.unreachable = .ok o ∧
        ∃ m ∈ o.modules, ¬ d.Knows m.category) ∧
    (∀ e, p.compile d options = .error (.unsupported e) ↔
      ∃ o m, p.network.resolve options.unreachable = .ok o ∧ d.FirstUnknown o.modules m ∧
        e = .category m.name m.category) ∧
    (∀ layer, p.compile d options ≠ .error (.unsupported (.kind layer))) ∧
    (∀ fault, p.network.resolve options.unreachable = .error fault →
      p.compile d options = .error (.graph fault)) ∧
    ∀ f : Module → Category,
      (∀ o, p.network.resolve options.unreachable = .ok o → ∀ m ∈ o.modules, f m = m.category) →
      (p.recategorize f).compile d options = p.compile d options := by
  -- The exact form; that there is such an error, and that it is never about the kind, follow.
  have hiff : ∀ e, p.compile d options = .error (.unsupported e) ↔ _ :=
    Project.compile_eq_unsupported_iff hp
  refine ⟨⟨?_, ?_⟩, hiff, ?_, ?_, fun f => Project.compile_recategorize⟩
  · rintro ⟨e, he⟩
    obtain ⟨o, m, ho, hm, -⟩ := (hiff e).mp he
    exact ⟨o, ho, Dialect.exists_firstUnknown_iff.mp ⟨m, hm⟩⟩
  · rintro ⟨o, ho, hunknown⟩
    obtain ⟨m, hm⟩ := Dialect.exists_firstUnknown_iff.mpr hunknown
    exact ⟨_, (hiff _).mpr ⟨o, m, ho, hm, rfl⟩⟩
  · intro layer h
    obtain ⟨o, m, -, -, hkind⟩ := (hiff _).mp h
    cases hkind
  · exact fun fault hfault => Project.compile_eq_error_iff.mpr (Or.inl ⟨fault, hfault, rfl⟩)

/-- A dialect that knows one of the two categories. -/
def layersOnly : Dialect :=
  { Dialect.tensorflow with namespaces := [("Layer", "tf.keras.layers")] }

/-- A payload with three layers that the dialect cannot write. `far` is declared first and left
out; `late` is declared before `early`, which it is applied to. -/
def mathPayload : String :=
  "\x7b\"config\":[\"SGD\",1,\"mse\",[],2,3],\"content\":[\"x\",\"late\",["
    ++ "[\"Math\",\"Flatten\",\"far\"],[\"Math\",\"Flatten\",\"late\",\"early\"],"
    ++ "[\"Math\",\"Flatten\",\"early\",\"x\"],[\"Layer\",\"Input\",\"x\",null,null,[4,1,\"\"]]]]\x7d"

theorem first_unknown_category_is_reported_math :
    ∃ p, Project.ofPayload mathPayload (some "u") = .ok p ∧
      p.compile layersOnly chainOptions = .error (.unsupported (.category "early" .math)) ∧
      ∃ o, p.network.resolve .drop = .ok o ∧ ∃ m ∈ o.modules, ¬ layersOnly.Knows m.category := by
  have hrun : ((Project.ofPayload mathPayload (some "u")).toOption.map fun p =>
      (p.compile layersOnly chainOptions).map fun _ => ())
        = some (.error (.unsupported (.category "early" .math))) := by
    decide +kernel
  obtain ⟨p, hp, hout⟩ := Option.map_eq_some_iff.mp hrun
  have hp := toOption_eq_some_iff.mp hp
  cases he : p.compile layersOnly chainOptions with
  | ok c =>
      rw [he] at hout
      cases hout
  | error fault =>
      rw [he] at hout
      cases hout
      exact ⟨p, hp, he, (first_unknown_category_is_reported hp _ _).1.mp ⟨_, he⟩⟩

end LayerScript
