/-
`Proofs/Pruning.lean` -- layers that are left out leave no trace.

A network whose order leaves layers out can be cut down to the layers that are written:
the others are deleted, and with them the wires that lead to them. The law is that this
changes nothing. The same layers come out in the same order, and the script of the model
is the same line for line. In the other direction, layers can be declared anywhere in a
network, and as long as they end up left out nothing moves.

Both cases are one. `PartOf` says that a list of modules is found inside another, in the
same order and with the same wires between its members, and `PartOf.embeds` carries this
over to the two wirings, where `Wiring.Embeds` compares the runs. What a wire from or to a
layer that is left out does not matter for is then visible in two places: a member that is
applied to a layer has it among the members, and only edges among members are counted.
-/
import LayerScript.Proofs.Graph.Embedding
import LayerScript.Proofs.Graph.Reordering
import LayerScript.Proofs.Network
import LayerScript.Script.Model
import Mathlib.Data.List.NodupEquivFin

set_option autoImplicit false

namespace LayerScript

/-! ## 1. Modules inside a longer list -/

/-- What makes a list of modules part of another: each stands for one there, in the same
order, that constructs and applies the same layer, and any two are wired as those are. -/
structure PartOf (part all : List Module) (f : Fin part.length → Fin all.length) : Prop where
  strictMono : StrictMono f
  name : ∀ i, (part.get i).name = (all.get (f i)).name
  category : ∀ i, (part.get i).category = (all.get (f i)).category
  layer : ∀ i, (part.get i).layer = (all.get (f i)).layer
  input : ∀ i, (part.get i).isInput = false → (part.get i).input = (all.get (f i)).input
  feeds : ∀ i j, (part.get i).Feeds (part.get j) ↔ (all.get (f i)).Feeds (all.get (f j))

/-- The statement of a module depends on its name, its category and its layer, and on what it
is applied to unless data enters there. -/
theorem Module.statement_congr {m₁ m₂ : Module} (hname : m₁.name = m₂.name)
    (hcategory : m₁.category = m₂.category) (hlayer : m₁.layer = m₂.layer)
    (hinput : m₁.isInput = false → m₁.input = m₂.input) (d : Dialect) :
    m₁.statement d = m₂.statement d := by
  have hroot : m₁.isInput = m₂.isInput := by rw [isInput, isInput, hlayer]
  have happly : ∀ e, m₁.apply e = m₂.apply e := by
    intro e
    rw [apply, apply, ← hroot]
    by_cases hin : m₁.isInput = true
    · rw [if_pos hin, if_pos hin]
    · rw [if_neg hin, if_neg hin, hinput (Bool.eq_false_iff.mpr hin)]
  simp only [statement, hname, hcategory, hlayer, happly]

namespace PartOf

variable {part all : List Module} {f : Fin part.length → Fin all.length}
  {v : Wiring part.length} {w : Wiring all.length}

theorem isInput_eq (h : PartOf part all f) (i : Fin part.length) :
    (part.get i).isInput = (all.get (f i)).isInput := by
  rw [Module.isInput, Module.isInput, h.layer]

/-- **The wiring of a part is part of the wiring**, when nothing else can be written. -/
theorem embeds (h : PartOf part all f) (hv : v.Resolves) (hw : w.Resolves)
    (hcovers : ∀ i ∈ w.supported, ∃ j, f j = i) : v.Embeds w f := by
  refine ⟨h.strictMono, ?_, fun i j => ?_, fun j hne => ?_, hcovers⟩
  · rw [← hw.isInput_iff, ← h.isInput_eq, hv.isInput_iff]
  · rw [Bool.eq_iff_iff, hw.edge_iff, hv.edge_iff]
    exact (h.feeds i j).symm
  · -- What a module of the part is applied to is declared in the part.
    have hroot : (part.get j).isInput = false := by
      rw [Bool.eq_false_iff]
      exact fun heq => hne ((hv.isInput_iff j).mp heq)
    refine Option.ext fun p => ?_
    rw [Option.map_eq_some_iff, hw.producer_eq_some_iff, ← h.input j hroot]
    constructor
    · intro hname
      have hknown := (hv.refersTo _ (List.get_mem part j)).1 _ hname
      obtain ⟨q, hq, hsame⟩ := List.mem_map.mp hknown
      obtain ⟨k, rfl⟩ := List.get_of_mem hq
      refine ⟨k, (hv.producer_eq_some_iff k j).mpr (hname.trans (by rw [hsame])), ?_⟩
      exact get_injective_of_nodup hw.nodup (by rw [← h.name, hsame])
    · rintro ⟨k, hk, rfl⟩
      rw [← h.name]
      exact (hv.producer_eq_some_iff k j).mp hk

/-- The statements of modules of the part are those of the modules that they stand for. -/
theorem statements_map (h : PartOf part all f) (d : Dialect) (positions : List (Fin part.length)) :
    Module.statements d (positions.map part.get)
      = Module.statements d ((positions.map f).map all.get) := by
  induction positions with
  | nil => rfl
  | cons i rest ih =>
      have hsame := Module.statement_congr (h.name i) (h.category i) (h.layer i) (h.input i) d
      simp only [List.map_cons, Module.statements, hsame, ih]

/-- **The part is put in the same order**: where there is an order of all, there is one of the
part, under every policy that allows for what it leaves out. -/
theorem exists_order (h : PartOf part all f) (hv : v.Resolves) (hw : w.Resolves)
    (hcovers : ∀ i ∈ w.supported, ∃ j, f j = i) {policy : Policy} {o : Order}
    (ho : w.order all policy = .ok o) :
    ∃ written : List (Fin part.length), o.modules = (written.map f).map all.get ∧
      ∀ strictness, (strictness = .error → v.unsupported = []) →
        v.order part strictness
          = .ok ⟨written.map part.get, v.unsupported.map fun i => (part.get i).name⟩ := by
  obtain ⟨_, hwritten, -, rfl⟩ := Wiring.Resolves.order_eq_ok_iff.mp ho
  -- The schedule of all is the image of that of the part, so there is one of the part.
  rw [(h.embeds hv hw hcovers).schedule_map] at hwritten
  cases hout : v.schedule with
  | error stuck =>
      rw [hout] at hwritten
      cases hwritten
  | ok written =>
      rw [hout] at hwritten
      cases hwritten
      exact ⟨written, rfl, fun strictness hallowed =>
        Wiring.Resolves.order_eq_ok_iff.mpr ⟨written, hout, hallowed, rfl⟩⟩

/-- Where all of the part can be written, nothing of it is left out. -/
theorem unsupported_eq_nil (h : PartOf part all f) (hv : v.Resolves) (hw : w.Resolves)
    (hcovers : ∀ i ∈ w.supported, ∃ j, f j = i) (hall : ∀ j, f j ∈ w.supported) :
    v.unsupported = [] := by
  refine List.filter_eq_nil_iff.mpr fun j _ => ?_
  have hj : j ∈ v.supported := ((h.embeds hv hw hcovers).mem_supported_iff j).mp (hall j)
  simp [hj]

theorem map_name (h : PartOf part all f) (positions : List (Fin part.length)) :
    (positions.map part.get).map (·.name) = ((positions.map f).map all.get).map (·.name) := by
  simp only [List.map_map]
  exact List.map_congr_left fun i _ => h.name i

end PartOf

/-- Some of the modules of a list, as they are, are part of it. -/
theorem exists_partOf_of_sublist {part all : List Module} (h : part.Sublist all) :
    ∃ f, PartOf part all f ∧ ∀ i, all.get (f i) = part.get i := by
  obtain ⟨f, hf⟩ := List.sublist_iff_exists_fin_orderEmbedding_get_eq.mp h
  refine ⟨f, ⟨f.strictMono, fun i => ?_, fun i => ?_, fun i => ?_, fun i _ => ?_, fun i j => ?_⟩,
    fun i => (hf i).symm⟩ <;> simp only [hf]

/-! ## 2. Deleting modules -/

/-- A module without the wires to deleted ones. Only where data enters may an input be
deleted, since any other module would lose what it is applied to. -/
def Module.prune (deleted : List String) (m : Module) : Module :=
  { m with
    input := if m.isInput then m.input.filter (· ∉ deleted) else m.input
    output := m.output.filter (· ∉ deleted) }

/-- What is left of modules when some of them are deleted, the rest in the same order. -/
def Module.pruneAll (deleted : List String) (modules : List Module) : List Module :=
  (modules.filter (·.name ∉ deleted)).map (prune deleted)

/-- A network without some of its modules. -/
def Network.prune (deleted : List String) (c : Network) : Network :=
  { c with modules := Module.pruneAll deleted c.modules }

namespace Module

variable {deleted : List String}

@[simp] theorem prune_isInput (m : Module) : (m.prune deleted).isInput = m.isInput := rfl

theorem prune_input {m : Module} (h : m.isInput = false) :
    (m.prune deleted).input = m.input := by
  simp [prune, h]

/-- Wires between modules that are kept are kept. -/
theorem prune_feeds_iff {p q : Module} (hp : p.name ∉ deleted) (hq : q.name ∉ deleted) :
    (p.prune deleted).Feeds (q.prune deleted) ↔ p.Feeds q := by
  have hinput : (q.prune deleted).input = some p.name ↔ q.input = some p.name := by
    unfold prune
    by_cases hroot : q.isInput = true
    · simp [hroot, Option.filter_eq_some_iff, hp]
    · simp [hroot]
  have houtput : (p.prune deleted).output = some q.name ↔ p.output = some q.name := by
    simp [prune, Option.filter_eq_some_iff, hq]
  exact or_congr hinput houtput

/-- What a pruned module refers to is kept, when it was declared and the module is not applied
to a deleted one. -/
theorem prune_refersTo {m : Module} {names : List String} (h : m.RefersTo names)
    (happlied : m.isInput = false → ∀ name ∈ m.input, name ∉ deleted) :
    (m.prune deleted).RefersTo (names.filter (· ∉ deleted)) := by
  refine ⟨fun name hname => ?_, fun name hname => ?_⟩
  · rw [List.mem_filter, decide_eq_true_iff]
    by_cases hroot : m.isInput = true
    · simp only [prune, hroot, if_true, Option.mem_def, Option.filter_eq_some_iff] at hname
      exact ⟨h.1 name hname.1, by simpa using hname.2⟩
    · rw [prune_input (Bool.eq_false_iff.mpr hroot)] at hname
      exact ⟨h.1 name hname, happlied (Bool.eq_false_iff.mpr hroot) name hname⟩
  · simp only [prune, Option.mem_def, Option.filter_eq_some_iff] at hname
    rw [List.mem_filter]
    exact ⟨h.2 name hname.1, hname.2⟩

end Module

/-- What is kept of a list of modules is part of it: all modules but the deleted ones. -/
theorem exists_partOf_pruneAll (deleted : List String) (modules : List Module) :
    ∃ f, PartOf (Module.pruneAll deleted modules) modules f ∧
      (∀ i, (modules.get (f i)).name ∉ deleted) ∧
      ∀ m ∈ modules, m.name ∉ deleted → ∃ i, modules.get (f i) = m := by
  obtain ⟨g, hg⟩ := List.sublist_iff_exists_fin_orderEmbedding_get_eq.mp
    (List.filter_sublist : (modules.filter (·.name ∉ deleted)).Sublist modules)
  have hlength : (Module.pruneAll deleted modules).length
      = (modules.filter (·.name ∉ deleted)).length := List.length_map _
  have hget : ∀ i, (Module.pruneAll deleted modules).get i
      = (modules.get (g (i.cast hlength))).prune deleted := by
    intro i
    rw [← hg]
    exact List.getElem_map _
  have hkept : ∀ i, (modules.get (g i)).name ∉ deleted := by
    intro i
    rw [← hg]
    simpa using (List.mem_filter.mp (List.get_mem _ i)).2
  refine ⟨fun i => g (i.cast hlength), ⟨fun i j hij => g.strictMono hij, fun i => ?_, fun i => ?_,
    fun i => ?_, fun i hroot => ?_, fun i j => ?_⟩, fun i => hkept _, fun m hm hname => ?_⟩
  · rw [hget, Module.prune]
  · rw [hget, Module.prune]
  · rw [hget, Module.prune]
  · rw [hget] at hroot ⊢
    exact Module.prune_input hroot
  · rw [hget, hget]
    exact Module.prune_feeds_iff (hkept _) (hkept _)
  · have hmem : m ∈ modules.filter (·.name ∉ deleted) :=
      List.mem_filter.mpr ⟨hm, by simpa using hname⟩
    obtain ⟨k, hk⟩ := List.get_of_mem hmem
    refine ⟨k.cast hlength.symm, ?_⟩
    rw [← hk, hg]
    rfl

/-- **What is kept can be wired**: the module where data enters is kept, and no module that is
kept is applied to a deleted one. -/
theorem Wiring.Resolves.exists_wiring_pruneAll {modules : List Module}
    {w : Wiring modules.length} (h : w.Resolves) {deleted : List String}
    (hroot : (modules.get w.root).name ∉ deleted)
    (happlied : ∀ m ∈ modules, m.name ∉ deleted → m.isInput = false →
      ∀ name ∈ m.input, name ∉ deleted) :
    ∃ v, Wiring.ofModules (Module.pruneAll deleted modules) = .ok v := by
  have hnames : (Module.pruneAll deleted modules).map (·.name)
      = (modules.map (·.name)).filter (· ∉ deleted) := by
    rw [Module.pruneAll, List.map_map, List.filter_map]
    rfl
  have hcount : (Module.pruneAll deleted modules).countP (·.isInput) = 1 := by
    rw [← h.countP_isInput, Module.pruneAll, List.countP_map, List.countP_filter]
    refine List.countP_congr fun m hm => ?_
    obtain ⟨i, rfl⟩ := List.get_of_mem hm
    rw [Bool.and_eq_true, Function.comp_apply, Module.prune_isInput, decide_eq_true_iff,
      and_iff_left_iff_imp, h.isInput_iff]
    rintro rfl
    exact hroot
  -- No name twice, one input, nothing dangling: the three things that wiring can object to.
  rw [exists_ofModules_iff, hnames]
  refine ⟨h.nodup.filter _, hcount, fun _ hpruned => ?_⟩
  obtain ⟨m, hmem, rfl⟩ := List.mem_map.mp hpruned
  obtain ⟨hm, hkept⟩ := List.mem_filter.mp hmem
  exact Module.prune_refersTo (h.refersTo m hm) (happlied m hm (by simpa using hkept))

/-! ## 3. Orders without a trace -/

namespace Network

variable {c : Network} {o : Order}

/-- The script of a model is made of the ends of the network and the statements of the modules in
the order. -/
theorem modelScript_congr {c₁ c₂ : Network} {o₁ o₂ : Order} (hinput : c₁.input = c₂.input)
    (houtput : c₁.output = c₂.output) (d : Dialect) (config : Config)
    (hlayers : Module.statements d o₁.modules = Module.statements d o₂.modules) :
    c₁.modelScript d config o₁ = c₂.modelScript d config o₂ := by
  simp only [modelScript, hlayers, statement, hinput, houtput]

/-- A name is left out of an order when it is that of a module that cannot be written. -/
theorem name_mem_dropped_iff {w : Wiring c.modules.length} (hw : w.Resolves) {policy : Policy}
    (ho : w.order c.modules policy = .ok o) (i : Fin c.modules.length) :
    (c.modules.get i).name ∈ o.dropped ↔ i ∉ w.supported := by
  have horder : IsOrder c.modules w.members policy o := by
    simpa only [ho] using hw.order_spec policy
  rw [horder.dropped, mem_namesOf_iff]
  constructor
  · rintro ⟨m, hm, hout, hname⟩ hi
    obtain ⟨j, rfl⟩ := List.get_of_mem hm
    rw [get_injective_of_nodup hw.nodup hname] at hout
    exact hout ((hw.get_mem_members_iff i).mpr hi)
  · intro hi
    exact ⟨_, List.get_mem _ _, fun hin => hi ((hw.get_mem_members_iff i).mp hin), rfl⟩

/-- A module that is written and applied to a layer has that layer written. -/
theorem applied_not_mem_dropped {w : Wiring c.modules.length} (hw : w.Resolves) {policy : Policy}
    (ho : w.order c.modules policy = .ok o) :
    ∀ m ∈ c.modules, m.name ∉ o.dropped → m.isInput = false →
      ∀ name ∈ m.input, name ∉ o.dropped := by
  intro m hm hkept hroot name hname
  obtain ⟨i, rfl⟩ := List.get_of_mem hm
  rw [name_mem_dropped_iff hw ho, not_not, ← hw.get_mem_members_iff] at hkept
  obtain ⟨p, hp, rfl⟩ := hw.isGreatest_members.1.applied _ hkept hroot name hname
  obtain ⟨k, hk, rfl⟩ := hp
  rwa [name_mem_dropped_iff hw ho, not_not]

/-- What is left when the modules that an order leaves out are deleted can be wired. -/
theorem exists_wiring_prune {w : Wiring c.modules.length} (hw : w.Resolves) {policy : Policy}
    (ho : w.order c.modules policy = .ok o) :
    ∃ v, Wiring.ofModules (Module.pruneAll o.dropped c.modules) = .ok v := by
  refine hw.exists_wiring_pruneAll ?_ (applied_not_mem_dropped hw ho)
  rw [name_mem_dropped_iff hw ho, not_not]
  exact w.isGreatest_supported.1.root_mem

/-- **Deleting what is left out changes nothing**: the same layers come out in the same order,
nothing more is left out, so no policy objects, and the script is the same. -/
theorem exists_resolve_prune (h : c.resolve .drop = .ok o) :
    ∃ o', (∀ policy, (c.prune o.dropped).resolve policy = .ok o') ∧ o'.names = o.names ∧
      o'.dropped = [] ∧ ∀ d config,
        (c.prune o.dropped).modelScript d config o' = c.modelScript d config o := by
  obtain ⟨w, hw, -, horder, -⟩ := resolve_eq_ok_iff.mp h
  have hresolves := Wiring.resolves_of_ofModules hw
  have hmem := name_mem_dropped_iff hresolves horder
  obtain ⟨v, hv⟩ := exists_wiring_prune hresolves horder
  have hresolves' := Wiring.resolves_of_ofModules hv
  obtain ⟨f, hpart, hkept, hreached⟩ := exists_partOf_pruneAll o.dropped c.modules
  -- What can be written is what is kept, so in the pruned network everything can be.
  have hcovers : ∀ i ∈ w.supported, ∃ j, f j = i := by
    intro i hi
    have hname : (c.modules.get i).name ∉ o.dropped := by rwa [hmem, not_not]
    obtain ⟨j, hj⟩ := hreached _ (List.get_mem _ i) hname
    exact ⟨j, hresolves.get_inj hj⟩
  have hall : v.unsupported = [] :=
    hpart.unsupported_eq_nil hresolves' hresolves hcovers fun j =>
      not_not.mp ((hmem (f j)).not.mp (hkept j))
  obtain ⟨written, hmodules, hwritten⟩ :=
    hpart.exists_order hresolves' hresolves hcovers horder
  simp only [hall, List.map_nil, implies_true, forall_const] at hwritten
  have hnames : (Order.mk (written.map (Module.pruneAll o.dropped c.modules).get) []).names
      = o.names := by
    rw [Order.names, hpart.map_name, ← hmodules]
    rfl
  refine ⟨_, fun policy => ?_, hnames, rfl, fun d config => ?_⟩
  · -- Both ends are written, hence kept.
    have hdeclared : ∀ name ∈ o.names, (c.prune o.dropped).declares name = true := by
      intro name hname
      rw [← hnames] at hname
      obtain ⟨m, hm, hname⟩ := List.mem_map.mp hname
      obtain ⟨i, -, rfl⟩ := List.mem_map.mp hm
      exact (declares_iff name).mpr ⟨_, List.get_mem _ i, hname⟩
    have hends := resolved h
    refine resolve_eq_ok_iff.mpr ⟨v, hv, unknownEndpoint_eq_none_iff.mpr ⟨?_, ?_⟩,
      hwritten policy, droppedEndpoints_eq_nil_iff.mpr ⟨List.not_mem_nil, List.not_mem_nil⟩⟩
    · exact hdeclared c.input (List.mem_map.mpr hends.input_mem)
    · exact hdeclared c.output (List.mem_map.mpr hends.output_mem)
  · refine modelScript_congr rfl rfl d config ?_
    rw [hpart.statements_map, ← hmodules]

/-- Whether a network declares what another does, in the same order, and layers besides. -/
structure Extends (more c : Network) : Prop where
  input : more.input = c.input
  output : more.output = c.output
  modules : c.modules.Sublist more.modules

/-- **Declaring layers that are left out changes nothing.** -/
theorem Extends.modules_eq {more : Network} {o' : Order} (hmore : more.Extends c)
    (h : c.resolve .drop = .ok o) (h' : more.resolve .drop = .ok o')
    (hout : ∀ m ∈ more.modules, m ∉ c.modules → m.name ∈ o'.dropped) :
    o'.modules = o.modules := by
  obtain ⟨v, hv, -, horder, -⟩ := resolve_eq_ok_iff.mp h
  obtain ⟨w, hw, -, horder', -⟩ := resolve_eq_ok_iff.mp h'
  have hresolves := Wiring.resolves_of_ofModules hv
  have hresolves' := Wiring.resolves_of_ofModules hw
  obtain ⟨f, hpart, hsame⟩ := exists_partOf_of_sublist hmore.modules
  -- A layer that was declared besides is left out, so what is written was there before.
  have hcovers : ∀ i ∈ w.supported, ∃ j, f j = i := by
    intro i hi
    have hdeclared : more.modules.get i ∈ c.modules := by
      by_contra hnot
      have hdropped := hout _ (List.get_mem _ i) hnot
      rw [name_mem_dropped_iff hresolves' horder'] at hdropped
      exact hdropped hi
    obtain ⟨j, hj⟩ := List.get_of_mem hdeclared
    exact ⟨j, hresolves'.get_inj ((hsame j).trans hj)⟩
  obtain ⟨written, hmodules, hwritten⟩ :=
    hpart.exists_order hresolves hresolves' hcovers horder'
  have ho := hwritten .drop nofun
  rw [horder] at ho
  cases ho
  rw [hmodules, List.map_map]
  exact List.map_congr_left fun j _ => hsame j

end Network

/-- **Pruning law.** Deleting the layers that an order leaves out, and the wires to them, leaves
a network that every policy resolves, the strictest included, to the same sequence of layers with
nothing left out, and whose model script is the same in every dialect, or cannot be written for
the same reason. Nor does it move or change a statement when layers are declared besides, anywhere
in the list, and end up left out. -/
theorem left_out_layers_leave_no_trace {c : Network} {o : Order} (h : c.resolve .drop = .ok o) :
    (∃ o', (∀ policy, (c.prune o.dropped).resolve policy = .ok o') ∧ o'.names = o.names ∧
      o'.dropped = [] ∧ ∀ d config,
        (c.prune o.dropped).modelScript d config o' = c.modelScript d config o) ∧
    ∀ (more : Network) (o' : Order), more.Extends c → more.resolve .drop = .ok o' →
      (∀ m ∈ more.modules, m ∉ c.modules → m.name ∈ o'.dropped) →
      o'.names = o.names ∧ ∀ d config,
        more.modelScript d config o' = c.modelScript d config o := by
  refine ⟨Network.exists_resolve_prune h, fun more o' hmore h' hout => ?_⟩
  have hmodules := hmore.modules_eq h h' hout
  refine ⟨by rw [Order.names, Order.names, hmodules], fun d config => ?_⟩
  exact Network.modelScript_congr hmore.input hmore.output d config (by rw [hmodules])

/-- A network with an island: `near` is applied to `far`, which data never reaches. There are
wires to the island, from where data enters too, and one back. -/
def island : Network where
  input := "x"
  output := "y"
  modules := [
    ⟨.layer, "far", none, some "near", .supported .dense []⟩,
    ⟨.layer, "x", some "far", some "near", .supported .input []⟩,
    ⟨.layer, "near", some "far", none, .supported .dense []⟩,
    ⟨.layer, "y", some "x", some "near", .supported .flatten []⟩]

/-- The same network with one more layer on the island. -/
def widerIsland : Network :=
  { island with
    modules := ⟨.math, "rock", some "near", some "y", .supported .dense []⟩ :: island.modules }

/-- The order of the layers that are not on the island, when these are left out. -/
def islandOrder (dropped : List String) : Order where
  modules := [
    ⟨.layer, "x", some "far", some "near", .supported .input []⟩,
    ⟨.layer, "y", some "x", some "near", .supported .flatten []⟩]
  dropped := dropped

theorem left_out_layers_leave_no_trace_island :
    island.resolve .drop = .ok (islandOrder ["far", "near"]) ∧
    island.prune ["far", "near"] = ⟨"x", "y", [
      ⟨.layer, "x", none, none, .supported .input []⟩,
      ⟨.layer, "y", some "x", none, .supported .flatten []⟩]⟩ ∧
    (∃ o', (island.prune ["far", "near"]).resolve .error = .ok o' ∧ o'.names = ["x", "y"]) ∧
    widerIsland.resolve .drop = .ok (islandOrder ["rock", "far", "near"]) ∧
    ∀ d config,
      widerIsland.modelScript d config (islandOrder ["rock", "far", "near"])
        = island.modelScript d config (islandOrder ["far", "near"]) := by
  have hisland : island.resolve .drop = .ok (islandOrder ["far", "near"]) := by decide +kernel
  have hwider : widerIsland.resolve .drop = .ok (islandOrder ["rock", "far", "near"]) := by
    decide +kernel
  obtain ⟨⟨o', hpruned, hnames, -⟩, hbesides⟩ := left_out_layers_leave_no_trace hisland
  have hextends : widerIsland.Extends island := ⟨rfl, rfl, List.sublist_cons_self _ _⟩
  refine ⟨hisland, by decide +kernel, ⟨o', hpruned .error, hnames⟩, hwider, ?_⟩
  refine (hbesides widerIsland _ hextends hwider fun m hm hnew => ?_).2
  rcases List.mem_cons.mp hm with rfl | hold
  · exact List.mem_cons_self
  · exact absurd hold hnew

end LayerScript
