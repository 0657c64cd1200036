/-
`Proofs/Graph/Declared.lean` -- supported sets, said about declarations.

What a network means does not depend on where its modules stand in the list, so
the notions here are about sets of modules: which module feeds which, which sets
support themselves, which modules a cycle holds up. The last section carries them
over to positions, where the walk and the loop work: for a wiring that resolves the
names of a list, both sides say the same.
-/
import LayerScript.Proofs.Graph.Emission
import LayerScript.Proofs.Graph.Wiring

set_option autoImplicit false

open Relation

namespace LayerScript

/-! ## 1. Wires and sets of modules -/

/-- Whether one of two modules declares a wire from the first to the second. -/
def Module.Feeds (p c : Module) : Prop :=
  c.input = some p.name ∨ p.output = some c.name

/-- Whether a module has a wire to a module where data enters. -/
def Module.FeedsInput (modules : List Module) (m : Module) : Prop :=
  ∃ root ∈ modules, root.isInput = true ∧ m.Feeds root

/-- A wire between two members of a set. -/
def FeedsWithin (T : Set Module) (p c : Module) : Prop :=
  p ∈ T ∧ c ∈ T ∧ p.Feeds c

/-- A set of declared modules that can be written without the others. It holds the module
where data enters, every member is reached from there along wires within the set, and a
member that is applied to a layer has that layer in the set. -/
structure Supported (modules : List Module) (T : Set Module) : Prop where
  declared : ∀ m ∈ T, m ∈ modules
  root_mem : ∀ m ∈ modules, m.isInput = true → m ∈ T
  reached : ∀ m ∈ T, ∃ root ∈ T, root.isInput = true ∧ ReflTransGen (FeedsWithin T) root m
  applied : ∀ m ∈ T, m.isInput = false → ∀ name ∈ m.input, ∃ p ∈ T, p.name = name

open Classical in
/-- The names of the modules with a property, in the order of declaration. -/
noncomputable def namesOf (modules : List Module) (P : Module → Prop) : List String :=
  (modules.filter fun m => decide (P m)).map (·.name)

/-- A name is listed when one of the modules with the property has it. -/
theorem mem_namesOf_iff (modules : List Module) (P : Module → Prop) (name : String) :
    name ∈ namesOf modules P ↔ ∃ m ∈ modules, P m ∧ m.name = name := by
  simp [namesOf, and_assoc]

/-! ## 2. From positions to declarations -/

namespace Wiring.Resolves

variable {modules : List Module} {w : Wiring modules.length}

/-- Modules at different positions are different. -/
theorem get_inj (h : w.Resolves) {i j : Fin modules.length}
    (heq : modules.get i = modules.get j) : i = j :=
  get_injective_of_nodup h.nodup (by rw [heq])

/-- An edge is a wire. -/
theorem edge_iff (h : w.Resolves) (i j : Fin modules.length) :
    w.edge i j = true ↔ (modules.get i).Feeds (modules.get j) := by
  rw [edge, Bool.or_eq_true, beq_iff_eq, beq_iff_eq, h.producer_eq_some_iff,
    h.consumer_eq_some_iff, Module.Feeds]

/-- An edge to the root is a wire to where data enters. -/
theorem edge_root_iff (h : w.Resolves) (i : Fin modules.length) :
    w.edge i w.root = true ↔ (modules.get i).FeedsInput modules := by
  constructor
  · intro hedge
    refine ⟨modules.get w.root, List.get_mem _ _, (h.isInput_iff _).mpr rfl, ?_⟩
    exact (h.edge_iff _ _).mp hedge
  · rintro ⟨root, hmem, hroot, hfeeds⟩
    obtain ⟨j, rfl⟩ := List.get_of_mem hmem
    rw [(h.isInput_iff j).mp hroot] at hfeeds
    exact (h.edge_iff _ _).mpr hfeeds

/-- A path of wires within declared modules is a path of edges between their positions. -/
theorem transGen_iff (h : w.Resolves) {T : Set Module} (hT : ∀ m ∈ T, m ∈ modules)
    (i j : Fin modules.length) :
    TransGen (w.Inside {x | modules.get x ∈ T}) i j ↔
      TransGen (FeedsWithin T) (modules.get i) (modules.get j) := by
  have hstep : ∀ x y, w.Inside {x | modules.get x ∈ T} x y ↔
      FeedsWithin T (modules.get x) (modules.get y) := by
    intro x y
    rw [Inside, FeedsWithin, h.edge_iff]
    rfl
  constructor
  · exact fun hpath => TransGen.lift modules.get (fun x y hxy => (hstep x y).mp hxy) _ _ hpath
  · intro hpath
    -- Every module on the path is a member, hence declared, hence at a position.
    generalize hj : modules.get j = m at hpath
    induction hpath generalizing j with
    | single hedge =>
        subst hj
        exact .single ((hstep i j).mpr hedge)
    | @tail b c _ hedge ih =>
        subst hj
        obtain ⟨k, rfl⟩ := List.get_of_mem (hT b hedge.1)
        exact (ih k rfl).tail ((hstep k j).mpr hedge)

/-- The same for paths that may be empty. -/
theorem reflTransGen_iff (h : w.Resolves) {T : Set Module} (hT : ∀ m ∈ T, m ∈ modules)
    (i j : Fin modules.length) :
    ReflTransGen (w.Inside {x | modules.get x ∈ T}) i j ↔
      ReflTransGen (FeedsWithin T) (modules.get i) (modules.get j) := by
  rw [reflTransGen_iff_eq_or_transGen, reflTransGen_iff_eq_or_transGen, h.transGen_iff hT]
  exact or_congr_left ⟨congrArg _, h.get_inj⟩

/-- A module on a cycle of wires, or behind one, stands at a position that is. -/
theorem heldUp_iff (h : w.Resolves) {T : Set Module} (hT : ∀ m ∈ T, m ∈ modules)
    (i : Fin modules.length) :
    HeldUp (w.Inside {x | modules.get x ∈ T}) i ↔ HeldUp (FeedsWithin T) (modules.get i) := by
  constructor
  · rintro ⟨c, hcycle, hpath⟩
    exact ⟨modules.get c, (h.transGen_iff hT c c).mp hcycle, (h.reflTransGen_iff hT c i).mp hpath⟩
  · rintro ⟨c, hcycle, hpath⟩
    obtain ⟨b, hcb, -⟩ := TransGen.head'_iff.mp hcycle
    obtain ⟨k, rfl⟩ := List.get_of_mem (hT c hcb.1)
    exact ⟨k, (h.transGen_iff hT k k).mpr hcycle, (h.reflTransGen_iff hT k i).mpr hpath⟩

/-- A set of declared modules supports itself when the set of their positions does. -/
theorem supported_iff (h : w.Resolves) {T : Set Module} (hT : ∀ m ∈ T, m ∈ modules) :
    Supported modules T ↔ w.IsSupported {x | modules.get x ∈ T} := by
  constructor
  · intro hsup
    refine ⟨?_, fun v hv => ?_, fun v hv hne p hp => ?_⟩
    · exact hsup.root_mem _ (List.get_mem _ _) ((h.isInput_iff _).mpr rfl)
    · obtain ⟨root, hroot, hinput, hpath⟩ := hsup.reached _ hv
      obtain ⟨k, rfl⟩ := List.get_of_mem (hT root hroot)
      rw [(h.isInput_iff k).mp hinput] at hpath
      exact (h.reflTransGen_iff hT _ _).mpr hpath
    · have hinput : (modules.get v).isInput = false := by
        rw [Bool.eq_false_iff]
        exact fun heq => hne ((h.isInput_iff v).mp heq)
      have hname := (h.producer_eq_some_iff p v).mp hp
      obtain ⟨q, hq, hsame⟩ := hsup.applied _ hv hinput _ hname
      obtain ⟨k, rfl⟩ := List.get_of_mem (hT q hq)
      rw [get_injective_of_nodup h.nodup hsame] at hq
      exact hq
  · intro hsup
    refine ⟨hT, fun m hm hinput => ?_, fun m hm => ?_, fun m hm hinput name hname => ?_⟩
    · obtain ⟨i, rfl⟩ := List.get_of_mem hm
      rw [(h.isInput_iff i).mp hinput]
      exact hsup.root_mem
    · obtain ⟨i, rfl⟩ := List.get_of_mem (hT m hm)
      refine ⟨modules.get w.root, hsup.root_mem, (h.isInput_iff _).mpr rfl, ?_⟩
      exact (h.reflTransGen_iff hT _ _).mp (hsup.reached i hm)
    · obtain ⟨i, rfl⟩ := List.get_of_mem (hT m hm)
      have hne : i ≠ w.root := by
        rintro rfl
        rw [(h.isInput_iff _).mpr rfl] at hinput
        cases hinput
      have hknown := (h.refersTo _ (List.get_mem _ i)).1 name hname
      obtain ⟨p, hp, rfl⟩ := List.mem_map.mp hknown
      obtain ⟨k, rfl⟩ := List.get_of_mem hp
      exact ⟨modules.get k, hsup.applied i hm hne k ((h.producer_eq_some_iff k i).mpr hname), rfl⟩

end Wiring.Resolves

/-! ## 3. The largest supported set -/

/-- The modules that can be written. -/
def Wiring.members {modules : List Module} (w : Wiring modules.length) : Set Module :=
  {m | ∃ i ∈ w.supported, modules.get i = m}

namespace Wiring.Resolves

variable {modules : List Module} {w : Wiring modules.length}

/-- The modules that can be written are declared. -/
theorem mem_of_mem_members {m : Module} (hm : m ∈ w.members) : m ∈ modules := by
  obtain ⟨i, -, rfl⟩ := hm
  exact List.get_mem _ _

/-- A module can be written when its position is among those that can. -/
theorem get_mem_members_iff (h : w.Resolves) (i : Fin modules.length) :
    modules.get i ∈ w.members ↔ i ∈ w.supported := by
  constructor
  · rintro ⟨j, hj, heq⟩
    rw [← h.get_inj heq]
    exact hj
  · exact fun hi => ⟨i, hi, rfl⟩

/-- **The modules that can be written are the largest supported set.** -/
theorem isGreatest_members (h : w.Resolves) :
    IsGreatest {T | Supported modules T} w.members := by
  have hset : {x | modules.get x ∈ w.members} = {x | x ∈ w.supported} :=
    Set.ext fun i => h.get_mem_members_iff i
  constructor
  · refine (h.supported_iff fun m hm => mem_of_mem_members hm).mpr ?_
    rw [hset]
    exact w.isGreatest_supported.1
  · intro T hT m hm
    obtain ⟨i, rfl⟩ := List.get_of_mem (hT.declared m hm)
    have hpositions := (h.supported_iff hT.declared).mp hT
    exact (h.get_mem_members_iff i).mpr (w.isGreatest_supported.2 hpositions hm)

end Wiring.Resolves

end LayerScript
