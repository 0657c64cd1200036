/-
`Proofs/Graph/Wiring.lean` -- what resolving names promises.

`Wiring.ofModules` turns declarations into positions. Everything after it works on
positions, and everything said about a network is said about declarations; this
file is the step between the two. `Wiring.Resolves` collects what a wiring says
about the list it was made from: names are distinct, so a name is a position; there
is one module where data enters, and it is the root; and an edge between positions
is a wire that one of the two modules declares.
-/
import LayerScript.Graph.Wiring
import Mathlib.Data.List.Nodup

set_option autoImplicit false

namespace LayerScript

/-! ## 1. Names -/

/-- No name is repeated exactly when all are distinct, and none of them was seen before. -/
theorem firstRepeated_eq_none_iff (seen names : List String) :
    firstRepeated seen names = none ↔ names.Nodup ∧ ∀ name ∈ names, name ∉ seen := by
  induction names generalizing seen with
  | nil => simp [firstRepeated]
  | cons name rest ih =>
      rw [firstRepeated]
      by_cases hseen : name ∈ seen
      · simp [hseen]
      · rw [if_neg hseen, ih, List.nodup_cons, List.forall_mem_cons]
        constructor
        · rintro ⟨hrest, hnew⟩
          refine ⟨⟨fun hmem => hnew name hmem List.mem_cons_self, hrest⟩, hseen, ?_⟩
          exact fun other hother hin => hnew other hother (List.mem_cons_of_mem _ hin)
        · rintro ⟨⟨hname, hrest⟩, -, hnew⟩
          refine ⟨hrest, fun other hother hin => ?_⟩
          rcases List.mem_cons.mp hin with rfl | hin
          · exact hname hother
          · exact hnew other hother hin

/-- Names are distinct when positions with the same name are the same. -/
theorem get_injective_of_nodup {modules : List Module}
    (hnodup : (modules.map (·.name)).Nodup) {i j : Fin modules.length}
    (h : (modules.get i).name = (modules.get j).name) : i = j := by
  have hsame : modules.get i = modules.get j :=
    List.inj_on_of_nodup_map hnodup (List.get_mem _ _) (List.get_mem _ _) h
  exact hnodup.of_map.get_inj_iff.mp hsame

/-- The position found for a name is the one of the module that has it. -/
theorem position?_eq_some_iff {modules : List Module} (hnodup : (modules.map (·.name)).Nodup)
    (name : String) (i : Fin modules.length) :
    position? modules name = some i ↔ (modules.get i).name = name := by
  rw [position?, List.findFinIdx?_eq_some_iff]
  constructor
  · rintro ⟨hname, -⟩
    simpa using hname
  · intro hname
    refine ⟨by simpa using hname, fun j hj hsame => ?_⟩
    have heq : (modules.get j).name = (modules.get i).name := by
      rw [hname]
      simpa using hsame
    exact absurd (get_injective_of_nodup hnodup heq) (Fin.ne_of_lt hj)

/-! ## 2. References -/

/-- Whether a module names only layers from a list. -/
def Module.RefersTo (names : List String) (m : Module) : Prop :=
  (∀ name ∈ m.input, name ∈ names) ∧ ∀ name ∈ m.output, name ∈ names

/-- Only a name outside the list is reported. -/
theorem danglingReference_eq_none_iff (names : List String) (m : Module) :
    danglingReference names m = none ↔ m.RefersTo names := by
  unfold danglingReference Module.RefersTo
  cases m.input <;> cases m.output <;> simp [Option.filter] <;> grind

/-! ## 3. Wirings -/

/-- What a wiring says about the modules it was made from. -/
structure Wiring.Resolves {modules : List Module} (w : Wiring modules.length) : Prop where
  /-- No two modules have the same name. -/
  nodup : (modules.map (·.name)).Nodup
  /-- Data enters at the root and nowhere else. -/
  isInput_iff : ∀ i, (modules.get i).isInput = true ↔ i = w.root
  /-- A module is applied to the one that its input names. -/
  producer_eq_some_iff : ∀ i j,
    w.producer j = some i ↔ (modules.get j).input = some (modules.get i).name
  /-- A module feeds the one that its output names. -/
  consumer_eq_some_iff : ∀ i j,
    w.consumer i = some j ↔ (modules.get i).output = some (modules.get j).name
  /-- Every name that a module refers to is that of a module. -/
  refersTo : ∀ m ∈ modules, m.RefersTo (modules.map (·.name))

/-- The reference of a module leads to the position of the module it names. -/
theorem bind_position?_eq_some_iff {modules : List Module}
    (hnodup : (modules.map (·.name)).Nodup) (reference : Option String)
    (i : Fin modules.length) :
    reference.bind (position? modules) = some i ↔ reference = some (modules.get i).name := by
  cases reference with
  | none => simp
  | some name =>
      rw [Option.bind_some, position?_eq_some_iff hnodup, Option.some_inj]
      exact eq_comm

/-- **Resolving names makes a wiring that says what was declared.** -/
theorem Wiring.resolves_of_ofModules {modules : List Module} {w : Wiring modules.length}
    (h : Wiring.ofModules modules = .ok w) : w.Resolves := by
  simp only [ofModules] at h
  split at h
  · cases h
  · rename_i hrepeated
    obtain ⟨hnodup, -⟩ := (firstRepeated_eq_none_iff _ _).mp hrepeated
    split at h
    · cases h
    · rename_i root hinputs
      split at h
      · cases h
      · rename_i hdangling
        cases h
        refine ⟨hnodup, fun i => ?_, fun i j => ?_, fun i j => ?_, fun m hm => ?_⟩
        · have hmem : i ∈ inputPositions modules ↔ i = root := by
            rw [hinputs, List.mem_singleton]
          rw [← hmem, inputPositions, List.mem_filter]
          simp
        · simpa [producer] using bind_position?_eq_some_iff hnodup (modules.get j).input i
        · simpa [consumer] using bind_position?_eq_some_iff hnodup (modules.get i).output j
        · have hnone := List.findSome?_eq_none_iff.mp hdangling m hm
          exact (danglingReference_eq_none_iff _ m).mp hnone
    · cases h

end LayerScript
