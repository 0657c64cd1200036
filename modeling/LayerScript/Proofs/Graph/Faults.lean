/-
`Proofs/Graph/Faults.lean` -- which networks are wired, what is reported about the others, and
which edges the wired ones have.

There are three kinds of fault, and they are looked for one after another: all names before
the first count of the input layers, that count before the first reference. Within a kind the
first declaration counts. `IsWiringFault` says for each report what it takes, with the split of
the declarations at the one that is to blame, so that "first" is part of it; nothing in it
mentions how names are looked up.

Where there is no fault, an edge may still have been declared twice, once by either end. The
edges are a relation, and the lists of successors are this relation in ascending order, so the
second declaration changes nothing.
-/
import LayerScript.Proofs.Graph.Declared
import Mathlib.Data.List.Sort
import Mathlib.Data.List.Dedup

set_option autoImplicit false

namespace LayerScript

/-! ## 1. The first repeated name -/

/-- The first repeated name stands behind distinct names of which it is one, unless it was seen
before. -/
theorem firstRepeated_eq_some_iff (seen names : List String) (name : String) :
    firstRepeated seen names = some name ↔
      ∃ before after, names = before ++ name :: after ∧ before.Nodup ∧
        (∀ other ∈ before, other ∉ seen) ∧ (name ∈ before ∨ name ∈ seen) := by
  induction names generalizing seen with
  | nil => simp [firstRepeated]
  | cons first rest ih =>
      rw [firstRepeated]
      by_cases hseen : first ∈ seen
      · rw [if_pos hseen, Option.some_inj]
        constructor
        · rintro rfl
          exact ⟨[], rest, rfl, List.nodup_nil, by simp, Or.inr hseen⟩
        · rintro ⟨before, after, hsplit, -, hnew, -⟩
          -- A split behind the first name would have it among the new ones.
          rcases List.cons_eq_append_iff.mp hsplit with ⟨-, hhead⟩ | ⟨front, rfl, -⟩
          · exact (List.cons.inj hhead).1.symm
          · exact absurd hseen (hnew first List.mem_cons_self)
      · rw [if_neg hseen, ih]
        constructor
        · rintro ⟨before, after, rfl, hnodup, hnew, hagain⟩
          refine ⟨first :: before, after, rfl, ?_, ?_, ?_⟩
          · refine List.nodup_cons.mpr ⟨fun hmem => ?_, hnodup⟩
            exact hnew first hmem List.mem_cons_self
          · intro other hother hin
            rcases List.mem_cons.mp hother with rfl | hmem
            · exact hseen hin
            · exact hnew other hmem (List.mem_cons_of_mem _ hin)
          · simp only [List.mem_cons] at hagain ⊢
            tauto
        · rintro ⟨before, after, hsplit, hnodup, hnew, hagain⟩
          rcases List.cons_eq_append_iff.mp hsplit with ⟨rfl, hhead⟩ | ⟨front, rfl, rfl⟩
          · rw [(List.cons.inj hhead).1] at hagain
            simp [hseen] at hagain
          · obtain ⟨hfirst, hnodup⟩ := List.nodup_cons.mp hnodup
            refine ⟨front, after, rfl, hnodup, ?_, ?_⟩
            · intro other hother hin
              rcases List.mem_cons.mp hin with rfl | hin
              · exact hfirst hother
              · exact hnew other (List.mem_cons_of_mem _ hother) hin
            · simp only [List.mem_cons] at hagain ⊢
              tauto

/-! ## 2. Reports -/

/-- What is reported about a list of modules that cannot be wired. -/
inductive IsWiringFault (modules : List Module) : GraphError → Prop
  /-- All names before this one are distinct, and it is one of them. -/
  | duplicateName {before after : List Module} {m : Module}
      (split : modules = before ++ m :: after)
      (distinct : (before.map (·.name)).Nodup)
      (again : m.name ∈ before.map (·.name)) :
      IsWiringFault modules (.duplicateName m.name)
  | missingInput
      (distinct : (modules.map (·.name)).Nodup)
      (unfed : modules.countP (·.isInput) = 0) :
      IsWiringFault modules .missingInput
  | multipleInputs
      (distinct : (modules.map (·.name)).Nodup)
      (several : 1 < modules.countP (·.isInput)) :
      IsWiringFault modules (.multipleInputs ((modules.filter (·.isInput)).map (·.name)))
  /-- All modules before this one name only declared layers, and its input names none. -/
  | danglingInput {before after : List Module} {m : Module} {input : String}
      (distinct : (modules.map (·.name)).Nodup)
      (single : modules.countP (·.isInput) = 1)
      (split : modules = before ++ m :: after)
      (known : ∀ other ∈ before, other.RefersTo (modules.map (·.name)))
      (reads : m.input = some input)
      (unknown : input ∉ modules.map (·.name)) :
      IsWiringFault modules (.danglingInput m.name input)
  /-- The same for its output, when there is nothing wrong with its input. -/
  | danglingOutput {before after : List Module} {m : Module} {output : String}
      (distinct : (modules.map (·.name)).Nodup)
      (single : modules.countP (·.isInput) = 1)
      (split : modules = before ++ m :: after)
      (known : ∀ other ∈ before, other.RefersTo (modules.map (·.name)))
      (reads : ∀ name ∈ m.input, name ∈ modules.map (·.name))
      (feeds : m.output = some output)
      (unknown : output ∉ modules.map (·.name)) :
      IsWiringFault modules (.danglingOutput m.name output)

/-- The input of a module is reported before its output. -/
theorem danglingReference_eq_some_iff (names : List String) (m : Module) (fault : GraphError) :
    danglingReference names m = some fault ↔
      (∃ input, m.input = some input ∧ input ∉ names ∧ fault = .danglingInput m.name input) ∨
      ((∀ name ∈ m.input, name ∈ names) ∧
        ∃ output, m.output = some output ∧ output ∉ names ∧
          fault = .danglingOutput m.name output) := by
  unfold danglingReference
  cases m.input <;> cases m.output <;> simp [Option.filter] <;> grind

/-- The modules at the positions where data enters are those where it does. -/
theorem map_get_inputPositions (modules : List Module) :
    (inputPositions modules).map modules.get = modules.filter (·.isInput) := by
  conv_rhs => rw [← List.map_get_finRange modules, List.filter_map]
  rfl

/-- As many positions as modules are such that data enters there. -/
theorem length_inputPositions (modules : List Module) :
    (inputPositions modules).length = modules.countP (·.isInput) := by
  rw [List.countP_eq_length_filter, ← map_get_inputPositions, List.length_map]

/-- Where names are resolved, data enters at one module. -/
theorem Wiring.Resolves.countP_isInput {modules : List Module} {w : Wiring modules.length}
    (h : w.Resolves) : modules.countP (·.isInput) = 1 := by
  have hperm : (inputPositions modules).Perm [w.root] := by
    rw [inputPositions,
      List.perm_ext_iff_of_nodup ((List.nodup_finRange _).filter _) (List.nodup_singleton _)]
    intro i
    rw [List.mem_filter, h.isInput_iff, List.mem_singleton]
    simp
  rw [← length_inputPositions, hperm.length_eq, List.length_singleton]

/-- The first dangling reference is that of a module behind modules that have none. -/
theorem findSome?_danglingReference_eq_some_iff (modules : List Module) (names : List String)
    (fault : GraphError) :
    modules.findSome? (danglingReference names) = some fault ↔
      ∃ before m after, modules = before ++ m :: after ∧ (∀ other ∈ before, other.RefersTo names) ∧
        danglingReference names m = some fault := by
  simp only [List.findSome?_eq_some_iff, danglingReference_eq_none_iff]
  tauto

/-- A name is reported for the first module that has the name of one before it. -/
theorem firstRepeated_name_eq_some_iff (modules : List Module) (name : String) :
    firstRepeated [] (modules.map (·.name)) = some name ↔
      ∃ before m after, modules = before ++ m :: after ∧ (before.map (·.name)).Nodup ∧
        m.name ∈ before.map (·.name) ∧ name = m.name := by
  rw [firstRepeated_eq_some_iff]
  constructor
  · rintro ⟨names, rest, hsplit, hnodup, -, hagain⟩
    obtain ⟨before, tail, rfl, rfl, htail⟩ := List.map_eq_append_iff.mp hsplit
    obtain ⟨m, after, rfl, rfl, -⟩ := List.map_eq_cons_iff.mp htail
    exact ⟨before, m, after, rfl, hnodup, hagain.resolve_right List.not_mem_nil, rfl⟩
  · rintro ⟨before, m, after, rfl, hnodup, hagain, rfl⟩
    refine ⟨before.map (·.name), after.map (·.name), by simp, hnodup, by simp, Or.inl hagain⟩

/-! ## 3. Wiring, case by case -/

section

variable {modules : List Module} {name : String} {fault : GraphError}

theorem ofModules_of_repeated (h : firstRepeated [] (modules.map (·.name)) = some name) :
    Wiring.ofModules modules = .error (.duplicateName name) := by
  simp only [Wiring.ofModules, h]

theorem firstRepeated_of_nodup (h : (modules.map (·.name)).Nodup) :
    firstRepeated [] (modules.map (·.name)) = none :=
  (firstRepeated_eq_none_iff _ _).mpr ⟨h, by simp⟩

theorem ofModules_of_unfed (hnodup : (modules.map (·.name)).Nodup)
    (h : modules.countP (·.isInput) = 0) : Wiring.ofModules modules = .error .missingInput := by
  have hinputs := List.length_eq_zero_iff.mp ((length_inputPositions modules).trans h)
  simp only [Wiring.ofModules, firstRepeated_of_nodup hnodup, hinputs]

theorem ofModules_of_several (hnodup : (modules.map (·.name)).Nodup)
    (h : 1 < modules.countP (·.isInput)) :
    Wiring.ofModules modules
      = .error (.multipleInputs ((modules.filter (·.isInput)).map (·.name))) := by
  rw [← length_inputPositions] at h
  rw [← map_get_inputPositions, List.map_map]
  simp only [Wiring.ofModules, firstRepeated_of_nodup hnodup]
  split
  · rename_i hinputs
    rw [hinputs] at h
    cases h
  · rename_i root hinputs
    rw [hinputs, List.length_singleton] at h
    omega
  · rfl

theorem ofModules_of_dangling (hnodup : (modules.map (·.name)).Nodup)
    (hsingle : modules.countP (·.isInput) = 1)
    (h : modules.findSome? (danglingReference (modules.map (·.name))) = some fault) :
    Wiring.ofModules modules = .error fault := by
  obtain ⟨root, hinputs⟩ := List.length_eq_one_iff.mp ((length_inputPositions modules).trans hsingle)
  simp only [Wiring.ofModules, firstRepeated_of_nodup hnodup, hinputs, h]

theorem exists_ofModules_of_refersTo (hnodup : (modules.map (·.name)).Nodup)
    (hsingle : modules.countP (·.isInput) = 1)
    (h : ∀ m ∈ modules, m.RefersTo (modules.map (·.name))) :
    ∃ w, Wiring.ofModules modules = .ok w := by
  obtain ⟨root, hinputs⟩ := List.length_eq_one_iff.mp ((length_inputPositions modules).trans hsingle)
  have hnone : modules.findSome? (danglingReference (modules.map (·.name))) = none :=
    List.findSome?_eq_none_iff.mpr fun m hm => (danglingReference_eq_none_iff _ m).mpr (h m hm)
  simp only [Wiring.ofModules, firstRepeated_of_nodup hnodup, hinputs, hnone]
  exact ⟨_, rfl⟩

/-- What is found among the references of distinct modules, one of them for input, is the fault
to be reported. -/
theorem IsWiringFault.of_dangling (hnodup : (modules.map (·.name)).Nodup)
    (hsingle : modules.countP (·.isInput) = 1)
    (h : modules.findSome? (danglingReference (modules.map (·.name))) = some fault) :
    IsWiringFault modules fault := by
  obtain ⟨before, m, after, hsplit, hknown, hm⟩ :=
    (findSome?_danglingReference_eq_some_iff _ _ _).mp h
  rcases (danglingReference_eq_some_iff _ _ _).mp hm with
    ⟨input, hreads, hunknown, rfl⟩ | ⟨hreads, output, hfeeds, hunknown, rfl⟩
  · exact .danglingInput hnodup hsingle hsplit hknown hreads hunknown
  · exact .danglingOutput hnodup hsingle hsplit hknown hreads hfeeds hunknown

/-- A fault that is to be reported is reported. -/
theorem IsWiringFault.ofModules_eq (h : IsWiringFault modules fault) :
    Wiring.ofModules modules = .error fault := by
  cases h with
  | @duplicateName before after m hsplit hnodup hagain =>
      apply ofModules_of_repeated
      exact (firstRepeated_name_eq_some_iff _ _).mpr ⟨before, m, after, hsplit, hnodup, hagain, rfl⟩
  | missingInput hnodup hunfed => exact ofModules_of_unfed hnodup hunfed
  | multipleInputs hnodup hseveral => exact ofModules_of_several hnodup hseveral
  | @danglingInput before after m input hnodup hsingle hsplit hknown hreads hunknown =>
      apply ofModules_of_dangling hnodup hsingle
      refine (findSome?_danglingReference_eq_some_iff _ _ _).mpr
        ⟨before, m, after, hsplit, hknown, ?_⟩
      exact (danglingReference_eq_some_iff _ _ _).mpr (Or.inl ⟨input, hreads, hunknown, rfl⟩)
  | @danglingOutput before after m output hnodup hsingle hsplit hknown hreads hfeeds hunknown =>
      apply ofModules_of_dangling hnodup hsingle
      refine (findSome?_danglingReference_eq_some_iff _ _ _).mpr
        ⟨before, m, after, hsplit, hknown, ?_⟩
      exact (danglingReference_eq_some_iff _ _ _).mpr
        (Or.inr ⟨hreads, output, hfeeds, hunknown, rfl⟩)

end

/-- Modules are wired, or there is a fault to be reported. -/
theorem exists_ofModules_or_isWiringFault (modules : List Module) :
    (∃ w, Wiring.ofModules modules = .ok w) ∨ ∃ fault, IsWiringFault modules fault := by
  by_cases hnodup : (modules.map (·.name)).Nodup
  · rcases Nat.lt_trichotomy (modules.countP (·.isInput)) 1 with hunfed | hsingle | hseveral
    · exact Or.inr ⟨_, .missingInput hnodup (by omega)⟩
    · cases hfound : modules.findSome? (danglingReference (modules.map (·.name))) with
      | none =>
          refine Or.inl (exists_ofModules_of_refersTo hnodup hsingle fun m hm => ?_)
          rw [← danglingReference_eq_none_iff]
          exact List.findSome?_eq_none_iff.mp hfound m hm
      | some fault => exact Or.inr ⟨fault, .of_dangling hnodup hsingle hfound⟩
    · exact Or.inr ⟨_, .multipleInputs hnodup hseveral⟩
  · cases hrepeated : firstRepeated [] (modules.map (·.name)) with
    | none => exact absurd ((firstRepeated_eq_none_iff _ _).mp hrepeated).1 hnodup
    | some name =>
        obtain ⟨before, m, after, hsplit, hdistinct, hagain, -⟩ :=
          (firstRepeated_name_eq_some_iff _ _).mp hrepeated
        exact Or.inr ⟨_, .duplicateName hsplit hdistinct hagain⟩

/-- **Exactly the first fault is reported.** -/
theorem ofModules_eq_error_iff (modules : List Module) (fault : GraphError) :
    Wiring.ofModules modules = .error fault ↔ IsWiringFault modules fault := by
  constructor
  · intro h
    rcases exists_ofModules_or_isWiringFault modules with ⟨w, hw⟩ | ⟨other, hother⟩
    · rw [h] at hw
      cases hw
    · have hsame := hother.ofModules_eq
      rw [h] at hsame
      cases hsame
      exact hother
  · exact IsWiringFault.ofModules_eq

/-- **Modules can be wired** when their names are distinct, data enters at one of them, and they
name only one another. -/
theorem exists_ofModules_iff (modules : List Module) :
    (∃ w, Wiring.ofModules modules = .ok w) ↔
      (modules.map (·.name)).Nodup ∧ modules.countP (·.isInput) = 1 ∧
        ∀ m ∈ modules, m.RefersTo (modules.map (·.name)) := by
  constructor
  · rintro ⟨w, hw⟩
    have hresolves := Wiring.resolves_of_ofModules hw
    exact ⟨hresolves.nodup, hresolves.countP_isInput, hresolves.refersTo⟩
  · rintro ⟨hnodup, hsingle, hrefers⟩
    exact exists_ofModules_of_refersTo hnodup hsingle hrefers

/-- Modules cannot be wired when one of these fails. -/
theorem exists_ofModules_eq_error_iff (modules : List Module) :
    (∃ fault, Wiring.ofModules modules = .error fault) ↔
      ¬ (modules.map (·.name)).Nodup ∨ modules.countP (·.isInput) ≠ 1 ∨
        ∃ m ∈ modules, ¬ m.RefersTo (modules.map (·.name)) := by
  have hor : (∃ fault, Wiring.ofModules modules = .error fault) ↔
      ¬ ∃ w, Wiring.ofModules modules = .ok w := by
    cases Wiring.ofModules modules <;> simp
  rw [hor, exists_ofModules_iff]
  by_cases hnodup : (modules.map (·.name)).Nodup <;> simp only [hnodup, true_and, false_and,
    not_true_eq_false, not_false_eq_true, false_or, true_or]
  rw [not_and_or]
  push Not
  rfl

/-! ## 4. Successors -/

namespace Wiring

variable {n : ℕ}

/-- The successors of a module stand in the order of declaration, each once. -/
theorem pairwise_successors (w : Wiring n) (u : Fin n) : (w.successors u).Pairwise (· < ·) :=
  (List.sortedLT_finRange n).pairwise.sublist List.filter_sublist

theorem mem_successors_iff (w : Wiring n) (u v : Fin n) : v ∈ w.successors u ↔ w.edge u v = true := by
  simp [successors]

/-- The edges of a wiring as they are declared, one declaration after another and the one for its
input before the one for its output. -/
def drawn (w : Wiring n) : List (Fin n × Fin n) :=
  (List.finRange n).flatMap fun v =>
    ((w.producer v).map fun u => (u, v)).toList ++ ((w.consumer v).map fun x => (v, x)).toList

theorem mem_drawn_iff (w : Wiring n) (u v : Fin n) : (u, v) ∈ w.drawn ↔ w.edge u v = true := by
  simp only [drawn, List.mem_flatMap, List.mem_finRange, true_and, List.mem_append,
    Option.mem_toList, Option.map_eq_some_iff, Prod.mk.injEq, edge, Bool.or_eq_true, beq_iff_eq]
  constructor
  · rintro ⟨x, ⟨_, hp, rfl, rfl⟩ | ⟨_, hc, rfl, rfl⟩⟩
    · exact Or.inl hp
    · exact Or.inr hc
  · rintro (hp | hc)
    · exact ⟨v, Or.inl ⟨u, hp, rfl, rfl⟩⟩
    · exact ⟨u, Or.inr ⟨v, hc, rfl, rfl⟩⟩

/-- **The successors of a module are what is drawn from it**, sorted and without repetitions. -/
theorem successors_eq_dedup_mergeSort (w : Wiring n) (u : Fin n) :
    w.successors u
      = (((w.drawn.filter fun e => e.1 == u).map (·.2)).mergeSort (· ≤ ·)).dedup := by
  refine (w.pairwise_successors u).sortedLT.eq_of_mem_iff ?_ fun v => ?_
  · rw [List.sortedLT_iff_nodup_and_sortedLE]
    refine ⟨List.nodup_dedup _, List.Pairwise.sortedLE ?_⟩
    exact List.sortedLE_mergeSort.pairwise.sublist (List.dedup_sublist _)
  · rw [mem_successors_iff, ← mem_drawn_iff, List.mem_dedup, List.mem_mergeSort, List.mem_map]
    simp

/-- Wirings with the same edges have the same successors. -/
theorem successors_cast {m : ℕ} (hlength : n = m) {w : Wiring n} {w' : Wiring m}
    (h : ∀ u v, w'.edge (u.cast hlength) (v.cast hlength) = w.edge u v) (u : Fin n) :
    w'.successors (u.cast hlength) = (w.successors u).map (Fin.cast hlength) := by
  subst hlength
  simp only [Fin.cast_refl, id] at h
  have hcast : (Fin.cast rfl : Fin n → Fin n) = id := rfl
  simp only [successors, hcast, List.map_id, id]
  exact List.filter_congr fun v _ => h u v

end Wiring

/-! ## 5. Edges declared twice -/

section

variable {modules : List Module} {w : Wiring modules.length} {i j : Fin modules.length}
  {m : Module}

/-- What the module in the place of another has in common with it, the lists have in common. -/
theorem map_set_of_eq {α : Type} {f : Module → α} (h : f m = f (modules.get i)) :
    (modules.set i m).map f = modules.map f := by
  rw [List.map_set, h]
  exact List.ext_getElem (by simp) fun k _ _ => by rw [List.getElem_set]; split <;> simp_all

theorem get_set_cast (k : Fin modules.length) :
    (modules.set i m).get (k.cast List.length_set.symm) = if i = k then m else modules.get k := by
  simp [List.getElem_set, Fin.ext_iff]

/-- The same layer with other references to declared layers can take the place of a module. -/
theorem exists_ofModules_set (hw : Wiring.ofModules modules = .ok w)
    (hname : m.name = (modules.get i).name) (hlayer : m.layer = (modules.get i).layer)
    (hrefers : m.RefersTo (modules.map (·.name))) :
    ∃ v, Wiring.ofModules (modules.set i m) = .ok v := by
  obtain ⟨hnodup, hsingle, hknown⟩ := (exists_ofModules_iff modules).mp ⟨w, hw⟩
  rw [exists_ofModules_iff, map_set_of_eq hname]
  refine ⟨hnodup, ?_, fun other hother => ?_⟩
  · have hcount : ∀ l : List Module,
        l.countP (·.isInput) = (l.map (·.layer)).countP (·.isInput) := fun l => by
      rw [List.countP_map]
      rfl
    rw [hcount, map_set_of_eq hlayer, ← hcount, hsingle]
  · rcases List.mem_or_eq_of_mem_set hother with hmem | rfl
    · exact hknown other hmem
    · exact hrefers

/-- **Successors do not change** with a module whose wires lead from and to the same layers. -/
theorem exists_successors_set (hw : Wiring.ofModules modules = .ok w)
    (hname : m.name = (modules.get i).name) (hlayer : m.layer = (modules.get i).layer)
    (hrefers : m.RefersTo (modules.map (·.name)))
    (hfrom : ∀ k, m.Feeds (modules.get k) ↔ (modules.get i).Feeds (modules.get k))
    (hto : ∀ k, (modules.get k).Feeds m ↔ (modules.get k).Feeds (modules.get i))
    (hself : m.Feeds m ↔ (modules.get i).Feeds (modules.get i)) :
    ∃ v, Wiring.ofModules (modules.set i m) = .ok v ∧
      ∀ k : Fin modules.length, v.successors (k.cast List.length_set.symm)
        = (w.successors k).map (Fin.cast List.length_set.symm) := by
  obtain ⟨v, hv⟩ := exists_ofModules_set hw hname hlayer hrefers
  refine ⟨v, hv, Wiring.successors_cast _ fun a b => ?_⟩
  rw [Bool.eq_iff_iff, (Wiring.resolves_of_ofModules hv).edge_iff,
    (Wiring.resolves_of_ofModules hw).edge_iff, get_set_cast, get_set_cast]
  by_cases ha : i = a
  · subst ha
    by_cases hb : i = b
    · subst hb
      simpa using hself
    · simpa [hb] using hfrom b
  · by_cases hb : i = b
    · subst hb
      simpa [ha] using hto a
    · simp [ha, hb]

/-- **An edge that both ends declare may lose either declaration.** -/
theorem exists_successors_of_doubled (hw : Wiring.ofModules modules = .ok w)
    (hinput : (modules.get j).input = some (modules.get i).name)
    (houtput : (modules.get i).output = some (modules.get j).name) :
    (∃ v, Wiring.ofModules (modules.set i { modules.get i with output := none }) = .ok v ∧
      ∀ k : Fin modules.length, v.successors (k.cast List.length_set.symm)
        = (w.successors k).map (Fin.cast List.length_set.symm)) ∧
    ∃ v, Wiring.ofModules (modules.set j { modules.get j with input := none }) = .ok v ∧
      ∀ k : Fin modules.length, v.successors (k.cast List.length_set.symm)
        = (w.successors k).map (Fin.cast List.length_set.symm) := by
  have hresolves := Wiring.resolves_of_ofModules hw
  have hknown : ∀ k, (modules.get k).RefersTo (modules.map (·.name)) :=
    fun k => hresolves.refersTo _ (List.get_mem _ k)
  constructor
  · -- Whatever the output of `i` led to, its input leads from `i`.
    have hlost : ∀ k, (modules.get i).output = some (modules.get k).name →
        (modules.get k).input = some (modules.get i).name := by
      intro k hk
      rw [houtput, Option.some_inj] at hk
      rwa [← get_injective_of_nodup hresolves.nodup hk]
    have hfrom : ∀ k, Module.Feeds { modules.get i with output := none } (modules.get k) ↔
        (modules.get i).Feeds (modules.get k) := by
      intro k
      simp only [Module.Feeds, reduceCtorEq, or_false]
      exact ⟨Or.inl, fun h => h.elim id (hlost k)⟩
    exact exists_successors_set hw rfl rfl ⟨(hknown i).1, by simp⟩ hfrom (fun _ => Iff.rfl) (hfrom i)
  · -- Whatever the input of `j` led from, its output leads to `j`.
    have hlost : ∀ k, (modules.get j).input = some (modules.get k).name →
        (modules.get k).output = some (modules.get j).name := by
      intro k hk
      rw [hinput, Option.some_inj] at hk
      rwa [← get_injective_of_nodup hresolves.nodup hk]
    have hto : ∀ k, (modules.get k).Feeds { modules.get j with input := none } ↔
        (modules.get k).Feeds (modules.get j) := by
      intro k
      simp only [Module.Feeds, reduceCtorEq, false_or]
      exact ⟨Or.inr, fun h => h.elim (hlost k) id⟩
    exact exists_successors_set hw rfl rfl ⟨by simp, (hknown j).2⟩ (fun _ => Iff.rfl) hto (hto j)

end

/-- **Wiring reports the first fault or finds all edges.** What keeps a list of modules from being
wired is a repeated name, the number of its input layers or a dangling reference, and the first
of them is reported. Otherwise the successors of a module are the layers that it has a wire to,
whichever of the two declares it, in ascending order and each once; its producer is the layer
that its input names. -/
theorem wiring_reports_first_fault (modules : List Module) :
    (∀ fault, Wiring.ofModules modules = .error fault ↔ IsWiringFault modules fault) ∧
    ((∃ fault, Wiring.ofModules modules = .error fault) ↔
      ¬ (modules.map (·.name)).Nodup ∨ modules.countP (·.isInput) ≠ 1 ∨
        ∃ m ∈ modules, ¬ m.RefersTo (modules.map (·.name))) ∧
    ∀ w, Wiring.ofModules modules = .ok w →
      (∀ i, (w.successors i).Pairwise (· < ·) ∧
        (∀ j, j ∈ w.successors i ↔
          (modules.get j).input = some (modules.get i).name ∨
            (modules.get i).output = some (modules.get j).name) ∧
        w.successors i
          = (((w.drawn.filter fun e => e.1 == i).map (·.2)).mergeSort (· ≤ ·)).dedup) ∧
      (∀ i p, w.producer i = some p ↔ (modules.get i).input = some (modules.get p).name) ∧
      ∀ i j, (modules.get j).input = some (modules.get i).name →
        (modules.get i).output = some (modules.get j).name →
        (∃ v, Wiring.ofModules (modules.set i { modules.get i with output := none }) = .ok v ∧
          ∀ k : Fin modules.length, v.successors (k.cast List.length_set.symm)
            = (w.successors k).map (Fin.cast List.length_set.symm)) ∧
        ∃ v, Wiring.ofModules (modules.set j { modules.get j with input := none }) = .ok v ∧
          ∀ k : Fin modules.length, v.successors (k.cast List.length_set.symm)
            = (w.successors k).map (Fin.cast List.length_set.symm) := by
  refine ⟨ofModules_eq_error_iff modules, exists_ofModules_eq_error_iff modules,
    fun w hw => ⟨fun i => ?_, fun i p => ?_, fun i j => exists_successors_of_doubled hw⟩⟩
  · refine ⟨w.pairwise_successors i, fun j => ?_, w.successors_eq_dedup_mergeSort i⟩
    rw [Wiring.mem_successors_iff, (Wiring.resolves_of_ofModules hw).edge_iff, Module.Feeds]
  · exact (Wiring.resolves_of_ofModules hw).producer_eq_some_iff p i

/-- Two edges that both ends declare, one of them from a layer to itself. -/
def doubled : List Module := [
  ⟨.layer, "x", none, some "a", .supported .input []⟩,
  ⟨.layer, "a", some "x", none, .supported .dense []⟩,
  ⟨.layer, "b", some "b", some "b", .supported .flatten []⟩]

/-- The wiring of the two edges. -/
def doubledWiring : Wiring 3 where
  root := 0
  producers := #v[none, some 0, some 2]
  consumers := #v[some 1, none, some 2]

theorem wiring_reports_first_fault_doubled :
    Wiring.ofModules doubled = .ok doubledWiring ∧
    (doubledWiring.successors 0 = [1] ∧ doubledWiring.successors 2 = [2]) ∧
    ∃ v, Wiring.ofModules (doubled.set 2 ⟨.layer, "b", none, some "b", .supported .flatten []⟩)
        = .ok v ∧ v.successors (2 : Fin 3) = [(2 : Fin 3)] := by
  have hw : Wiring.ofModules doubled = .ok doubledWiring := rfl
  obtain ⟨-, -, hwired⟩ := wiring_reports_first_fault doubled
  obtain ⟨-, -, hdoubled⟩ := hwired doubledWiring hw
  obtain ⟨-, v, hv, hsame⟩ := hdoubled (2 : Fin 3) (2 : Fin 3) rfl rfl
  exact ⟨hw, by decide, v, hv, hsame (2 : Fin 3)⟩

-- The second `x` is reported before the layer that the first one does not feed.
example : Wiring.ofModules (⟨.layer, "x", none, some "e", .supported .dense []⟩ :: doubled)
    = .error (.duplicateName "x") := rfl

end LayerScript
