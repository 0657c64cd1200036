/-
`Proofs/Graph/Reordering.lean` -- what does not depend on the order of declaration.

Two lists with the same modules are wired, put in order or refused alike. The
algorithm visits positions, queues them and breaks ties by them, so nothing of this
is visible in a single step; but the notions that decide the outcome (the largest
supported set, its cycles, what lies outside of it) are about sets of modules, and
these are the same for both lists. A largest set is unique, so both wirings find the
same one, and from there every case is decided alike.

Only which of several faults of one kind is named first, and the places of
modules that do not depend on one another, are left to the order of declaration.
-/
import LayerScript.Proofs.Graph.Faults
import LayerScript.Proofs.Graph.Order
import Mathlib.Order.Bounds.Basic

set_option autoImplicit false

open Relation

namespace LayerScript

/-! ## 1. Kinds of faults -/

namespace GraphError

/-- The kinds of faults of a network. Whether it is an input or an output that names no
layer makes no difference of kind. -/
inductive Variant where
  | missingInput
  | multipleInputs
  | duplicateName
  | dangling
  | unknownEndpoint
  | cycle
  | unreachable
deriving DecidableEq, Repr

/-- The kind of a fault. -/
def variant : GraphError → Variant
  | .missingInput => .missingInput
  | .multipleInputs _ => .multipleInputs
  | .duplicateName _ => .duplicateName
  | .danglingInput _ _ => .dangling
  | .danglingOutput _ _ => .dangling
  | .unknownEndpoint _ _ => .unknownEndpoint
  | .cycle _ => .cycle
  | .unreachable _ => .unreachable

/-- The kind of the fault, where there is one. -/
def variant? {α : Type} : Except GraphError α → Option Variant
  | .ok _ => none
  | .error fault => some fault.variant

end GraphError

/-- Two outcomes agree when both are results that are alike, or both are faults of one
kind. -/
inductive Agree {α β : Type} (R : α → β → Prop) : Except GraphError α → Except GraphError β → Prop
  | ok {a : α} {b : β} (alike : R a b) : Agree R (.ok a) (.ok b)
  | error {e f : GraphError} (same : e.variant = f.variant) : Agree R (.error e) (.error f)

/-- Outcomes whose faults are of one kind agree when their results are alike. -/
theorem Agree.of_variant?_eq {α β : Type} {R : α → β → Prop} {x : Except GraphError α}
    {y : Except GraphError β} (hsame : GraphError.variant? x = GraphError.variant? y)
    (halike : ∀ a b, x = .ok a → y = .ok b → R a b) : Agree R x y := by
  cases x with
  | ok a =>
      cases y with
      | ok b => exact .ok (halike a b rfl rfl)
      | error f => cases hsame
  | error e =>
      cases y with
      | ok b => cases hsame
      | error f => exact .error (Option.some.inj hsame)

/-! ## 2. Wiring -/

/-- The kind of the fault that keeps modules from being wired, read off the modules alone. -/
def wiringFault? (modules : List Module) : Option GraphError.Variant :=
  let names := modules.map (·.name)
  if ¬ names.Nodup then some .duplicateName
  else if modules.countP (·.isInput) = 0 then some .missingInput
  else if 1 < modules.countP (·.isInput) then some .multipleInputs
  else if modules.any fun m => (danglingReference names m).isSome then some .dangling
  else none

/-- Something is reported about a module that refers to an unknown layer. -/
theorem isSome_danglingReference_iff (names : List String) (m : Module) :
    (danglingReference names m).isSome = true ↔ ¬ m.RefersTo names := by
  rw [← danglingReference_eq_none_iff, Option.isSome_iff_ne_none]

/-- **Wiring fails for the reason that can be read off the modules.** -/
theorem variant?_ofModules (modules : List Module) :
    GraphError.variant? (Wiring.ofModules modules) = wiringFault? modules := by
  have hany : (modules.any fun m =>
      (danglingReference (modules.map (·.name)) m).isSome) = true ↔
        ∃ m ∈ modules, ¬ m.RefersTo (modules.map (·.name)) := by
    simp only [List.any_eq_true, isSome_danglingReference_iff]
  rcases exists_ofModules_or_isWiringFault modules with ⟨w, hw⟩ | ⟨fault, hfault⟩
  · obtain ⟨hnodup, hsingle, hrefers⟩ := (exists_ofModules_iff modules).mp ⟨w, hw⟩
    have hnone := hany.not.mpr (by push Not; exact hrefers)
    simp only [hw, wiringFault?, hnodup, hsingle, hnone]
    rfl
  · rw [hfault.ofModules_eq]
    cases hfault with
    | @duplicateName before after m hsplit hdistinct hagain =>
        have hrepeated : ¬ (modules.map (·.name)).Nodup := by
          rw [hsplit, List.map_append, List.map_cons]
          intro hnodup
          exact (List.nodup_append.mp hnodup).2.2 _ hagain _ List.mem_cons_self rfl
        simp only [wiringFault?, hrepeated]
        rfl
    | missingInput hnodup hunfed =>
        simp only [wiringFault?, hnodup, hunfed]
        rfl
    | multipleInputs hnodup hseveral =>
        have hfed : ¬ modules.countP (·.isInput) = 0 := by omega
        simp only [wiringFault?, hnodup, hfed, hseveral]
        rfl
    | @danglingInput before after m input hnodup hsingle hsplit _ hreads hunknown =>
        have hm : m ∈ modules := by rw [hsplit]; exact List.mem_append_cons_self
        have hdangling := hany.mpr ⟨m, hm, fun hrefers => hunknown (hrefers.1 input hreads)⟩
        simp only [wiringFault?, hnodup, hsingle, hdangling]
        rfl
    | @danglingOutput before after m output hnodup hsingle hsplit _ _ hfeeds hunknown =>
        have hm : m ∈ modules := by rw [hsplit]; exact List.mem_append_cons_self
        have hdangling := hany.mpr ⟨m, hm, fun hrefers => hunknown (hrefers.2 output hfeeds)⟩
        simp only [wiringFault?, hnodup, hsingle, hdangling]
        rfl

/-- The reason is the same for the same modules in another order. -/
theorem wiringFault?_perm {l₁ l₂ : List Module} (h : l₁.Perm l₂) :
    wiringFault? l₁ = wiringFault? l₂ := by
  have hnames := h.map (·.name)
  have hdangling : ∀ m, (danglingReference (l₁.map (·.name)) m).isSome
      = (danglingReference (l₂.map (·.name)) m).isSome := by
    intro m
    rw [Bool.eq_iff_iff, isSome_danglingReference_iff, isSome_danglingReference_iff]
    simp only [Module.RefersTo, hnames.mem_iff]
  have hany : (l₁.any fun m => (danglingReference (l₁.map (·.name)) m).isSome)
      = l₂.any fun m => (danglingReference (l₂.map (·.name)) m).isSome := by
    rw [Bool.eq_iff_iff, List.any_eq_true, List.any_eq_true]
    simp only [h.mem_iff, hdangling]
  simp only [wiringFault?, hnames.nodup_iff, h.countP_eq, hany]

/-! ## 3. Sets of modules -/

/-- The modules that support one another are the same. -/
theorem supported_congr {l₁ l₂ : List Module} (h : ∀ m, m ∈ l₁ ↔ m ∈ l₂) (T : Set Module) :
    Supported l₁ T ↔ Supported l₂ T := by
  constructor
  · intro hT
    exact ⟨fun m hm => (h m).mp (hT.declared m hm), fun m hm => hT.root_mem m ((h m).mpr hm),
      hT.reached, hT.applied⟩
  · intro hT
    exact ⟨fun m hm => (h m).mpr (hT.declared m hm), fun m hm => hT.root_mem m ((h m).mp hm),
      hT.reached, hT.applied⟩

/-- Both wirings find the same modules that can be written. -/
theorem members_eq_of_perm {l₁ l₂ : List Module} (h : l₁.Perm l₂) {w₁ : Wiring l₁.length}
    {w₂ : Wiring l₂.length} (h₁ : w₁.Resolves) (h₂ : w₂.Resolves) : w₁.members = w₂.members := by
  have hsame : {T | Supported l₁ T} = {T | Supported l₂ T} :=
    Set.ext fun T => supported_congr (fun m => h.mem_iff) T
  have hgreatest := h₁.isGreatest_members
  rw [hsame] at hgreatest
  exact hgreatest.unique h₂.isGreatest_members

/-- The names of the modules with a property are the same but for their order. -/
theorem namesOf_perm {l₁ l₂ : List Module} (h : l₁.Perm l₂) (P : Module → Prop) :
    (namesOf l₁ P).Perm (namesOf l₂ P) :=
  (h.filter _).map _

/-! ## 4. Orders -/

/-- What two orders of the same modules have in common: the modules they write and leave
out, and the sequence of any two modules of which one depends on the other. -/
structure SameLayers (o₁ o₂ : Order) : Prop where
  names : o₁.names.Perm o₂.names
  dropped : o₁.dropped.Perm o₂.dropped
  sequence : ∀ p c, TransGen (FeedsWithin {m | m ∈ o₁.modules}) p c →
    o₁.modules.idxOf p < o₁.modules.idxOf c ∧ o₂.modules.idxOf p < o₂.modules.idxOf c

/-- Orders that write the same set, from the same declarations, have all this in common. -/
theorem IsOrder.sameLayers {l₁ l₂ : List Module} (h : l₁.Perm l₂) {S : Set Module}
    {policy : Policy} {o₁ o₂ : Order} (h₁ : IsOrder l₁ S policy o₁) (h₂ : IsOrder l₂ S policy o₂) :
    SameLayers o₁ o₂ := by
  have hset : {m | m ∈ o₁.modules} = S := Set.ext h₁.mem_iff
  refine ⟨?_, ?_, fun p c hpath => ?_⟩
  · refine List.Perm.map _ ?_
    rw [List.perm_ext_iff_of_nodup h₁.nodup h₂.nodup]
    intro m
    rw [h₁.mem_iff, h₂.mem_iff]
  · rw [h₁.dropped, h₂.dropped]
    exact namesOf_perm h _
  · rw [hset] at hpath
    exact ⟨h₁.idxOf_lt p c hpath, h₂.idxOf_lt p c hpath⟩

/-- A reason to refuse a network is a reason of the same kind for its reordering. -/
theorem IsRefusal.of_perm {l₁ l₂ : List Module} (h : l₁.Perm l₂) {S : Set Module}
    {policy : Policy} {e : GraphError} (he : IsRefusal l₁ S policy e) :
    ∃ f, IsRefusal l₂ S policy f ∧ e.variant = f.variant := by
  have hfeeds : ∀ m : Module, m.FeedsInput l₁ ↔ m.FeedsInput l₂ := by
    intro m
    simp only [Module.FeedsInput, h.mem_iff]
  cases he with
  | feedsInput feeds =>
      simp only [hfeeds] at feeds
      exact ⟨_, .feedsInput feeds, rfl⟩
  | heldUp unfed cyclic =>
      simp only [hfeeds] at unfed
      exact ⟨_, .heldUp unfed cyclic, rfl⟩
  | unreachable acyclic strict left =>
      simp only [h.mem_iff] at left
      exact ⟨_, .unreachable acyclic strict left, rfl⟩

/-- **The order of declaration decides nothing but sequence.** Networks with the same modules
are wired or refused alike, and under every policy they are put in order or refused alike;
the orders write the same modules, leave out the same, and differ at most in the sequence of
modules that do not depend on each other. -/
theorem order_permutation_invariant {l₁ l₂ : List Module} (h : l₁.Perm l₂) :
    Agree
      (fun (w₁ : Wiring l₁.length) (w₂ : Wiring l₂.length) => ∀ policy,
        Agree SameLayers (w₁.order l₁ policy) (w₂.order l₂ policy))
      (Wiring.ofModules l₁) (Wiring.ofModules l₂) := by
  refine Agree.of_variant?_eq ?_ fun w₁ w₂ hw₁ hw₂ policy => ?_
  · rw [variant?_ofModules, variant?_ofModules, wiringFault?_perm h]
  · have hr₁ := Wiring.resolves_of_ofModules hw₁
    have hr₂ := Wiring.resolves_of_ofModules hw₂
    have hmembers := members_eq_of_perm h hr₁ hr₂
    have hspec₁ := hr₁.order_spec policy
    have hspec₂ := hr₂.order_spec policy
    rw [← hmembers] at hspec₂
    cases hout₁ : w₁.order l₁ policy with
    | error e =>
        rw [hout₁] at hspec₁
        obtain ⟨f, hf, hsame⟩ := hspec₁.of_perm h
        rw [hmembers, ← hr₂.order_eq_error_iff] at hf
        rw [hf]
        exact .error hsame
    | ok o₁ =>
        rw [hout₁] at hspec₁
        cases hout₂ : w₂.order l₂ policy with
        | error f =>
            -- What refuses the second network would refuse the first.
            rw [hout₂] at hspec₂
            obtain ⟨e, he, -⟩ := hspec₂.of_perm h.symm
            exact absurd he (hr₁.not_isRefusal_of_isOrder hspec₁ e)
        | ok o₂ =>
            rw [hout₂] at hspec₂
            exact .ok (hspec₁.sameLayers h hspec₂)

theorem order_permutation_invariant_branches :
    branches.Perm branches.reverse ∧
    Agree
      (fun (w₁ : Wiring branches.length) (w₂ : Wiring branches.reverse.length) => ∀ policy,
        Agree SameLayers (w₁.order branches policy) (w₂.order branches.reverse policy))
      (Wiring.ofModules branches) (Wiring.ofModules branches.reverse) := by
  have hperm : branches.Perm branches.reverse := by decide
  exact ⟨hperm, order_permutation_invariant hperm⟩

end LayerScript
