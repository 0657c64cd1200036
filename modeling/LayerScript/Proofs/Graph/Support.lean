/-
`Proofs/Graph/Support.lean` -- what the repeated walk computes.

A set of modules is supported when it holds the root, every member is reached
from the root without leaving the set, and every member but the root has the
module it is applied to in the set. Supported sets are closed under union, so
there is a largest one, and `Wiring.supported` is it.

The two halves are separate. That the result is supported is read off the last
round: the walk reached it and found no orphan in it. That nothing larger is
supported is an invariant of the rounds: whatever a round cuts off is an orphan of
a set that contains every supported set, so it belongs to none of them.
-/
import LayerScript.Graph.Support
import Mathlib.Data.Set.Insert
import Mathlib.Logic.Relation
import Mathlib.Order.Bounds.Defs

set_option autoImplicit false

open Relation

namespace LayerScript.Wiring

variable {n : Nat} {w : Wiring n}

/-! ## 1. Paths -/

/-- An edge that ends in a set. -/
def Into (w : Wiring n) (T : Set (Fin n)) (u v : Fin n) : Prop :=
  w.edge u v = true ∧ v ∈ T

/-- An edge between two members of a set. -/
def Inside (w : Wiring n) (T : Set (Fin n)) (u v : Fin n) : Prop :=
  u ∈ T ∧ v ∈ T ∧ w.edge u v = true

/-- The larger the set, the more edges end in it. -/
theorem into_mono {S T : Set (Fin n)} (hST : S ⊆ T) : w.Into S ≤ w.Into T :=
  fun _ _ h => ⟨h.1, hST h.2⟩

/-- Of a path that starts at the root only what follows its last visit there matters. -/
theorem reflTransGen_into_root_iff {S : Set (Fin n)} {v : Fin n} :
    ReflTransGen (w.Into S) w.root v ↔
      v = w.root ∨ TransGen (w.Into (S \ {w.root})) w.root v := by
  constructor
  · intro hpath
    induction hpath with
    | refl => exact Or.inl rfl
    | @tail b c _ hstep ih =>
        by_cases hroot : c = w.root
        · exact Or.inl hroot
        · have hinto : w.Into (S \ {w.root}) b c := ⟨hstep.1, hstep.2, hroot⟩
          rcases ih with rfl | hb
          · exact Or.inr (.single hinto)
          · exact Or.inr (hb.tail hinto)
  · rintro (rfl | hpath)
    · exact .refl
    · exact (TransGen.mono (into_mono fun _ hu => hu.1) _ _ hpath).to_reflTransGen

/-! ## 2. The walk -/

/-- One turn of the walk. A path that starts at the queue and runs through the candidates
either reaches one of the candidates that the first module in the queue has an edge to, or
it never needed them. -/
theorem mem_hits_or_path {u v : Fin n} {rest candidates : List (Fin n)} {x : Fin n}
    (hx : x ∈ u :: rest) (h : TransGen (w.Into {y | y ∈ candidates}) x v) :
    v ∈ w.hits u candidates ∨
      ∃ z ∈ rest ++ w.hits u candidates, TransGen (w.Into {y | y ∈ w.misses u candidates}) z v := by
  -- Only the last module of the path matters: either it is hit now, or it is still a
  -- candidate in the next turn and the path goes on from where the induction got to.
  induction h with
  | @single b hb =>
      obtain ⟨hedge, hmem⟩ := hb
      by_cases hu : w.edge u b = true
      · exact Or.inl (List.mem_filter.mpr ⟨hmem, hu⟩)
      · have hmiss : b ∈ w.misses u candidates := List.mem_filter.mpr ⟨hmem, by simpa using hu⟩
        rcases List.mem_cons.mp hx with rfl | hrest
        · exact absurd hedge hu
        · exact Or.inr ⟨x, List.mem_append_left _ hrest, .single ⟨hedge, hmiss⟩⟩
  | @tail b c _ hstep ih =>
      obtain ⟨hedge, hmem⟩ := hstep
      by_cases hu : w.edge u c = true
      · exact Or.inl (List.mem_filter.mpr ⟨hmem, hu⟩)
      · have hmiss : c ∈ w.misses u candidates := List.mem_filter.mpr ⟨hmem, by simpa using hu⟩
        rcases ih with hhit | ⟨z, hz, hpath⟩
        · exact Or.inr ⟨b, List.mem_append_right _ hhit, .single ⟨hedge, hmiss⟩⟩
        · exact Or.inr ⟨z, hz, hpath.tail ⟨hedge, hmiss⟩⟩

/-- **What the walk leaves over**: the candidates to which no path of candidates leads from
the queue. -/
theorem mem_sweep_iff (w : Wiring n) (queue candidates : List (Fin n)) (v : Fin n) :
    v ∈ w.sweep queue candidates ↔
      v ∈ candidates ∧ ∀ u ∈ queue, ¬ TransGen (w.Into {y | y ∈ candidates}) u v := by
  induction queue, candidates using sweep.induct w with
  | case1 candidates => simp [sweep]
  | case2 candidates u rest ih =>
      have hsub : {y | y ∈ w.misses u candidates} ⊆ {y | y ∈ candidates} :=
        fun y hy => (List.mem_filter.mp hy).1
      rw [sweep, ih]
      constructor
      · rintro ⟨hv, hno⟩
        refine ⟨hsub hv, fun x hx hpath => ?_⟩
        rcases mem_hits_or_path hx hpath with hhit | ⟨z, hz, hz'⟩
        · have hedge := (List.mem_filter.mp hhit).2
          have hmiss := (List.mem_filter.mp hv).2
          simp [hedge] at hmiss
        · exact hno z hz hz'
      · rintro ⟨hv, hno⟩
        have hu : ¬ w.edge u v = true :=
          fun hedge => hno u List.mem_cons_self (.single ⟨hedge, hv⟩)
        refine ⟨List.mem_filter.mpr ⟨hv, by simpa using hu⟩, fun x hx hpath => ?_⟩
        -- A path from a module that was hit is one from `u`, one edge longer.
        have hlong := TransGen.mono (into_mono hsub) _ _ hpath
        rcases List.mem_append.mp hx with hrest | hhit
        · exact hno x (List.mem_cons_of_mem _ hrest) hlong
        · obtain ⟨hmem, hedge⟩ := List.mem_filter.mp hhit
          exact hno u List.mem_cons_self (.head ⟨hedge, hmem⟩ hlong)

/-- What is connected is a candidate. -/
theorem connected_subset (w : Wiring n) (candidates : List (Fin n)) :
    w.connected candidates ⊆ candidates :=
  fun _ hv => (List.mem_filter.mp hv).1

/-- The candidates that a walk from the root reaches, through candidates only. -/
theorem mem_connected_iff (w : Wiring n) (candidates : List (Fin n)) (v : Fin n) :
    v ∈ w.connected candidates ↔ TransGen (w.Into {y | y ∈ candidates}) w.root v := by
  have hlast : TransGen (w.Into {y | y ∈ candidates}) w.root v → v ∈ candidates := by
    intro hpath
    cases hpath with
    | single h => exact h.2
    | tail _ h => exact h.2
  rw [connected, List.mem_filter, decide_eq_true_iff, mem_sweep_iff]
  constructor
  · rintro ⟨hv, hnot⟩
    by_contra hpath
    refine hnot ⟨hv, fun u hu => ?_⟩
    rw [List.mem_singleton.mp hu]
    exact hpath
  · intro hpath
    exact ⟨hlast hpath, fun h => h.2 w.root (List.mem_singleton.mpr rfl) hpath⟩

/-! ## 3. Supported sets -/

/-- A set of modules that can be written without the others. -/
structure IsSupported (w : Wiring n) (T : Set (Fin n)) : Prop where
  root_mem : w.root ∈ T
  reached : ∀ v ∈ T, ReflTransGen (w.Inside T) w.root v
  applied : ∀ v ∈ T, v ≠ w.root → ∀ p, w.producer v = some p → p ∈ T

/-- The orphans of a set are applied to a module that is neither in it nor the root. -/
theorem mem_orphans_iff (w : Wiring n) (kept : List (Fin n)) (v : Fin n) :
    v ∈ w.orphans kept ↔ v ∈ kept ∧ ∃ p, w.producer v = some p ∧ p ≠ w.root ∧ p ∉ kept := by
  rw [orphans, List.mem_filter]
  cases w.producer v with
  | none => simp
  | some p => simp

/-- The last round finds no orphans. -/
theorem round_eq_none_iff {candidates : List (Fin n)} :
    w.round candidates = none ↔ w.orphans (w.connected candidates) = [] := by
  unfold round
  split <;> simp_all

/-- Every other round cuts off the orphans that it finds. -/
theorem round_eq_some_iff {candidates fewer : List (Fin n)} :
    w.round candidates = some fewer ↔ w.orphans (w.connected candidates) ≠ [] ∧
      (candidates.filter fun v => !(w.orphans (w.connected candidates)).contains v) = fewer := by
  unfold round
  split <;> simp_all

/-- A supported set is found by a walk through any candidates that hold all of it. -/
theorem IsSupported.subset_connected {T : Set (Fin n)} (hT : w.IsSupported T)
    {candidates : List (Fin n)} (hsub : ∀ v ∈ T, v ≠ w.root → v ∈ candidates) :
    ∀ v ∈ T, v ≠ w.root → v ∈ w.connected candidates := by
  intro v hv hroot
  have hreached : ReflTransGen (w.Into T) w.root v :=
    ReflTransGen.mono (fun _ _ h => ⟨h.2.2, h.2.1⟩) _ _ (hT.reached v hv)
  have hpath := (reflTransGen_into_root_iff.mp hreached).resolve_left hroot
  rw [mem_connected_iff]
  exact TransGen.mono (into_mono fun u hu => hsub u hu.1 hu.2) _ _ hpath

/-- **A round cuts off no supported set.** -/
theorem IsSupported.subset_of_round {T : Set (Fin n)} (hT : w.IsSupported T)
    {candidates fewer : List (Fin n)} (hround : w.round candidates = some fewer)
    (hsub : ∀ v ∈ T, v ≠ w.root → v ∈ candidates) : ∀ v ∈ T, v ≠ w.root → v ∈ fewer := by
  have hconnected := hT.subset_connected hsub
  intro v hv hroot
  -- What an orphan is applied to was not reached, so no set that holds it is supported.
  have hnot : v ∉ w.orphans (w.connected candidates) := by
    intro horphan
    obtain ⟨-, p, hp, hpr, hpc⟩ := (mem_orphans_iff w _ v).mp horphan
    exact hpc (hconnected p (hT.applied v hv hroot p hp) hpr)
  obtain ⟨-, rfl⟩ := round_eq_some_iff.mp hround
  exact List.mem_filter.mpr ⟨hsub v hv hroot, by simpa using hnot⟩

/-- Where the rounds end, the modules that were reached support one another. -/
theorem isSupported_of_round_eq_none {candidates : List (Fin n)}
    (hround : w.round candidates = none) :
    w.IsSupported (insert w.root {v | v ∈ w.connected candidates}) := by
  have hnone := round_eq_none_iff.mp hround
  have hmem : ∀ x, TransGen (w.Into {y | y ∈ candidates}) w.root x →
      x ∈ insert w.root {v | v ∈ w.connected candidates} :=
    fun x hx => Set.mem_insert_of_mem _ ((mem_connected_iff w candidates x).mpr hx)
  refine ⟨Set.mem_insert _ _, ?_, ?_⟩
  · rintro v (rfl | hv)
    · exact .refl
    · -- Whatever stands on a path that the walk took was itself reached.
      have hpath := (mem_connected_iff w candidates v).mp hv
      clear hv
      induction hpath with
      | @single b hb => exact .single ⟨Set.mem_insert _ _, hmem b (.single hb), hb.1⟩
      | @tail b c hb hstep ih => exact ih.tail ⟨hmem b hb, hmem c (hb.tail hstep), hstep.1⟩
  · rintro v (rfl | hv) hroot p hp
    · exact absurd rfl hroot
    · by_contra hout
      rw [Set.mem_insert_iff, not_or] at hout
      have horphan : v ∈ w.orphans (w.connected candidates) :=
        (mem_orphans_iff w _ v).mpr ⟨hv, p, hp, hout.1, hout.2⟩
      rw [hnone] at horphan
      exact List.not_mem_nil horphan

/-! ## 4. The largest supported set -/

/-- What the rounds come to, with the root, is supported. -/
theorem isSupported_settled (w : Wiring n) (candidates : List (Fin n)) :
    w.IsSupported (insert w.root {v | v ∈ w.settled candidates}) := by
  induction candidates using settled.induct w with
  | case1 candidates hround =>
      rw [settled, hround]
      exact isSupported_of_round_eq_none hround
  | case2 candidates fewer hround ih =>
      rw [settled, hround]
      exact ih

/-- What the rounds come to holds every supported set among the candidates. -/
theorem IsSupported.subset_settled {T : Set (Fin n)} (hT : w.IsSupported T)
    (candidates : List (Fin n)) (hsub : ∀ v ∈ T, v ≠ w.root → v ∈ candidates) :
    ∀ v ∈ T, v ≠ w.root → v ∈ w.settled candidates := by
  induction candidates using settled.induct w with
  | case1 candidates hround =>
      rw [settled, hround]
      exact hT.subset_connected hsub
  | case2 candidates fewer hround ih =>
      rw [settled, hround]
      exact ih (hT.subset_of_round hround hsub)

theorem mem_others_iff (w : Wiring n) (v : Fin n) : v ∈ w.others ↔ v ≠ w.root := by
  simp [others]

/-- The modules that can be written are the root and what the rounds come to. -/
theorem mem_supported_iff (w : Wiring n) (v : Fin n) :
    v ∈ w.supported ↔ v = w.root ∨ v ∈ w.settled w.others := by
  simp [supported]

/-- **The modules that can be written are the largest supported set.** -/
theorem isGreatest_supported (w : Wiring n) :
    IsGreatest {T | w.IsSupported T} {v | v ∈ w.supported} := by
  have hset : {v | v ∈ w.supported} = insert w.root {v | v ∈ w.settled w.others} :=
    Set.ext fun v => mem_supported_iff w v
  rw [hset]
  refine ⟨isSupported_settled w w.others, fun T hT v hv => ?_⟩
  by_cases hroot : v = w.root
  · exact Or.inl hroot
  · refine Or.inr (IsSupported.subset_settled hT w.others (fun u _ hu => ?_) v hv hroot)
    exact (w.mem_others_iff u).mpr hu

/-- Each is listed once. -/
theorem nodup_supported (w : Wiring n) : w.supported.Nodup :=
  (List.nodup_finRange n).filter _

end LayerScript.Wiring
