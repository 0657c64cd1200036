/-
`Proofs/Graph/Embedding.lean` -- a wiring that lies inside a larger one.

A wiring embeds in another when its modules are some of those of the other, in the
same order and with the same edges among themselves, and when nothing outside of it
can be written in the larger one. What the larger wiring has besides is then left
out: the same modules can be written, they wait for the same predecessors, and ties
are broken the same way, although every position is a different number.

The loop is compared state by state. Renaming the positions of a state and taking a
step come to the same in either order (`step_map`), so whole runs do (`run_map`), and
with them schedules and the lists of what stands in their way (`schedule_map`).
-/
import LayerScript.Proofs.Graph.Emission
import Mathlib.Data.List.Sort

set_option autoImplicit false

open Relation

namespace LayerScript

/-! ## 1. Renaming positions in the loop -/

/-- A state whose positions are renamed. -/
def Emission.map {m n : Nat} (f : Fin m → Fin n) (s : Emission m) : Emission n where
  written := s.written.map f
  queue := s.queue.map f
  waiting := s.waiting.map (Prod.map f id)

namespace Emission

variable {m n : Nat} {v : Wiring m} {w : Wiring n} {f : Fin m → Fin n}

/-- Readiness is a matter of counts, not of positions. -/
theorem isReady_map (entry : Fin m × Nat) : isReady (Prod.map f id entry) = isReady entry := rfl

/-- Counting down for a renamed module. -/
theorem countDown_map (hedge : ∀ i j, w.edge (f i) (f j) = v.edge i j) (u : Fin m)
    (waiting : List (Fin m × Nat)) :
    countDown w (f u) (waiting.map (Prod.map f id))
      = (countDown v u waiting).map (Prod.map f id) := by
  simp only [countDown, List.map_map]
  refine List.map_congr_left fun entry _ => ?_
  simp [hedge]

/-- Writing a renamed module. -/
theorem write_map (hedge : ∀ i j, w.edge (f i) (f j) = v.edge i j) (u : Fin m)
    (rest : List (Fin m)) (s : Emission m) :
    (s.map f).write w (f u) (rest.map f) = (s.write v u rest).map f := by
  have hready : isReady ∘ Prod.map f id = isReady := funext isReady_map
  have hwaits : (fun entry => !isReady entry) ∘ Prod.map f id
      = fun entry : Fin m × Nat => !isReady entry :=
    funext fun entry => by rw [Function.comp_apply, isReady_map]
  simp only [write, map, countDown_map hedge, List.filter_map, hready, hwaits, List.map_append,
    List.map_map, List.map_cons, List.map_nil]
  rfl

/-- **A step of a renamed state is the renamed step.** -/
theorem step_map (hedge : ∀ i j, w.edge (f i) (f j) = v.edge i j) (s : Emission m) :
    (s.map f).step w = (s.step v).map (map f) := by
  cases hqueue : s.queue with
  | nil => simp [step, map, hqueue]
  | cons u rest =>
      have hmapped : (s.map f).queue = f u :: rest.map f := by simp [map, hqueue]
      simp only [step, hqueue, hmapped, Option.map_some, write_map hedge]

/-- **A run from a renamed state ends in the renamed end.** -/
theorem run_map (hedge : ∀ i j, w.edge (f i) (f j) = v.edge i j) (s : Emission m) :
    (s.map f).run w = (s.run v).map f := by
  induction s using run.induct v with
  | case1 s hnone =>
      have hmapped : (s.map f).step w = none := by rw [step_map hedge, hnone, Option.map_none]
      rw [run, hmapped, run, hnone]
  | case2 s t hstep ih =>
      have hmapped : (s.map f).step w = some (t.map f) := by
        rw [step_map hedge, hstep, Option.map_some]
      rw [run, hmapped, run, hstep]
      exact ih

/-- The start over renamed members, with the renamed root. -/
theorem start_map (hf : Function.Injective f) (hroot : f v.root = w.root)
    (hedge : ∀ i j, w.edge (f i) (f j) = v.edge i j) (members : List (Fin m)) :
    start w (members.map f) = (start v members).map f := by
  have hothers : (members.map f).filter (· ≠ w.root)
      = (members.filter (· ≠ v.root)).map f := by
    rw [List.filter_map]
    refine congrArg _ (List.filter_congr fun x _ => ?_)
    simp [← hroot, hf.eq_iff]
  have hcount : ∀ x, ((members.map f).filter fun u => w.edge u (f x)).length
      = (members.filter fun u => v.edge u x).length := by
    intro x
    rw [List.filter_map, List.length_map]
    refine congrArg _ (List.filter_congr fun u _ => ?_)
    simp [hedge]
  simp only [start, map, hothers, List.map_map, List.map_cons, List.map_nil, hroot]
  congr 1
  refine List.map_congr_left fun x _ => ?_
  simp [hcount]

end Emission

/-! ## 2. Embeddings -/

namespace Wiring

variable {m n : Nat} {v : Wiring m} {w : Wiring n} {f : Fin m → Fin n}

/-- What makes a wiring part of a larger one. -/
structure Embeds (v : Wiring m) (w : Wiring n) (f : Fin m → Fin n) : Prop where
  /-- The modules stand in the same order. -/
  strictMono : StrictMono f
  /-- Data enters at the same module. -/
  root : f v.root = w.root
  /-- Among the modules of the part there are the same edges. -/
  edge : ∀ i j, w.edge (f i) (f j) = v.edge i j
  /-- A module of the part is applied to one of the part. -/
  producer : ∀ j, j ≠ v.root → w.producer (f j) = (v.producer j).map f
  /-- Nothing else can be written. -/
  covers : ∀ i ∈ w.supported, ∃ j, f j = i

namespace Embeds

/-- The modules that can be written in the larger wiring support one another in the part. -/
theorem isSupported_preimage (h : v.Embeds w f) : v.IsSupported {x | f x ∈ w.supported} := by
  have hgreatest := w.isGreatest_supported.1
  refine ⟨?_, fun x hx => ?_, fun x hx hne p hp => ?_⟩
  · show f v.root ∈ w.supported
    rw [h.root]
    exact hgreatest.root_mem
  · -- Every module on a path of members has a position in the part.
    have hpath : ∀ y, ReflTransGen (w.Inside {z | z ∈ w.supported}) w.root y →
        ∀ x, f x = y → ReflTransGen (v.Inside {x | f x ∈ w.supported}) v.root x := by
      intro y hy
      induction hy with
      | refl =>
          intro x hx
          rw [h.strictMono.injective (hx.trans h.root.symm)]
      | @tail b c _ hstep ih =>
          rintro x rfl
          obtain ⟨hb, hc, hedge⟩ := hstep
          obtain ⟨a, rfl⟩ := h.covers b hb
          refine (ih a rfl).tail ⟨hb, hc, ?_⟩
          rw [← h.edge]
          exact hedge
    exact hpath (f x) (hgreatest.reached (f x) hx) x rfl
  · have hproducer : w.producer (f x) = some (f p) := by
      rw [h.producer x hne, hp, Option.map_some]
    refine hgreatest.applied (f x) hx (fun heq => hne ?_) (f p) hproducer
    exact h.strictMono.injective (heq.trans h.root.symm)

/-- The modules that can be written in the part support one another in the larger wiring. -/
theorem isSupported_image (h : v.Embeds w f) : w.IsSupported (f '' {x | x ∈ v.supported}) := by
  have hgreatest := v.isGreatest_supported.1
  refine ⟨⟨v.root, hgreatest.root_mem, h.root⟩, ?_, ?_⟩
  · rintro _ ⟨x, hx, rfl⟩
    rw [← h.root]
    refine ReflTransGen.lift f (fun a b hab => ?_) _ _ (hgreatest.reached x hx)
    obtain ⟨ha, hb, hedge⟩ := hab
    refine ⟨Set.mem_image_of_mem f ha, Set.mem_image_of_mem f hb, ?_⟩
    rw [h.edge]
    exact hedge
  · rintro _ ⟨x, hx, rfl⟩ hne p hp
    have hroot : x ≠ v.root := fun heq => hne (by rw [heq, h.root])
    rw [h.producer x hroot] at hp
    obtain ⟨q, hq, rfl⟩ := Option.map_eq_some_iff.mp hp
    exact Set.mem_image_of_mem f (hgreatest.applied x hx hroot q hq)

/-- **The same modules can be written.** -/
theorem mem_supported_iff (h : v.Embeds w f) (x : Fin m) :
    f x ∈ w.supported ↔ x ∈ v.supported := by
  constructor
  · exact fun hx => v.isGreatest_supported.2 h.isSupported_preimage hx
  · exact fun hx => w.isGreatest_supported.2 h.isSupported_image (Set.mem_image_of_mem f hx)

/-- They are listed in the same order. -/
theorem supported_eq (h : v.Embeds w f) : w.supported = v.supported.map f := by
  have hsorted : ∀ {k : Nat} (u : Wiring k), u.supported.SortedLT := fun {k} u =>
    ((List.sortedLT_finRange k).pairwise.sublist List.filter_sublist).sortedLT
  have hmapped : (v.supported.map f).SortedLT :=
    (List.pairwise_map.mpr ((hsorted v).pairwise.imp fun hab => h.strictMono hab)).sortedLT
  refine (hsorted w).eq_of_mem_iff hmapped fun i => ?_
  rw [List.mem_map]
  constructor
  · intro hi
    obtain ⟨x, rfl⟩ := h.covers i hi
    exact ⟨x, (h.mem_supported_iff x).mp hi, rfl⟩
  · rintro ⟨x, hx, rfl⟩
    exact (h.mem_supported_iff x).mpr hx

/-- **The same modules come out in the same order**, or the same ones stand in the way. -/
theorem schedule_map (h : v.Embeds w f) :
    w.schedule = (v.schedule.mapError (List.map f)).map (List.map f) := by
  have hfind : w.supported.find? (fun u => w.edge u w.root)
      = (v.supported.find? fun u => v.edge u v.root).map f := by
    rw [h.supported_eq, List.find?_map]
    refine congrArg _ (congrArg (List.find? · v.supported) (funext fun u => ?_))
    rw [Function.comp_apply, ← h.root, h.edge]
  have hrun : (Emission.start w w.supported).run w
      = ((Emission.start v v.supported).run v).map f := by
    rw [h.supported_eq, Emission.start_map h.strictMono.injective h.root h.edge,
      Emission.run_map h.edge]
  simp only [schedule, hfind, hrun]
  cases v.supported.find? fun u => v.edge u v.root with
  | some u => rfl
  | none =>
      cases hwaiting : ((Emission.start v v.supported).run v).waiting with
      | nil => simp [Emission.map, hwaiting, Except.map, Except.mapError]
      | cons entry rest => simp [Emission.map, hwaiting, Except.map, Except.mapError]

end Embeds

end Wiring

end LayerScript
