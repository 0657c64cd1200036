/-
`Proofs/Graph/Emission.lean` -- what the emission loop keeps and where it ends.

The loop is looked at over a list of members of which the root is the only one
that no member has an edge to. Its invariant, `Emission.Sound`, says that every
member is written, queued or waiting, once; that a waiting member waits for exactly
the members with an edge to it that are not written yet; and that whatever is
queued or written had all of these before it.

When the queue runs dry, each member that still waits has a member before it that
waits as well. Going backwards among finitely many members must come to a cycle,
so what is left over is exactly what a cycle leads to, and nothing is left over of
members without a cycle.
-/
import LayerScript.Graph.Emission
import LayerScript.Proofs.Graph.Support
import Mathlib.Data.Fintype.EquivFin
import Mathlib.Data.List.Nodup
import Mathlib.Order.WellFounded

set_option autoImplicit false

open Relation

namespace LayerScript

/-! ## 1. Members -/

/-- A list of modules of which the root is the only one that none of them has an edge to. -/
structure Wiring.IsRooted {n : Nat} (w : Wiring n) (members : List (Fin n)) : Prop where
  nodup : members.Nodup
  root_mem : w.root ∈ members
  root_unfed : ∀ u ∈ members, w.edge u w.root = false
  fed : ∀ v ∈ members, v ≠ w.root → ∃ u ∈ members, w.edge u v = true

namespace Emission

variable {n : Nat} {w : Wiring n} {members : List (Fin n)} {s t : Emission n}

/-- How many members with an edge to a module are not among those written. -/
def missing (w : Wiring n) (members written : List (Fin n)) (v : Fin n) : Nat :=
  members.countP fun u => w.edge u v && !written.contains u

/-- Nothing is missing when all members with an edge to a module are written. -/
theorem missing_eq_zero_iff (written : List (Fin n)) (v : Fin n) :
    missing w members written v = 0 ↔ ∀ u ∈ members, w.edge u v = true → u ∈ written := by
  simp [missing, List.countP_eq_zero]

/-- Writing a member takes it off the count of the modules it has an edge to. -/
theorem missing_append_singleton (hnodup : members.Nodup) {written : List (Fin n)} {u : Fin n}
    (hu : u ∈ members) (hnew : u ∉ written) (v : Fin n) :
    missing w members (written ++ [u]) v + (if w.edge u v then 1 else 0)
      = missing w members written v := by
  induction members with
  | nil => exact absurd hu List.not_mem_nil
  | cons x xs ih =>
      obtain ⟨hx, hxs⟩ := List.nodup_cons.mp hnodup
      simp only [missing, List.countP_cons] at ih ⊢
      -- A member occurs once, so it is either counted here or in the rest, never in both.
      by_cases hxu : x = u
      · subst hxu
        have hsame : xs.countP (fun y => w.edge y v && !(written ++ [x]).contains y)
            = xs.countP (fun y => w.edge y v && !written.contains y) := by
          refine List.countP_congr fun y hy => ?_
          have hne : y ≠ x := fun h => hx (h ▸ hy)
          simp [hne]
        rw [hsame]
        simp [hnew]
      · have hmem : u ∈ xs := (List.mem_cons.mp hu).resolve_left (Ne.symm hxu)
        have hiff : (w.edge x v && !(written ++ [u]).contains x)
            = (w.edge x v && !written.contains x) := by
          simp [hxu]
        rw [hiff, ← ih hxs hmem]
        omega

/-! ## 2. The invariant -/

/-- What holds at every moment of the loop. -/
structure Sound (w : Wiring n) (members : List (Fin n)) (s : Emission n) : Prop where
  /-- Every member is written, queued or waiting, once. -/
  shared : (s.written ++ s.queue ++ s.waiting.map (·.1)).Perm members
  /-- What waits is counted right, and waits for something. -/
  pending : ∀ entry ∈ s.waiting,
    entry.2 = missing w members s.written entry.1 ∧ 0 < entry.2
  /-- What is queued waits for nothing. -/
  served : ∀ v ∈ s.queue, ∀ u ∈ members, w.edge u v = true → u ∈ s.written
  /-- What is written came after all the members with an edge to it. -/
  follows : ∀ before v after, s.written = before ++ v :: after →
    ∀ u ∈ members, w.edge u v = true → u ∈ before
  /-- What waits stands in the order of the members. -/
  listed : (s.waiting.map (·.1)).Sublist members

namespace Sound

/-- The three places of a member are disjoint. -/
theorem nodup (h : Sound w members s) (hnodup : members.Nodup) :
    (s.written ++ s.queue ++ s.waiting.map (·.1)).Nodup :=
  h.shared.nodup_iff.mpr hnodup

/-- The front of the queue is a member that is not written yet. -/
theorem front (h : Sound w members s) (hnodup : members.Nodup) {u : Fin n} {rest : List (Fin n)}
    (hqueue : s.queue = u :: rest) : u ∈ members ∧ u ∉ s.written := by
  have hall := h.nodup hnodup
  rw [hqueue] at hall
  refine ⟨h.shared.mem_iff.mp (by simp [hqueue]), fun hmem => ?_⟩
  rw [List.append_assoc, List.nodup_append] at hall
  exact hall.2.2 u hmem u (by simp) rfl

end Sound

/-- Counting down keeps who waits. -/
theorem map_fst_countDown (u : Fin n) (waiting : List (Fin n × Nat)) :
    (countDown w u waiting).map (·.1) = waiting.map (·.1) := by
  simp [countDown, Function.comp_def]

/-- Counting down for a member that is written keeps the counts right. -/
theorem Sound.countDown_eq (h : Sound w members s) (hnodup : members.Nodup) {u : Fin n}
    {rest : List (Fin n)} (hqueue : s.queue = u :: rest) :
    ∀ entry ∈ countDown w u s.waiting,
      entry.2 = missing w members (s.written ++ [u]) entry.1 := by
  obtain ⟨hu, hnew⟩ := h.front hnodup hqueue
  intro entry hentry
  obtain ⟨⟨v, k⟩, hold, rfl⟩ := List.mem_map.mp hentry
  have hk := (h.pending _ hold).1
  have hcount := missing_append_singleton (w := w) hnodup hu hnew v
  simp only at hk ⊢
  by_cases hedge : w.edge u v = true
  · simp only [hedge, if_true] at hcount ⊢
    omega
  · simp only [hedge] at hcount ⊢
    simpa [hk] using hcount.symm

/-- A step writes the front of the queue. -/
theorem step_eq_some_iff :
    s.step w = some t ↔ ∃ u rest, s.queue = u :: rest ∧ t = s.write w u rest := by
  cases hqueue : s.queue with
  | nil => simp [step, hqueue]
  | cons u rest => simp [step, hqueue, eq_comm]

/-- **One step keeps the invariant.** -/
theorem Sound.step (h : Sound w members s) (hnodup : members.Nodup) (hstep : s.step w = some t) :
    Sound w members t := by
  obtain ⟨u, rest, hqueue, rfl⟩ := step_eq_some_iff.mp hstep
  obtain ⟨hu, hnew⟩ := h.front hnodup hqueue
  have hcount := h.countDown_eq hnodup hqueue
  refine ⟨?_, ?_, ?_, ?_, ?_⟩
  · -- shared: the front moves behind the written, and what became ready behind the queue
    have hparts : (((countDown w u s.waiting).filter isReady).map (·.1)
        ++ ((countDown w u s.waiting).filter fun entry => !isReady entry).map (·.1)).Perm
          (s.waiting.map (·.1)) := by
      rw [← List.map_append, ← map_fst_countDown (w := w) u s.waiting]
      exact (List.filter_append_perm isReady _).map _
    refine List.Perm.trans ?_ h.shared
    simp only [write, hqueue, List.append_assoc, List.cons_append, List.nil_append]
    exact ((hparts.append_left rest).cons u).append_left s.written
  · -- pending: what was counted down to nothing no longer waits
    intro entry hentry
    obtain ⟨hmem, hready⟩ := List.mem_filter.mp hentry
    refine ⟨hcount entry hmem, ?_⟩
    simpa [isReady, Nat.pos_iff_ne_zero] using hready
  · -- served: what became ready misses nothing, since its count is right
    intro v hv x hx hedge
    rcases List.mem_append.mp hv with hrest | hready
    · exact List.mem_append_left _ (h.served v (by simp [hqueue, hrest]) x hx hedge)
    · obtain ⟨entry, hentry, rfl⟩ := List.mem_map.mp hready
      obtain ⟨hmem, hzero⟩ := List.mem_filter.mp hentry
      have hnone : missing w members (s.written ++ [u]) entry.1 = 0 := by
        rw [← hcount entry hmem]
        simpa [isReady] using hzero
      exact (missing_eq_zero_iff _ _).mp hnone x hx hedge
  · -- follows: only the module that was written last is new, and it came from the queue
    intro before v after hsplit x hx hedge
    simp only [write] at hsplit
    rcases List.eq_nil_or_concat after with rfl | ⟨front, last, rfl⟩
    · obtain ⟨hbefore, hlast⟩ := List.append_inj' hsplit rfl
      have huv : u = v := List.singleton_inj.mp hlast
      rw [← hbefore]
      exact h.served v (by simp [hqueue, huv]) x hx hedge
    · have hshort : s.written ++ [u] = (before ++ v :: front) ++ [last] := by simpa using hsplit
      exact h.follows before v front (List.append_inj' hshort rfl).1 x hx hedge
  · -- listed: counting down and leaving out keep the order
    have hfewer : (((countDown w u s.waiting).filter fun entry => !isReady entry).map
        (·.1)).Sublist (s.waiting.map (·.1)) := by
      rw [← map_fst_countDown (w := w) u s.waiting]
      exact List.filter_sublist.map _
    exact hfewer.trans h.listed

/-- The invariant holds at the start. -/
theorem sound_start (h : w.IsRooted members) : Sound w members (start w members) := by
  have hfst : (start w members).waiting.map (·.1) = members.filter (· ≠ w.root) := by
    simp [start, Function.comp_def]
  refine ⟨?_, ?_, ?_, ?_, ?_⟩
  · rw [hfst]
    have herase : members.filter (· ≠ w.root) = members.erase w.root := by
      rw [h.nodup.erase_eq_filter]
      exact List.filter_congr fun x _ => by by_cases hx : x = w.root <;> simp [hx]
    rw [herase]
    exact (List.perm_cons_erase h.root_mem).symm
  · intro entry hentry
    obtain ⟨v, hv, rfl⟩ := List.mem_map.mp hentry
    obtain ⟨hmem, hne⟩ := List.mem_filter.mp hv
    have hcount : (members.filter fun u => w.edge u v).length = missing w members [] v := by
      simp [missing, List.countP_eq_length_filter]
    refine ⟨hcount, ?_⟩
    obtain ⟨u, hu, hedge⟩ := h.fed v hmem (by simpa using hne)
    exact List.length_pos_of_mem (List.mem_filter.mpr ⟨hu, hedge⟩)
  · intro v hv u hu hedge
    rw [List.mem_singleton.mp hv, h.root_unfed u hu] at hedge
    cases hedge
  · intro before v after hsplit
    simp [start] at hsplit
  · rw [hfst]
    exact List.filter_sublist

/-- **A whole run keeps the invariant** and ends with an empty queue. -/
theorem Sound.run (hnodup : members.Nodup) (s : Emission n) (h : Sound w members s) :
    Sound w members (s.run w) ∧ (s.run w).queue = [] := by
  induction s using run.induct w with
  | case1 s hnone =>
      rw [Emission.run, hnone]
      refine ⟨h, ?_⟩
      unfold Emission.step at hnone
      split at hnone
      · assumption
      · cases hnone
  | case2 s t hstep ih =>
      rw [Emission.run, hstep]
      exact ih (h.step hnodup hstep)

end Emission

/-! ## 3. Cycles -/

/-- Whether a cycle of a relation leads to something, or passes through it. -/
def HeldUp {α : Type} (r : α → α → Prop) (a : α) : Prop :=
  ∃ c, TransGen r c c ∧ ReflTransGen r c a

/-- Going backwards for ever among finitely many things comes to a cycle. -/
theorem heldUp_of_backwards {α : Type} [Finite α] {r : α → α → Prop} {P : α → Prop}
    (hback : ∀ a, P a → ∃ b, P b ∧ r b a) {a : α} (ha : P a) : HeldUp r a := by
  by_contra hnone
  -- Without a cycle the paths that lead to `a` are well-founded, and have a first element.
  let Before := {b : α // P b ∧ ReflTransGen r b a}
  let path : Before → Before → Prop := fun x y => TransGen r x.1 y.1
  have : IsTrans Before path := ⟨fun _ _ _ hxy hyz => TransGen.trans hxy hyz⟩
  have : Std.Irrefl path := ⟨fun x hx => hnone ⟨x.1, hx, x.2.2⟩⟩
  have hwf : WellFounded path := Finite.wellFounded_of_trans_of_irrefl path
  obtain ⟨first, -, hfirst⟩ := hwf.has_min Set.univ ⟨⟨a, ha, .refl⟩, Set.mem_univ _⟩
  obtain ⟨b, hb, hedge⟩ := hback first.1 first.2.1
  exact hfirst ⟨b, hb, .head hedge first.2.2⟩ (Set.mem_univ _) (.single hedge)

namespace Emission.Sound

variable {n : Nat} {w : Wiring n} {members : List (Fin n)} {s : Emission n}

/-- A member with an edge to something written was written before it. -/
theorem idxOf_lt_of_edge (h : Sound w members s) {u v : Fin n} (hv : v ∈ s.written)
    (hu : u ∈ members) (hedge : w.edge u v = true) :
    u ∈ s.written ∧ s.written.idxOf u < s.written.idxOf v := by
  obtain ⟨before, after, hsplit, hfirst⟩ := List.eq_append_cons_of_mem hv
  have hbefore := h.follows before v after hsplit u hu hedge
  rw [hsplit]
  refine ⟨List.mem_append_left _ hbefore, ?_⟩
  rw [List.idxOf_append_of_mem hbefore, List.idxOf_append_of_notMem hfirst]
  exact Nat.lt_add_right _ (List.idxOf_lt_length_of_mem hbefore)

/-- The same along a path: whatever leads to something written was written before it. -/
theorem idxOf_lt_of_path (h : Sound w members s) {u v : Fin n} (hv : v ∈ s.written)
    (hpath : TransGen (w.Inside {x | x ∈ members}) u v) :
    u ∈ s.written ∧ s.written.idxOf u < s.written.idxOf v := by
  induction hpath with
  | single hedge => exact h.idxOf_lt_of_edge hv hedge.1 hedge.2.2
  | @tail b c _ hedge ih =>
      obtain ⟨hb, hlt⟩ := h.idxOf_lt_of_edge hv hedge.1 hedge.2.2
      obtain ⟨hu, hlt'⟩ := ih hb
      exact ⟨hu, hlt'.trans hlt⟩

/-- Nothing written is held up by a cycle. -/
theorem not_heldUp (h : Sound w members s) {v : Fin n} (hv : v ∈ s.written) :
    ¬ HeldUp (w.Inside {x | x ∈ members}) v := by
  rintro ⟨c, hcycle, hpath⟩
  have hc : c ∈ s.written := by
    rcases reflTransGen_iff_eq_or_transGen.mp hpath with rfl | hpath
    · exact hv
    · exact (h.idxOf_lt_of_path hv hpath).1
  exact Nat.lt_irrefl _ (h.idxOf_lt_of_path hc hcycle).2

/-- With the queue empty, what waits has a member before it that waits as well. -/
theorem exists_waiting_before (h : Sound w members s) (hqueue : s.queue = []) {v : Fin n}
    (hv : v ∈ s.waiting.map (·.1)) :
    ∃ u ∈ s.waiting.map (·.1), w.Inside {x | x ∈ members} u v := by
  obtain ⟨⟨x, k⟩, hentry, rfl⟩ := List.mem_map.mp hv
  -- A positive count means that a member before `x` is not written; where else could it be?
  obtain ⟨hcount, hpos⟩ := h.pending _ hentry
  rw [hcount, missing, List.countP_pos_iff] at hpos
  obtain ⟨u, hu, hboth⟩ := hpos
  obtain ⟨hedge, hnew⟩ := (Bool.and_eq_true _ _).mp hboth
  have hsomewhere := h.shared.mem_iff.mpr hu
  rw [hqueue, List.append_nil, List.mem_append] at hsomewhere
  have hwaits := hsomewhere.resolve_left (by simpa using hnew)
  exact ⟨u, hwaits, hu, h.listed.subset hv, hedge⟩

/-- **With the queue empty, what waits is what a cycle among the members holds up.** -/
theorem mem_waiting_iff (h : Sound w members s) (hqueue : s.queue = []) (v : Fin n) :
    v ∈ s.waiting.map (·.1) ↔ v ∈ members ∧ HeldUp (w.Inside {x | x ∈ members}) v := by
  constructor
  · intro hv
    refine ⟨h.listed.subset hv, ?_⟩
    exact heldUp_of_backwards (P := (· ∈ s.waiting.map (·.1)))
      (fun _ => h.exists_waiting_before hqueue) hv
  · rintro ⟨hv, hheld⟩
    have hsomewhere := h.shared.mem_iff.mpr hv
    rw [hqueue, List.append_nil, List.mem_append] at hsomewhere
    exact hsomewhere.resolve_left fun hwritten => h.not_heldUp hwritten hheld

/-- What is written first is the root. -/
theorem head?_written (h : Sound w members s) (hrooted : w.IsRooted members)
    (hwritten : s.written ≠ []) : s.written.head? = some w.root := by
  obtain ⟨v, after, hsplit⟩ := List.exists_cons_of_ne_nil hwritten
  rw [hsplit, List.head?_cons]
  by_contra hne
  -- Any other member is fed by one that would have to be written before the first.
  have hv : v ∈ members := h.shared.mem_iff.mp (by simp [hsplit])
  obtain ⟨u, hu, hedge⟩ := hrooted.fed v hv fun heq => hne (by rw [heq])
  exact List.not_mem_nil (h.follows [] v after hsplit u hu hedge)

end Emission.Sound

/-! ## 4. Schedules -/

namespace Wiring

variable {n : Nat} {w : Wiring n}

/-- When no member feeds the root, the members of the largest supported set are rooted. -/
theorem isRooted_supported (hfree : w.supported.find? (fun u => w.edge u w.root) = none) :
    w.IsRooted w.supported := by
  refine ⟨w.nodup_supported, w.isGreatest_supported.1.root_mem, ?_, ?_⟩
  · intro u hu
    simpa using List.find?_eq_none.mp hfree u hu
  · intro v hv hne
    rcases (w.isGreatest_supported.1.reached v hv).cases_tail with heq | ⟨u, -, hedge⟩
    · exact absurd heq hne
    · exact ⟨u, hedge.1, hedge.2.2⟩

/-- What a schedule promises. -/
structure IsSchedule (w : Wiring n) (written : List (Fin n)) : Prop where
  perm : written.Perm w.supported
  head : written.head? = some w.root
  idxOf_lt : ∀ u v, TransGen (w.Inside {x | x ∈ w.supported}) u v →
    written.idxOf u < written.idxOf v

/-- What an obstacle to a schedule is: the first member that feeds the root or, when there
is none, all members that a cycle holds up. -/
inductive IsObstacle (w : Wiring n) : List (Fin n) → Prop where
  | feedsRoot {u : Fin n} (h : w.supported.find? (fun u => w.edge u w.root) = some u) :
      w.IsObstacle [u]
  | heldUp {stuck : List (Fin n)} (free : ∀ u ∈ w.supported, w.edge u w.root = false)
      (nonempty : stuck ≠ []) (listed : stuck.Sublist w.supported)
      (mem : ∀ v, v ∈ stuck ↔ v ∈ w.supported ∧ HeldUp (w.Inside {x | x ∈ w.supported}) v) :
      w.IsObstacle stuck

/-- **What comes out of the loop**: a schedule, or what stands in its way. -/
theorem schedule_spec (w : Wiring n) :
    match w.schedule with
    | .ok written => w.IsSchedule written
    | .error stuck => w.IsObstacle stuck := by
  cases hfind : w.supported.find? fun u => w.edge u w.root with
  | some u =>
      have hout : w.schedule = .error [u] := by simp only [schedule, hfind]
      rw [hout]
      exact .feedsRoot hfind
  | none =>
      have hrooted := isRooted_supported hfind
      obtain ⟨hsound, hqueue⟩ :=
        (Emission.sound_start hrooted).run hrooted.nodup (Emission.start w w.supported)
      cases hstuck : ((Emission.start w w.supported).run w).waiting with
      | nil =>
          have hout : w.schedule = .ok ((Emission.start w w.supported).run w).written := by
            simp only [schedule, hfind, hstuck]
          rw [hout]
          have hperm : ((Emission.start w w.supported).run w).written.Perm w.supported := by
            simpa [hqueue, hstuck] using hsound.shared
          refine ⟨hperm, hsound.head?_written hrooted ?_, ?_⟩
          · intro hnil
            have hroot := hperm.mem_iff.mpr hrooted.root_mem
            rw [hnil] at hroot
            exact List.not_mem_nil hroot
          · intro u v hpath
            obtain ⟨c, -, -, hv, -⟩ := TransGen.tail'_iff.mp hpath
            exact (hsound.idxOf_lt_of_path (hperm.mem_iff.mpr hv) hpath).2
      | cons entry rest =>
          have hout : w.schedule
              = .error (((Emission.start w w.supported).run w).waiting.map (·.1)) := by
            simp only [schedule, hfind, hstuck]
          rw [hout]
          exact .heldUp hrooted.root_unfed (by simp [hstuck]) hsound.listed
            (hsound.mem_waiting_iff hqueue)

end Wiring

end LayerScript
