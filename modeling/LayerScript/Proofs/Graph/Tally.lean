/-
`Proofs/Graph/Tally.lean` -- the counts of the emission loop, kept in arrays.

`Emission` keeps a count only for a module that still waits, and its subtraction stops at zero, so
it could hide a count that goes wrong. Here the loop is written a second time, on arrays that are
addressed by position: first every member counts up the members it has an edge to, then each turn
takes a module from the queue and counts down the members it has an edge to, whatever became of
them in the meantime. A position outside of an array is a fault, and so is a count below zero
(`changeAt`, `Tally.release`), and a fault ends everything. That the loop has a state after any
number of turns therefore says that neither occurs.

It has one because the two forms go through the same states: the arrays after so many turns are
those of `Emission` after as many steps (`Tally.after_eq`). What `Emission.Sound` says of a member
is what is needed for one turn. A successor of the front of the queue cannot have joined before,
since it waited for the front, so there is something to take off; and it was counted by the very
members that count it down.
-/
import LayerScript.Proofs.Graph.Faults
import LayerScript.Proofs.Graph.Positions
import LayerScript.Proofs.Graph.Sequence
import Mathlib.Data.Nat.PSub

set_option autoImplicit false

namespace LayerScript

/-! ## 1. The loop -/

/-- A moment of the loop, by position: for how many members each module still waits, which are
marked as written, and the modules written and queued. -/
structure Tally where
  pending : Array ℕ
  marks : Array Bool
  written : List ℕ
  queue : List ℕ
deriving DecidableEq, Repr

namespace Tally

variable {n : ℕ}

/-- The modules that have joined the queue so far, in the order in which they did. -/
def joined (t : Tally) : List ℕ := t.written ++ t.queue

/-- Takes one off the count of a module, which joins the queue when nothing is left. -/
def release (t : Tally) (i : ℕ) : Option Tally := do
  let pending ← changeAt Nat.ppred t.pending i
  some { t with
    pending := pending
    queue := if pending[i]? = some 0 then t.queue ++ [i] else t.queue }

/-- One turn: the front of the queue is written, and the members it has an edge to are released.
With an empty queue nothing happens any more. -/
def turn (w : Wiring n) (members : List (Fin n)) (t : Tally) : Option Tally :=
  match t.queue with
  | [] => some t
  | u :: rest => do
    let marks ← changeAt (fun _ => some true) t.marks u
    let successors ← w.successorsAt members u
    successors.foldlM release { t with marks := marks, written := t.written ++ [u], queue := rest }

/-- The counts after one more member has counted up those it has an edge to. -/
def countUp (w : Wiring n) (members : List (Fin n)) (counts : Array ℕ) (u : Fin n) :
    Option (Array ℕ) := do
  let successors ← w.successorsAt members u
  successors.foldlM (changeAt fun k => some (k + 1)) counts

/-- The state before the first turn: everything is counted, and the root is in the queue. -/
def start (w : Wiring n) (members : List (Fin n)) : Option Tally := do
  let pending ← members.foldlM (countUp w members) (Array.replicate n 0)
  some ⟨pending, Array.replicate n false, [], [w.root]⟩

/-- The state after so many turns, if none of them was a fault. -/
def after (w : Wiring n) (members : List (Fin n)) : ℕ → Option Tally
  | 0 => start w members
  | k + 1 => after w members k >>= turn w members

/-- What is right about a moment of the loop. -/
structure IsRight (w : Wiring n) (members : List (Fin n)) (t : Tally) : Prop where
  /-- The count of a member is that of the members with an edge to it that were not taken from the
  queue yet. -/
  pending : ∀ v ∈ members, t.pending[(v : ℕ)]?
    = some (members.countP fun u => w.edge u v && !t.written.contains (u : ℕ))
  /-- No module joins the queue twice, and none is written twice. -/
  nodup : t.joined.Nodup
  /-- What is queued or written is the root or a member that waits for nothing. -/
  ready : ∀ i ∈ t.joined, ∃ v ∈ members, (v : ℕ) = i ∧ (v = w.root ∨ t.pending[i]? = some 0)
  /-- What is written is marked. -/
  marks : ∀ v ∈ members, t.marks[(v : ℕ)]? = some (t.written.contains (v : ℕ))

end Tally

/-! ## 2. Counting -/

section

variable {n : ℕ} {w : Wiring n} {members : List (Fin n)}

/-- Counting up a list of modules, each of them once. -/
theorem foldlM_countUp {vs : List (Fin n)} (hnodup : vs.Nodup) (f : Fin n → ℕ) :
    (vs.map Fin.val).foldlM (changeAt fun k => some (k + 1)) (Array.ofFn f)
      = some (Array.ofFn fun v => f v + if v ∈ vs then 1 else 0) := by
  rw [foldlM_changeAt (· + 1) hnodup]
  congr 2
  funext v
  split <;> rfl

/-- Counted by some members, a module has as many as there are members with an edge to it. -/
theorem foldlM_members (us : List (Fin n)) (f : Fin n → ℕ) :
    us.foldlM (Tally.countUp w members) (Array.ofFn f)
      = some (Array.ofFn fun v => f v + if v ∈ members then us.countP (w.edge · v) else 0) := by
  induction us generalizing f with
  | nil => simp
  | cons u us ih =>
      have hnodup : ((w.successors u).filter (· ∈ members)).Nodup :=
        ((List.nodup_finRange n).filter _).filter _
      rw [List.foldlM_cons, Tally.countUp, w.successorsAt_val]
      change (List.foldlM _ _ _ >>= _) = _
      rw [foldlM_countUp hnodup]
      change List.foldlM _ (Array.ofFn _) _ = _
      rw [ih]
      congr 2
      funext v
      simp only [List.mem_filter, Wiring.mem_successors_iff, decide_eq_true_eq, List.countP_cons]
      by_cases hv : v ∈ members
      · simp only [hv, and_true, if_true]
        omega
      · simp [hv]

end

/-! ## 3. Steps -/

namespace Emission

variable {n : ℕ} {w : Wiring n} {members : List (Fin n)} {s t : Emission n}

/-- The state after so many steps. With an empty queue it stays the same. -/
def after (w : Wiring n) (s : Emission n) : ℕ → Emission n
  | 0 => s
  | k + 1 => ((s.after w k).step w).getD (s.after w k)

/-- For how many members a module still waits; nobody else is counted. -/
def pendingOf (w : Wiring n) (members : List (Fin n)) (s : Emission n) (v : Fin n) : ℕ :=
  if members.contains v then missing w members s.written v else 0

theorem pendingOf_of_mem {v : Fin n} (hv : v ∈ members) :
    s.pendingOf w members v = missing w members s.written v :=
  if_pos (List.contains_iff_mem.mpr hv)

theorem pendingOf_of_not_mem {v : Fin n} (hv : v ∉ members) : s.pendingOf w members v = 0 :=
  if_neg (mt List.contains_iff_mem.mp hv)

/-- The arrays that say the same as a state. -/
def tally (w : Wiring n) (members : List (Fin n)) (s : Emission n) : Tally where
  pending := Array.ofFn (s.pendingOf w members)
  marks := Array.ofFn s.written.contains
  written := s.written.map Fin.val
  queue := s.queue.map Fin.val

/-- The invariant holds after any number of steps. -/
theorem Sound.after (h : Sound w members s) (hnodup : members.Nodup) (k : ℕ) :
    Sound w members (s.after w k) := by
  induction k with
  | zero => exact h
  | succ k ih =>
      rw [Emission.after]
      cases hstep : (s.after w k).step w with
      | none => exact ih
      | some t => exact ih.step hnodup hstep

/-- The modules that have joined the queue by some step stay in front. -/
theorem prefix_after (w : Wiring n) (s : Emission n) (k : ℕ) :
    (s.after w k).written ++ (s.after w k).queue
      <+: (s.after w (k + 1)).written ++ (s.after w (k + 1)).queue := by
  rw [Emission.after]
  cases hstep : (s.after w k).step w with
  | none => exact List.prefix_refl _
  | some t =>
      obtain ⟨u, rest, hqueue, rfl⟩ := step_eq_some_iff.mp hstep
      rw [hqueue]
      simp [write]

/-- The first step comes first. -/
theorem after_of_step (hstep : s.step w = some t) (k : ℕ) :
    s.after w (k + 1) = t.after w k := by
  induction k with
  | zero => simp [after, hstep]
  | succ k ih => rw [after, ih, after]

/-- The loop ends after as many steps as modules are written in it. -/
theorem exists_after_eq_run (w : Wiring n) (s : Emission n) :
    ∃ k, s.after w k = s.run w ∧ s.written.length + k = (s.run w).written.length := by
  induction s using run.induct w with
  | case1 s hnone =>
      rw [Emission.run, hnone]
      exact ⟨0, rfl, rfl⟩
  | case2 s t hstep ih =>
      obtain ⟨k, hrun, hlength⟩ := ih
      rw [Emission.run, hstep]
      refine ⟨k + 1, (after_of_step hstep k).trans hrun, ?_⟩
      obtain ⟨u, rest, -, rfl⟩ := step_eq_some_iff.mp hstep
      rw [← hlength]
      simp only [write, List.length_append, List.length_singleton]
      omega

end Emission

/-! ## 4. One turn -/

section

variable {n : ℕ} {w : Wiring n} {members : List (Fin n)} {s : Emission n}

/-- Modules that are released together, each of them once and none for which nothing is counted,
lose one each, and those that lose their last one join the queue. -/
theorem Tally.foldlM_release {vs : List (Fin n)} (hnodup : vs.Nodup) (f : Fin n → ℕ)
    (hpos : ∀ v ∈ vs, 0 < f v) (marks : Array Bool) (written queue : List ℕ) :
    (vs.map Fin.val).foldlM release ⟨Array.ofFn f, marks, written, queue⟩
      = some ⟨Array.ofFn fun v => f v - if v ∈ vs then 1 else 0, marks, written,
          queue ++ (vs.filter (f · = 1)).map Fin.val⟩ := by
  induction vs generalizing f queue with
  | nil => simp
  | cons x vs ih =>
      obtain ⟨hx, hvs⟩ := List.nodup_cons.mp hnodup
      rw [List.forall_mem_cons] at hpos
      obtain ⟨k, hk⟩ := Nat.exists_eq_succ_of_ne_zero hpos.1.ne'
      -- Nobody in the rest is changed by what happens to the first.
      have hsame : ∀ v ∈ vs, Function.update f x k v = f v := by
        rintro v hv
        refine Function.update_of_ne ?_ _ _
        rintro rfl
        exact hx hv
      have hfilter : vs.filter (Function.update f x k · = 1) = vs.filter (f · = 1) :=
        List.filter_congr fun v hv => by rw [hsame v hv]
      have hcounts : (fun v => Function.update f x k v - if v ∈ vs then 1 else 0)
          = fun v => f v - if v ∈ x :: vs then 1 else 0 := by
        funext v
        by_cases hv : v = x
        · subst hv
          simp [hx, hk]
        · simp [hv]
      have hfirst : release ⟨Array.ofFn f, marks, written, queue⟩ x
          = some ⟨Array.ofFn (Function.update f x k), marks, written,
              queue ++ if f x = 1 then [(x : ℕ)] else []⟩ := by
        rw [release, changeAt_ofFn, hk]
        change some _ = some _
        rw [getElem?_ofFn_val, Function.update_self]
        by_cases hzero : k = 0 <;> simp [hzero]
      rw [List.map_cons, List.foldlM_cons, hfirst]
      change List.foldlM release _ _ = _
      rw [ih hvs _ (fun v hv => by rw [hsame v hv]; exact hpos.2 v hv), hfilter, hcounts]
      by_cases hone : f x = 1 <;> simp [hone]

namespace Emission

/-- A member that the front of the queue has an edge to waits for it. -/
theorem Sound.missing_pos (h : Sound w members s) (hnodup : members.Nodup) {u v : Fin n}
    {rest : List (Fin n)} (hqueue : s.queue = u :: rest) (hedge : w.edge u v = true) :
    0 < missing w members s.written v := by
  obtain ⟨hu, hnew⟩ := h.front hnodup hqueue
  refine Nat.pos_of_ne_zero fun hzero => hnew ?_
  exact (missing_eq_zero_iff _ _).mp hzero u hu hedge

/-- Nobody who is written or queued waits for a member. -/
theorem Sound.missing_eq_zero (h : Sound w members s) {v : Fin n}
    (hv : v ∈ s.written ++ s.queue) : missing w members s.written v = 0 :=
  (missing_eq_zero_iff _ _).mpr fun _ hu hedge => h.mem_written_of_edge hv hu hedge

/-- **Whom a turn releases for good are those that become ready.** -/
theorem Sound.filter_successors (h : Sound w members s) (hsorted : members.Pairwise (· < ·))
    (u : Fin n) :
    ((w.successors u).filter (· ∈ members)).filter (s.pendingOf w members · = 1)
      = ((countDown w u s.waiting).filter isReady).map (·.1) := by
  -- Both stand in the order of declaration, so only who is in them matters.
  have hleft : (((w.successors u).filter (· ∈ members)).filter
      (s.pendingOf w members · = 1)).Pairwise (· < ·) :=
    ((w.pairwise_successors u).sublist List.filter_sublist).sublist List.filter_sublist
  have hright : (((countDown w u s.waiting).filter isReady).map (·.1)).Pairwise (· < ·) := by
    refine hsorted.sublist (List.Sublist.trans ?_ h.listed)
    rw [← map_fst_countDown (w := w) u s.waiting]
    exact List.filter_sublist.map _
  refine hleft.sortedLT.eq_of_mem_iff hright.sortedLT fun v => ?_
  rw [List.mem_filter, List.mem_filter, Wiring.mem_successors_iff, List.mem_map]
  simp only [decide_eq_true_eq]
  constructor
  · rintro ⟨⟨hedge, hv⟩, hone⟩
    rw [pendingOf_of_mem hv] at hone
    -- It misses somebody, so it is neither written nor queued.
    have hwaits : v ∈ s.waiting.map (·.1) := by
      have hsomewhere := h.shared.mem_iff.mpr hv
      refine (List.mem_append.mp hsomewhere).resolve_left fun hjoined => ?_
      have hnone := h.missing_eq_zero hjoined
      omega
    obtain ⟨⟨x, k⟩, hentry, rfl⟩ := List.mem_map.mp hwaits
    have hk := (h.pending _ hentry).1
    simp only [hone] at hk hedge
    refine ⟨(x, 0), List.mem_filter.mpr ⟨List.mem_map.mpr ⟨(x, k), hentry, ?_⟩, rfl⟩, rfl⟩
    simp [hedge, hk]
  · rintro ⟨entry, hentry, rfl⟩
    obtain ⟨hmem, hready⟩ := List.mem_filter.mp hentry
    have hedge := h.edge_of_isReady hmem hready
    obtain ⟨⟨x, k⟩, hold, rfl⟩ := List.mem_map.mp hmem
    have hv : x ∈ members := h.listed.subset (List.mem_map_of_mem hold)
    obtain ⟨hk, hpos⟩ := h.pending _ hold
    simp only [isReady, beq_iff_eq] at hk hpos hready hedge ⊢
    rw [if_pos hedge] at hready
    refine ⟨⟨hedge, hv⟩, ?_⟩
    rw [pendingOf_of_mem hv, ← hk]
    omega

/-- **One turn on the arrays is one step**, and no fault. -/
theorem Sound.turn_tally (h : Sound w members s) (hnodup : members.Nodup)
    (hsorted : members.Pairwise (· < ·)) :
    Tally.turn w members (s.tally w members)
      = some (((s.step w).getD s).tally w members) := by
  cases hqueue : s.queue with
  | nil =>
      have hstep : s.step w = none := by simp only [Emission.step, hqueue]
      rw [hstep]
      simp [Tally.turn, tally, hqueue]
  | cons u rest =>
      obtain ⟨hu, hnew⟩ := h.front hnodup hqueue
      have hstep : s.step w = some (s.write w u rest) :=
        step_eq_some_iff.mpr ⟨u, rest, hqueue, rfl⟩
      have hsuccessors : ((w.successors u).filter (· ∈ members)).Nodup :=
        ((List.nodup_finRange n).filter _).filter _
      have hpos : ∀ v ∈ (w.successors u).filter (· ∈ members), 0 < s.pendingOf w members v := by
        intro v hv
        obtain ⟨hedge, hmem⟩ := List.mem_filter.mp hv
        rw [pendingOf_of_mem (by simpa using hmem)]
        exact h.missing_pos hnodup hqueue ((w.mem_successors_iff u v).mp hedge)
      have hmarks : Function.update s.written.contains u true = (s.written ++ [u]).contains := by
        funext v
        by_cases hv : v = u
        · simp [hv]
        · simp [hv]
      have hcounts : (fun v => s.pendingOf w members v
            - if v ∈ (w.successors u).filter (· ∈ members) then 1 else 0)
          = (s.write w u rest).pendingOf w members := by
        funext v
        have hcount := missing_append_singleton (w := w) hnodup hu hnew v
        simp only [List.mem_filter, Wiring.mem_successors_iff, decide_eq_true_eq]
        by_cases hv : v ∈ members
        · simp only [pendingOf_of_mem hv, write, hv, and_true]
          omega
        · rw [pendingOf_of_not_mem hv, pendingOf_of_not_mem hv, Nat.zero_sub]
      rw [hstep, Option.getD_some, Tally.turn]
      simp only [tally, hqueue, List.map_cons]
      rw [changeAt_ofFn, w.successorsAt_val]
      change List.foldlM Tally.release _ _ = _
      rw [Tally.foldlM_release hsuccessors _ hpos, hcounts, h.filter_successors hsorted u]
      dsimp only
      rw [hmarks]
      simp [write]

end Emission

end

/-! ## 5. The whole loop -/

section

variable {n : ℕ} {w : Wiring n} {members : List (Fin n)} {s : Emission n}

/-- Counting gives what `Emission` begins with. -/
theorem Tally.start_eq (w : Wiring n) (members : List (Fin n)) :
    Tally.start w members = some ((Emission.start w members).tally w members) := by
  have hcounts : (fun v => 0 + if v ∈ members then members.countP (w.edge · v) else 0)
      = (Emission.start w members).pendingOf w members := by
    funext v
    simp [Emission.pendingOf, Emission.missing, Emission.start]
  rw [Tally.start, replicate_eq_ofFn, foldlM_members, hcounts, replicate_eq_ofFn]
  rfl

/-- **The arrays after so many turns are those after as many steps.** -/
theorem Tally.after_eq (hrooted : w.IsRooted members) (hsorted : members.Pairwise (· < ·)) (k : ℕ) :
    Tally.after w members k
      = some (((Emission.start w members).after w k).tally w members) := by
  induction k with
  | zero => exact Tally.start_eq w members
  | succ k ih =>
      have hsound := (Emission.sound_start hrooted).after hrooted.nodup k
      rw [Tally.after, ih]
      exact hsound.turn_tally hrooted.nodup hsorted

theorem contains_map_val (l : List (Fin n)) (v : Fin n) :
    (l.map Fin.val).contains (v : ℕ) = l.contains v := by
  rw [Bool.eq_iff_iff, List.contains_iff_mem, List.contains_iff_mem,
    List.mem_map_of_injective Fin.val_injective]

namespace Emission

theorem joined_tally (s : Emission n) :
    (s.tally w members).joined = (s.written ++ s.queue).map Fin.val :=
  List.map_append.symm

/-- The arrays of a sound state are right. -/
theorem Sound.isRight_tally (h : Sound w members s) (hnodup : members.Nodup) :
    (s.tally w members).IsRight w members := by
  constructor
  · intro v hv
    rw [tally, getElem?_ofFn_val, pendingOf_of_mem hv, missing]
    congr 2
    funext u
    rw [contains_map_val]
  · rw [joined_tally]
    exact (List.nodup_append.mp (h.nodup hnodup)).1.map Fin.val_injective
  · intro i hi
    rw [joined_tally] at hi
    obtain ⟨v, hv, rfl⟩ := List.mem_map.mp hi
    have hmem : v ∈ members := h.shared.mem_iff.mp (List.mem_append_left _ hv)
    refine ⟨v, hmem, rfl, Or.inr ?_⟩
    rw [tally, getElem?_ofFn_val, pendingOf_of_mem hmem, h.missing_eq_zero hv]
  · intro v _
    rw [tally, getElem?_ofFn_val, contains_map_val]

/-- Once the queue is empty, what waits is what is not written, in the order of declaration. -/
theorem Sound.map_fst_waiting (h : Sound w members s) (hnodup : members.Nodup)
    (hsorted : members.Pairwise (· < ·)) (hqueue : s.queue = []) :
    s.waiting.map (·.1) = members.filter fun v => !decide (v ∈ s.written) := by
  have hall := h.nodup hnodup
  have hshared := h.shared
  rw [hqueue, List.append_nil] at hall hshared
  refine (hsorted.sublist h.listed).sortedLT.eq_of_mem_iff
    (hsorted.sublist List.filter_sublist).sortedLT fun v => ?_
  rw [List.mem_filter, ← hshared.mem_iff, List.mem_append]
  simp only [Bool.not_eq_true', decide_eq_false_iff_not]
  constructor
  · intro hv
    exact ⟨Or.inr hv, fun hwritten => (List.nodup_append.mp hall).2.2 v hwritten v hv rfl⟩
  · rintro ⟨hor, hnew⟩
    exact hor.resolve_left hnew

end Emission

end

/-- **The counts of the emission loop are right after every turn, and it ends.** Unless a member
feeds the root, and then the loop is not entered, it has a state after any number of turns: no
position is out of range and no count goes below zero. In each state the count of a member is that
of its predecessors among the members which are still to be taken from the queue, and nobody has
joined the queue twice or with something to wait for. After no more turns than there are members the
queue is empty, and what is written and marked by then is the schedule, or leaves over what is
stuck. -/
theorem counts_stay_right {n : ℕ} (w : Wiring n) :
    match w.supported.find? fun u => w.edge u w.root with
    | some u => w.schedule = .error [u]
    | none =>
      (∀ k, ∃ t, Tally.after w w.supported k = some t ∧ t.IsRight w w.supported ∧
        t.written = ((Emission.start w w.supported).after w k).written.map Fin.val ∧
        t.queue = ((Emission.start w w.supported).after w k).queue.map Fin.val ∧
        ∃ t', Tally.after w w.supported (k + 1) = some t' ∧ t.joined <+: t'.joined) ∧
      ∃ k ≤ w.supported.length, ∃ t, Tally.after w w.supported k = some t ∧
        t.queue = [] ∧ t.written.length = k ∧
        match w.schedule with
        | .ok written => written.map Fin.val = t.written
        | .error stuck =>
          stuck = w.supported.filter fun v : Fin n => t.marks[(v : ℕ)]? = some false := by
  cases hfind : w.supported.find? fun u => w.edge u w.root with
  | some u => simp only [Wiring.schedule, hfind]
  | none =>
      have hrooted := Wiring.isRooted_supported hfind
      have hsound := Emission.sound_start hrooted
      have hafter := Tally.after_eq hrooted w.pairwise_supported
      refine ⟨fun k => ⟨_, hafter k, (hsound.after hrooted.nodup k).isRight_tally hrooted.nodup,
        rfl, rfl, _, hafter (k + 1), ?_⟩, ?_⟩
      · rw [Emission.joined_tally, Emission.joined_tally]
        exact (Emission.prefix_after w _ k).map Fin.val
      · obtain ⟨k, hrun, hlength⟩ :=
          Emission.exists_after_eq_run w (Emission.start w w.supported)
        obtain ⟨hend, hqueue⟩ := hsound.run hrooted.nodup (Emission.start w w.supported)
        have hwritten : ((Emission.start w w.supported).run w).written.length = k := by
          rw [← hlength]
          exact Nat.zero_add k
        have hle : k ≤ w.supported.length := by
          rw [← hwritten, ← hend.shared.length_eq]
          simp only [List.length_append]
          omega
        refine ⟨k, hle, _, hafter k, ?_⟩
        rw [hrun]
        refine ⟨by simp [Emission.tally, hqueue], by simp [Emission.tally, hwritten], ?_⟩
        have hstuck := hend.map_fst_waiting hrooted.nodup w.pairwise_supported hqueue
        simp only [Wiring.schedule, hfind]
        cases hwaiting : ((Emission.start w w.supported).run w).waiting with
        | nil => rfl
        | cons entry rest =>
            rw [hwaiting] at hstuck
            dsimp only
            rw [hstuck]
            refine List.filter_congr fun v _ => ?_
            rw [Emission.tally, getElem?_ofFn_val]
            simp

-- Two modules that feed each other: the first waits for the root as well, and for the second for
-- ever.
example :
    (List.range 3).map (fun k =>
      (Tally.after (⟨0, #v[none, some 0, some 1], #v[none, none, some 1]⟩ : Wiring 3)
        [0, 1, 2] k).map fun t => (t.pending.toList, t.written, t.queue))
      = [some ([0, 2, 1], [], [0]), some ([0, 1, 1], [0], []), some ([0, 1, 1], [0], [])] := by
  decide +kernel

end LayerScript
