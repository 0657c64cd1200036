/-
`Proofs/Graph/Marks.lean` -- the search for what can be written, kept in arrays.

`Wiring.connected` walks on a list of candidates that shrinks, and `Wiring.settled` repeats it on
fewer of them, so both end for a reason that is built into their recursion. Here the search is
written a second time, on arrays that are addressed by position, where nothing ends of itself: a
walk marks what it sees and goes on until its queue is empty, the search blocks the orphans among
the marks and walks again until there are none. A position outside of an array is a fault, and so
is a walk that is not over after as many turns as there are modules (`Walk.marks`).

Neither occurs, because the two forms go through the same states. What a walk may still mark are
the candidates of `Wiring.sweep`, in the same order, and each turn takes one from the queue and
moves to it only what was a candidate (`Walk.turns_ofFn`). What is not blocked after so many walks
are the candidates after as many rounds, with the root (`Search.exists_after`); a round that finds
orphans leaves fewer of them, and the root is not among them from the beginning, so the last walk
is at most the one with the number of all modules.
-/
import LayerScript.Proofs.Graph.Positions
import LayerScript.Proofs.Graph.Support

set_option autoImplicit false

open Relation

namespace LayerScript

/-! ## 1. The loops -/

/-- A moment of a walk, by position: which modules were seen, and those among them from which the
walk is still to go on. -/
structure Walk where
  seen : Array Bool
  queue : List ℕ
deriving DecidableEq, Repr

namespace Walk

variable {n : ℕ}

/-- Looks at the module at a position. Unless it was seen before or is blocked it is marked, and
joins the queue. -/
def look (blocked : Array Bool) (t : Walk) (i : ℕ) : Option Walk := do
  if ← t.seen[i]? then
    some t
  else if ← blocked[i]? then
    some t
  else
    let seen ← changeAt (fun _ => some true) t.seen i
    some ⟨seen, t.queue ++ [i]⟩

/-- One turn: the front is taken from the queue, and the walk looks at the modules that it has an
edge to. With an empty queue nothing happens any more. -/
def turn (w : Wiring n) (blocked : Array Bool) (t : Walk) : Option Walk :=
  match t.queue with
  | [] => some t
  | u :: rest => do
    let successors ← w.successorsAt (List.finRange n) u
    successors.foldlM (look blocked) { t with queue := rest }

/-- So many turns, one after the other. -/
def turns (w : Wiring n) (blocked : Array Bool) : ℕ → Walk → Option Walk
  | 0, t => some t
  | k + 1, t => turn w blocked t >>= turns w blocked k

/-- The state before the first turn: only the root was seen. -/
def start (w : Wiring n) : Option Walk := do
  let seen ← changeAt (fun _ => some true) (Array.replicate n false) w.root
  some ⟨seen, [w.root]⟩

/-- What a walk has marked when its queue is empty. There is no result when it is not empty after
as many turns as there are modules. -/
def marks (w : Wiring n) (blocked : Array Bool) : Option (Array Bool) := do
  let t ← start w >>= turns w blocked n
  if t.queue.isEmpty then some t.seen else none

end Walk

/-- A moment of the search, by position: which modules are blocked, and the marks of the last walk,
once there are no orphans among them. -/
structure Search where
  blocked : Array Bool
  found : Option (Array Bool)
deriving DecidableEq, Repr

namespace Search

variable {n : ℕ}

/-- Whether a module was seen, but not the one that it is applied to. The root never counts as an
orphan. -/
def isOrphan (w : Wiring n) (seen : Array Bool) (v : Fin n) : Option Bool := do
  if v = w.root then
    some false
  else if ← seen[(v : ℕ)]? then
    match w.producer v with
    | none => some false
    | some p => do
      let known ← seen[(p : ℕ)]?
      some !known
  else
    some false

/-- The orphans, in the order of declaration. -/
def orphans (w : Wiring n) (seen : Array Bool) : Option (List (Fin n)) :=
  (List.finRange n).foldlM (fun found v => do
    if ← isOrphan w seen v then some (found ++ [v]) else some found) []

/-- One walk. The orphans that it finds are blocked, and when it finds none the search is over and
nothing happens any more. -/
def step (w : Wiring n) (s : Search) : Option Search :=
  match s.found with
  | some _ => some s
  | none => do
    let seen ← Walk.marks w s.blocked
    let orphaned ← orphans w seen
    if orphaned.isEmpty then
      some { s with found := some seen }
    else
      let blocked ← (orphaned.map Fin.val).foldlM (changeAt fun _ => some true) s.blocked
      some { s with blocked := blocked }

/-- The state after so many walks, if none of them was a fault. Nothing is blocked at first. -/
def after (w : Wiring n) : ℕ → Option Search
  | 0 => some ⟨Array.replicate n false, none⟩
  | k + 1 => after w k >>= step w

end Search

/-! ## 2. One turn -/

namespace Walk

section

variable {n : ℕ} {blocked seen : Fin n → Bool}

/-- The walk whose marks are given by a function of the modules. -/
def ofFn (seen : Fin n → Bool) (queue : List (Fin n)) : Walk :=
  ⟨Array.ofFn seen, queue.map Fin.val⟩

/-- What a walk may still mark, in the order of declaration. -/
def unseen (blocked seen : Fin n → Bool) : List (Fin n) :=
  (List.finRange n).filter fun v => !seen v && !blocked v

theorem mem_unseen_iff (v : Fin n) :
    v ∈ unseen blocked seen ↔ seen v = false ∧ blocked v = false := by
  simp [unseen]

theorem look_ofFn (blocked seen : Fin n → Bool) (queue : List (Fin n)) (v : Fin n) :
    look (Array.ofFn blocked) (ofFn seen queue) v
      = some (if seen v || blocked v then ofFn seen queue
          else ofFn (Function.update seen v true) (queue ++ [v])) := by
  simp only [look, ofFn, getElem?_ofFn_val, changeAt_ofFn]
  cases seen v <;> cases blocked v <;> simp

/-- Looking at several modules, each of them once. -/
theorem foldlM_look {vs : List (Fin n)} (hnodup : vs.Nodup) (blocked seen : Fin n → Bool)
    (queue : List (Fin n)) :
    (vs.map Fin.val).foldlM (look (Array.ofFn blocked)) (ofFn seen queue)
      = some (ofFn (fun v => seen v || (decide (v ∈ vs) && !blocked v))
          (queue ++ vs.filter fun v => !seen v && !blocked v)) := by
  induction vs generalizing seen queue with
  | nil => simp
  | cons x vs ih =>
      obtain ⟨hx, hvs⟩ := List.nodup_cons.mp hnodup
      rw [List.map_cons, List.foldlM_cons, look_ofFn]
      change List.foldlM _ _ _ = _
      by_cases hold : (seen x || blocked x) = true
      · -- Seen or blocked, the first is passed over, and what it adds on the right is nothing.
        rw [if_pos hold, ih hvs]
        congr 2
        · funext v
          by_cases hv : v = x
          · subst hv
            revert hold
            cases seen v <;> cases blocked v <;> simp
          · simp [hv]
        · rw [List.filter_cons_of_neg]
          revert hold
          cases seen x <;> simp
      · rw [if_neg hold, ih hvs]
        -- Nobody in the rest is marked by what happens to the first.
        have hsame : vs.filter (fun v => !Function.update seen x true v && !blocked v)
            = vs.filter fun v => !seen v && !blocked v := by
          refine List.filter_congr fun v hv => ?_
          rw [Function.update_of_ne]
          rintro rfl
          exact hx hv
        rw [hsame]
        simp only [Bool.or_eq_true, not_or, Bool.not_eq_true] at hold
        congr 2
        · funext v
          by_cases hv : v = x
          · subst hv
            simp [hold]
          · simp [hv]
        · rw [List.filter_cons_of_pos (by simp [hold]), List.append_assoc]
          rfl

/-- **A turn moves from what may still be marked to the queue what there is an edge to.** -/
theorem turn_ofFn (w : Wiring n) (blocked seen : Fin n → Bool) (u : Fin n) (rest : List (Fin n)) :
    turn w (Array.ofFn blocked) (ofFn seen (u :: rest))
      = some (ofFn (fun v => seen v || (w.edge u v && !blocked v))
          (rest ++ w.hits u (unseen blocked seen))) := by
  have hnodup : (w.successors u).Nodup := (List.nodup_finRange n).filter _
  have hhits : (w.successors u).filter (fun v => !seen v && !blocked v)
      = w.hits u (unseen blocked seen) := by
    rw [Wiring.hits, unseen, Wiring.successors, List.filter_filter, List.filter_filter]
    exact List.filter_congr fun v _ => Bool.and_comm _ _
  have hedge : ∀ v, decide (v ∈ w.successors u) = w.edge u v := by
    intro v
    rw [Wiring.successors, Bool.eq_iff_iff]
    simp
  simp only [turn, ofFn, List.map_cons, w.successorsAt_val]
  change List.foldlM _ _ _ = _
  have hall : (w.successors u).filter (· ∈ List.finRange n) = w.successors u := by simp
  rw [hall]
  have hlook := foldlM_look hnodup blocked seen rest
  simp only [ofFn] at hlook
  rw [hlook, hhits]
  simp only [hedge]

/-- What is left after that has no edge from there. -/
theorem unseen_turn (w : Wiring n) (blocked seen : Fin n → Bool) (u : Fin n) :
    unseen blocked (fun v => seen v || (w.edge u v && !blocked v))
      = w.misses u (unseen blocked seen) := by
  rw [Wiring.misses, unseen, unseen, List.filter_filter]
  refine List.filter_congr fun v _ => ?_
  cases seen v <;> cases blocked v <;> cases w.edge u v <;> rfl

/-! ## 3. The whole walk -/

/-- With an empty queue nothing happens any more. -/
theorem turns_of_queue_eq_nil (w : Wiring n) (blocked : Array Bool) {t : Walk} (h : t.queue = [])
    (k : ℕ) : turns w blocked k t = some t := by
  induction k with
  | zero => rfl
  | succ k ih =>
      have hturn : turn w blocked t = some t := by simp only [turn, h]
      rw [turns, hturn]
      exact ih

/-- **After enough turns a walk has marked what the sweep does not leave over**, and its queue is
empty. -/
theorem turns_ofFn (w : Wiring n) (blocked seen : Fin n → Bool) (queue : List (Fin n)) (k : ℕ)
    (hk : queue.length + (unseen blocked seen).length ≤ k) :
    turns w (Array.ofFn blocked) k (ofFn seen queue)
      = some (ofFn (fun v => seen v || decide (v ∈ unseen blocked seen ∧
          v ∉ w.sweep queue (unseen blocked seen))) []) := by
  -- The queue and what may still be marked only get fewer together, one in each turn.
  induction k generalizing seen queue with
  | zero =>
      have hqueue : queue = [] := List.length_eq_zero_iff.mp (by omega)
      subst hqueue
      simp [turns, Wiring.sweep]
  | succ k ih =>
      cases queue with
      | nil =>
          rw [turns_of_queue_eq_nil w _ rfl]
          simp [Wiring.sweep]
      | cons u rest =>
          have hmisses := unseen_turn w blocked seen u
          have henough : (rest ++ w.hits u (unseen blocked seen)).length
              + (w.misses u (unseen blocked seen)).length ≤ k := by
            have hlength := w.length_hits_add_length_misses u (unseen blocked seen)
            simp only [List.length_append, List.length_cons] at hk ⊢
            omega
          rw [turns, turn_ofFn]
          change turns _ _ _ _ = _
          rw [ih _ _ (by rwa [hmisses]), hmisses, Wiring.sweep]
          congr 2
          funext v
          have hmem : v ∈ w.misses u (unseen blocked seen) ↔
              (seen v = false ∧ blocked v = false) ∧ w.edge u v = false := by
            simp [Wiring.misses, mem_unseen_iff]
          by_cases hedge : w.edge u v = true
          · -- A module that is hit now is no candidate later, so the sweep does not leave it over.
            have hnot : v ∉ w.sweep (rest ++ w.hits u (unseen blocked seen))
                (w.misses u (unseen blocked seen)) := by
              intro hv
              have := (hmem.mp ((w.mem_sweep_iff _ _ v).mp hv).1).2
              simp [this] at hedge
            cases hseen : seen v <;> simp [hmem, mem_unseen_iff, hedge, hnot, hseen]
          · simp [hmem, mem_unseen_iff, hedge]

theorem start_eq (w : Wiring n) : start w = some (ofFn (· == w.root) [w.root]) := by
  have hseen : Function.update (fun _ => false) w.root true = (· == w.root) := by
    funext v
    by_cases hv : v = w.root
    · simp [hv]
    · simp [hv]
  rw [start, replicate_eq_ofFn, changeAt_ofFn, Option.map_some, hseen]
  rfl

end

end Walk

/-- The root is no candidate, so there are fewer of them than modules. -/
theorem Wiring.length_others_lt {n : ℕ} (w : Wiring n) : w.others.length < n := by
  have hlt : w.others.length < (List.finRange n).length := by
    rw [others, List.length_filter_lt_length_iff_exists]
    exact ⟨w.root, List.mem_finRange _, by simp⟩
  rwa [List.length_finRange] at hlt

/-- Whether a module is marked by a walk among the candidates: the root always is. -/
def Wiring.isMarked {n : ℕ} (w : Wiring n) (candidates : List (Fin n)) (v : Fin n) : Bool :=
  v == w.root || (w.connected candidates).contains v

theorem Wiring.isMarked_iff {n : ℕ} (w : Wiring n) (candidates : List (Fin n)) (v : Fin n) :
    w.isMarked candidates v = true ↔ v = w.root ∨ v ∈ w.connected candidates := by
  simp [isMarked]

/-- **A walk on arrays is over in time, and marks what is connected.** -/
theorem Walk.marks_ofFn {n : ℕ} (w : Wiring n) (blocked : Fin n → Bool) :
    marks w (Array.ofFn blocked)
      = some (Array.ofFn (w.isMarked (w.others.filter fun v => !blocked v))) := by
  have hcandidates : unseen blocked (· == w.root) = w.others.filter fun v => !blocked v := by
    rw [unseen, Wiring.others, List.filter_filter]
    refine List.filter_congr fun v _ => ?_
    by_cases hv : v = w.root <;> simp [hv]
  have henough : [w.root].length + (unseen blocked (· == w.root)).length ≤ n := by
    have hlt := w.length_others_lt
    have hle := List.length_filter_le (fun v => !blocked v) w.others
    rw [hcandidates, List.length_singleton]
    omega
  rw [marks, start_eq]
  change (turns _ _ _ _ >>= _) = _
  rw [turns_ofFn _ _ _ _ _ henough, hcandidates]
  change some (Array.ofFn _) = some _
  congr 2
  funext v
  have hmem : v ∈ w.connected (w.others.filter fun v => !blocked v) ↔
      v ∈ w.others.filter (fun v => !blocked v) ∧
        v ∉ w.sweep [w.root] (w.others.filter fun v => !blocked v) := by
    rw [Wiring.connected, List.mem_filter, decide_eq_true_iff]
  rw [Bool.eq_iff_iff, w.isMarked_iff, hmem]
  simp only [Bool.or_eq_true, beq_iff_eq, decide_eq_true_eq]

/-- The same of any array that has a place for each module. -/
theorem Walk.exists_marks {n : ℕ} (w : Wiring n) (blocked : Vector Bool n) :
    ∃ seen : Vector Bool n, marks w blocked.toArray = some seen.toArray ∧ ∀ v,
      (seen.get v = true ↔
        v = w.root ∨ v ∈ w.connected (w.others.filter fun u => !blocked.get u)) := by
  have harray : blocked.toArray = Array.ofFn blocked.get := by
    ext i hi hi' <;> simp [Vector.get]
  refine ⟨Vector.ofFn (w.isMarked (w.others.filter fun u => !blocked.get u)), ?_, fun v => ?_⟩
  · rw [harray, marks_ofFn, Vector.toArray_ofFn]
  · have hget : (Vector.ofFn (w.isMarked (w.others.filter fun u => !blocked.get u))).get v
        = w.isMarked (w.others.filter fun u => !blocked.get u) v := by
      simp only [Vector.get, Vector.toArray_ofFn, Array.getElem_ofFn]
      rfl
    rw [hget, w.isMarked_iff]

/-- What the walk marks can be reached from the root without a blocked module behind it. -/
theorem Wiring.mem_connected_unblocked_iff {n : ℕ} (w : Wiring n) (blocked : Fin n → Bool)
    (v : Fin n) :
    v = w.root ∨ v ∈ w.connected (w.others.filter fun u => !blocked u) ↔
      ReflTransGen (w.Into {u | blocked u = false}) w.root v := by
  have hset : {y | y ∈ w.others.filter fun u => !blocked u}
      = {u | blocked u = false} \ {w.root} := by
    ext u
    simp [others]
  rw [mem_connected_iff, hset, reflTransGen_into_root_iff]

/-! ## 4. One walk of the search -/

section

variable {n : ℕ} {w : Wiring n} {candidates : List (Fin n)}

/-- Whether a module was cut off from the candidates, among which the root never is. -/
def Wiring.isCut (w : Wiring n) (candidates : List (Fin n)) (v : Fin n) : Bool :=
  v != w.root && !candidates.contains v

theorem Wiring.isCut_iff (w : Wiring n) (candidates : List (Fin n)) (v : Fin n) :
    w.isCut candidates v = true ↔ v ≠ w.root ∧ v ∉ candidates := by
  simp [isCut]

/-- The root is no candidate. -/
theorem Wiring.ne_root_of_sublist (hsub : candidates.Sublist w.others) {v : Fin n}
    (hv : v ∈ candidates) : v ≠ w.root :=
  (w.mem_others_iff v).mp (hsub.subset hv)

/-- The candidates are what was not cut off, but for the root. -/
theorem Wiring.filter_isCut (hsub : candidates.Sublist w.others) :
    w.others.filter (fun v => !w.isCut candidates v) = candidates := by
  have hothers : w.others.Sublist (List.finRange n) := List.filter_sublist
  refine eq_of_sublist_finRange (List.filter_sublist.trans hothers) (hsub.trans hothers) fun v => ?_
  rw [List.mem_filter, mem_others_iff, Bool.not_eq_true', ← Bool.not_eq_true, isCut_iff, not_and,
    not_not]
  exact ⟨fun h => h.2 h.1, fun h => ⟨ne_root_of_sublist hsub h, fun _ => h⟩⟩

namespace Search

theorem isOrphan_ofFn (w : Wiring n) (seen : Fin n → Bool) (v : Fin n) :
    isOrphan w (Array.ofFn seen) v
      = some (decide (v ≠ w.root) && (seen v && (w.producer v).any (!seen ·))) := by
  simp only [isOrphan, getElem?_ofFn_val]
  by_cases hroot : v = w.root
  · simp [hroot]
  · rw [if_neg hroot]
    cases seen v <;> cases w.producer v <;> simp [hroot]

/-- Collecting what passes a test that always has a result. -/
theorem foldlM_select {α : Type} {test : α → Option Bool} {p : α → Bool}
    (htest : ∀ a, test a = some (p a)) (l found : List α) :
    l.foldlM (fun found a => do if ← test a then some (found ++ [a]) else some found) found
      = some (found ++ l.filter p) := by
  induction l generalizing found with
  | nil => simp
  | cons a l ih =>
      rw [List.foldlM_cons, htest]
      cases ha : p a with
      | true =>
          rw [List.filter_cons_of_pos ha]
          exact (ih (found ++ [a])).trans (by rw [List.append_assoc, List.singleton_append])
      | false =>
          rw [List.filter_cons_of_neg (Bool.not_eq_true _ ▸ ha)]
          exact ih found

/-- **The orphans among the marks are those among the candidates.** -/
theorem orphans_ofFn (hsub : candidates.Sublist w.others) :
    orphans w (Array.ofFn (w.isMarked candidates))
      = some (w.orphans (w.connected candidates)) := by
  have hconnected : (w.connected candidates).Sublist (List.finRange n) :=
    (List.filter_sublist.trans hsub).trans List.filter_sublist
  rw [orphans, foldlM_select (isOrphan_ofFn w _), List.nil_append]
  congr 1
  refine eq_of_sublist_finRange List.filter_sublist (List.filter_sublist.trans hconnected)
    fun v => ?_
  have hroot : v ∈ w.connected candidates → v ≠ w.root := fun hv =>
    Wiring.ne_root_of_sublist hsub (w.connected_subset _ hv)
  rw [Wiring.mem_orphans_iff, List.mem_filter]
  cases hproducer : w.producer v with
  | none => simp
  | some p =>
      simp only [List.mem_finRange, true_and, Option.any_some, Bool.and_eq_true, decide_eq_true_eq,
        Bool.not_eq_true', Bool.eq_false_iff, ne_eq, Wiring.isMarked_iff, Option.some_inj,
        exists_eq_left']
      tauto

/-- **A walk of the search does what a round does**: it blocks the candidates that the round cuts
off, or it ends the search when there is no such round. -/
theorem step_ofFn (hsub : candidates.Sublist w.others) :
    step w ⟨Array.ofFn (w.isCut candidates), none⟩
      = some (match w.round candidates with
        | none => ⟨Array.ofFn (w.isCut candidates), some (Array.ofFn (w.isMarked candidates))⟩
        | some fewer => ⟨Array.ofFn (w.isCut fewer), none⟩) := by
  simp only [step, Walk.marks_ofFn, Wiring.filter_isCut hsub]
  change (orphans _ _ >>= _) = _
  rw [orphans_ofFn hsub]
  cases hround : w.round candidates with
  | none =>
      rw [Wiring.round_eq_none_iff.mp hround]
      rfl
  | some fewer =>
      obtain ⟨hne, rfl⟩ := Wiring.round_eq_some_iff.mp hround
      have hnodup : (w.orphans (w.connected candidates)).Nodup :=
        ((((List.nodup_finRange n).filter _).sublist hsub).filter _).filter _
      have hblocked : (fun v => if v ∈ w.orphans (w.connected candidates) then true
            else w.isCut candidates v)
          = w.isCut (candidates.filter fun v =>
              !(w.orphans (w.connected candidates)).contains v) := by
        funext v
        have hroot : v ∈ w.orphans (w.connected candidates) → v ≠ w.root := fun hv =>
          Wiring.ne_root_of_sublist hsub (w.connected_subset _ (List.mem_filter.mp hv).1)
        by_cases horphan : v ∈ w.orphans (w.connected candidates)
        · simp [Wiring.isCut, horphan, hroot horphan]
        · simp [Wiring.isCut, horphan]
      have hsome : (w.orphans (w.connected candidates)).isEmpty = false :=
        List.isEmpty_eq_false_iff.mpr hne
      change (if _ then _ else _ : Option _) = _
      rw [hsome, if_neg Bool.false_ne_true, foldlM_changeAt (fun _ => true) hnodup, hblocked]
      rfl

end Search

end

/-! ## 5. Rounds -/

namespace Wiring

variable {n : ℕ}

/-- The candidates after so many rounds. When a round finds no orphans they stay the same. -/
def rounds (w : Wiring n) : ℕ → List (Fin n)
  | 0 => w.others
  | k + 1 => (w.round (w.rounds k)).getD (w.rounds k)

variable {w : Wiring n} {k : ℕ}

theorem rounds_succ_of_none (hround : w.round (w.rounds k) = none) :
    w.rounds (k + 1) = w.rounds k := by
  rw [rounds, hround, Option.getD_none]

theorem rounds_succ_of_some {fewer : List (Fin n)} (hround : w.round (w.rounds k) = some fewer) :
    w.rounds (k + 1) = fewer := by
  rw [rounds, hround, Option.getD_some]

/-- What holds of the candidates at the beginning and is kept by every round holds of them for
good. -/
theorem rounds_induction {motive : List (Fin n) → Prop} (start : motive w.others)
    (keeps : ∀ candidates fewer, motive candidates → w.round candidates = some fewer → motive fewer)
    (k : ℕ) : motive (w.rounds k) := by
  induction k with
  | zero => exact start
  | succ k ih =>
      cases hround : w.round (w.rounds k) with
      | none => rwa [rounds_succ_of_none hround]
      | some fewer =>
          rw [rounds_succ_of_some hround]
          exact keeps _ _ ih hround

/-- Rounds only take candidates away. -/
theorem sublist_rounds (w : Wiring n) (k : ℕ) : (w.rounds k).Sublist w.others := by
  refine rounds_induction (motive := (List.Sublist · w.others)) (List.Sublist.refl _)
    (fun candidates fewer hsub hround => ?_) k
  obtain ⟨-, rfl⟩ := round_eq_some_iff.mp hround
  exact List.filter_sublist.trans hsub

/-- **No round takes away a member of a supported set.** -/
theorem IsSupported.subset_rounds {T : Set (Fin n)} (hT : w.IsSupported T) (k : ℕ) :
    ∀ v ∈ T, v ≠ w.root → v ∈ w.rounds k :=
  rounds_induction (motive := fun candidates => ∀ v ∈ T, v ≠ w.root → v ∈ candidates)
    (fun v _ hroot => (w.mem_others_iff v).mpr hroot)
    (fun _ _ hsub hround => hT.subset_of_round hround hsub) k

/-- What the rounds come to does not change on the way. -/
theorem settled_rounds (w : Wiring n) (k : ℕ) : w.settled (w.rounds k) = w.settled w.others := by
  refine rounds_induction (motive := fun candidates => w.settled candidates = w.settled w.others)
    rfl (fun candidates fewer hsettled hround => ?_) k
  rw [← hsettled, settled.eq_1 w candidates, hround]

/-- As long as rounds find orphans, each takes a candidate away. -/
theorem length_rounds_add_le (hgoes : ∀ j < k, w.round (w.rounds j) ≠ none) :
    (w.rounds k).length + k ≤ w.others.length := by
  induction k with
  | zero => exact Nat.le_refl _
  | succ k ih =>
      obtain ⟨fewer, hround⟩ := Option.ne_none_iff_exists'.mp (hgoes k (Nat.lt_succ_self k))
      have hlt := length_lt_of_round hround
      have hle := ih fun j hj => hgoes j (Nat.lt_succ_of_lt hj)
      rw [rounds_succ_of_some hround]
      omega

/-- **After fewer rounds than there are modules one finds no orphans.** -/
theorem exists_round_eq_none (w : Wiring n) : ∃ k < n, w.round (w.rounds k) = none := by
  by_contra hends
  have hle := length_rounds_add_le fun j hj hround => hends ⟨j, hj, hround⟩
  have hlt := w.length_others_lt
  omega

end Wiring

/-! ## 6. The whole search -/

namespace Search

variable {n : ℕ}

/-- What is right about a moment of the search. -/
structure IsRight (w : Wiring n) (s : Search) : Prop where
  /-- The root is not blocked. -/
  root : s.blocked[(w.root : ℕ)]? = some false
  /-- No member of a supported set is blocked. -/
  spares : ∀ T, w.IsSupported T → ∀ v ∈ T, s.blocked[(v : ℕ)]? = some false
  /-- The marks that were found are those of the modules that can be written. -/
  found : ∀ seen, s.found = some seen → seen = Array.ofFn w.supported.contains

/-- What a walk changes that finds orphans: it blocks some, and no module is let go. -/
structure Blocks (w : Wiring n) (s t : Search) : Prop where
  grows : ∀ v : Fin n, s.blocked[(v : ℕ)]? = some true → t.blocked[(v : ℕ)]? = some true
  new : ∃ v, v ≠ w.root ∧ s.blocked[(v : ℕ)]? = some false ∧ t.blocked[(v : ℕ)]? = some true

/-- A moment of the search after so many rounds: what is blocked was cut off by them, and if marks
were found, there will be no more rounds. -/
structure IsAfter (w : Wiring n) (k : ℕ) (s : Search) : Prop where
  blocked : s.blocked = Array.ofFn (w.isCut (w.rounds k))
  found : ∀ seen, s.found = some seen →
    w.round (w.rounds k) = none ∧ seen = Array.ofFn (w.isMarked (w.rounds k))

variable {w : Wiring n} {k : ℕ} {s : Search}

/-- **One walk of the search is one round**, and it finds marks when the round finds no orphans. -/
theorem IsAfter.step (h : s.IsAfter w k) :
    ∃ t, s.step w = some t ∧ t.IsAfter w (k + 1) ∧
      (t.found = none → ∃ fewer, w.round (w.rounds k) = some fewer) := by
  obtain ⟨blocked, found⟩ := s
  obtain ⟨rfl, hfound⟩ := h
  cases found with
  | some seen =>
      obtain ⟨hround, rfl⟩ := hfound seen rfl
      refine ⟨_, rfl, ⟨?_, ?_⟩, fun hnone => by cases hnone⟩
      · rw [Wiring.rounds_succ_of_none hround]
      · rw [Wiring.rounds_succ_of_none hround]
        exact hfound
  | none =>
      rw [step_ofFn (w.sublist_rounds k)]
      cases hround : w.round (w.rounds k) with
      | none =>
          refine ⟨_, rfl, ⟨?_, ?_⟩, fun hnone => by cases hnone⟩
          · rw [Wiring.rounds_succ_of_none hround]
          · rintro seen ⟨⟩
            rw [Wiring.rounds_succ_of_none hround]
            exact ⟨hround, rfl⟩
      | some fewer =>
          refine ⟨_, rfl, ⟨?_, fun seen hseen => by cases hseen⟩, fun _ => ⟨fewer, rfl⟩⟩
          rw [Wiring.rounds_succ_of_some hround]

theorem after_succ {t : Search} (hs : after w k = some s) (ht : s.step w = some t) :
    after w (k + 1) = some t := by
  rw [after, hs]
  exact ht

/-- The search has a state after any number of walks. -/
theorem exists_after (w : Wiring n) (k : ℕ) : ∃ s, after w k = some s ∧ s.IsAfter w k := by
  induction k with
  | zero =>
      have hcut : w.isCut w.others = fun _ => false := by
        funext v
        simp [Wiring.isCut, Wiring.mem_others_iff]
      refine ⟨_, rfl, ⟨?_, fun seen hseen => by cases hseen⟩⟩
      rw [replicate_eq_ofFn, Wiring.rounds, hcut]
  | succ k ih =>
      obtain ⟨s, hs, hafter⟩ := ih
      obtain ⟨t, ht, hnext, -⟩ := hafter.step
      exact ⟨t, after_succ hs ht, hnext⟩

/-- Where the rounds end, what is marked can be written. -/
theorem isMarked_rounds (hround : w.round (w.rounds k) = none) :
    w.isMarked (w.rounds k) = w.supported.contains := by
  have hsettled : w.settled (w.rounds k) = w.connected (w.rounds k) := by
    rw [Wiring.settled, hround]
  funext v
  rw [Bool.eq_iff_iff, w.isMarked_iff, List.contains_iff_mem, w.mem_supported_iff,
    ← w.settled_rounds k, hsettled]

theorem IsAfter.getElem?_blocked (h : s.IsAfter w k) (v : Fin n) :
    s.blocked[(v : ℕ)]? = some (w.isCut (w.rounds k) v) := by
  rw [h.blocked, getElem?_ofFn_val]

/-- Every moment of the search is right. -/
theorem IsAfter.isRight (h : s.IsAfter w k) : s.IsRight w := by
  constructor
  · rw [h.getElem?_blocked]
    simp [Wiring.isCut]
  · intro T hT v hv
    rw [h.getElem?_blocked]
    simpa [Wiring.isCut] using hT.subset_rounds k v hv
  · intro seen hseen
    obtain ⟨hround, rfl⟩ := h.found seen hseen
    rw [isMarked_rounds hround]

/-- **A round that finds orphans blocks some of what was not blocked.** -/
theorem IsAfter.blocks {t : Search} {fewer : List (Fin n)} (h : s.IsAfter w k)
    (ht : t.IsAfter w (k + 1)) (hround : w.round (w.rounds k) = some fewer) : s.Blocks w t := by
  have hnext := Wiring.rounds_succ_of_some hround
  obtain ⟨hne, rfl⟩ := Wiring.round_eq_some_iff.mp hround
  constructor
  · intro v hv
    rw [h.getElem?_blocked] at hv
    rw [ht.getElem?_blocked, hnext]
    simp only [Option.some_inj, Wiring.isCut_iff] at hv ⊢
    exact ⟨hv.1, fun hmem => hv.2 (List.mem_filter.mp hmem).1⟩
  · -- Any of the orphans will do: it was reached, so it was a candidate.
    obtain ⟨v, hv⟩ := List.exists_mem_of_ne_nil _ hne
    have hmem : v ∈ w.rounds k := w.connected_subset _ (List.mem_filter.mp hv).1
    have hroot := Wiring.ne_root_of_sublist (w.sublist_rounds k) hmem
    refine ⟨v, hroot, ?_, ?_⟩
    · rw [h.getElem?_blocked]
      simp [Wiring.isCut, hmem]
    · rw [ht.getElem?_blocked, hnext]
      simp [Wiring.isCut, hroot, hv]

/-- **The search is over after no more walks than there are modules.** -/
theorem exists_found (w : Wiring n) :
    ∃ k ≤ n, ∃ s, after w k = some s ∧ s.found = some (Array.ofFn w.supported.contains) := by
  -- The walk that does the last round is one more than the rounds before it.
  obtain ⟨k, hk, hround⟩ := w.exists_round_eq_none
  obtain ⟨s, hs, hafter⟩ := exists_after w k
  obtain ⟨t, ht, hnext, hgoes⟩ := hafter.step
  refine ⟨k + 1, hk, t, after_succ hs ht, ?_⟩
  cases hfound : t.found with
  | none =>
      obtain ⟨fewer, hsome⟩ := hgoes hfound
      rw [hround] at hsome
      cases hsome
  | some seen => rw [hnext.isRight.found seen hfound]

end Search

/-- **Every walk ends, and so does the search.** Whatever is blocked, a walk is over after no more
turns than there are modules, and it has marked what a path from the root leads to that has no
blocked module behind the root; these are the root and what is connected among the other modules
that are not blocked. The search has a state after any number of walks. Blocked in it is what as
many rounds have cut off, never the root and never a member of a supported set, and a walk that does
not end the search blocks a module that was not blocked before. After no more walks than there are
modules the search has ended, with the marks of the largest supported set. -/
theorem walks_and_search_end {n : ℕ} (w : Wiring n) :
    (∀ blocked : Vector Bool n, ∃ seen : Vector Bool n,
      Walk.marks w blocked.toArray = some seen.toArray ∧
      ∀ v, (seen.get v = true ↔ ReflTransGen (w.Into {u | blocked.get u = false}) w.root v) ∧
        (seen.get v = true ↔
          v = w.root ∨ v ∈ w.connected (w.others.filter fun u => !blocked.get u))) ∧
    (∀ k, ∃ s, Search.after w k = some s ∧ s.IsRight w ∧
      (∀ v : Fin n, s.blocked[(v : ℕ)]? = some (v != w.root && !(w.rounds k).contains v)) ∧
      ∃ t, Search.after w (k + 1) = some t ∧ (t.found = none → s.Blocks w t)) ∧
    ∃ k ≤ n, ∃ s, Search.after w k = some s ∧
      s.found = some (Array.ofFn w.supported.contains) := by
  refine ⟨fun blocked => ?_, fun k => ?_, Search.exists_found w⟩
  · obtain ⟨seen, hmarks, hseen⟩ := Walk.exists_marks w blocked
    refine ⟨seen, hmarks, fun v => ⟨?_, hseen v⟩⟩
    exact (hseen v).trans (w.mem_connected_unblocked_iff blocked.get v)
  · obtain ⟨s, hs, hafter⟩ := Search.exists_after w k
    obtain ⟨t, ht, hnext, hgoes⟩ := hafter.step
    refine ⟨s, hs, hafter.isRight, hafter.getElem?_blocked, t, Search.after_succ hs ht, ?_⟩
    intro hnone
    obtain ⟨fewer, hround⟩ := hgoes hnone
    exact hafter.blocks hnext hround

-- The root feeds the module 2, which is applied to the island 1, and the module 3 is applied to 2:
-- it is an orphan only after 2 is blocked. What is left is found on the third walk.
example :
    (List.range 4).map (fun k =>
      (Search.after (⟨0, #v[none, none, some 1, some 2, some 0],
        #v[some 2, none, none, none, some 3]⟩ : Wiring 5) k).map fun s =>
          (s.blocked.toList, s.found.map Array.toList))
      = [some ([false, false, false, false, false], none),
          some ([false, false, true, false, false], none),
          some ([false, false, true, true, false], none),
          some ([false, false, true, true, false], some [true, false, false, false, true])] := by
  decide +kernel

end LayerScript
