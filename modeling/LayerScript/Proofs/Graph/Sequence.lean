/-
`Proofs/Graph/Sequence.lean` -- in which sequence the layers of an order come out.

A layer joins the queue when the last of its feeders is written, and the layers that one
write releases join in the order of declaration. Since the queue is served in order, two
numbers decide which of two layers comes first: the place of its last feeder in the output,
and, when that is the same, its place among the declarations. `Emission.InTurn` is this law at
every moment of the loop, for what is written and what is queued together; a step adds to its
end, and everything added has the module just written as its last feeder, which is a later one
than anybody had before.

The law speaks of places in the very sequence that it decides, so that it decides anything is
not plain. But a sequence that obeys it puts every layer behind its feeders
(`BreaksTies.idxOf_lt_of_feeds`), and two that do so cannot part: where they would, the feeders
of both layers stand in the common front, and the law says the same of both sequences
(`InSequence.next_eq`).
-/
import LayerScript.Proofs.Graph.Order
import Mathlib.Data.Prod.Lex
import Mathlib.Data.Nat.Find
import Mathlib.Order.Lattice.Nat

set_option autoImplicit false

open Relation

namespace LayerScript

/-! ## 1. The last place -/

section

variable {α β : Type}

/-- The last place in a list where something stands that is related to `a`, or 0. -/
def lastPlace (r : α → α → Bool) (l : List α) (a : α) : ℕ :=
  Nat.findGreatest (fun k => (l[k]?).any (r · a) = true) l.length

variable {r : α → α → Bool} {l back : List α} {a b : α}

/-- Something related that is added to the end stands at the last place. -/
theorem lastPlace_append_of_related (h : r b a = true) : lastPlace r (l ++ [b]) a = l.length := by
  rw [lastPlace, Nat.findGreatest_eq_iff]
  refine ⟨by simp, fun _ => by simpa using h, fun k hk hle => ?_⟩
  have hnone : (l ++ [b])[k]? = none := by
    rw [List.getElem?_eq_none_iff, List.length_append, List.length_singleton]
    omega
  simp [hnone]

/-- What is not related makes no difference at the end. -/
theorem lastPlace_append_of_unrelated (h : ∀ b ∈ back, r b a = false) :
    lastPlace r (l ++ back) a = lastPlace r l a := by
  obtain ⟨hle, hspec, hmax⟩ := Nat.findGreatest_eq_iff.mp (rfl : lastPlace r l a = lastPlace r l a)
  rw [lastPlace, Nat.findGreatest_eq_iff]
  refine ⟨by rw [List.length_append]; omega, fun hne => ?_, fun k hk hle' hany => ?_⟩
  · have hthere := hspec hne
    by_cases hlt : lastPlace r l a < l.length
    · rwa [List.getElem?_append_left hlt]
    · rw [List.getElem?_eq_none_iff.mpr (by omega)] at hthere
      cases hthere
  · by_cases hlt : k < l.length
    · rw [List.getElem?_append_left hlt] at hany
      exact hmax hk (by omega) hany
    · rw [List.getElem?_append_right (by omega), Option.any_eq_true] at hany
      obtain ⟨b, hb, hrelated⟩ := hany
      rw [h b (List.mem_of_getElem? hb)] at hrelated
      cases hrelated

/-- The last place is a place, if there is one at all. -/
theorem lastPlace_lt (h : l ≠ []) : lastPlace r l a < l.length := by
  by_contra hge
  have hpos := List.length_pos_iff.mpr h
  have hle : lastPlace r l a ≤ l.length := Nat.findGreatest_le _
  have hspec := Nat.findGreatest_of_ne_zero (rfl : lastPlace r l a = lastPlace r l a) (by omega)
  rw [List.getElem?_eq_none_iff.mpr (by omega)] at hspec
  cases hspec

/-- Renaming the items of a list keeps the last place, as long as it keeps what is related. -/
theorem lastPlace_map {r' : β → β → Bool} {f : α → β} (h : ∀ b, r' (f b) (f a) = r b a) :
    lastPlace r' (l.map f) (f a) = lastPlace r l a := by
  simp only [lastPlace, List.getElem?_map, Option.any_map, List.length_map, h]

variable [DecidableEq α]

/-- No related thing stands behind the last place. -/
theorem idxOf_le_lastPlace (hb : b ∈ l) (h : r b a = true) : l.idxOf b ≤ lastPlace r l a := by
  have hlt := List.idxOf_lt_length_of_mem hb
  refine Nat.le_findGreatest (by omega) ?_
  rw [List.getElem?_eq_getElem hlt, List.getElem_idxOf]
  exact h

/-- Where the last place is not the first, something related stands there. -/
theorem exists_at_lastPlace (hnodup : l.Nodup) (h : lastPlace r l a ≠ 0) :
    ∃ b ∈ l, r b a = true ∧ l.idxOf b = lastPlace r l a := by
  have hspec := Nat.findGreatest_of_ne_zero (rfl : lastPlace r l a = lastPlace r l a) h
  rw [Option.any_eq_true] at hspec
  obtain ⟨b, hb, hrelated⟩ := hspec
  obtain ⟨hlt, rfl⟩ := List.getElem?_eq_some_iff.mp hb
  exact ⟨_, List.getElem_mem hlt, hrelated, hnodup.idxOf_getElem _ hlt⟩

/-- **The last place is the greatest of the places of what is related.** -/
theorem isGreatest_lastPlace (hnodup : l.Nodup) (hb : b ∈ l) (h : r b a = true) :
    IsGreatest {k | ∃ b ∈ l, r b a = true ∧ l.idxOf b = k} (lastPlace r l a) := by
  constructor
  · by_cases hzero : lastPlace r l a = 0
    · -- Then the related thing that is known stands there.
      refine ⟨b, hb, h, ?_⟩
      have hle := idxOf_le_lastPlace hb h
      omega
    · exact exists_at_lastPlace hnodup hzero
  · rintro _ ⟨c, hc, hrelated, rfl⟩
    exact idxOf_le_lastPlace hc hrelated

end

/-! ## 2. The law -/

/-- Whether the numbers of `a` are smaller than those of `b`: the last place of what is related
to it and, when they have the same, its rank. -/
def Earlier {α : Type} (r : α → α → Bool) (rank : α → ℕ) (l : List α) (a b : α) : Prop :=
  toLex (lastPlace r l a, rank a) < toLex (lastPlace r l b, rank b)

section

variable {α : Type} {r : α → α → Bool} {rank : α → ℕ} {l : List α} {a b : α}

theorem earlier_iff :
    Earlier r rank l a b ↔
      lastPlace r l a < lastPlace r l b ∨ lastPlace r l a = lastPlace r l b ∧ rank a < rank b := by
  rw [Earlier, Prod.Lex.toLex_lt_toLex]

theorem Earlier.asymm (h : Earlier r rank l a b) : ¬ Earlier r rank l b a :=
  lt_asymm h

/-- In a list that is sorted by an asymmetric relation, that relation says what comes first. -/
theorem idxOf_lt_iff_of_pairwise [DecidableEq α] {R : α → α → Prop} (h : l.Pairwise R)
    (hasymm : ∀ a b, R a b → ¬ R b a) (ha : a ∈ l) (hb : b ∈ l) :
    l.idxOf a < l.idxOf b ↔ R a b := by
  have hsorted : ∀ {a b}, a ∈ l → b ∈ l → l.idxOf a < l.idxOf b → R a b := by
    intro a b ha hb hlt
    have hget := List.pairwise_iff_getElem.mp h _ _ (List.idxOf_lt_length_of_mem ha)
      (List.idxOf_lt_length_of_mem hb) hlt
    rwa [List.getElem_idxOf, List.getElem_idxOf] at hget
  refine ⟨hsorted ha hb, fun hR => ?_⟩
  by_contra hge
  rcases Nat.lt_or_ge (l.idxOf b) (l.idxOf a) with hlt | hle
  · exact hasymm a b hR (hsorted hb ha hlt)
  · have heq : a = b := (List.idxOf_inj ha).mp (by omega)
    exact hasymm a b hR (heq ▸ hR)

end

/-! ## 3. The queue -/

namespace Emission

variable {n : Nat} {w : Wiring n} {members : List (Fin n)} {s t : Emission n} {u v : Fin n}
  {rest : List (Fin n)}

/-- Nothing that is written or queued is fed by the front of the queue. -/
theorem Sound.edge_front_eq_false (h : Sound w members s) (hnodup : members.Nodup)
    (hqueue : s.queue = u :: rest) (hv : v ∈ s.written ++ s.queue) : w.edge u v = false := by
  obtain ⟨hu, hnew⟩ := h.front hnodup hqueue
  rw [← Bool.not_eq_true]
  intro hedge
  rcases List.mem_append.mp hv with hwritten | hqueued
  · obtain ⟨before, after, hsplit⟩ := List.append_of_mem hwritten
    have hbefore := h.follows before v after hsplit u hu hedge
    exact hnew (by rw [hsplit]; exact List.mem_append_left _ hbefore)
  · exact hnew (h.served v hqueued u hu hedge)

/-- What becomes ready is fed by the module that was just written. -/
theorem Sound.edge_of_isReady (h : Sound w members s) {entry : Fin n × Nat}
    (hentry : entry ∈ countDown w u s.waiting) (hready : isReady entry = true) :
    w.edge u entry.1 = true := by
  obtain ⟨⟨v, pending⟩, hold, rfl⟩ := List.mem_map.mp hentry
  have hpos := (h.pending _ hold).2
  rw [← Bool.not_eq_false]
  intro hedge
  simp only [isReady, hedge] at hready hpos
  simp only [Bool.false_eq_true, if_false, beq_iff_eq] at hready
  omega

/-- The feeders of what is written or queued are written. -/
theorem Sound.mem_written_of_edge (h : Sound w members s) (hv : v ∈ s.written ++ s.queue)
    (hu : u ∈ members) (hedge : w.edge u v = true) : u ∈ s.written := by
  rcases List.mem_append.mp hv with hwritten | hqueued
  · exact (h.idxOf_lt_of_edge hwritten hu hedge).1
  · exact h.served v hqueued u hu hedge

/-- Whether the modules behind the root stand in their turn, both those that are written and
those that are queued. -/
def InTurn (w : Wiring n) (s : Emission n) : Prop :=
  ∃ others, s.written ++ s.queue = w.root :: others ∧
    others.Pairwise (Earlier w.edge Fin.val s.written)

theorem inTurn_start (w : Wiring n) (members : List (Fin n)) : InTurn w (start w members) :=
  ⟨[], rfl, .nil⟩

/-- **One step keeps everything in its turn.** -/
theorem InTurn.step (h : InTurn w s) (hsound : Sound w members s) (hrooted : w.IsRooted members)
    (hsorted : members.Pairwise (· < ·)) (hstep : s.step w = some t) : InTurn w t := by
  obtain ⟨u, rest, hqueue, rfl⟩ := step_eq_some_iff.mp hstep
  obtain ⟨others, hplaced, hothers⟩ := h
  -- What was placed before keeps its last feeder; what is added has the one just written.
  have hold : ∀ v ∈ others, lastPlace w.edge (s.written ++ [u]) v = lastPlace w.edge s.written v := by
    intro v hv
    apply lastPlace_append_of_unrelated
    intro b hb
    rw [List.mem_singleton.mp hb]
    refine hsound.edge_front_eq_false hrooted.nodup hqueue ?_
    rw [hplaced]
    exact List.mem_cons_of_mem _ hv
  have hnew : ∀ v ∈ ((countDown w u s.waiting).filter isReady).map (·.1),
      lastPlace w.edge (s.written ++ [u]) v = s.written.length := by
    intro v hv
    obtain ⟨entry, hentry, rfl⟩ := List.mem_map.mp hv
    obtain ⟨hmem, hready⟩ := List.mem_filter.mp hentry
    exact lastPlace_append_of_related (hsound.edge_of_isReady hmem hready)
  refine ⟨others ++ ((countDown w u s.waiting).filter isReady).map (·.1), ?_, ?_⟩
  · rw [← List.cons_append, ← hplaced, hqueue]
    simp [write]
  · refine List.pairwise_append.mpr ⟨?_, ?_, fun v hv x hx => ?_⟩
    · refine hothers.imp_of_mem fun {v x} hv hx hvx => ?_
      rw [earlier_iff] at hvx ⊢
      rwa [write, hold v hv, hold x hx]
    · -- Those that are released together stand in the order of declaration.
      have hlisted : (((countDown w u s.waiting).filter isReady).map (·.1)).Sublist members := by
        refine List.Sublist.trans ?_ hsound.listed
        rw [← map_fst_countDown (w := w) u s.waiting]
        exact List.filter_sublist.map _
      refine (hsorted.sublist hlisted).imp_of_mem fun {v x} hv hx hvx => ?_
      rw [earlier_iff, write, hnew v hv, hnew x hx]
      exact Or.inr ⟨rfl, hvx⟩
    · -- Whatever was placed before has a feeder, so something was written before this step.
      have hplace : v ∈ s.written ++ s.queue := by
        rw [hplaced]
        exact List.mem_cons_of_mem _ hv
      have hne : v ≠ w.root := by
        have hnodup := (List.nodup_append.mp (hsound.nodup hrooted.nodup)).1
        rw [hplaced, List.nodup_cons] at hnodup
        rintro rfl
        exact hnodup.1 hv
      have hmem : v ∈ members :=
        hsound.shared.mem_iff.mp (List.mem_append_left _ hplace)
      obtain ⟨p, hp, hedge⟩ := hrooted.fed v hmem hne
      have hwritten := List.ne_nil_of_mem (hsound.mem_written_of_edge hplace hp hedge)
      rw [earlier_iff, write, hold v hv, hnew x hx]
      exact Or.inl (lastPlace_lt hwritten)

/-- **A whole run keeps everything in its turn.** -/
theorem InTurn.run (hrooted : w.IsRooted members) (hsorted : members.Pairwise (· < ·))
    (s : Emission n) (h : InTurn w s) (hsound : Sound w members s) : InTurn w (s.run w) := by
  induction s using run.induct w with
  | case1 s hnone => rwa [Emission.run, hnone]
  | case2 s t hstep ih =>
      rw [Emission.run, hstep]
      exact ih (h.step hsound hrooted hsorted hstep) (hsound.step hrooted.nodup hstep)

end Emission

/-- The modules that can be written are listed in the order of declaration. -/
theorem Wiring.pairwise_supported {n : Nat} (w : Wiring n) : w.supported.Pairwise (· < ·) :=
  (List.sortedLT_finRange n).pairwise.sublist List.filter_sublist

/-- **A schedule stands in its turn.** -/
theorem Wiring.exists_of_schedule {n : Nat} {w : Wiring n} {written : List (Fin n)}
    (h : w.schedule = .ok written) :
    ∃ others, written = w.root :: others ∧ others.Pairwise (Earlier w.edge Fin.val written) := by
  simp only [schedule] at h
  split at h
  · cases h
  · rename_i hfree
    have hrooted := isRooted_supported hfree
    have hsound := Emission.sound_start hrooted
    obtain ⟨-, hqueue⟩ := hsound.run hrooted.nodup
    have hturn := (Emission.inTurn_start w w.supported).run hrooted w.pairwise_supported _ hsound
    split at h
    · cases h
      rwa [Emission.InTurn, hqueue, List.append_nil] at hturn
    · cases h

/-! ## 4. Layers -/

instance (p c : Module) : Decidable (p.Feeds c) :=
  inferInstanceAs (Decidable (c.input = some p.name ∨ p.output = some c.name))

/-- The place of the last layer in a sequence that feeds a layer. -/
def lastFeeder (l : List Module) (m : Module) : ℕ :=
  lastPlace (fun p c => decide (p.Feeds c)) l m

/-- Whether a sequence of declared layers obeys the law: of two layers that are not where data
enters, the one whose last feeder stands first comes first, or, when they have the same last
feeder, the one that was declared first. -/
def BreaksTies (modules l : List Module) : Prop :=
  ∀ u ∈ l, ∀ v ∈ l, u.isInput = false → v.isInput = false →
    (l.idxOf u < l.idxOf v ↔
      toLex (lastFeeder l u, modules.idxOf u) < toLex (lastFeeder l v, modules.idxOf v))

namespace Wiring.Resolves

variable {modules : List Module} {w : Wiring modules.length} {policy : Policy} {o : Order}

/-- A declared module stands where its position says. -/
theorem idxOf_get (h : w.Resolves) (i : Fin modules.length) :
    modules.idxOf (modules.get i) = i :=
  h.nodup.of_map.idxOf_getElem i i.isLt

/-- The last feeder of a module is at the last place where there is an edge from. -/
theorem lastFeeder_map (h : w.Resolves) (written : List (Fin modules.length))
    (i : Fin modules.length) :
    lastFeeder (written.map modules.get) (modules.get i) = lastPlace w.edge written i :=
  lastPlace_map fun b => by rw [← Bool.coe_iff_coe, decide_eq_true_iff, h.edge_iff]

/-- **The layers of an order come out by the law.** -/
theorem breaksTies (h : w.Resolves) (ho : w.order modules policy = .ok o) :
    BreaksTies modules o.modules := by
  obtain ⟨written, hschedule, -, rfl⟩ := order_eq_ok_iff.mp ho
  obtain ⟨others, hwritten, hothers⟩ := exists_of_schedule hschedule
  have hinj : Function.Injective modules.get := fun _ _ heq => h.get_inj heq
  -- Only the root is where data enters, and it stands before all the others.
  have hmem : ∀ {i}, modules.get i ∈ written.map modules.get → (modules.get i).isInput = false →
      i ≠ w.root ∧ i ∈ others := by
    intro i hi hinput
    have hne : i ≠ w.root := by
      intro heq
      rw [(h.isInput_iff i).mpr heq] at hinput
      cases hinput
    rw [List.mem_map_of_injective hinj, hwritten] at hi
    exact ⟨hne, (List.mem_cons.mp hi).resolve_left hne⟩
  intro u hu v hv hinput hinput'
  obtain ⟨i, -, rfl⟩ := List.mem_map.mp hu
  obtain ⟨j, -, rfl⟩ := List.mem_map.mp hv
  obtain ⟨hi, hiothers⟩ := hmem hu hinput
  obtain ⟨hj, hjothers⟩ := hmem hv hinput'
  have hplaces : written.idxOf i < written.idxOf j ↔ others.idxOf i < others.idxOf j := by
    conv_lhs => rw [hwritten]
    rw [List.idxOf_cons_ne _ hi.symm, List.idxOf_cons_ne _ hj.symm, Nat.succ_lt_succ_iff]
  dsimp only
  rw [idxOf_map_of_injective hinj, idxOf_map_of_injective hinj, h.lastFeeder_map,
    h.lastFeeder_map, h.idxOf_get, h.idxOf_get, hplaces]
  exact idxOf_lt_iff_of_pairwise hothers (fun _ _ => Earlier.asymm) hiothers hjothers

end Wiring.Resolves

/-! ## 5. The only sequence -/

/-- Whether every layer of a sequence stands behind those that feed it. -/
def FollowsFeeders (l : List Module) : Prop :=
  ∀ p ∈ l, ∀ c ∈ l, p.Feeds c → l.idxOf p < l.idxOf c

section

variable {modules l l' front back : List Module} {p c m : Module}

/-- Feeders stand in front. -/
theorem FollowsFeeders.mem_front (h : FollowsFeeders l) (hl : l = front ++ m :: back)
    (hm : m ∉ front) (hp : p ∈ l) (hfeeds : p.Feeds m) : p ∈ front := by
  have hlt := h p hp m (by rw [hl]; exact List.mem_append_cons_self) hfeeds
  by_contra hnot
  rw [hl, List.idxOf_append_of_notMem hnot, List.idxOf_append_of_notMem hm,
    List.idxOf_cons_self] at hlt
  omega

theorem idxOf_le_lastFeeder (hp : p ∈ l) (h : p.Feeds m) : l.idxOf p ≤ lastFeeder l m :=
  idxOf_le_lastPlace hp (decide_eq_true h)

theorem exists_lastFeeder (hnodup : l.Nodup) (h : lastFeeder l m ≠ 0) :
    ∃ p ∈ l, p.Feeds m ∧ l.idxOf p = lastFeeder l m := by
  obtain ⟨p, hp, hfeeds, hplace⟩ := exists_at_lastPlace hnodup h
  exact ⟨p, hp, of_decide_eq_true hfeeds, hplace⟩

/-- The last feeder stands at the greatest of the places of the feeders. -/
theorem isGreatest_lastFeeder (hnodup : l.Nodup) (hp : p ∈ l) (h : p.Feeds m) :
    IsGreatest {k | ∃ p ∈ l, p.Feeds m ∧ l.idxOf p = k} (lastFeeder l m) := by
  have hgreatest := isGreatest_lastPlace (r := fun p c => decide (p.Feeds c)) hnodup hp
    (decide_eq_true h)
  simp only [decide_eq_true_eq] at hgreatest
  exact hgreatest

/-- Only those in front count for the last feeder, when all feeders stand there. -/
theorem lastFeeder_append (h : ∀ p ∈ back, ¬ p.Feeds m) :
    lastFeeder (front ++ back) m = lastFeeder front m :=
  lastPlace_append_of_unrelated fun p hp => decide_eq_false (h p hp)

theorem BreaksTies.lastFeeder_le (h : BreaksTies modules l) {u v : Module} (hu : u ∈ l)
    (hv : v ∈ l) (hinput : u.isInput = false) (hinput' : v.isInput = false)
    (hle : l.idxOf u ≤ l.idxOf v) : lastFeeder l u ≤ lastFeeder l v := by
  rcases Nat.lt_or_eq_of_le hle with hlt | heq
  · have hlex := (h u hu v hv hinput hinput').mp hlt
    rw [Prod.Lex.toLex_lt_toLex] at hlex
    rcases hlex with hlt | ⟨heq, -⟩
    · exact hlt.le
    · exact heq.le
  · rw [(List.idxOf_inj hu).mp heq]

/-- **A sequence that obeys the law puts every layer behind its feeders**, when these can be put
in some sequence at all. -/
theorem BreaksTies.idxOf_lt_of_feeds (h : BreaksTies modules l) (hnodup : l.Nodup)
    (hhead : ∀ m ∈ l, m.isInput = false ↔ l.idxOf m ≠ 0) (place : Module → ℕ)
    (hplace : ∀ p ∈ l, ∀ c ∈ l, p.Feeds c → place p < place c)
    (hunfed : ∀ p ∈ l, ∀ c ∈ l, p.Feeds c → c.isInput = false) : FollowsFeeders l := by
  intro p hp c hc hfeeds
  by_contra hge
  have hinput := hunfed p hp c hc hfeeds
  have hfirst := (hhead c hc).mp hinput
  -- From `c` on everything has its last feeder at `p` or behind it, so there is no first among
  -- these layers.
  have hlast : ∀ k, ∀ m ∈ l, l.idxOf c ≤ l.idxOf m → place m ≠ k := by
    intro k
    induction k using Nat.strong_induction_on with
    | _ k ih =>
        rintro m hm hbehind rfl
        have hminput : m.isInput = false := (hhead m hm).mpr (by omega)
        have hle := h.lastFeeder_le hc hm hinput hminput hbehind
        have hp' := idxOf_le_lastFeeder hp hfeeds
        obtain ⟨q, hq, hqm, hqplace⟩ := exists_lastFeeder hnodup (m := m) (by omega)
        exact ih (place q) (hplace q hq m hm hqm) q hq (by omega) rfl
  exact hlast _ c hc le_rfl rfl

/-- What the law makes of a list of layers. -/
structure InSequence (modules l : List Module) : Prop where
  nodup : l.Nodup
  breaksTies : BreaksTies modules l
  followsFeeders : FollowsFeeders l

/-- **Two sequences of the same layers do not part**: what comes next after a common front is
the same in both. -/
theorem InSequence.next_eq (h : InSequence modules l) (h' : InSequence modules l')
    (hperm : l.Perm l') {x y : Module} {back' : List Module} (hl : l = front ++ x :: back)
    (hl' : l' = front ++ y :: back') (hinput : x.isInput = false) (hinput' : y.isInput = false) :
    x = y := by
  have hmem : ∀ {m}, m ∈ l ↔ m ∈ l' := hperm.mem_iff
  have hx : x ∈ l := by rw [hl]; exact List.mem_append_cons_self
  have hy : y ∈ l' := by rw [hl']; exact List.mem_append_cons_self
  have hdisjoint := (List.nodup_append.mp (hl ▸ h.nodup)).2.2
  have hdisjoint' := (List.nodup_append.mp (hl' ▸ h'.nodup)).2.2
  have hxfront : x ∉ front := fun hin => hdisjoint x hin x List.mem_cons_self rfl
  have hyfront : y ∉ front := fun hin => hdisjoint' y hin y List.mem_cons_self rfl
  by_contra hxy
  -- The feeders of `x` stand before it in the first sequence, those of `y` before it in the
  -- second, so all of them stand in the common front.
  have hfeeders : ∀ {m}, m = x ∨ m = y → ∀ p ∈ l, p.Feeds m → p ∈ front := by
    rintro m (rfl | rfl) p hp hfeeds
    · exact h.followsFeeders.mem_front hl hxfront hp hfeeds
    · exact h'.followsFeeders.mem_front hl' hyfront (hmem.mp hp) hfeeds
  have hlast : ∀ {m}, m = x ∨ m = y → lastFeeder l m = lastFeeder l' m := by
    intro m hm
    rw [hl, hl', lastFeeder_append, lastFeeder_append]
    · intro p hp hfeeds
      have hpl : p ∈ l := by rw [hmem, hl']; exact List.mem_append_right _ hp
      exact hdisjoint' p (hfeeders hm p hpl hfeeds) p hp rfl
    · intro p hp hfeeds
      have hpl : p ∈ l := by rw [hl]; exact List.mem_append_right _ hp
      exact hdisjoint p (hfeeders hm p hpl hfeeds) p hp rfl
  -- So the law says the same of both, but each comes first in one of them.
  have hlt : l.idxOf x < l.idxOf y := by
    rw [hl, List.idxOf_append_of_notMem hxfront, List.idxOf_append_of_notMem hyfront,
      List.idxOf_cons_self, List.idxOf_cons_ne _ hxy]
    omega
  have hlt' : l'.idxOf y < l'.idxOf x := by
    rw [hl', List.idxOf_append_of_notMem hxfront, List.idxOf_append_of_notMem hyfront,
      List.idxOf_cons_self, List.idxOf_cons_ne _ (Ne.symm hxy)]
    omega
  have hearlier := (h.breaksTies x hx y (hmem.mpr hy) hinput hinput').mp hlt
  have hearlier' := (h'.breaksTies y hy x (hmem.mp hx) hinput' hinput).mp hlt'
  rw [← hlast (Or.inl rfl), ← hlast (Or.inr rfl)] at hearlier'
  exact lt_asymm hearlier hearlier'

/-- **Two sequences of the same layers are the same**, when they begin alike and data enters
nowhere behind the common front. -/
theorem InSequence.eq_of_append (h : InSequence modules l) (h' : InSequence modules l')
    (hperm : l.Perm l') {back' : List Module} (hl : l = front ++ back) (hl' : l' = front ++ back')
    (hinput : ∀ m ∈ l, m ∉ front → m.isInput = false) : back = back' := by
  have hlength := hperm.length_eq
  induction back generalizing front back' with
  | nil =>
      rw [hl, hl', List.length_append, List.length_append, List.length_nil] at hlength
      exact (List.length_eq_zero_iff.mp (by omega)).symm
  | cons x back ih =>
      cases back' with
      | nil =>
          rw [hl, hl', List.length_append, List.length_append, List.length_nil,
            List.length_cons] at hlength
          omega
      | cons y back' =>
          have hbehind : ∀ {l m} {back : List Module}, l = front ++ m :: back → l.Nodup →
              m ∈ l ∧ m ∉ front := by
            rintro _ m back rfl hnodup
            refine ⟨List.mem_append_cons_self, fun hin => ?_⟩
            exact (List.nodup_append.mp hnodup).2.2 m hin m List.mem_cons_self rfl
          obtain ⟨hx, hxfront⟩ := hbehind hl h.nodup
          obtain ⟨hy, hyfront⟩ := hbehind hl' h'.nodup
          have hnext := h.next_eq h' hperm hl hl' (hinput x hx hxfront)
            (hinput y (hperm.mem_iff.mpr hy) hyfront)
          subst hnext
          have hmore : ∀ back, front ++ x :: back = (front ++ [x]) ++ back := by simp
          refine congrArg (x :: ·) (ih (hl.trans (hmore _)) (hl'.trans (hmore _)) ?_)
          exact fun m hm hout => hinput m hm fun hin => hout (List.mem_append_left _ hin)

end

/-! ## 6. Depths -/

/-- Whether a path of so many steps leads from one thing to another. -/
inductive PathLength {α : Type} (r : α → α → Prop) (a : α) : ℕ → α → Prop where
  | nil : PathLength r a 0 a
  | snoc {k : ℕ} {b c : α} (path : PathLength r a k b) (step : r b c) : PathLength r a (k + 1) c

/-- The length of the longest path that leads from one thing to another. -/
noncomputable def depth {α : Type} (r : α → α → Prop) (a b : α) : ℕ :=
  sSup {k | PathLength r a k b}

section

variable {α : Type} {r : α → α → Prop} {place : α → ℕ} {a b c : α} {k : ℕ}

theorem exists_pathLength_of_reflTransGen (h : ReflTransGen r a b) : ∃ k, PathLength r a k b := by
  induction h with
  | refl => exact ⟨0, .nil⟩
  | tail _ hstep ih =>
      obtain ⟨k, hpath⟩ := ih
      exact ⟨k + 1, hpath.snoc hstep⟩

/-- No path is longer than the places allow that it leads through. -/
theorem PathLength.le_place (hplace : ∀ b c, r b c → place b < place c)
    (h : PathLength r a k b) : k ≤ place b := by
  induction h with
  | nil => exact Nat.zero_le _
  | snoc _ hstep ih => exact lt_of_le_of_lt ih (hplace _ _ hstep)

theorem isGreatest_depth (hplace : ∀ b c, r b c → place b < place c) (h : PathLength r a k b) :
    IsGreatest {k | PathLength r a k b} (depth r a b) := by
  have hbounded : BddAbove {k | PathLength r a k b} := ⟨place b, fun _ h => h.le_place hplace⟩
  exact ⟨Nat.sSup_mem ⟨k, h⟩ hbounded, fun _ h => le_csSup hbounded h⟩

/-- One step adds to the depth. -/
theorem depth_lt (hplace : ∀ b c, r b c → place b < place c) (h : PathLength r a k b)
    (hstep : r b c) : depth r a b < depth r a c :=
  (isGreatest_depth hplace (h.snoc hstep)).2 ((isGreatest_depth hplace h).1.snoc hstep)

/-- The longest path comes from somewhere. -/
theorem depth_eq_zero_or (hplace : ∀ b c, r b c → place b < place c) (h : PathLength r a k c) :
    depth r a c = 0 ∨ ∃ b j, PathLength r a j b ∧ r b c ∧ depth r a c ≤ depth r a b + 1 := by
  have hlongest := (isGreatest_depth hplace h).1
  generalize depth r a c = longest at hlongest
  cases hlongest with
  | nil => exact Or.inl rfl
  | @snoc j b _ hpath hstep =>
      exact Or.inr ⟨b, j, hpath, hstep, Nat.succ_le_succ ((isGreatest_depth hplace hpath).2 hpath)⟩

end

/-! ## 7. Orders -/

namespace Wiring.Resolves

variable {modules : List Module} {w : Wiring modules.length} {policy : Policy} {o : Order}

/-- Data enters at one module only. -/
theorem eq_of_isInput (h : w.Resolves) {m m' : Module} (hm : m ∈ modules) (hm' : m' ∈ modules)
    (hinput : m.isInput = true) (hinput' : m'.isInput = true) : m = m' := by
  obtain ⟨i, rfl⟩ := List.get_of_mem hm
  obtain ⟨j, rfl⟩ := List.get_of_mem hm'
  rw [(h.isInput_iff i).mp hinput, (h.isInput_iff j).mp hinput']

/-- Where data enters is the first place of a sequence, if it is there. -/
theorem isInput_eq_false_iff (h : w.Resolves) {root : Module} {rest : List Module}
    (hdeclared : ∀ m ∈ root :: rest, m ∈ modules) (hroot : root.isInput = true) :
    ∀ m ∈ root :: rest, m.isInput = false ↔ (root :: rest).idxOf m ≠ 0 := by
  intro m hm
  by_cases heq : root = m
  · rw [← heq, List.idxOf_cons_self, hroot]
    simp
  · rw [List.idxOf_cons_ne _ heq, ← Bool.not_eq_true]
    refine iff_of_true (fun hinput => heq ?_) (Nat.succ_ne_zero _)
    exact h.eq_of_isInput (hdeclared root List.mem_cons_self) (hdeclared m hm) hroot hinput

theorem isOrder (h : w.Resolves) (ho : w.order modules policy = .ok o) :
    IsOrder modules w.members policy o := by
  simpa only [ho] using h.order_spec policy

/-- The layers of an order, in sequence. -/
theorem inSequence (h : w.Resolves) (ho : w.order modules policy = .ok o) :
    InSequence modules o.modules := by
  have horder := h.isOrder ho
  refine ⟨horder.nodup, h.breaksTies ho, fun p hp c hc hfeeds => ?_⟩
  rw [horder.mem_iff] at hp hc
  exact horder.idxOf_lt p c (.single ⟨hp, hc, hfeeds⟩)

/-- **No other sequence of the same layers obeys the law.** -/
theorem eq_of_breaksTies (h : w.Resolves) (ho : w.order modules policy = .ok o) {l : List Module}
    (hperm : l.Perm o.modules) (hhead : l.head? = o.modules.head?)
    (hties : BreaksTies modules l) : l = o.modules := by
  have horder := h.isOrder ho
  have hsequence := h.inSequence ho
  obtain ⟨root, -, hroot, hfirst⟩ := horder.head
  obtain ⟨others, hothers⟩ := List.head?_eq_some_iff.mp hfirst
  obtain ⟨rest, rfl⟩ := List.head?_eq_some_iff.mp (hhead.trans hfirst)
  have hdeclared : ∀ m ∈ root :: others, m ∈ modules := by
    intro m hm
    rw [← hothers, horder.mem_iff] at hm
    exact mem_of_mem_members hm
  have hdeclared' : ∀ m ∈ root :: rest, m ∈ modules := by
    intro m hm
    exact hdeclared m (hothers ▸ hperm.subset hm)
  have hinput := h.isInput_eq_false_iff hdeclared hroot
  rw [← hothers] at hinput
  have hfollows := hties.idxOf_lt_of_feeds (hperm.nodup_iff.mpr hsequence.nodup)
    (h.isInput_eq_false_iff hdeclared' hroot) o.modules.idxOf
    (fun p hp c hc => hsequence.followsFeeders p (hperm.subset hp) c (hperm.subset hc))
    fun p hp c hc hfeeds => (hinput c (hperm.subset hc)).mpr <| Nat.ne_of_gt <|
      Nat.zero_lt_of_lt (hsequence.followsFeeders p (hperm.subset hp) c (hperm.subset hc) hfeeds)
  have hsame : rest = others := by
    have hsplit : root :: rest = [root] ++ rest := rfl
    refine InSequence.eq_of_append ⟨hperm.nodup_iff.mpr hsequence.nodup, hties, hfollows⟩
      hsequence hperm hsplit hothers ?_
    intro m hm hout
    refine (h.isInput_eq_false_iff hdeclared' hroot m hm).mpr ?_
    rw [List.idxOf_cons_ne _ fun heq => hout (by rw [heq]; exact List.mem_cons_self)]
    exact Nat.succ_ne_zero _
  rw [hsame, hothers]

/-- A layer that does not stand first is fed by another. -/
theorem exists_feeder (h : w.Resolves) (ho : w.order modules policy = .ok o) {m : Module}
    (hm : m ∈ o.modules) (hinput : m.isInput = false) : ∃ p ∈ o.modules, p.Feeds m := by
  have horder := h.isOrder ho
  rw [horder.mem_iff] at hm
  obtain ⟨root, -, hroot, hpath⟩ := h.isGreatest_members.1.reached m hm
  rcases hpath.cases_tail with rfl | ⟨p, -, hp, -, hfeeds⟩
  · rw [hroot] at hinput
    cases hinput
  · exact ⟨p, (horder.mem_iff p).mpr hp, hfeeds⟩

/-- Every layer of an order is at the end of a path from where data enters. -/
theorem exists_pathLength (h : w.Resolves) (ho : w.order modules policy = .ok o) {root : Module}
    (hroot : root ∈ o.modules) (hinput : root.isInput = true) {m : Module} (hm : m ∈ o.modules) :
    ∃ k, PathLength (FeedsWithin {m | m ∈ o.modules}) root k m := by
  have horder := h.isOrder ho
  have hset : {m | m ∈ o.modules} = w.members := Set.ext horder.mem_iff
  rw [horder.mem_iff] at hm hroot
  obtain ⟨root', hroot', hinput', hpath⟩ := h.isGreatest_members.1.reached m hm
  rw [hset, ← h.eq_of_isInput (mem_of_mem_members hroot') (mem_of_mem_members hroot) hinput' hinput]
  exact exists_pathLength_of_reflTransGen hpath

/-- **The depth never decreases along an order.** -/
theorem depth_le (h : w.Resolves) (ho : w.order modules policy = .ok o) {root : Module}
    (hroot : root ∈ o.modules) (hinput : root.isInput = true) :
    ∀ u ∈ o.modules, ∀ v ∈ o.modules, o.modules.idxOf u ≤ o.modules.idxOf v →
      depth (FeedsWithin {m | m ∈ o.modules}) root u
        ≤ depth (FeedsWithin {m | m ∈ o.modules}) root v := by
  have horder := h.isOrder ho
  have hsequence := h.inSequence ho
  have hplace : ∀ b c, FeedsWithin {m | m ∈ o.modules} b c →
      o.modules.idxOf b < o.modules.idxOf c :=
    fun b c ⟨hb, hc, hfeeds⟩ => hsequence.followsFeeders b hb c hc hfeeds
  obtain ⟨first, -, hfirst, hhead⟩ := horder.head
  obtain ⟨others, hothers⟩ := List.head?_eq_some_iff.mp hhead
  have hdeclared : ∀ m ∈ first :: others, m ∈ modules := by
    intro m hm
    rw [← hothers, horder.mem_iff] at hm
    exact mem_of_mem_members hm
  have hbehind := h.isInput_eq_false_iff hdeclared hfirst
  rw [← hothers] at hbehind
  -- By induction on the place of `v`: the last feeder of `v` stands no earlier than any feeder
  -- of `u`, so it is at least as deep.
  suffices hall : ∀ k, ∀ v ∈ o.modules, o.modules.idxOf v = k → ∀ u ∈ o.modules,
      o.modules.idxOf u ≤ k → depth (FeedsWithin {m | m ∈ o.modules}) root u
        ≤ depth (FeedsWithin {m | m ∈ o.modules}) root v from
    fun u hu v hv hle => hall _ v hv rfl u hu hle
  intro k
  induction k using Nat.strong_induction_on with
  | _ k ih =>
      rintro v hv rfl u hu hle
      by_cases hsame : o.modules.idxOf u = o.modules.idxOf v
      · rw [(List.idxOf_inj hu).mp hsame]
      · obtain ⟨j, hpath⟩ := h.exists_pathLength ho hroot hinput hu
        rcases depth_eq_zero_or hplace hpath with hzero | ⟨b, i, -, ⟨hb, -, hfeeds⟩, hdepth⟩
        · omega
        · have hblt := hsequence.followsFeeders b hb u hu hfeeds
          have huinput := (hbehind u hu).mpr (by omega)
          have hvinput := (hbehind v hv).mpr (by omega)
          obtain ⟨p, hp, hpfeeds⟩ := h.exists_feeder ho hv hvinput
          obtain ⟨q, hq, hqfeeds, hlast⟩ := (isGreatest_lastFeeder hsequence.nodup hp hpfeeds).1
          have hqlt := hsequence.followsFeeders q hq v hv hqfeeds
          have hble := idxOf_le_lastFeeder hb hfeeds
          have hlele := hsequence.breaksTies.lastFeeder_le hu hv huinput hvinput hle
          have hbq := ih _ hqlt q hq rfl b hb (by omega)
          obtain ⟨i, hqpath⟩ := h.exists_pathLength ho hroot hinput hq
          have hqv := depth_lt hplace hqpath ⟨hq, hv, hqfeeds⟩
          omega

end Wiring.Resolves

/-- **The sequence of an order is decided by one law**, and by nothing else. Of two layers the one
comes first whose last feeder comes first, and layers with the same last feeder come in the order
of declaration. So layers never come out before others that are less deep. -/
theorem order_breaks_ties {modules : List Module} {w : Wiring modules.length}
    (hw : Wiring.ofModules modules = .ok w) (policy : Policy) {o : Order}
    (ho : w.order modules policy = .ok o) :
    (∀ m ∈ o.modules, m.isInput = false →
      IsGreatest {k | ∃ p ∈ o.modules, p.Feeds m ∧ o.modules.idxOf p = k}
        (lastFeeder o.modules m)) ∧
    BreaksTies modules o.modules ∧
    (∀ l : List Module, l.Perm o.modules → l.head? = o.modules.head? → BreaksTies modules l →
      l = o.modules) ∧
    (∀ u ∈ o.modules, ∀ v ∈ o.modules, u.isInput = false → v.isInput = false →
      lastFeeder o.modules u = lastFeeder o.modules v →
      (o.modules.idxOf u < o.modules.idxOf v ↔ modules.idxOf u < modules.idxOf v)) ∧
    ∃ root ∈ o.modules, root.isInput = true ∧
      (∀ m ∈ o.modules, IsGreatest {k | PathLength (FeedsWithin {m | m ∈ o.modules}) root k m}
        (depth (FeedsWithin {m | m ∈ o.modules}) root m)) ∧
      ∀ u ∈ o.modules, ∀ v ∈ o.modules, o.modules.idxOf u ≤ o.modules.idxOf v →
        depth (FeedsWithin {m | m ∈ o.modules}) root u
          ≤ depth (FeedsWithin {m | m ∈ o.modules}) root v := by
  have hresolves := Wiring.resolves_of_ofModules hw
  have hsequence := hresolves.inSequence ho
  obtain ⟨root, -, hinput, hhead⟩ := (hresolves.isOrder ho).head
  have hroot := List.mem_of_mem_head? hhead
  refine ⟨fun m hm hminput => ?_, hsequence.breaksTies,
    fun l => hresolves.eq_of_breaksTies ho, fun u hu v hv huinput hvinput hlast => ?_,
    root, hroot, hinput, fun m hm => ?_, hresolves.depth_le ho hroot hinput⟩
  · obtain ⟨p, hp, hfeeds⟩ := hresolves.exists_feeder ho hm hminput
    exact isGreatest_lastFeeder hsequence.nodup hp hfeeds
  · rw [hsequence.breaksTies u hu v hv huinput hvinput, Prod.Lex.toLex_lt_toLex, hlast]
    simp
  · obtain ⟨k, hpath⟩ := hresolves.exists_pathLength ho hroot hinput hm
    exact isGreatest_depth (fun b c ⟨hb, hc, hfeeds⟩ =>
      hsequence.followsFeeders b hb c hc hfeeds) hpath

theorem order_breaks_ties_branches :
    Wiring.ofModules branches = .ok branchesWiring ∧
    branchesWiring.order branches .drop = .ok branchesOrder ∧
    BreaksTies branches branchesOrder.modules ∧
    ∀ l : List Module, l.Perm branchesOrder.modules → l.head? = branchesOrder.modules.head? →
      BreaksTies branches l → l = branchesOrder.modules := by
  have hw : Wiring.ofModules branches = .ok branchesWiring := rfl
  have ho : branchesWiring.order branches .drop = .ok branchesOrder := by decide +kernel
  obtain ⟨-, hties, honly, -⟩ := order_breaks_ties hw .drop ho
  exact ⟨hw, ho, hties, honly⟩

-- `join` is declared before `a` and comes after it, since its last feeder is `b`.
example : branchesOrder.modules.map (lastFeeder branchesOrder.modules) = [0, 0, 1, 2] := by
  decide +kernel

end LayerScript
