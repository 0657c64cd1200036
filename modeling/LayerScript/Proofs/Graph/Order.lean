/-
`Proofs/Graph/Order.lean` -- which orders come out, and which networks are refused.

Both are said in terms of the largest supported set `S` of the declared modules.
An order writes `S` and nothing else, every module after all those that feed it, and
leaves out the rest. A network is refused for a cycle among the members of `S`, or,
under the strictest policy, for the modules outside of it. What lies outside `S`
never decides between the two: a cycle there is left out with everything else.

`Wiring.Resolves.order_spec` settles every case at once, and what the module proves
about orders and refusals is read off it.
-/
import LayerScript.Proofs.Graph.Declared

set_option autoImplicit false

open Relation

namespace LayerScript

/-! ## 1. Orders and refusals -/

/-- What an order promises, for the set of modules that can be written. -/
structure IsOrder (modules : List Module) (S : Set Module) (policy : Policy) (o : Order) :
    Prop where
  mem_iff : ∀ m, m ∈ o.modules ↔ m ∈ S
  nodup : o.modules.Nodup
  head : ∃ root ∈ modules, root.isInput = true ∧ o.modules.head? = some root
  idxOf_lt : ∀ p c, TransGen (FeedsWithin S) p c → o.modules.idxOf p < o.modules.idxOf c
  dropped : o.dropped = namesOf modules (· ∉ S)
  whole : policy = .error → ∀ m ∈ modules, m ∈ S

/-- Why a network is refused, for the set of modules that can be written. -/
inductive IsRefusal (modules : List Module) (S : Set Module) (policy : Policy) :
    GraphError → Prop where
  /-- A wire leads back to where data enters. The first module with one is named. -/
  | feedsInput (feeds : ∃ m ∈ S, m.FeedsInput modules) :
      IsRefusal modules S policy
        (.cycle ((namesOf modules fun m => m ∈ S ∧ m.FeedsInput modules).take 1))
  /-- A cycle holds up modules, and these are named. -/
  | heldUp (unfed : ∀ m ∈ S, ¬ m.FeedsInput modules)
      (cyclic : ∃ m, TransGen (FeedsWithin S) m m) :
      IsRefusal modules S policy
        (.cycle (namesOf modules fun m => m ∈ S ∧ HeldUp (FeedsWithin S) m))
  /-- Modules would have to be left out, and these are named. -/
  | unreachable (acyclic : ∀ m, ¬ TransGen (FeedsWithin S) m m) (strict : policy = .error)
      (left : ∃ m ∈ modules, m ∉ S) :
      IsRefusal modules S policy (.unreachable (namesOf modules (· ∉ S)))

theorem IsOrder.acyclic {modules : List Module} {S : Set Module} {policy : Policy} {o : Order}
    (h : IsOrder modules S policy o) (m : Module) : ¬ TransGen (FeedsWithin S) m m :=
  fun hcycle => Nat.lt_irrefl _ (h.idxOf_lt m m hcycle)

/-- What an order holds and what it leaves out are the declared modules. -/
theorem IsOrder.perm {modules : List Module} {S : Set Module} {policy : Policy} {o : Order}
    (h : IsOrder modules S policy o) (hnodup : modules.Nodup) (hS : ∀ m ∈ S, m ∈ modules) :
    (o.names ++ o.dropped).Perm (modules.map (·.name)) := by
  classical
  have hwritten : o.modules.Perm (modules.filter fun m => decide (m ∈ S)) := by
    rw [List.perm_ext_iff_of_nodup h.nodup (hnodup.filter _)]
    intro m
    rw [h.mem_iff, List.mem_filter, decide_eq_true_iff]
    exact ⟨fun hm => ⟨hS m hm, hm⟩, And.right⟩
  have hrest : (modules.filter fun m => !decide (m ∈ S))
      = modules.filter fun m => decide (m ∉ S) :=
    List.filter_congr fun m _ => by simp
  have hparts : (o.modules ++ modules.filter fun m => decide (m ∉ S)).Perm modules := by
    rw [← hrest]
    exact (hwritten.append_right _).trans (List.filter_append_perm _ _)
  have hnames := hparts.map (·.name)
  rw [List.map_append] at hnames
  rw [h.dropped, Order.names, namesOf]
  -- The two sides differ in how membership of `S` is decided.
  convert hnames

namespace Wiring.Resolves

variable {modules : List Module} {w : Wiring modules.length}

/-! ## 2. Names in the order of declaration -/

/-- A list of positions in the order of declaration is told by which positions are in it. -/
theorem eq_filter_of_sublist {n : Nat} {l : List (Fin n)} (hl : l.Sublist (List.finRange n))
    {p : Fin n → Bool} (hmem : ∀ i, i ∈ l ↔ p i = true) : l = (List.finRange n).filter p := by
  -- A sublist with the same members and no repetition is the whole list.
  have hself : l.filter p = l := List.filter_eq_self.mpr fun i hi => (hmem i).mp hi
  have hsub : l.Sublist ((List.finRange n).filter p) := by
    rw [← hself]
    exact hl.filter p
  have hperm : l.Perm ((List.finRange n).filter p) := by
    rw [List.perm_ext_iff_of_nodup (hl.nodup (List.nodup_finRange n))
      ((List.nodup_finRange n).filter p)]
    intro i
    simp [hmem]
  exact hsub.eq_of_length hperm.length_eq

/-- The names at such positions are the names of the modules with a property. -/
theorem map_name_eq_namesOf {l : List (Fin modules.length)}
    (hl : l.Sublist (List.finRange modules.length)) {P : Module → Prop}
    (hmem : ∀ i, i ∈ l ↔ P (modules.get i)) :
    (l.map fun i => (modules.get i).name) = namesOf modules P := by
  classical
  have hfilter : l = (List.finRange modules.length).filter fun i => decide (P (modules.get i)) :=
    eq_filter_of_sublist hl (by simpa using hmem)
  have hmap : (modules.filter fun m => decide (P m))
      = ((List.finRange modules.length).filter fun i => decide (P (modules.get i))).map
          modules.get := by
    conv_lhs => rw [← List.map_get_finRange modules]
    rw [List.filter_map]
    rfl
  rw [namesOf]
  convert_to _ = (modules.filter fun m => decide (P m)).map (·.name)
  rw [hmap, List.map_map, ← hfilter]
  rfl

theorem map_name_unsupported (h : w.Resolves) :
    (w.unsupported.map fun i => (modules.get i).name) = namesOf modules (· ∉ w.members) := by
  refine map_name_eq_namesOf List.filter_sublist fun i => ?_
  simp only [List.mem_filter, List.mem_finRange, true_and, decide_eq_true_iff,
    h.get_mem_members_iff]

/-! ## 3. Every outcome -/

/-- Renaming the items of a list without merging any keeps their places. -/
theorem idxOf_map_of_injective {α β : Type} [DecidableEq α] [DecidableEq β] {f : α → β}
    (hf : Function.Injective f) (l : List α) (a : α) : (l.map f).idxOf (f a) = l.idxOf a := by
  induction l with
  | nil => rfl
  | cons b l ih =>
      rw [List.map_cons, List.idxOf_cons, List.idxOf_cons, ih]
      by_cases hab : b = a
      · rw [hab, beq_self_eq_true, beq_self_eq_true]
      · have hsame : (f b == f a) = (b == a) := by
          rw [beq_eq_false_iff_ne.mpr hab, beq_eq_false_iff_ne.mpr (hf.ne hab)]
        rw [hsame]

theorem preimage_members (h : w.Resolves) :
    {x | x ∈ w.supported} = {x | modules.get x ∈ w.members} :=
  Set.ext fun i => (h.get_mem_members_iff i).symm

/-- A schedule of positions is an order of modules. -/
theorem isOrder_of_isSchedule (h : w.Resolves) {written : List (Fin modules.length)}
    (hs : w.IsSchedule written) {policy : Policy}
    (hwhole : policy = .error → ∀ m ∈ modules, m ∈ w.members) :
    IsOrder modules w.members policy
      ⟨written.map modules.get, w.unsupported.map fun i => (modules.get i).name⟩ := by
  have hinj : Function.Injective modules.get := fun _ _ heq => h.get_inj heq
  refine ⟨fun m => ?_, ?_, ?_, ?_, h.map_name_unsupported, hwhole⟩
  · constructor
    · intro hm
      obtain ⟨i, hi, rfl⟩ := List.mem_map.mp hm
      exact ⟨i, hs.perm.mem_iff.mp hi, rfl⟩
    · rintro ⟨i, hi, rfl⟩
      exact List.mem_map_of_mem (hs.perm.mem_iff.mpr hi)
  · exact (hs.perm.nodup_iff.mpr w.nodup_supported).map hinj
  · refine ⟨modules.get w.root, List.get_mem _ _, (h.isInput_iff _).mpr rfl, ?_⟩
    rw [List.head?_map, hs.head]
    rfl
  · intro p c hpath
    have hdeclared : ∀ m ∈ w.members, m ∈ modules := fun m hm => mem_of_mem_members hm
    obtain ⟨a, ha, -⟩ := TransGen.head'_iff.mp hpath
    obtain ⟨b, -, hb⟩ := TransGen.tail'_iff.mp hpath
    obtain ⟨i, -, rfl⟩ := ha.1
    obtain ⟨j, -, rfl⟩ := hb.2.1
    -- A path of modules within the set is a path of positions among the supported ones.
    have hedges : TransGen (w.Inside {x | x ∈ w.supported}) i j := by
      rw [h.preimage_members]
      exact (h.transGen_iff hdeclared i j).mpr hpath
    rw [idxOf_map_of_injective hinj, idxOf_map_of_injective hinj]
    exact hs.idxOf_lt i j hedges

/-- A wire back to where data enters closes a cycle. -/
theorem exists_cycle_of_feedsInput (h : w.Resolves)
    (hfeeds : ∃ m ∈ w.members, m.FeedsInput modules) :
    ∃ m, TransGen (FeedsWithin w.members) m m := by
  obtain ⟨m, hm, hinput⟩ := hfeeds
  -- The set is reached from the root, so the wire closes the path that leads to it.
  obtain ⟨root, hroot, hisInput, hpath⟩ := h.isGreatest_members.1.reached m hm
  refine ⟨root, TransGen.tail' hpath ⟨hm, hroot, ?_⟩⟩
  obtain ⟨i, -, rfl⟩ := hm
  have hedge := (h.edge_root_iff i).mpr hinput
  obtain ⟨k, -, rfl⟩ := hroot
  rw [(h.isInput_iff k).mp hisInput]
  exact (h.edge_iff i w.root).mp hedge

/-- What stands in the way of a schedule is a cycle, and the right modules are named. -/
theorem isRefusal_of_isObstacle (h : w.Resolves) {stuck : List (Fin modules.length)}
    (hs : w.IsObstacle stuck) (policy : Policy) :
    IsRefusal modules w.members policy
      (.cycle (stuck.map fun i => (modules.get i).name)) := by
  have hdeclared : ∀ m ∈ w.members, m ∈ modules := fun m hm => mem_of_mem_members hm
  have hlisted : w.supported.Sublist (List.finRange modules.length) := List.filter_sublist
  cases hs with
  | @feedsRoot u hfind =>
      have hnames : ((w.supported.filter fun u => w.edge u w.root).map fun i =>
          (modules.get i).name) = namesOf modules fun m => m ∈ w.members ∧ m.FeedsInput modules := by
        refine map_name_eq_namesOf (List.filter_sublist.trans hlisted) fun i => ?_
        rw [List.mem_filter, h.get_mem_members_iff, h.edge_root_iff]
      -- The search stops at the first of them, which is the first that would be named.
      have hfirst : (w.supported.filter fun u => w.edge u w.root).head? = some u := by
        rw [List.head?_filter, hfind]
      obtain ⟨rest, hrest⟩ := List.head?_eq_some_iff.mp hfirst
      have hone : [u].map (fun i => (modules.get i).name)
          = (namesOf modules fun m => m ∈ w.members ∧ m.FeedsInput modules).take 1 := by
        rw [← hnames, hrest]
        rfl
      rw [hone]
      refine .feedsInput ⟨modules.get u, ?_, ?_⟩
      · exact (h.get_mem_members_iff u).mpr (List.mem_of_find?_eq_some hfind)
      · have hedge : w.edge u w.root = true :=
          List.find?_some (p := fun u => w.edge u w.root) hfind
        exact (h.edge_root_iff u).mp hedge
  | heldUp free nonempty listed mem =>
      have hmem : ∀ i, i ∈ stuck ↔
          modules.get i ∈ w.members ∧ HeldUp (FeedsWithin w.members) (modules.get i) := by
        intro i
        rw [mem, h.get_mem_members_iff, h.preimage_members, h.heldUp_iff hdeclared]
      rw [map_name_eq_namesOf (P := fun m => m ∈ w.members ∧ HeldUp (FeedsWithin w.members) m)
        (listed.trans hlisted) hmem]
      refine .heldUp ?_ ?_
      · rintro m ⟨i, hi, rfl⟩ hfeeds
        have hedge := (h.edge_root_iff i).mpr hfeeds
        rw [free i hi] at hedge
        cases hedge
      · obtain ⟨i, hi⟩ := List.exists_mem_of_ne_nil stuck nonempty
        obtain ⟨-, c, hcycle, -⟩ := (hmem i).mp hi
        exact ⟨c, hcycle⟩

/-- **Every outcome of putting a network in order**, in terms of the largest supported set. -/
theorem order_spec (h : w.Resolves) (policy : Policy) :
    match w.order modules policy with
    | .ok o => IsOrder modules w.members policy o
    | .error fault => IsRefusal modules w.members policy fault := by
  have hschedule := w.schedule_spec
  cases hout : w.schedule with
  | error stuck =>
      rw [hout] at hschedule
      simp only [Wiring.order, hout]
      exact h.isRefusal_of_isObstacle hschedule policy
  | ok written =>
      rw [hout] at hschedule
      -- Whether anything is left out is asked of the names, and the same of the modules.
      have hempty : (w.unsupported.map fun i => (modules.get i).name).isEmpty = false ↔
          ∃ m ∈ modules, m ∉ w.members := by
        rw [h.map_name_unsupported, List.isEmpty_eq_false_iff_exists_mem]
        simp [mem_namesOf_iff]
      simp only [Wiring.order, hout]
      by_cases hleft : policy = .error ∧ ∃ m ∈ modules, m ∉ w.members
      · rw [if_pos ⟨hleft.1, hempty.mpr hleft.2⟩, h.map_name_unsupported]
        have horder : IsOrder modules w.members .drop _ :=
          h.isOrder_of_isSchedule hschedule fun hstrict => by cases hstrict
        exact .unreachable horder.acyclic hleft.1 hleft.2
      · rw [if_neg fun hboth => hleft ⟨hboth.1, hempty.mp hboth.2⟩]
        refine h.isOrder_of_isSchedule hschedule fun hstrict m hm => ?_
        by_contra hout
        exact hleft ⟨hstrict, m, hm, hout⟩

/-- **There is an order when there is a schedule** and nothing is left out that may not be. It
is the schedule, with the modules for their positions. -/
theorem order_eq_ok_iff {policy : Policy} {o : Order} :
    w.order modules policy = .ok o ↔
      ∃ written, w.schedule = .ok written ∧ (policy = .error → w.unsupported = []) ∧
        o = ⟨written.map modules.get, w.unsupported.map fun i => (modules.get i).name⟩ := by
  cases hout : w.schedule with
  | error stuck => simp [Wiring.order, hout]
  | ok written =>
      have hempty : (w.unsupported.map fun i => (modules.get i).name).isEmpty = false ↔
          w.unsupported ≠ [] := by
        rw [List.isEmpty_eq_false_iff, ne_eq, List.map_eq_nil_iff]
      simp only [Wiring.order, hout]
      by_cases hallowed : policy = .error → w.unsupported = []
      · rw [if_neg fun hboth => hempty.mp hboth.2 (hallowed hboth.1)]
        constructor
        · intro ho
          exact ⟨written, rfl, hallowed, (Except.ok.inj ho).symm⟩
        · rintro ⟨_, hwritten, -, rfl⟩
          cases hwritten
          rfl
      · obtain ⟨hstrict, hleft⟩ := Classical.not_imp.mp hallowed
        rw [if_pos ⟨hstrict, hempty.mpr hleft⟩]
        simp [hallowed]

theorem not_isRefusal_of_isOrder (h : w.Resolves) {policy : Policy} {o : Order}
    (ho : IsOrder modules w.members policy o) (fault : GraphError) :
    ¬ IsRefusal modules w.members policy fault := by
  intro hf
  cases hf with
  | feedsInput feeds =>
      obtain ⟨c, hcycle⟩ := h.exists_cycle_of_feedsInput feeds
      exact ho.acyclic c hcycle
  | heldUp _ cyclic =>
      obtain ⟨c, hcycle⟩ := cyclic
      exact ho.acyclic c hcycle
  | unreachable _ strict left =>
      obtain ⟨m, hm, hout⟩ := left
      exact hout (ho.whole strict m hm)

/-- A network is refused for one reason only. -/
theorem isRefusal_unique (h : w.Resolves) {policy : Policy} {e f : GraphError}
    (he : IsRefusal modules w.members policy e) (hf : IsRefusal modules w.members policy f) :
    e = f := by
  -- The third reason excludes all cycles, and a wire to the root is what tells the others apart.
  have hclosed := h.exists_cycle_of_feedsInput
  cases he with
  | feedsInput feeds =>
      cases hf with
      | feedsInput _ => rfl
      | heldUp unfed _ =>
          obtain ⟨m, hm, hinput⟩ := feeds
          exact absurd hinput (unfed m hm)
      | unreachable acyclic _ _ => exact absurd (hclosed feeds) (not_exists.mpr acyclic)
  | heldUp unfed cyclic =>
      cases hf with
      | feedsInput feeds =>
          obtain ⟨m, hm, hinput⟩ := feeds
          exact absurd hinput (unfed m hm)
      | heldUp _ _ => rfl
      | unreachable acyclic _ _ => exact absurd cyclic (not_exists.mpr acyclic)
  | unreachable acyclic _ _ =>
      cases hf with
      | feedsInput feeds => exact absurd (hclosed feeds) (not_exists.mpr acyclic)
      | heldUp _ cyclic => exact absurd cyclic (not_exists.mpr acyclic)
      | unreachable _ _ _ => rfl

/-- **The fault that is reported is the reason to refuse the network**, if there is one. -/
theorem order_eq_error_iff (h : w.Resolves) (policy : Policy) (fault : GraphError) :
    w.order modules policy = .error fault ↔ IsRefusal modules w.members policy fault := by
  have hspec := h.order_spec policy
  constructor
  · intro hout
    simpa only [hout] using hspec
  · intro hf
    cases hout : w.order modules policy with
    | ok o =>
        rw [hout] at hspec
        exact absurd hf (h.not_isRefusal_of_isOrder hspec fault)
    | error other =>
        rw [hout] at hspec
        rw [h.isRefusal_unique hspec hf]

/-- A cycle is a fault, under one of two lists of names. -/
theorem exists_cycle_fault_iff (h : w.Resolves) (policy : Policy) :
    (∃ names, w.order modules policy = .error (.cycle names)) ↔
      ∃ m, TransGen (FeedsWithin w.members) m m := by
  simp only [h.order_eq_error_iff]
  constructor
  · rintro ⟨names, hf⟩
    cases hf with
    | feedsInput feeds => exact h.exists_cycle_of_feedsInput feeds
    | heldUp _ cyclic => exact cyclic
  · intro hcyclic
    by_cases hfeeds : ∃ m ∈ w.members, m.FeedsInput modules
    · exact ⟨_, .feedsInput hfeeds⟩
    · refine ⟨_, .heldUp (fun m hm hinput => ?_) hcyclic⟩
      exact hfeeds ⟨m, hm, hinput⟩

/-- Without a cycle, and with nothing that may not be left out, there is an order. -/
theorem exists_order (h : w.Resolves) (policy : Policy)
    (hacyclic : ∀ m, ¬ TransGen (FeedsWithin w.members) m m)
    (hallowed : ¬ (policy = .error ∧ ∃ m ∈ modules, m ∉ w.members)) :
    ∃ o, w.order modules policy = .ok o := by
  cases hout : w.order modules policy with
  | ok o => exact ⟨o, rfl⟩
  | error fault =>
      have hf := (h.order_eq_error_iff policy fault).mp hout
      cases hf with
      | feedsInput feeds =>
          exact absurd (h.exists_cycle_of_feedsInput feeds) (not_exists.mpr hacyclic)
      | heldUp _ cyclic => exact absurd cyclic (not_exists.mpr hacyclic)
      | unreachable _ strict left => exact absurd ⟨strict, left⟩ hallowed

end Wiring.Resolves

/-! ## 4. Orders -/

/-- **An order writes the largest supported set**: each of its modules once, the root first,
and every module after all those that feed it. What is left out is everything else, in the
order of declaration, and nothing may be left out under the strictest policy. -/
theorem order_writes_largest_supported {modules : List Module} {w : Wiring modules.length}
    (hw : Wiring.ofModules modules = .ok w) (policy : Policy) {o : Order}
    (ho : w.order modules policy = .ok o) :
    IsGreatest {T | Supported modules T} {m | m ∈ o.modules} ∧
    o.modules.Nodup ∧
    (∃ root ∈ modules, root.isInput = true ∧ o.modules.head? = some root) ∧
    (∀ p ∈ o.modules, ∀ c ∈ o.modules, p.Feeds c →
      o.modules.idxOf p < o.modules.idxOf c) ∧
    o.dropped = namesOf modules (· ∉ o.modules) ∧
    (o.names ++ o.dropped).Perm (modules.map (·.name)) ∧
    (policy = .error → o.dropped = []) := by
  have hresolves := Wiring.resolves_of_ofModules hw
  have horder : IsOrder modules w.members policy o := by
    simpa only [ho] using hresolves.order_spec policy
  have hset : {m | m ∈ o.modules} = w.members := Set.ext horder.mem_iff
  have hdropped : o.dropped = namesOf modules (· ∉ o.modules) := by
    simp only [horder.dropped, horder.mem_iff]
  refine ⟨?_, horder.nodup, horder.head, ?_, hdropped, ?_, ?_⟩
  · rw [hset]
    exact hresolves.isGreatest_members
  · intro p hp c hc hfeeds
    rw [horder.mem_iff] at hp hc
    exact horder.idxOf_lt p c (.single ⟨hp, hc, hfeeds⟩)
  · exact horder.perm hresolves.nodup.of_map fun m hm => Wiring.Resolves.mem_of_mem_members hm
  · intro hstrict
    rw [horder.dropped, List.eq_nil_iff_forall_not_mem]
    intro name hname
    obtain ⟨m, hm, hout, -⟩ := (mem_namesOf_iff modules _ name).mp hname
    exact hout (horder.whole hstrict m hm)

/-- Two branches that meet, and a layer that is applied to one that data never reaches. -/
def branches : List Module := [
  ⟨.layer, "x", none, some "d", .supported .input []⟩,
  ⟨.layer, "stray", none, none, .supported .dense []⟩,
  ⟨.layer, "d", some "stray", none, .supported .dense []⟩,
  ⟨.layer, "join", some "x", none, .supported .dense []⟩,
  ⟨.layer, "a", some "x", none, .supported .dense []⟩,
  ⟨.layer, "b", some "a", some "join", .supported .flatten []⟩]

/-- The wiring of the two branches. -/
def branchesWiring : Wiring 6 where
  root := 0
  producers := #v[none, none, some 1, some 0, some 0, some 4]
  consumers := #v[some 2, none, none, none, none, some 3]

/-- The order of the two branches: `join` waits for `b`, and `d` is left out with `stray`. -/
def branchesOrder : Order where
  modules := [
    ⟨.layer, "x", none, some "d", .supported .input []⟩,
    ⟨.layer, "a", some "x", none, .supported .dense []⟩,
    ⟨.layer, "b", some "a", some "join", .supported .flatten []⟩,
    ⟨.layer, "join", some "x", none, .supported .dense []⟩]
  dropped := ["stray", "d"]

theorem order_writes_largest_supported_branches :
    Wiring.ofModules branches = .ok branchesWiring ∧
    branchesWiring.order branches .drop = .ok branchesOrder ∧
    IsGreatest {T | Supported branches T} {m | m ∈ branchesOrder.modules} ∧
    branchesOrder.dropped = namesOf branches (· ∉ branchesOrder.modules) := by
  have hw : Wiring.ofModules branches = .ok branchesWiring := rfl
  have ho : branchesWiring.order branches .drop = .ok branchesOrder := by decide +kernel
  obtain ⟨hgreatest, -, -, -, hdropped, -⟩ := order_writes_largest_supported hw .drop ho
  exact ⟨hw, ho, hgreatest, hdropped⟩

/-! ## 5. Refusals -/

/-- **A network is refused for a cycle exactly when the largest supported set has one**,
whatever the policy. A wire back to where data enters is named by the first module that has
one; otherwise all modules are named that lie on a cycle within the set or behind one. Without
a cycle only the strictest policy refuses, and only when something would be left out. -/
theorem order_refuses_cycles {modules : List Module} {w : Wiring modules.length}
    (hw : Wiring.ofModules modules = .ok w) (policy : Policy) :
    ∃ S, IsGreatest {T | Supported modules T} S ∧
      ((∃ names, w.order modules policy = .error (.cycle names)) ↔
        ∃ m, TransGen (FeedsWithin S) m m) ∧
      ((∃ m ∈ S, m.FeedsInput modules) →
        w.order modules policy = .error
          (.cycle ((namesOf modules fun m => m ∈ S ∧ m.FeedsInput modules).take 1))) ∧
      ((∀ m ∈ S, ¬ m.FeedsInput modules) → (∃ m, TransGen (FeedsWithin S) m m) →
        w.order modules policy = .error
          (.cycle (namesOf modules fun m => m ∈ S ∧ HeldUp (FeedsWithin S) m))) ∧
      ((∀ m, ¬ TransGen (FeedsWithin S) m m) →
        (∀ names, w.order modules policy = .error (.unreachable names) ↔
          policy = .error ∧ (∃ m ∈ modules, m ∉ S) ∧ names = namesOf modules (· ∉ S)) ∧
        (¬ (policy = .error ∧ ∃ m ∈ modules, m ∉ S) →
          ∃ o, w.order modules policy = .ok o)) := by
  have hresolves := Wiring.resolves_of_ofModules hw
  refine ⟨w.members, hresolves.isGreatest_members, hresolves.exists_cycle_fault_iff policy,
    fun hfeeds => ?_, fun hunfed hcyclic => ?_, fun hacyclic => ⟨fun names => ?_, ?_⟩⟩
  · rw [hresolves.order_eq_error_iff]
    exact .feedsInput hfeeds
  · rw [hresolves.order_eq_error_iff]
    exact .heldUp hunfed hcyclic
  · rw [hresolves.order_eq_error_iff]
    constructor
    · intro hrefused
      cases hrefused with
      | unreachable _ strict left => exact ⟨strict, left, rfl⟩
    · rintro ⟨hstrict, hleft, rfl⟩
      exact .unreachable hacyclic hstrict hleft
  · exact hresolves.exists_order policy hacyclic

/-- Two layers that feed each other and hold up a third, and another such pair that data
never reaches. -/
def loops : List Module := [
  ⟨.layer, "x", none, none, .supported .input []⟩,
  ⟨.layer, "a", some "x", some "b", .supported .dense []⟩,
  ⟨.layer, "after", some "c", none, .supported .dense []⟩,
  ⟨.layer, "b", some "c", none, .supported .dense []⟩,
  ⟨.layer, "c", some "b", none, .supported .dense []⟩,
  ⟨.layer, "p", some "q", none, .supported .dense []⟩,
  ⟨.layer, "q", some "p", none, .supported .dense []⟩]

/-- The wiring of the two loops. -/
def loopsWiring : Wiring 7 where
  root := 0
  producers := #v[none, some 0, some 4, some 4, some 3, some 6, some 5]
  consumers := #v[none, some 3, none, none, none, none, none]

theorem order_refuses_cycles_loops :
    Wiring.ofModules loops = .ok loopsWiring ∧
    loopsWiring.order loops .warn = .error (.cycle ["after", "b", "c"]) ∧
    ∃ S, IsGreatest {T | Supported loops T} S ∧ ∃ m, TransGen (FeedsWithin S) m m := by
  have hw : Wiring.ofModules loops = .ok loopsWiring := rfl
  have hout : loopsWiring.order loops .warn = .error (.cycle ["after", "b", "c"]) := by
    decide +kernel
  obtain ⟨S, hS, hcycle, -⟩ := order_refuses_cycles hw .warn
  exact ⟨hw, hout, S, hS, hcycle.mp ⟨_, hout⟩⟩

end LayerScript
