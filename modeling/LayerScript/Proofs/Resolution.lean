/-
`Proofs/Resolution.lean` -- what is reported about a network, and which report comes first.

A network can be at fault in several ways at once: its modules cannot be wired, an end
names no module, wires form a cycle, modules are cut off, an end is among those. The
reports come in this order, and two of them are worded alike: modules that may not be
left out are named under the strictest policy, and under the others only the ends are,
when they were left out.

`Network.Verdict` says it for a network whose modules can be wired, in terms of the
largest supported set. Its fields exclude one another and leave no case out, so it tells
the outcome of every network under every policy.
-/
import LayerScript.Proofs.Network

set_option autoImplicit false

open Relation

namespace LayerScript

namespace Network

/-! ## 1. Verdicts -/

/-- The ends of a network that are names of modules outside of a set. -/
noncomputable def endsOutside (c : Network) (S : Set Module) : List String :=
  [c.input, c.output].filter (· ∈ namesOf c.modules (· ∉ S))

/-- What is said about a network whose modules are wired, where `S` is the set of modules
that can be written and `r` is what is said. -/
structure Verdict (c : Network) (S : Set Module) (policy : Policy)
    (r : Except GraphError Order) : Prop where
  /-- The first end names no module. -/
  unknownInput : c.declares c.input = false → r = .error (.unknownEndpoint .input c.input)
  /-- Only the second does not. -/
  unknownOutput : c.declares c.input = true → c.declares c.output = false →
    r = .error (.unknownEndpoint .output c.output)
  /-- Both ends are known, and there is a cycle among the modules that can be written. -/
  cyclic : c.declares c.input = true → c.declares c.output = true →
    (∃ m, TransGen (FeedsWithin S) m m) →
    ∃ layers, r = .error (.cycle layers) ∧ IsRefusal c.modules S policy (.cycle layers)
  /-- There is none, but modules that may not be left out cannot be written. -/
  leftOut : c.declares c.input = true → c.declares c.output = true →
    (∀ m, ¬ TransGen (FeedsWithin S) m m) → policy = .error →
    namesOf c.modules (· ∉ S) ≠ [] → r = .error (.unreachable (namesOf c.modules (· ∉ S)))
  /-- Modules may be left out, but an end is among them. -/
  endsLeftOut : c.declares c.input = true → c.declares c.output = true →
    (∀ m, ¬ TransGen (FeedsWithin S) m m) → policy ≠ .error →
    c.endsOutside S ≠ [] → r = .error (.unreachable (c.endsOutside S))
  /-- Nothing of all this is the case. -/
  resolved : c.declares c.input = true → c.declares c.output = true →
    (∀ m, ¬ TransGen (FeedsWithin S) m m) →
    (policy = .error → namesOf c.modules (· ∉ S) = []) →
    (policy ≠ .error → c.endsOutside S = []) →
    ∃ o, r = .ok o ∧ IsOrder c.modules S policy o

variable {c : Network} {policy : Policy} {o : Order}

/-- An order leaves out the ends that cannot be written. -/
theorem droppedEndpoints_eq_endsOutside {S : Set Module} (ho : IsOrder c.modules S policy o) :
    c.droppedEndpoints o = c.endsOutside S := by
  rw [droppedEndpoints, endsOutside, ho.dropped]

/-- An end is unknown when it is not declared, the first before the second. -/
theorem resolve_of_unknownEndpoint {w : Wiring c.modules.length}
    (hw : Wiring.ofModules c.modules = .ok w) {fault : GraphError}
    (hends : c.unknownEndpoint = some fault) : c.resolve policy = .error fault := by
  simp only [resolve, order, hw, hends]

/-- Under the strictest policy no end is left out of an order, since nothing is. -/
theorem endsOutside_eq_nil {S : Set Module} (h : namesOf c.modules (· ∉ S) = []) :
    c.endsOutside S = [] := by
  simp [endsOutside, h]

/-- **Every network whose modules are wired gets its verdict.** -/
theorem verdict_resolve {w : Wiring c.modules.length}
    (hw : Wiring.ofModules c.modules = .ok w) :
    c.Verdict w.members policy (c.resolve policy) := by
  have hresolves := Wiring.resolves_of_ofModules hw
  have hspec := hresolves.order_spec policy
  have hdecided : c.declares c.input = true → c.declares c.output = true →
      c.resolve policy = (w.order c.modules policy).bind fun o =>
        if c.droppedEndpoints o = [] then .ok o
        else .error (.unreachable (c.droppedEndpoints o)) :=
    fun hin hout => resolve_of_ofModules hw (unknownEndpoint_eq_none_iff.mpr ⟨hin, hout⟩)
  have hleft : namesOf c.modules (· ∉ w.members) ≠ [] ↔ ∃ m ∈ c.modules, m ∉ w.members := by
    rw [← List.isEmpty_eq_false_iff, List.isEmpty_eq_false_iff_exists_mem]
    simp [mem_namesOf_iff]
  refine ⟨fun hin => ?_, fun hin hout => ?_, fun hin hout hcyclic => ?_,
    fun hin hout hacyclic hstrict hnames => ?_, fun hin hout hacyclic hlax hends => ?_,
    fun hin hout hacyclic hwhole hends => ?_⟩
  · exact resolve_of_unknownEndpoint hw (by simp [unknownEndpoint, hin])
  · exact resolve_of_unknownEndpoint hw (by simp [unknownEndpoint, hin, hout])
  · obtain ⟨layers, horder⟩ := (hresolves.exists_cycle_fault_iff policy).mpr hcyclic
    refine ⟨layers, ?_, (hresolves.order_eq_error_iff policy _).mp horder⟩
    rw [hdecided hin hout, horder]
    rfl
  · have hrefused : IsRefusal c.modules w.members policy
        (.unreachable (namesOf c.modules (· ∉ w.members))) :=
      .unreachable hacyclic hstrict (hleft.mp hnames)
    rw [hdecided hin hout, (hresolves.order_eq_error_iff policy _).mpr hrefused]
    rfl
  · obtain ⟨o, horder⟩ := hresolves.exists_order policy hacyclic fun hboth => hlax hboth.1
    rw [horder] at hspec
    rw [hdecided hin hout, horder, ← droppedEndpoints_eq_endsOutside hspec]
    rw [← droppedEndpoints_eq_endsOutside hspec] at hends
    exact if_neg hends
  · obtain ⟨o, horder⟩ := hresolves.exists_order policy hacyclic fun hboth =>
      hleft.mpr hboth.2 (hwhole hboth.1)
    rw [horder] at hspec
    refine ⟨o, ?_, hspec⟩
    have hnone : c.droppedEndpoints o = [] := by
      rw [droppedEndpoints_eq_endsOutside hspec]
      by_cases hstrict : policy = .error
      · exact endsOutside_eq_nil (hwhole hstrict)
      · exact hends hstrict
    rw [hdecided hin hout, horder]
    exact if_pos hnone

/-! ## 2. Policies -/

/-- Whether leaving modules out is worth a warning makes no difference. -/
theorem resolve_drop_eq_warn (c : Network) : c.resolve .drop = c.resolve .warn := by
  have horder : c.order .drop = c.order .warn := by
    unfold order Wiring.order
    simp
  rw [resolve, resolve, horder]

/-- The strictest policy resolves what the others resolve without leaving anything out. -/
theorem resolve_error_eq_ok_iff (c : Network) (o : Order) :
    c.resolve .error = .ok o ↔ c.resolve .drop = .ok o ∧ o.dropped = [] := by
  -- An order under either policy is the schedule; only the first asks what it leaves out.
  have hnil : ∀ {w : Wiring c.modules.length},
      (w.unsupported.map fun i => (c.modules.get i).name) = [] ↔ w.unsupported = [] := by
    intro w
    rw [List.map_eq_nil_iff]
  rw [resolve_eq_ok_iff, resolve_eq_ok_iff]
  constructor
  · rintro ⟨w, hw, hends, horder, hdropped⟩
    obtain ⟨written, hwritten, hwhole, rfl⟩ := Wiring.Resolves.order_eq_ok_iff.mp horder
    refine ⟨⟨w, hw, hends, ?_, hdropped⟩, hnil.mpr (hwhole rfl)⟩
    exact Wiring.Resolves.order_eq_ok_iff.mpr ⟨written, hwritten, nofun, rfl⟩
  · rintro ⟨⟨w, hw, hends, horder, hdropped⟩, hempty⟩
    obtain ⟨written, hwritten, -, rfl⟩ := Wiring.Resolves.order_eq_ok_iff.mp horder
    refine ⟨w, hw, hends, ?_, hdropped⟩
    exact Wiring.Resolves.order_eq_ok_iff.mpr ⟨written, hwritten, fun _ => hnil.mp hempty, rfl⟩

end Network

/-! ## 3. Every network -/

/-- **The first fault of a network is reported**, and there is an order only when it has none.
Modules that cannot be wired come first; for all others there is a verdict. An order has both
ends in it; leaving modules out with or without a warning comes to the same; and the strictest
policy has an order exactly when the others have one that leaves nothing out, and it is that
one. -/
theorem resolve_reports_first_fault (c : Network) (policy : Policy) :
    (∀ fault, Wiring.ofModules c.modules = .error fault → c.resolve policy = .error fault) ∧
    (∀ w, Wiring.ofModules c.modules = .ok w →
      ∃ S, IsGreatest {T | Supported c.modules T} S ∧
        c.Verdict S policy (c.resolve policy)) ∧
    (∀ o, c.resolve policy = .ok o → c.input ∈ o.names ∧ c.output ∈ o.names) ∧
    c.resolve .drop = c.resolve .warn ∧
    (∀ o, c.resolve .error = .ok o ↔ c.resolve .drop = .ok o ∧ o.dropped = []) := by
  refine ⟨fun fault hfault => ?_, fun w hw => ?_, fun o ho => ?_, c.resolve_drop_eq_warn,
    c.resolve_error_eq_ok_iff⟩
  · simp only [Network.resolve, Network.order, hfault]
  · exact ⟨w.members, (Wiring.resolves_of_ofModules hw).isGreatest_members,
      Network.verdict_resolve hw⟩
  · have hresolved := Network.resolved ho
    exact ⟨List.mem_map.mpr hresolved.input_mem, List.mem_map.mpr hresolved.output_mem⟩

end LayerScript
