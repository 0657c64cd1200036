/-
`Proofs/Network.lean` -- what the order of a network promises to its scripts.

The order of a network is that of its modules, and both ends are in it: an end that
names no module is refused before there is an order, and one that was left out is
refused after. `Network.Resolved` is all that the scripts need to know about orders.
-/
import LayerScript.Proofs.Binding
import LayerScript.Proofs.Graph.Order

set_option autoImplicit false

namespace LayerScript.Network

variable {c : Network} {policy : Policy} {o : Order}

/-- A declared name is that of a module. -/
theorem declares_iff (name : String) :
    c.declares name = true ↔ ∃ m ∈ c.modules, m.name = name := by
  simp [declares, List.any_eq_true]

/-- Neither end is unknown exactly when both are declared. -/
theorem unknownEndpoint_eq_none_iff :
    c.unknownEndpoint = none ↔ c.declares c.input = true ∧ c.declares c.output = true := by
  unfold unknownEndpoint
  cases c.declares c.input <;> cases c.declares c.output <;> simp

/-- An end is left out of an order when its name is among those that are. -/
theorem droppedEndpoints_eq_nil_iff :
    c.droppedEndpoints o = [] ↔ c.input ∉ o.dropped ∧ c.output ∉ o.dropped := by
  simp [droppedEndpoints, List.filter_eq_nil_iff]

/-- Once the modules are wired and both ends are known, the order decides, and whether it leaves
out an end. -/
theorem resolve_of_ofModules {w : Wiring c.modules.length}
    (hw : Wiring.ofModules c.modules = .ok w) (hends : c.unknownEndpoint = none) :
    c.resolve policy = (w.order c.modules policy).bind fun o =>
      if c.droppedEndpoints o = [] then .ok o else .error (.unreachable (c.droppedEndpoints o)) := by
  simp only [resolve, order, hw, hends]
  cases w.order c.modules policy with
  | error fault => rfl
  | ok o =>
      simp only [Except.bind]
      split
      · rename_i hnil
        rw [if_pos hnil]
      · rename_i hne
        rw [if_neg hne]

/-- **A network is resolved when nothing stands in the way**: the modules are wired, both ends
are declared, the modules can be put in order, and both ends are in it. -/
theorem resolve_eq_ok_iff :
    c.resolve policy = .ok o ↔
      ∃ w, Wiring.ofModules c.modules = .ok w ∧ c.unknownEndpoint = none ∧
        w.order c.modules policy = .ok o ∧ c.droppedEndpoints o = [] := by
  cases hw : Wiring.ofModules c.modules with
  | error fault => simp [resolve, order, hw]
  | ok w =>
      cases hends : c.unknownEndpoint with
      | some fault => simp [resolve, order, hw, hends]
      | none =>
          rw [resolve_of_ofModules hw hends]
          constructor
          · intro h
            obtain ⟨found, horder, h⟩ := bind_eq_ok_iff.mp h
            split at h
            · rename_i hdropped
              cases h
              exact ⟨w, rfl, rfl, horder, hdropped⟩
            · cases h
          · rintro ⟨_, hsame, -, horder, hdropped⟩
            cases hsame
            refine bind_eq_ok_iff.mpr ⟨o, horder, ?_⟩
            rw [if_pos hdropped]

/-- What the order of a network promises to the scripts: the modules are declared and have
names of their own, whatever a module is applied to stands before it, and both ends are
there. -/
structure Resolved (c : Network) (o : Order) : Prop where
  declared : ∀ m ∈ o.modules, m ∈ c.modules
  nodup : o.names.Nodup
  applied : ∀ before m after, o.modules = before ++ m :: after → m.isInput = false →
    ∀ name ∈ m.input, ∃ p ∈ before, p.name = name
  input_mem : ∃ m ∈ o.modules, m.name = c.input
  output_mem : ∃ m ∈ o.modules, m.name = c.output

/-- What has a smaller index than an item stands before it. -/
theorem mem_of_idxOf_lt {α : Type} [DecidableEq α] {before after : List α} {a b : α}
    (ha : a ∉ before) (h : (before ++ a :: after).idxOf b < (before ++ a :: after).idxOf a) :
    b ∈ before := by
  by_contra hb
  rw [List.idxOf_append_of_notMem ha, List.idxOf_cons_self, List.idxOf_append_of_notMem hb] at h
  exact absurd h (Nat.not_lt.mpr (Nat.le_add_right _ _))

/-- An end that is declared and was not found missing is written. -/
theorem exists_of_declares {S : Set Module} (ho : IsOrder c.modules S policy o)
    (hdropped : c.droppedEndpoints o = []) {name : String} (hname : name ∈ [c.input, c.output])
    (hdeclared : c.declares name = true) : ∃ m ∈ o.modules, m.name = name := by
  obtain ⟨m, hm, rfl⟩ := (declares_iff name).mp hdeclared
  refine ⟨m, ?_, rfl⟩
  rw [ho.mem_iff]
  by_contra hout
  have hleft : m.name ∈ o.dropped := by
    rw [ho.dropped, mem_namesOf_iff]
    exact ⟨m, hm, hout, rfl⟩
  have hmissing : m.name ∈ c.droppedEndpoints o :=
    List.mem_filter.mpr ⟨hname, by simpa using hleft⟩
  rw [hdropped] at hmissing
  exact List.not_mem_nil hmissing

/-- **A resolved network keeps these promises.** -/
theorem resolved (h : c.resolve policy = .ok o) : c.Resolved o := by
  obtain ⟨w, hw, hends, horder, hdropped⟩ := resolve_eq_ok_iff.mp h
  have hresolves := Wiring.resolves_of_ofModules hw
  have ho : IsOrder c.modules w.members policy o := by
    simpa only [horder] using hresolves.order_spec policy
  have hdeclared : ∀ m ∈ o.modules, m ∈ c.modules := fun m hm =>
    Wiring.Resolves.mem_of_mem_members ((ho.mem_iff m).mp hm)
  obtain ⟨hinput, houtput⟩ := unknownEndpoint_eq_none_iff.mp hends
  refine ⟨hdeclared, ?_, ?_, exists_of_declares ho hdropped (by simp) hinput,
    exists_of_declares ho hdropped (by simp) houtput⟩
  · refine ho.nodup.map_on fun x hx y hy => ?_
    exact List.inj_on_of_nodup_map hresolves.nodup (hdeclared x hx) (hdeclared y hy)
  · -- A module and the layer it is applied to are both members, with a wire between them.
    intro before m after hsplit hroot name hname
    have hm : m ∈ o.modules := by
      rw [hsplit]
      exact List.mem_append_cons_self
    rw [ho.mem_iff] at hm
    obtain ⟨p, hp, rfl⟩ := hresolves.isGreatest_members.1.applied m hm hroot name hname
    have hlt := ho.idxOf_lt p m (.single ⟨hp, hm, Or.inl hname⟩)
    have hnodup := ho.nodup
    rw [hsplit] at hlt hnodup
    have hout : m ∉ before := fun hin =>
      (List.nodup_append.mp hnodup).2.2 m hin m List.mem_cons_self rfl
    exact ⟨p, mem_of_idxOf_lt hout hlt, rfl⟩

end LayerScript.Network
