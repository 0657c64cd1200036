/-
`Proofs/Binding.lean` -- what a bound payload promises about its modules.

Binding judges one declaration at a time, deep inside a payload: the text is read
to an object, the object holds the network, the network a list of modules. Nothing
on the way changes a module that was accepted, so whatever `Module.ofDeclaration`
checks holds of every module of every project. The lemmas here open one level each.
-/
import LayerScript.Project
import LayerScript.Proofs.Steps

set_option autoImplicit false

namespace LayerScript

/-! ## 1. Lists and slots -/

/-- Every item of a decoded list was decoded. -/
theorem Decode.exists_of_mem_items {α : Type} {decode : Decoder α} {vs : List Value}
    {as : List α} (h : Decode.items decode vs = .ok as) : ∀ a ∈ as, ∃ v, decode v = .ok a := by
  induction vs generalizing as with
  | nil =>
      cases h
      simp
  | cons v rest ih =>
      obtain ⟨a, ha, hrest⟩ := bind_eq_ok_iff.mp h
      obtain ⟨more, hmore, hcons⟩ := bind_eq_ok_iff.mp hrest
      cases hcons
      intro b hb
      rcases List.mem_cons.mp hb with rfl | hb
      · exact ⟨v, ha⟩
      · exact ih hmore b hb

theorem Decode.exists_of_mem_list {α : Type} {decode : Decoder α} {v : Value} {as : List α}
    (h : Decode.list decode v = .ok as) : ∀ a ∈ as, ∃ u, decode u = .ok a := by
  cases v with
  | list vs => exact Decode.exists_of_mem_items h
  | _ => cases h

/-- The value of a slot that has to be there was decoded. -/
theorem Slot.exists_of_required {α : Type} {r : Record} {key : String} {decode : Decoder α}
    {a : α} (h : (r.slot key decode).required r = .ok a) : ∃ v, decode v = .ok a := by
  unfold Slot.required Record.slot at h
  cases hfield : r.fields.lookup key with
  | none =>
      rw [hfield] at h
      cases h
  | some v =>
      rw [hfield] at h
      exact ⟨v, h⟩

/-! ## 2. Modules -/

/-- What a module satisfies that was declared: its name looks like a variable, and is none
that the scripts use for themselves. -/
structure Module.IsBound (m : Module) : Prop where
  isName : Literal.isName m.name = true
  not_reserved : m.name ∉ reservedNames

/-- A declaration is accepted under a name that may be used. -/
theorem Module.isBound_of_ofDeclaration {decl : Module.Declaration} {m : Module}
    (h : Module.ofDeclaration decl = .ok m) : m.IsBound := by
  unfold ofDeclaration at h
  split at h
  · cases h
  · rename_i hname
    split at h
    · cases h
    · rename_i hreserved
      split at h
      · cases h
      · cases h
      · cases h
        exact ⟨by simpa using hname, hreserved⟩

/-- A declaration is accepted when its layer is supported. A type that the catalog does not have
is refused here, whatever its text. -/
theorem Module.isSupported_of_ofDeclaration {decl : Module.Declaration} {m : Module}
    (h : Module.ofDeclaration decl = .ok m) : ∃ params, m.layer.params? = some params := by
  unfold ofDeclaration at h
  split at h
  · cases h
  · split at h
    · cases h
    · split at h
      · cases h
      · cases h
      · rename_i layer hne _
        cases h
        -- The variant that is left was refused by the branch before.
        cases layer with
        | supported kind values => exact ⟨_, rfl⟩
        | unsupported => exact absurd rfl hne

/-- Every module of a network was declared and accepted. -/
theorem Network.exists_declaration {v : Value} {c : Network} (h : Network.ofValue v = .ok c) :
    ∀ m ∈ c.modules, ∃ decl, Module.ofDeclaration decl = .ok m := by
  -- The fields in the order in which they are read; only the modules matter.
  unfold ofValue at h
  obtain ⟨r, -, h⟩ := bind_eq_ok_iff.mp h
  obtain ⟨-, -, h⟩ := bind_eq_ok_iff.mp h
  obtain ⟨input, -, h⟩ := bind_eq_ok_iff.mp h
  obtain ⟨output, -, h⟩ := bind_eq_ok_iff.mp h
  obtain ⟨modules, hmodules, h⟩ := bind_eq_ok_iff.mp h
  obtain ⟨-, -, h⟩ := bind_eq_ok_iff.mp h
  cases h
  obtain ⟨u, hu⟩ := Slot.exists_of_required hmodules
  intro m hm
  obtain ⟨d, hd⟩ := Decode.exists_of_mem_list hu m hm
  obtain ⟨decl, -, hdecl⟩ := bind_eq_ok_iff.mp hd
  exact ⟨decl, hdecl⟩

theorem Network.isBound_of_ofValue {v : Value} {c : Network} (h : Network.ofValue v = .ok c) :
    ∀ m ∈ c.modules, m.IsBound := by
  intro m hm
  obtain ⟨decl, hdecl⟩ := exists_declaration h m hm
  exact Module.isBound_of_ofDeclaration hdecl

/-! ## 3. Payloads -/

theorem bindPart_eq_ok_iff {α : Type} {fields : List (String × Value)} {part : Part}
    {decode : Decoder α} {a : α} :
    bindPart fields part decode = .ok a ↔
      ∃ v, fields.lookup part.key = some v ∧ decode v = .ok a := by
  unfold bindPart
  split
  · rename_i hnone
    simp [hnone]
  · rename_i v hv
    simp [hv, mapError_eq_ok_iff]

theorem exists_of_bindPart {α : Type} {fields : List (String × Value)} {part : Part}
    {decode : Decoder α} {a : α} (h : bindPart fields part decode = .ok a) :
    ∃ v, decode v = .ok a := by
  obtain ⟨v, -, hv⟩ := bindPart_eq_ok_iff.mp h
  exact ⟨v, hv⟩

/-- The two parts of a project were read from the fields of its payload. -/
theorem Project.exists_parts_of_ofPayload {payload : String} {user : Option String} {p : Project}
    (h : Project.ofPayload payload user = .ok p) :
    ∃ fields, Json.readObject payload = .ok fields ∧
      bindPart fields .config Config.ofValue = .ok p.config ∧
      bindPart fields .content Network.ofValue = .ok p.network := by
  unfold ofPayload at h
  obtain ⟨fields, hfields, h⟩ := bind_eq_ok_iff.mp h
  obtain ⟨config, hconfig, h⟩ := bind_eq_ok_iff.mp h
  by_cases hname : (!Literal.isName config.optimizer) = true
  · rw [if_pos hname] at h
    obtain ⟨_, herror, _⟩ := bind_eq_ok_iff.mp h
    cases herror
  · rw [if_neg hname] at h
    obtain ⟨network, hnetwork, h⟩ := bind_eq_ok_iff.mp h
    -- A user, if one is named, is judged last and changes nothing about the parts.
    have hp : p.config = config ∧ p.network = network := by
      split at h
      · obtain ⟨name, -, h⟩ := bind_eq_ok_iff.mp h
        cases h
        exact ⟨rfl, rfl⟩
      · obtain ⟨name, -, h⟩ := bind_eq_ok_iff.mp h
        cases h
        exact ⟨rfl, rfl⟩
    rw [hp.1, hp.2]
    exact ⟨fields, mapError_eq_ok_iff.mp hfields, hconfig, hnetwork⟩

/-- The network of a project was read from a document. -/
theorem Project.exists_network_of_ofPayload {payload : String} {user : Option String} {p : Project}
    (h : Project.ofPayload payload user = .ok p) : ∃ v, Network.ofValue v = .ok p.network := by
  obtain ⟨fields, -, -, hnetwork⟩ := exists_parts_of_ofPayload h
  exact exists_of_bindPart hnetwork

/-- **Every module of a project was accepted.** -/
theorem Project.isBound_of_ofPayload {payload : String} {user : Option String} {p : Project}
    (h : Project.ofPayload payload user = .ok p) : ∀ m ∈ p.network.modules, m.IsBound := by
  obtain ⟨v, hv⟩ := exists_network_of_ofPayload h
  exact Network.isBound_of_ofValue hv

/-- **Every layer of a project is supported.** -/
theorem Project.isSupported_of_ofPayload {payload : String} {user : Option String} {p : Project}
    (h : Project.ofPayload payload user = .ok p) :
    ∀ m ∈ p.network.modules, ∃ params, m.layer.params? = some params := by
  obtain ⟨v, hv⟩ := exists_network_of_ofPayload h
  intro m hm
  obtain ⟨decl, hdecl⟩ := Network.exists_declaration hv m hm
  exact Module.isSupported_of_ofDeclaration hdecl

end LayerScript
