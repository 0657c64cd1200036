/-
`Proofs/Records.lean` -- what is said about a record in three places agrees.

A record is read by its fields, published by its signature and written by its entries, and the
three are stated apart (`ParamRecord.fields`, `ParamRecord.signature`, `ParamRecord.entries`).
A field that is missing from one of them, or out of its order there, would be read and not
written, or be written without being published. That this is so of no record is what
`ParamRecord.signature_eq` and `ParamRecord.entries_eq` say, and it is checked record by record.
The same goes for a kind: its tag, its name and its entry in the catalog agree.

From there on one place is as good as another. What the decoder accepts is stated of the fields
(`ParamRecord.ofFields_eq_ok_iff`), and what was read is written again key by key
(`ParamRecord.params_read`).
-/
import LayerScript.Layer
import LayerScript.Proofs.Steps
import Mathlib.Data.List.Nodup

set_option autoImplicit false

namespace LayerScript

namespace ParamRecord

variable {r : ParamRecord} {key : String} {given : List (String × Value)}

/-! ## 1. Fields, signature and entries -/

/-- The keys of the fields that have to be there, or of those that need not. -/
def keysOf (r : ParamRecord) (presence : Presence) : List String :=
  (r.fields.filter fun f => f.2 = presence).map fun f => f.1.key

/-- **The signature of a record publishes its fields.** -/
theorem signature_eq (r : ParamRecord) :
    r.signature = ⟨r.keysOf .required, r.keysOf .optional⟩ := by
  cases r <;> rfl

/-- **The entries of a record are its fields**, each under its own key. -/
theorem entries_eq (r : ParamRecord) :
    r.entries = r.fields.map fun f => (f.1.key, f.1) := by
  cases r <;> rfl

/-- Fields that have to be there are declared before those that need not. -/
theorem keys_eq (r : ParamRecord) : r.keys = r.signature.keys := by
  cases r <;> rfl

theorem nodup_keys (r : ParamRecord) : r.keys.Nodup := by
  cases r <;> decide

theorem mem_keysOf {presence : Presence} :
    key ∈ r.keysOf presence ↔ ∃ f ∈ r.fields, f.2 = presence ∧ f.1.key = key := by
  simp [keysOf, and_assoc]

/-- A record has one field for a key. -/
theorem eq_of_key_eq {f g : ParamField × Presence} (hf : f ∈ r.fields) (hg : g ∈ r.fields)
    (h : f.1.key = g.1.key) : f = g :=
  List.inj_on_of_nodup_map r.nodup_keys hf hg h

/-! ## 2. What is accepted -/

/-- The field for a key is found. -/
theorem presence?_eq_some_iff {presence : Presence} :
    r.presence? key = some presence ↔ key ∈ r.keysOf presence := by
  rw [mem_keysOf, presence?, Option.map_eq_some_iff]
  constructor
  · rintro ⟨f, hfound, rfl⟩
    exact ⟨f, List.mem_of_find?_eq_some hfound, rfl, by simpa using List.find?_some hfound⟩
  · rintro ⟨f, hf, rfl, rfl⟩
    have hfound : (r.fields.find? fun g => g.1.key == f.1.key).isSome :=
      List.find?_isSome.mpr ⟨f, hf, by simp⟩
    obtain ⟨g, hg⟩ := Option.isSome_iff_exists.mp hfound
    have hkey : g.1.key = f.1.key := by simpa using List.find?_some hg
    exact ⟨g, hg, congrArg (·.2) (eq_of_key_eq (List.mem_of_find?_eq_some hg) hf hkey)⟩

/-- A field has no fault when its key is known and its value fits the key. -/
theorem fieldFault_eq_none_iff {v : Value} :
    r.fieldFault key v = none ↔
      (key ∈ r.keysOf .required ∨ key ∈ r.keysOf .optional) ∧
        (key ∈ r.keysOf .required → (Param.ofValue? v).isSome) ∧
        (key ∈ r.keysOf .optional → v = .null ∨ (Param.ofValue? v).isSome) := by
  simp only [← presence?_eq_some_iff]
  unfold fieldFault
  rcases r.presence? key with _ | (_ | _)
  · simp
  · cases v <;> simp [Param.ofValue?]
  · -- `null` is tried before the parameters.
    cases v <;> simp [Param.ofValue?]

theorem firstFault_eq_none_iff :
    r.firstFault given = none ↔ ∀ field ∈ given, r.fieldFault field.1 field.2 = none := by
  simp [firstFault, List.findSome?_eq_none_iff]

/-- No field is missing when every key that has to be there is given. -/
theorem missing?_eq_none_iff :
    r.missing? given = none ↔ ∀ key ∈ r.keysOf .required, ∃ field ∈ given, field.1 = key := by
  have hgiven : ∀ key, (given.lookup key).isNone = false ↔ ∃ field ∈ given, field.1 = key := by
    intro key
    rw [← Bool.not_eq_true, Option.isNone_iff_eq_none, List.lookup_eq_none_iff]
    simp only [bne_iff_ne, ne_eq, not_forall, not_not, exists_prop]
    exact exists_congr fun field => and_congr_right fun _ => eq_comm
  simp only [mem_keysOf, missing?, Option.map_eq_none_iff, List.find?_eq_none, Bool.and_eq_true,
    decide_eq_true_eq, not_and, Bool.not_eq_true]
  constructor
  · rintro h key ⟨f, hf, hpresence, rfl⟩
    exact (hgiven _).mp (h f hf hpresence)
  · intro h f hf hpresence
    exact (hgiven _).mpr (h _ ⟨f, hf, hpresence, rfl⟩)

/-- **An object is decoded** when none of its fields has a fault and no key is missing, and then
its values are read. -/
theorem ofFields_eq_ok_iff {values : FieldValues} :
    r.ofFields given = .ok values ↔
      (∀ field ∈ given, r.fieldFault field.1 field.2 = none) ∧
        (∀ key ∈ r.keysOf .required, ∃ field ∈ given, field.1 = key) ∧ values = r.read given := by
  rw [← firstFault_eq_none_iff, ← missing?_eq_none_iff, ofFields]
  cases r.firstFault given with
  | some fault => simp
  | none =>
      cases r.missing? given with
      | some field => simp
      | none => simp [eq_comm]

/-! ## 3. What is written -/

/-- What is written has the keys of the entries. -/
theorem mem_entries_of_mem_params {values : FieldValues} {e : String × Param}
    (he : e ∈ r.params values) : e.1 ∈ r.entries.map (·.1) := by
  obtain ⟨entry, hentry, he⟩ := List.mem_filterMap.mp he
  obtain ⟨p, -, rfl⟩ := Option.map_eq_some_iff.mp he
  exact List.mem_map_of_mem hentry

/-- Looking a value up among those that a function gives for some items. -/
theorem lookup_filterMap_pair {α β : Type} [DecidableEq α] (value? : α → Option β) (a : α)
    (items : List α) :
    (items.filterMap fun b => (value? b).map fun c => (b, c)).lookup a
      = if a ∈ items then value? a else none := by
  induction items with
  | nil => rfl
  | cons b rest ih =>
      by_cases hab : a = b
      · -- A function that has no value for the item gives none later either.
        subst hab
        cases hvalue : value? a with
        | none => simp [hvalue, ih]
        | some c => simp [hvalue]
      · have hne : (a == b) = false := beq_eq_false_iff_ne.mpr hab
        cases hvalue : value? b with
        | none => simp [hvalue, hab, ih]
        | some c => simp [hvalue, hab, hne, ih, List.lookup_cons]

/-- The value of a field among those that were read. -/
theorem lookup_read {f : ParamField × Presence} (hf : f ∈ r.fields) :
    (r.read given).lookup f.1 = (given.lookup f.1.key).bind Param.ofValue? := by
  have hread : r.read given = (r.fields.map (·.1)).filterMap fun field =>
      ((given.lookup field.key).bind Param.ofValue?).map fun p => (field, p) := by
    rw [read, List.filterMap_map]
    rfl
  rw [hread, lookup_filterMap_pair, if_pos (List.mem_map_of_mem hf)]

/-- **What was read is written**: the keys of a record are written in their order, each with the
value that was given for it. -/
theorem params_read (r : ParamRecord) (given : List (String × Value)) :
    r.params (r.read given) = r.keys.filterMap fun key =>
      ((given.lookup key).bind Param.ofValue?).map fun p => (key, p) := by
  rw [params, entries_eq, keys, List.filterMap_map, List.filterMap_map]
  apply List.filterMap_congr
  intro f hf
  exact congrArg (Option.map fun p => (f.1.key, p)) (lookup_read hf)

/-- The keys that are written are those for which a parameter was given. -/
theorem map_fst_params_read (r : ParamRecord) (given : List (String × Value)) :
    (r.params (r.read given)).map (·.1)
      = r.keys.filter fun key => ((given.lookup key).bind Param.ofValue?).isSome := by
  rw [params_read, List.map_filterMap, ← List.filterMap_eq_filter]
  apply List.filterMap_congr
  intro key _
  rw [Option.guard]
  cases (given.lookup key).bind Param.ofValue? <;> rfl

/-- What is written with a key was given for it. -/
theorem exists_lookup_of_mem_params {e : String × Param} (he : e ∈ r.params (r.read given)) :
    ∃ v, given.lookup e.1 = some v ∧ Param.ofValue? v = some e.2 := by
  rw [params_read] at he
  obtain ⟨key, -, hkey⟩ := List.mem_filterMap.mp he
  obtain ⟨p, hp, rfl⟩ := Option.map_eq_some_iff.mp hkey
  exact Option.bind_eq_some_iff.mp hp

end ParamRecord

/-! ## 4. Kinds -/

namespace Kind

/-- A kind is written as it is asked for. -/
theorem tag_eq_name (kind : Kind) : kind.tag = kind.name := by
  cases kind <;> rfl

theorem ofTag?_tag (kind : Kind) : ofTag? kind.tag = some kind := by
  cases kind <;> decide

theorem name_injective : Function.Injective name := by
  intro kind other h
  rw [← kind.tag_eq_name, ← other.tag_eq_name] at h
  have hfound := kind.ofTag?_tag
  rw [h, other.ofTag?_tag] at hfound
  exact (Option.some.inj hfound).symm

/-- The entry of a kind in the catalog. -/
def entry (kind : Kind) : CatalogEntry :=
  ⟨kind.name, kind.signature.required, kind.signature.optional⟩

/-- **The catalog holds the entries of the kinds.** -/
theorem mem_catalog_iff {e : CatalogEntry} : e ∈ catalog ↔ ∃ kind : Kind, e = kind.entry := by
  have hcatalog : catalog = all.map entry := rfl
  rw [hcatalog, List.mem_map]
  constructor
  · rintro ⟨kind, -, rfl⟩
    exact ⟨kind, rfl⟩
  · rintro ⟨kind, rfl⟩
    refine ⟨kind, ?_, rfl⟩
    cases kind <;> decide

end Kind

end LayerScript
