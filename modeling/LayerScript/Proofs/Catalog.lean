/-
`Proofs/Catalog.lean` -- the published catalog is what is accepted, and what comes out.

The catalog that the program prints says, for each kind of layer, which parameters it must have
and which it may have. Two other parts of the program have to agree with it: the decoder, which
accepts or refuses the parameters of a declaration by the fields of their record, and the entries
of the record, by which a decoded layer gives its parameters to its statement. The three are
stated apart for every record (`Proofs/Records`). Decoder and entries are compared here with what
is *printed*: what an entry of the catalog allows is said key by key over the fields of an object
(`CatalogEntry.Allows`), what comes out is said by looking the keys of the entry up again
(`CatalogEntry.GivenBy`).

A declaration need not have parameters at all. Leaving them out, giving `null` and giving an
object without fields are the same, in an object and in a list (`Module.Declaration.ofValue_congr`).
-/
import LayerScript.Proofs.Records
import LayerScript.Report

set_option autoImplicit false

namespace LayerScript

/-! ## 1. What is published -/

/-- Whether an entry stands in the catalog that is reported. -/
def CatalogEntry.IsPublished (e : CatalogEntry) : Prop :=
  ∃ entries, (Report.catalog catalog).toValue = .list entries ∧ e.toValue ∈ entries

theorem Value.texts_injective : Function.Injective Value.texts := by
  intro items others h
  exact List.map_injective_iff.mpr (fun s t hst => Value.text.inj hst) (Value.list.inj h)

theorem CatalogEntry.toValue_injective : Function.Injective CatalogEntry.toValue := by
  rintro ⟨kind, required, optional⟩ ⟨kind', required', optional'⟩ h
  simp only [toValue, Value.object.injEq, List.cons.injEq, Prod.mk.injEq, Value.text.injEq,
    true_and, and_true] at h
  obtain ⟨rfl, hrequired, hoptional⟩ := h
  rw [Value.texts_injective hrequired, Value.texts_injective hoptional]

/-- **The entries of the kinds are published**, and no others. -/
theorem CatalogEntry.isPublished_iff (e : CatalogEntry) :
    e.IsPublished ↔ ∃ kind : Kind, e = kind.entry := by
  rw [← Kind.mem_catalog_iff]
  constructor
  · rintro ⟨entries, hentries, he⟩
    rw [← Value.list.inj hentries] at he
    obtain ⟨other, hother, hsame⟩ := List.mem_map.mp he
    exact toValue_injective hsame ▸ hother
  · intro he
    exact ⟨_, rfl, List.mem_map_of_mem he⟩

/-! ## 2. What an entry allows -/

/-- The documents that can be parameters: switches, numbers and texts. -/
inductive Value.IsScalar : Value → Prop
  | bool (b : Bool) : IsScalar (.bool b)
  | number (n : Number) : IsScalar (.number n)
  | text (s : String) : IsScalar (.text s)

namespace CatalogEntry

/-- Whether an entry allows the fields of an object as parameters. -/
structure Allows (e : CatalogEntry) (fields : List (String × Value)) : Prop where
  known : ∀ field ∈ fields, field.1 ∈ e.required ∨ field.1 ∈ e.optional
  present : ∀ key ∈ e.required, ∃ field ∈ fields, field.1 = key
  required : ∀ field ∈ fields, field.1 ∈ e.required → field.2.IsScalar
  optional : ∀ field ∈ fields, field.1 ∈ e.optional → field.2 = .null ∨ field.2.IsScalar

/-- Whether a key has a value, and one that is not `null`. -/
def isGiven (fields : List (String × Value)) (key : String) : Bool :=
  match fields.lookup key with
  | none => false
  | some .null => false
  | some _ => true

/-- Whether parameters are those that fields give for an entry: one for each key of the entry
that has a value, first the required keys and then the optional ones, each with that value. -/
structure GivenBy (e : CatalogEntry) (fields : List (String × Value)) (params : Params) : Prop where
  keys : params.map (·.1) = (e.required ++ e.optional).filter (isGiven fields)
  nodup : (params.map (·.1)).Nodup
  values : ∀ entry ∈ params, fields.lookup entry.1 = some entry.2.toValue

end CatalogEntry

/-- A document is a parameter exactly when it is the document of one. -/
theorem Param.ofValue?_eq_some_iff {v : Value} {p : Param} :
    Param.ofValue? v = some p ↔ v = p.toValue := by
  constructor
  · intro h
    cases v with
    | bool b => rw [← Option.some.inj h, toValue]
    | number n => rw [← Option.some.inj h, toValue]
    | text s => rw [← Option.some.inj h, toValue]
    | _ => cases h
  · rintro rfl
    cases p <;> rfl

theorem Param.isSome_ofValue?_iff (v : Value) : (Param.ofValue? v).isSome = true ↔ v.IsScalar := by
  constructor
  · intro h
    obtain ⟨p, hp⟩ := Option.isSome_iff_exists.mp h
    rw [ofValue?_eq_some_iff.mp hp]
    cases p <;> constructor
  · rintro (_ | _ | _) <;> rfl

/-- Of allowed fields those are parameters that are not `null`. -/
theorem CatalogEntry.Allows.isSome_eq_isGiven {e : CatalogEntry} {fields : List (String × Value)}
    (h : e.Allows fields) (key : String) :
    ((fields.lookup key).bind Param.ofValue?).isSome = isGiven fields key := by
  unfold isGiven
  cases hv : fields.lookup key with
  | none => rfl
  | some v =>
      have hfield : (key, v) ∈ fields := by
        obtain ⟨front, back, rfl, -⟩ := List.lookup_eq_some_iff.mp hv
        exact List.mem_append_cons_self
      -- Whichever list the key is on, only `null` is allowed besides parameters.
      have hfits : v = .null ∨ v.IsScalar := by
        rcases h.known _ hfield with hrequired | hoptional
        · exact Or.inr (h.required _ hfield hrequired)
        · exact h.optional _ hfield hoptional
      rcases hfits with rfl | (_ | _ | _) <;> rfl

/-! ## 3. Decoder and entries against the catalog -/

namespace Kind

variable {kind : Kind} {fields : List (String × Value)} {values : FieldValues}

/-- What is published of a kind are the fields of its record. -/
theorem signature_eq (kind : Kind) :
    kind.signature = ⟨kind.record.keysOf .required, kind.record.keysOf .optional⟩ :=
  kind.record.signature_eq

/-- The entry of a kind allows fields when none of them has a fault and no key is missing. -/
theorem allows_entry_iff :
    kind.entry.Allows fields ↔
      (∀ field ∈ fields, kind.record.fieldFault field.1 field.2 = none) ∧
        ∀ key ∈ kind.record.keysOf .required, ∃ field ∈ fields, field.1 = key := by
  rw [entry, signature_eq]
  simp only [ParamRecord.fieldFault_eq_none_iff, Param.isSome_ofValue?_iff]
  constructor
  · intro h
    exact ⟨fun field hfield => ⟨h.known field hfield, h.required field hfield,
      h.optional field hfield⟩, h.present⟩
  · rintro ⟨hfields, hpresent⟩
    exact ⟨fun field hfield => (hfields field hfield).1, hpresent,
      fun field hfield => (hfields field hfield).2.1,
      fun field hfield => (hfields field hfield).2.2⟩

/-- **Parameters are decoded when the entry of the kind allows them.** -/
theorem ofFields_eq_ok_iff :
    kind.record.ofFields fields = .ok values ↔
      kind.entry.Allows fields ∧ values = kind.record.read fields := by
  rw [allows_entry_iff, and_assoc]
  exact ParamRecord.ofFields_eq_ok_iff

/-- **What comes out is what was given.** -/
theorem givenBy_params_read (h : kind.entry.Allows fields) :
    kind.entry.GivenBy fields (kind.record.params (kind.record.read fields)) where
  keys := by
    rw [ParamRecord.map_fst_params_read, ParamRecord.keys_eq]
    exact List.filter_congr fun key _ => h.isSome_eq_isGiven key
  nodup := by
    rw [ParamRecord.map_fst_params_read]
    exact kind.record.nodup_keys.filter _
  values := by
    intro entry hentry
    obtain ⟨v, hv, hp⟩ := ParamRecord.exists_lookup_of_mem_params hentry
    rw [hv, Param.ofValue?_eq_some_iff.mp hp]

end Kind

/-- The document of a layer: its type and an object of parameters, keys ascending. -/
def layerDocument (type : String) (fields : List (String × Value)) : Value :=
  .object [("param", .object fields), ("type", .text type)]

/-- A layer of a kind is decoded when its parameters are. -/
theorem Layer.ofValue_layerDocument (kind : Kind) (fields : List (String × Value)) :
    Layer.ofValue (layerDocument kind.name fields)
      = Layer.supported kind <$> kind.record.ofFields fields := by
  have hkind : Kind.ofTag? kind.name = some kind := by
    rw [← kind.tag_eq_name, kind.ofTag?_tag]
  unfold layerDocument ofValue ofFields
  simp only [List.lookup_cons, String.reduceBEq, beq_self_eq_true, hkind, ParamRecord.decode]

/-! ## 4. Declarations without parameters -/

/-- Whether two records read the same, except for what they hold at one key. -/
structure Record.SameBut (key : String) (r r' : Record) : Prop where
  missing : ∀ other, r.missing other = r'.missing other
  close : ∀ format, r.close format = r'.close format
  lookup : ∀ other, other ≠ key → r.fields.lookup other = r'.fields.lookup other
  settle : ∀ faults : List (String × Option Fault), (faults.lookup key).join = none →
    r.settle faults = r'.settle faults

namespace Record.SameBut

variable {α : Type} {key : String} {r r' : Record}

theorem slot (h : SameBut key r r') {other : String} (hother : other ≠ key) (decode : Decoder α) :
    r.slot other decode = r'.slot other decode := by
  rw [Record.slot, Record.slot, h.lookup other hother]

theorem required (h : SameBut key r r') (s : Slot α) : s.required r = s.required r' := by
  rw [Slot.required, Slot.required, h.missing]

end Record.SameBut

/-- The value that a record gives for a key, unless that is `null`. -/
def Record.given? (r : Record) (key : String) : Option Value :=
  (r.fields.lookup key).bind fun v =>
    match v with
    | .null => none
    | v => some v

theorem Record.fault_slot_optional (r : Record) (key : String) :
    (r.slot key (Decode.optional .ok)).fault = (key, none) := by
  rw [Record.slot, Slot.fault]
  cases r.fields.lookup key with
  | none => rfl
  | some v => cases v <;> rfl

theorem Record.orElse_slot_optional (r : Record) (key : String) :
    (r.slot key (Decode.optional .ok)).orElse none = .ok (r.given? key) := by
  rw [Record.slot, Slot.orElse, Record.given?]
  cases r.fields.lookup key with
  | none => rfl
  | some v => cases v <;> rfl

/-- The keys of a declaration, in the order in which a list gives them. -/
def Module.Declaration.keys : List String :=
  ["category", "type", "name", "input", "output", "param"]

/-- Declarations are read alike when they differ only in how they say what the parameters are. -/
theorem Module.Declaration.ofValue_congr (v v' : Value) {r r' : Record}
    (hr : Record.ofValue "RawModule" keys v = .ok r)
    (hr' : Record.ofValue "RawModule" keys v' = .ok r') (h : Record.SameBut "param" r r')
    (hparams : (r.given? "param").getD (.object []) = (r'.given? "param").getD (.object [])) :
    ofValue v = ofValue v' := by
  rw [keys] at hr hr'
  unfold ofValue
  rw [hr, hr']
  simp only [bind, Except.bind, Record.fault_slot_optional, Record.orElse_slot_optional, hparams]
  -- The other five slots are read at their own keys.
  rw [h.slot (by decide), h.slot (by decide), h.slot (by decide), h.slot (by decide),
    h.slot (by decide)]
  rw [h.settle _ (by rfl)]
  simp only [h.required, h.close]

/-- A field more makes no difference to the others. -/
theorem Record.sameBut_of_insert {name key : String} {keys : List String}
    (front back : List (String × Value)) {v : Value} {items? items?' : Option Nat}
    (hmissing : ∀ other, (Record.mk name keys (front ++ back) items?).missing other
      = (Record.mk name keys (front ++ (key, v) :: back) items?').missing other)
    (hclose : ∀ format, (Record.mk name keys (front ++ back) items?).close format
      = (Record.mk name keys (front ++ (key, v) :: back) items?').close format) :
    SameBut key ⟨name, keys, front ++ back, items?⟩
      ⟨name, keys, front ++ (key, v) :: back, items?'⟩ where
  missing := hmissing
  close := hclose
  lookup other hother := by
    have hne : (other == key) = false := beq_eq_false_iff_ne.mpr hother
    simp only [List.lookup_append, List.lookup_cons, hne]
  settle faults hfault := by
    simp only [settle, List.findSome?_append, List.findSome?_cons, hfault]

/-- The value of a field that was put among others. -/
theorem Record.given?_of_insert {name key : String} {keys : List String}
    {front back : List (String × Value)} {v : Value} {items? : Option Nat}
    (hfront : key ∉ front.map (·.1)) :
    (Record.mk name keys (front ++ (key, v) :: back) items?).given? key
      = match v with
        | .null => none
        | v => some v := by
  have hnone : front.lookup key = none := by
    rw [List.lookup_eq_none_iff]
    intro field hfield
    rw [bne_iff_ne]
    rintro rfl
    exact hfront (List.mem_map_of_mem hfield)
  rw [given?, List.lookup_append, hnone, List.lookup_cons_self]
  rfl

/-- In an object, no parameters are the same as `null` and as an object without fields. -/
theorem Module.ofValue_object_of_absent {front back : List (String × Value)}
    (hfront : "param" ∉ front.map (·.1)) (hback : "param" ∉ back.map (·.1)) :
    Module.ofValue (.object (front ++ back))
        = Module.ofValue (.object (front ++ ("param", .object []) :: back)) ∧
      Module.ofValue (.object (front ++ ("param", .null) :: back))
        = Module.ofValue (.object (front ++ ("param", .object []) :: back)) := by
  have habsent : (Record.mk "RawModule" Declaration.keys (front ++ back) none).given? "param"
      = none := by
    rw [Record.given?, Option.bind_eq_none_iff]
    intro v hv
    obtain ⟨before, after, hfields, -⟩ := List.lookup_eq_some_iff.mp hv
    have hin : "param" ∈ (front ++ back).map (·.1) := by
      change front ++ back = _ at hfields
      rw [hfields]
      simp
    rw [List.map_append, List.mem_append] at hin
    exact absurd hin (not_or.mpr ⟨hfront, hback⟩)
  -- Both ways to say nothing are compared with the object that leaves the key out.
  have hvalue := fun v => Declaration.ofValue_congr (.object (front ++ back))
    (.object (front ++ ("param", v) :: back)) rfl rfl
    (Record.sameBut_of_insert front back (fun _ => rfl) fun _ => rfl)
  simp only [habsent, Record.given?_of_insert hfront] at hvalue
  have hempty := hvalue (.object []) rfl
  have hnull := hvalue .null rfl
  simp only [Module.ofValue]
  exact ⟨by rw [hempty], by rw [← hnull, hempty]⟩

/-- So they are in a list that gives everything else. -/
theorem Module.ofValue_list_of_absent {items : List Value} (hlength : items.length = 5) :
    Module.ofValue (.list items) = Module.ofValue (.list (items ++ [.object []])) ∧
      Module.ofValue (.list (items ++ [.null]))
        = Module.ofValue (.list (items ++ [.object []])) := by
  match items, hlength with
  | [category, kind, name, input, output], _ =>
    -- One item more is still not one too many.
    have hvalue := fun v => Declaration.ofValue_congr
      (.list [category, kind, name, input, output])
      (.list [category, kind, name, input, output, v]) rfl rfl
      (Record.sameBut_of_insert [("category", category), ("type", kind), ("name", name),
        ("input", input), ("output", output)] [] (fun _ => rfl) fun _ => rfl)
    have hempty := hvalue (.object []) rfl
    have hnull := hvalue .null rfl
    simp only [Module.ofValue, List.cons_append, List.nil_append]
    exact ⟨by rw [hempty], by rw [← hnull, hempty]⟩

/-- **The catalog is what is accepted, and what comes out.** The catalog that is reported has
one entry for each kind, and no others. An object is accepted as the parameters of a kind exactly
when its entry allows it; the layer is then of that kind, and the parameters it is written with
are those that the object gives for the entry. In a declaration no parameters at all, or `null`,
are the same as an object without fields, whether the declaration is an object or a list. -/
theorem catalog_decides_layers :
    (∀ e : CatalogEntry, e.IsPublished → ∃ kind : Kind, e.kind = kind.name) ∧
    (∀ kind : Kind, ∃ e : CatalogEntry, e.kind = kind.name ∧
      (∀ other : CatalogEntry, other.kind = kind.name → (other.IsPublished ↔ other = e)) ∧
      ∀ fields : List (String × Value),
        ((∃ layer, Layer.ofValue (layerDocument kind.name fields) = .ok layer)
          ↔ e.Allows fields) ∧
        ∀ layer, Layer.ofValue (layerDocument kind.name fields) = .ok layer →
          layer.kindName = kind.name ∧
            ∃ params, layer.params? = some params ∧ e.GivenBy fields params) ∧
    (∀ front back : List (String × Value),
      "param" ∉ front.map (·.1) → "param" ∉ back.map (·.1) →
      Module.ofValue (.object (front ++ back))
          = Module.ofValue (.object (front ++ ("param", .object []) :: back)) ∧
        Module.ofValue (.object (front ++ ("param", .null) :: back))
          = Module.ofValue (.object (front ++ ("param", .object []) :: back))) ∧
    ∀ items : List Value, items.length = 5 →
      Module.ofValue (.list items) = Module.ofValue (.list (items ++ [.object []])) ∧
        Module.ofValue (.list (items ++ [.null]))
          = Module.ofValue (.list (items ++ [.object []])) := by
  refine ⟨fun e he => ?_, fun kind => ⟨kind.entry, rfl, fun other hother => ?_, fun fields => ?_⟩,
    fun front back => Module.ofValue_object_of_absent, fun items => Module.ofValue_list_of_absent⟩
  · obtain ⟨kind, rfl⟩ := (CatalogEntry.isPublished_iff e).mp he
    exact ⟨kind, rfl⟩
  · rw [CatalogEntry.isPublished_iff]
    constructor
    · rintro ⟨same, rfl⟩
      rw [Kind.name_injective hother]
    · intro hsame
      exact ⟨kind, hsame⟩
  · rw [Layer.ofValue_layerDocument]
    constructor
    · simp only [map_eq_ok_iff, Kind.ofFields_eq_ok_iff]
      constructor
      · rintro ⟨layer, values, ⟨hallows, -⟩, -⟩
        exact hallows
      · intro hallows
        exact ⟨_, _, ⟨hallows, rfl⟩, rfl⟩
    · intro layer hlayer
      obtain ⟨values, hvalues, rfl⟩ := map_eq_ok_iff.mp hlayer
      obtain ⟨hallows, rfl⟩ := Kind.ofFields_eq_ok_iff.mp hvalues
      exact ⟨rfl, _, rfl, Kind.givenBy_params_read hallows⟩

/-- Parameters of a dense layer, one of them left out by `null`. -/
def denseFields : List (String × Value) :=
  [("activation", .text "relu"), ("units", .number (.int 64)), ("use_bias", .null)]

theorem catalog_decides_layers_dense :
    (∃ e : CatalogEntry, e.kind = "Dense" ∧ e.IsPublished ∧ e.Allows denseFields ∧
      e.GivenBy denseFields [("units", .number (.int 64)), ("activation", .text "relu")]) ∧
    Module.ofValue (.object [("category", .text "Layer"), ("name", .text "f"),
        ("type", .text "Flatten")])
      = Module.ofValue (.object [("category", .text "Layer"), ("name", .text "f"),
        ("param", .object []), ("type", .text "Flatten")]) ∧
    Module.ofValue (.list [.text "Layer", .text "Flatten", .text "f", .null, .null, .null])
      = Module.ofValue (.list [.text "Layer", .text "Flatten", .text "f", .null, .null,
        .object []]) := by
  obtain ⟨-, hkinds, hobject, hlist⟩ := catalog_decides_layers
  refine ⟨?_, (hobject [("category", .text "Layer"), ("name", .text "f")]
    [("type", .text "Flatten")] (by decide) (by decide)).1,
    (hlist [.text "Layer", .text "Flatten", .text "f", .null, .null] rfl).2⟩
  obtain ⟨e, hkind, hpublished, hfields⟩ := hkinds .dense
  obtain ⟨haccepts, hgives⟩ := hfields denseFields
  have hlayer : Layer.ofValue (layerDocument "Dense" denseFields)
      = .ok (.supported .dense [(.units, .number (.int 64)), (.activation, .text "relu")]) := by
    rfl
  obtain ⟨-, params, hparams, hgiven⟩ := hgives _ hlayer
  have hwritten : params = [("units", .number (.int 64)), ("activation", .text "relu")] :=
    (Option.some.inj hparams).symm
  exact ⟨e, hkind, (hpublished e hkind).mpr rfl, haccepts.mp ⟨_, hlayer⟩, hwritten ▸ hgiven⟩

end LayerScript
