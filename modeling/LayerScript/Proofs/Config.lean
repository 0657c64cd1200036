/-
`Proofs/Config.lean` -- the numbers of a configuration are finite.

A payload cannot say what is not finite, but a configuration is decoded from it by rules that know
nothing of this: a field is looked up in an object or counted off in a list, may be left out, and
an integer may stand for a floating-point value. Each rule is shown to keep what holds of
whatever it is applied to (`Decode.Keeps`), and a record is then a matter of its fields. The values
of fields that are left out come from the defaults, so these are looked at as well.
-/
import LayerScript.Proofs.Binding
import LayerScript.Proofs.Json.Numbers

set_option autoImplicit false

namespace LayerScript

/-! ## 1. Decoders -/

namespace Decode

/-- Whether all that is decoded from documents whose numbers fit has a property. -/
def Keeps {α : Type} (P : α → Prop) (decode : Decoder α) : Prop :=
  ∀ v a, v.NumbersFit → decode v = .ok a → P a

/-- A number that fits stands for a finite value. -/
theorem isFinite_toBinary64 {n : Number} (h : n.Fits) : n.toBinary64.isFinite = true := by
  cases n with
  | int i =>
      obtain ⟨hleast, hgreatest⟩ := h
      have hsize : i.natAbs < 2 ^ 64 := by omega
      exact (Binary64.below_ofInt hsize).isFinite
  | float x => exact h.isFinite

theorem keeps_real : Keeps (fun x => x.isFinite = true) real := by
  intro v x hv h
  cases v with
  | number n =>
      cases h
      exact isFinite_toBinary64 (hv n .number)
  | _ => cases h

variable {α : Type} {P : α → Prop} {decode : Decoder α}

theorem keeps_optional (hdecode : Keeps P decode) :
    Keeps (fun o => ∀ a ∈ o, P a) (optional decode) := by
  intro v o hv h a ha
  unfold optional at h
  split at h
  · cases h
    cases ha
  · obtain ⟨b, hb, rfl⟩ := map_eq_ok_iff.mp h
    cases ha
    exact hdecode v a hv hb

end Decode

/-! ## 2. Records -/

namespace Record

/-- The numbers of a record are those of the document that it was opened from. -/
theorem numbersFit_of_ofValue {name : String} {keys : List String} {v : Value} {r : Record}
    (hv : v.NumbersFit) (h : ofValue name keys v = .ok r) : (Value.object r.fields).NumbersFit := by
  cases v with
  | object fields =>
      cases h
      exact hv
  | list items =>
      cases h
      apply Value.numbersFit_object
      intro f hf
      exact hv.of_mem_items (List.of_mem_zip hf).2
  | _ => cases h

variable {r : Record} {key : String} {α : Type} {P : α → Prop} {decode : Decoder α} {a : α}

/-- What is taken out of a slot was decoded, or is what stands for a field that is not there. -/
theorem exists_of_slot {absent : Except Fault α}
    (h : (r.slot key decode).found.getD absent = .ok a) :
    (∃ v, r.fields.lookup key = some v ∧ decode v = .ok a) ∨ absent = .ok a := by
  unfold slot at h
  cases hfield : r.fields.lookup key with
  | none =>
      rw [hfield] at h
      exact Or.inr h
  | some v =>
      rw [hfield] at h
      exact Or.inl ⟨v, rfl, h⟩

variable (hr : (Value.object r.fields).NumbersFit) (hdecode : Decode.Keeps P decode)

include hr hdecode

theorem keeps_required (h : (r.slot key decode).required r = .ok a) : P a := by
  rcases exists_of_slot h with ⟨v, hv, ha⟩ | h
  · exact hdecode v a (hr.of_lookup hv) ha
  · cases h

theorem keeps_orElse {default : α} (hdefault : P default)
    (h : (r.slot key decode).orElse default = .ok a) : P a := by
  rcases exists_of_slot h with ⟨v, hv, ha⟩ | h
  · exact hdecode v a (hr.of_lookup hv) ha
  · cases h
    exact hdefault

end Record

/-! ## 3. Configurations -/

/-- Whether the numbers of the record are finite. -/
structure EarlyStopping.IsFinite (e : EarlyStopping) : Prop where
  minDelta : ∀ x ∈ e.minDelta, x.isFinite = true

/-- Whether the numbers of the record are finite. -/
structure RateReduction.IsFinite (l : RateReduction) : Prop where
  factor : l.factor.isFinite = true
  minRate : ∀ x ∈ l.minRate, x.isFinite = true

/-- Whether the numbers of a configuration are finite. -/
structure Config.IsFinite (c : Config) : Prop where
  learningRate : c.learningRate.isFinite = true
  earlyStopping : c.earlyStopping.IsFinite
  rateReduction : c.rateReduction.IsFinite

theorem EarlyStopping.isFinite_default : ({} : EarlyStopping).IsFinite :=
  ⟨nofun⟩

theorem RateReduction.isFinite_default : ({} : RateReduction).IsFinite :=
  ⟨by decide, nofun⟩

theorem EarlyStopping.keeps_ofValue : Decode.Keeps IsFinite ofValue := by
  intro v e hv h
  unfold ofValue at h
  obtain ⟨r, hr, h⟩ := bind_eq_ok_iff.mp h
  have hfits := Record.numbersFit_of_ofValue hv hr
  obtain ⟨-, -, h⟩ := bind_eq_ok_iff.mp h
  obtain ⟨usage, -, h⟩ := bind_eq_ok_iff.mp h
  obtain ⟨monitor, -, h⟩ := bind_eq_ok_iff.mp h
  obtain ⟨patience, -, h⟩ := bind_eq_ok_iff.mp h
  obtain ⟨minDelta, hminDelta, h⟩ := bind_eq_ok_iff.mp h
  obtain ⟨mode, -, h⟩ := bind_eq_ok_iff.mp h
  obtain ⟨restore, -, h⟩ := bind_eq_ok_iff.mp h
  obtain ⟨-, -, h⟩ := bind_eq_ok_iff.mp h
  have hminDelta := Record.keeps_orElse hfits (Decode.keeps_optional Decode.keeps_real)
    isFinite_default.minDelta hminDelta
  cases h
  exact ⟨hminDelta⟩

theorem RateReduction.keeps_ofValue : Decode.Keeps IsFinite ofValue := by
  intro v l hv h
  unfold ofValue at h
  obtain ⟨r, hr, h⟩ := bind_eq_ok_iff.mp h
  have hfits := Record.numbersFit_of_ofValue hv hr
  obtain ⟨-, -, h⟩ := bind_eq_ok_iff.mp h
  obtain ⟨usage, -, h⟩ := bind_eq_ok_iff.mp h
  obtain ⟨monitor, -, h⟩ := bind_eq_ok_iff.mp h
  obtain ⟨factor, hfactor, h⟩ := bind_eq_ok_iff.mp h
  obtain ⟨patience, -, h⟩ := bind_eq_ok_iff.mp h
  obtain ⟨minRate, hminRate, h⟩ := bind_eq_ok_iff.mp h
  obtain ⟨-, -, h⟩ := bind_eq_ok_iff.mp h
  have hfactor := Record.keeps_orElse hfits Decode.keeps_real isFinite_default.factor hfactor
  have hminRate := Record.keeps_orElse hfits (Decode.keeps_optional Decode.keeps_real)
    isFinite_default.minRate hminRate
  cases h
  exact ⟨hfactor, hminRate⟩

theorem Config.keeps_ofValue : Decode.Keeps IsFinite ofValue := by
  intro v c hv h
  unfold ofValue at h
  obtain ⟨r, hr, h⟩ := bind_eq_ok_iff.mp h
  have hfits := Record.numbersFit_of_ofValue hv hr
  obtain ⟨-, -, h⟩ := bind_eq_ok_iff.mp h
  obtain ⟨optimizer, -, h⟩ := bind_eq_ok_iff.mp h
  obtain ⟨learningRate, hlearningRate, h⟩ := bind_eq_ok_iff.mp h
  obtain ⟨loss, -, h⟩ := bind_eq_ok_iff.mp h
  obtain ⟨metrics, -, h⟩ := bind_eq_ok_iff.mp h
  obtain ⟨batchSize, -, h⟩ := bind_eq_ok_iff.mp h
  obtain ⟨epochs, -, h⟩ := bind_eq_ok_iff.mp h
  obtain ⟨earlyStopping, hearlyStopping, h⟩ := bind_eq_ok_iff.mp h
  obtain ⟨rateReduction, hrateReduction, h⟩ := bind_eq_ok_iff.mp h
  obtain ⟨-, -, h⟩ := bind_eq_ok_iff.mp h
  have hlearningRate := Record.keeps_required hfits Decode.keeps_real hlearningRate
  have hearlyStopping := Record.keeps_orElse hfits EarlyStopping.keeps_ofValue
    EarlyStopping.isFinite_default hearlyStopping
  have hrateReduction := Record.keeps_orElse hfits RateReduction.keeps_ofValue
    RateReduction.isFinite_default hrateReduction
  cases h
  exact ⟨hlearningRate, hearlyStopping, hrateReduction⟩

/-- **The numbers of the configuration of a project are finite.** -/
theorem Project.isFinite_of_ofPayload {payload : String} {user : Option String} {p : Project}
    (h : Project.ofPayload payload user = .ok p) : p.config.IsFinite := by
  obtain ⟨fields, hfields, hconfig, -⟩ := exists_parts_of_ofPayload h
  obtain ⟨v, hv, hdecode⟩ := bindPart_eq_ok_iff.mp hconfig
  exact Config.keeps_ofValue v _ ((Json.numbersFit_of_readObject hfields).of_lookup hv) hdecode

end LayerScript
