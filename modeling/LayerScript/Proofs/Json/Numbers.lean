/-
`Proofs/Json/Numbers.lean` -- the numbers that a JSON text can hold.

A number that is read is an integer that 64 bits hold, or one of the finite binary64 values
(`Number.Fits`). Nothing else can come of a text, however many digits it has and however large its
exponent is: what is too large is refused, and what is divided cannot become too large.

The reader of numbers is a chain of small functions that end in one of two, `floating` and
`integer`. What has to be carried along the chain is that the significand has 64 bits; that it was
read from the text does not matter. The readers of lists and objects add nothing to the numbers of
what they read.
-/
import LayerScript.Json.Reader
import LayerScript.Proofs.Decimal.Range
import LayerScript.Proofs.Steps

set_option autoImplicit false

namespace LayerScript

/-! ## 1. Numbers of a document -/

/-- Whether 64 bits hold a number, as an integer with or without a sign, or as a finite binary64
value. -/
def Number.Fits : Number → Prop
  | .int i => -2 ^ 63 ≤ i ∧ i < 2 ^ 64
  | .float x => x.InRange

namespace Value

/-- Whether a number stands somewhere in a document. -/
inductive Holds : Value → Number → Prop where
  | number {n : Number} : Holds (.number n) n
  | item {items : List Value} {v : Value} {n : Number} (mem : v ∈ items) (holds : Holds v n) :
      Holds (.list items) n
  | field {fields : List (String × Value)} {f : String × Value} {n : Number} (mem : f ∈ fields)
      (holds : Holds f.2 n) : Holds (.object fields) n

/-- Whether all the numbers of a document fit. -/
def NumbersFit (v : Value) : Prop :=
  ∀ n, v.Holds n → n.Fits

theorem numbersFit_number {n : Number} (h : n.Fits) : (Value.number n).NumbersFit := by
  intro m hm
  cases hm
  exact h

theorem numbersFit_list {items : List Value} (h : ∀ v ∈ items, v.NumbersFit) :
    (Value.list items).NumbersFit := by
  intro n hn
  cases hn with
  | item hmem hn => exact h _ hmem n hn

theorem numbersFit_object {fields : List (String × Value)} (h : ∀ f ∈ fields, f.2.NumbersFit) :
    (Value.object fields).NumbersFit := by
  intro n hn
  cases hn with
  | field hmem hn => exact h _ hmem n hn

theorem NumbersFit.of_mem_fields {fields : List (String × Value)} {f : String × Value}
    (h : (Value.object fields).NumbersFit) (hf : f ∈ fields) : f.2.NumbersFit :=
  fun n hn => h n (.field hf hn)

theorem mem_of_lookup {fields : List (String × Value)} {key : String} {v : Value}
    (h : fields.lookup key = some v) : (key, v) ∈ fields := by
  obtain ⟨front, back, rfl, -⟩ := List.lookup_eq_some_iff.mp h
  exact List.mem_append_cons_self

theorem NumbersFit.of_lookup {fields : List (String × Value)} {key : String} {v : Value}
    (h : (Value.object fields).NumbersFit) (hv : fields.lookup key = some v) : v.NumbersFit :=
  h.of_mem_fields (mem_of_lookup hv)

theorem NumbersFit.of_mem_items {items : List Value} {v : Value}
    (h : (Value.list items).NumbersFit) (hv : v ∈ items) : v.NumbersFit :=
  fun n hn => h n (.item hv hn)

end Value

/-- A field that is put in its place is the only one that is new. -/
theorem mem_insertField {key : String} {value : Value} {fields : List (String × Value)}
    {f : String × Value} (h : f ∈ insertField key value fields) : f = (key, value) ∨ f ∈ fields := by
  induction fields with
  | nil => exact Or.inl (List.mem_singleton.mp h)
  | cons first rest ih =>
      obtain ⟨k, v⟩ := first
      rw [insertField] at h
      split at h
      · exact (List.mem_cons.mp h).imp_right (List.mem_cons_of_mem _)
      · split at h
        · exact List.mem_cons.mp h
        · rcases List.mem_cons.mp h with rfl | h
          · exact Or.inr List.mem_cons_self
          · exact (ih h).imp_right (List.mem_cons_of_mem _)

/-- Putting fields in order adds none. -/
theorem Value.numbersFit_ofFields {fields : List (String × Value)}
    (h : ∀ f ∈ fields, f.2.NumbersFit) : (Value.ofFields fields).NumbersFit := by
  have hfold : ∀ sorted : List (String × Value), (∀ f ∈ sorted, f.2.NumbersFit) →
      ∀ f ∈ fields.foldl (fun sorted field => insertField field.1 field.2 sorted) sorted,
        f.2.NumbersFit := by
    induction fields with
    | nil => exact fun sorted hsorted => hsorted
    | cons first rest ih =>
        rw [List.forall_mem_cons] at h
        intro sorted hsorted
        refine ih h.2 _ ?_
        intro f hf
        rcases mem_insertField hf with rfl | hf
        · exact h.1
        · exact hsorted f hf
  exact numbersFit_object (hfold [] (by simp))

namespace Json

/-! ## 2. Reading a number -/

/-- Whether what a step reads is a number that fits. -/
def Fitting (s : Step (Number × List UInt8)) : Prop :=
  ∀ n rest, s = .ok (n, rest) → n.Fits

theorem fitting_error (fault : Fault × Nat) : Fitting (.error fault) := by
  intro n rest h
  cases h

theorem fitting_ok {n : Number} (h : n.Fits) (rest : List UInt8) : Fitting (.ok (n, rest)) := by
  intro m rest' heq
  cases heq
  exact h

theorem fits_signed (negative : Bool) {x : Binary64} (h : x.InRange) :
    (signed negative x).Fits := by
  cases negative with
  | false => exact h
  | true => exact h.neg

/-- **What is scaled by a power of ten is in range**, or it is refused. -/
theorem inRange_scaled {x y : Binary64} {exponent : Int} (hx : x.Below 12)
    (h : scaled x exponent = some y) : y.InRange := by
  fun_induction scaled x exponent with
  | case1 x exponent hlarge hzero =>
      cases h
      exact hx.mono (by decide)
  | case2 x exponent hlarge hzero hsign => cases h
  | case3 x exponent hlarge hzero hsign ih =>
      -- A step of 308 leaves a value as small as it was.
      have hstep := hx.div (Binary64.above_powerOfTen 308 (by decide)) (by decide)
      exact ih (hstep.mono (by decide)) h
  | case4 x exponent hlarge hsign product hfinite =>
      rw [← Option.some.inj h]
      exact Binary64.inRange_mul hfinite
  | case5 x exponent hlarge hsign product hfinite => cases h
  | case6 x exponent hlarge hsign =>
      cases h
      have hgreatest : Binary64.greatestExponent = 971 := rfl
      have hpower := Binary64.above_powerOfTen (-exponent).toNat (by omega)
      exact (hx.div hpower (by omega)).mono (by omega)

variable {significand : Nat}

theorem below_ofInt (h : significand ≤ greatestSignificand) :
    (Binary64.ofInt significand).Below 12 := by
  apply Binary64.below_ofInt
  rw [greatestSignificand, Nat.pow_eq] at h
  omega

theorem fitting_floating (negative : Bool) (h : significand ≤ greatestSignificand)
    (exponent : Int) (rest : List UInt8) : Fitting (floating negative significand exponent rest) := by
  unfold floating
  split
  · rename_i x hx
    exact fitting_ok (fits_signed negative (inRange_scaled (below_ofInt h) hx)) rest
  · exact fitting_error _

theorem fits_integer (negative : Bool) (h : significand ≤ greatestSignificand) :
    (integer negative significand).Fits := by
  have hsignificand := h
  rw [greatestSignificand, Nat.pow_eq] at hsignificand
  unfold integer
  split
  · constructor <;> omega
  · split
    · rename_i hsmall
      rw [Bool.and_eq_true, decide_eq_true_eq, decide_eq_true_eq, Nat.pow_eq] at hsmall
      constructor <;> omega
    · exact fits_signed true ((below_ofInt h).mono (by decide))

theorem fitting_exponentDigits (negative : Bool) (h : significand ≤ greatestSignificand)
    (start : Int) (minus : Bool) (exponent : Nat) (s : List UInt8) :
    Fitting (exponentDigits negative significand start minus exponent s) := by
  induction s generalizing exponent with
  | nil => exact fitting_floating negative h _ _
  | cons b rest ih =>
      rw [exponentDigits]
      split
      · dsimp only
        split
        · exact ih _
        · split
          · exact fitting_error _
          · exact fitting_ok (fits_signed negative (Binary64.below_zero false (by decide))) _
      · exact fitting_floating negative h _ _

theorem fitting_exponentPart (negative : Bool) (h : significand ≤ greatestSignificand)
    (start : Int) (s : List UInt8) : Fitting (exponentPart negative significand start s) := by
  unfold exponentPart
  dsimp only
  split
  · exact fitting_error _
  · split
    · exact fitting_exponentDigits negative h _ _ _ _
    · exact fitting_error _

theorem fitting_afterDigits (negative : Bool) (h : significand ≤ greatestSignificand)
    (exponent : Int) (s : List UInt8) : Fitting (afterDigits negative significand exponent s) := by
  unfold afterDigits
  split
  · split
    · exact fitting_exponentPart negative h _ _
    · exact fitting_floating negative h _ _
  · exact fitting_floating negative h _ _

/-- Digits of a fraction are taken up as long as they fit. -/
theorem fractionDigits_le (h : significand ≤ greatestSignificand) (exponent : Int)
    (s : List UInt8) : (fractionDigits significand exponent s).1 ≤ greatestSignificand := by
  induction s generalizing significand exponent with
  | nil => exact h
  | cons b rest ih =>
      rw [fractionDigits]
      split
      · dsimp only
        split
        · rename_i hnext
          exact ih hnext _
        · exact h
      · exact h

theorem fitting_fractionPart (negative : Bool) (h : significand ≤ greatestSignificand)
    (exponent : Int) (s : List UInt8) : Fitting (fractionPart negative significand exponent s) := by
  unfold fractionPart
  split
  · exact fitting_error _
  · split
    · dsimp only
      exact fitting_afterDigits negative (fractionDigits_le h _ _) _ _
    · exact fitting_error _

theorem fitting_afterInteger (negative : Bool) (h : significand ≤ greatestSignificand)
    (dropped : Nat) (s : List UInt8) : Fitting (afterInteger negative significand dropped s) := by
  unfold afterInteger
  split
  · split
    · exact fitting_fractionPart negative h _ _
    · split
      · exact fitting_exponentPart negative h _ _
      · split
        · exact fitting_ok (fits_integer negative h) _
        · exact fitting_floating negative h _ _
  · split
    · exact fitting_ok (fits_integer negative h) _
    · exact fitting_floating negative h _ _

theorem fitting_integerDigits (negative : Bool) (h : significand ≤ greatestSignificand)
    (s : List UInt8) : Fitting (integerDigits negative significand s) := by
  induction s generalizing significand with
  | nil => exact fitting_afterInteger negative h _ _
  | cons b rest ih =>
      rw [integerDigits]
      split
      · dsimp only
        split
        · rename_i hnext
          exact ih hnext
        · exact fitting_afterInteger negative h _ _
      · exact fitting_afterInteger negative h _ _

theorem digitValue_le (b : UInt8) : digitValue b ≤ greatestSignificand := by
  have hbyte := b.toNat_lt
  rw [digitValue, greatestSignificand, Nat.pow_eq]
  omega

/-- **A number that is read fits.** -/
theorem fitting_number (negative : Bool) (s : List UInt8) : Fitting (number negative s) := by
  unfold number
  split
  · exact fitting_error _
  · split
    · split
      · split
        · exact fitting_error _
        · exact fitting_afterInteger negative (Nat.zero_le _) _ _
      · exact fitting_afterInteger negative (Nat.zero_le _) _ _
    · split
      · exact fitting_integerDigits negative (digitValue_le _) _
      · exact fitting_error _

/-! ## 3. Reading a document -/

/-- Whether a reader reads only documents whose numbers fit. -/
def ReadsFitting (read : ValueReader) : Prop :=
  ∀ s v rest, read s = .ok (v, rest) → v.NumbersFit

theorem readsFitting_scalar : ReadsFitting scalar := by
  intro s v rest h
  have hnumber : ∀ negative more,
      (number negative more >>= fun found => .ok (.number found.1, found.2)
        : Step (Value × List UInt8)) = .ok (v, rest) → v.NumbersFit := by
    intro negative more h
    obtain ⟨⟨n, left⟩, hn, h⟩ := bind_eq_ok_iff.mp h
    cases h
    exact Value.numbersFit_number (fitting_number negative more n _ hn)
  have hword : ∀ (letters more : List UInt8) (w : Value), (∀ n, ¬ w.Holds n) →
      (word letters more >>= fun left => .ok (w, left) : Step (Value × List UInt8))
        = .ok (v, rest) → v.NumbersFit := by
    intro letters more w hw h
    obtain ⟨left, -, h⟩ := bind_eq_ok_iff.mp h
    cases h
    exact fun n hn => absurd hn (hw n)
  unfold scalar at h
  split at h
  · cases h
  · split at h
    · exact hword _ _ .null (by intro n hn; cases hn) h
    · split at h
      · exact hword _ _ (.bool true) (by intro n hn; cases hn) h
      · split at h
        · exact hword _ _ (.bool false) (by intro n hn; cases hn) h
        · split at h
          · obtain ⟨⟨text, left⟩, -, h⟩ := bind_eq_ok_iff.mp h
            cases h
            intro n hn
            cases hn
          · split at h
            · exact hnumber _ _ h
            · split at h
              · exact hnumber _ _ h
              · cases h

variable {item : ValueReader}

theorem numbersFit_of_listItems (hitem : ReadsFitting item) {fuel : Nat} {read items : List Value}
    {s rest : List UInt8} (hread : ∀ v ∈ read, v.NumbersFit)
    (h : listItems item fuel read s = .ok (items, rest)) : ∀ v ∈ items, v.NumbersFit := by
  -- What has been read so far fits; a round takes up one more item.
  induction fuel generalizing read s with
  | zero => cases h
  | succ fuel ih =>
      have hround : ∀ more,
          (item more >>= fun next => listItems item fuel (next.1 :: read) next.2)
            = .ok (items, rest) → ∀ v ∈ items, v.NumbersFit := by
        intro more h
        obtain ⟨⟨v, left⟩, hv, h⟩ := bind_eq_ok_iff.mp h
        exact ih (List.forall_mem_cons.mpr ⟨hitem _ _ _ hv, hread⟩) h
      unfold listItems at h
      split at h
      · cases h
      · split at h
        · cases h
          exact hread
        · split at h
          · exact hround _ h
          · split at h
            · split at h
              · cases h
              · split at h
                · cases h
                · exact hround _ h
            · cases h

theorem numbersFit_of_field (hitem : ReadsFitting item) {s rest : List UInt8}
    {f : String × Value} (h : field item s = .ok (f, rest)) : f.2.NumbersFit := by
  unfold field at h
  obtain ⟨⟨key, left⟩, -, h⟩ := bind_eq_ok_iff.mp h
  dsimp only at h
  split at h
  · cases h
  · split at h
    · obtain ⟨⟨v, left⟩, hv, h⟩ := bind_eq_ok_iff.mp h
      cases h
      exact hitem _ _ _ hv
    · cases h

theorem numbersFit_of_objectFields (hitem : ReadsFitting item) {fuel : Nat}
    {read fields : List (String × Value)} {s rest : List UInt8}
    (hread : ∀ f ∈ read, f.2.NumbersFit)
    (h : objectFields item fuel read s = .ok (fields, rest)) : ∀ f ∈ fields, f.2.NumbersFit := by
  induction fuel generalizing read s with
  | zero => cases h
  | succ fuel ih =>
      have hround : ∀ more,
          (field item more >>= fun next => objectFields item fuel (next.1 :: read) next.2)
            = .ok (fields, rest) → ∀ f ∈ fields, f.2.NumbersFit := by
        intro more h
        obtain ⟨⟨f, left⟩, hf, h⟩ := bind_eq_ok_iff.mp h
        exact ih (List.forall_mem_cons.mpr ⟨numbersFit_of_field hitem hf, hread⟩) h
      unfold objectFields at h
      split at h
      · cases h
      · split at h
        · cases h
          exact hread
        · split at h
          · split at h
            · exact hround _ h
            · cases h
          · split at h
            · split at h
              · cases h
              · split at h
                · exact hround _ h
                · split at h <;> cases h
            · cases h

/-- **The numbers of a document that is read fit**, at every depth. -/
theorem readsFitting_value (depth : Nat) : ReadsFitting (value depth) := by
  induction depth with
  | zero =>
      intro s v rest h
      cases h
  | succ depth ih =>
      intro s v rest h
      unfold value at h
      split at h
      · cases h
      · split at h
        · split at h
          · cases h
          · obtain ⟨⟨items, left⟩, hitems, h⟩ := bind_eq_ok_iff.mp h
            cases h
            apply Value.numbersFit_list
            intro item hitem
            exact numbersFit_of_listItems ih (by simp) hitems item (List.mem_reverse.mp hitem)
        · split at h
          · split at h
            · cases h
            · obtain ⟨⟨fields, left⟩, hfields, h⟩ := bind_eq_ok_iff.mp h
              cases h
              apply Value.numbersFit_ofFields
              intro f hf
              exact numbersFit_of_objectFields ih (by simp) hfields f (List.mem_reverse.mp hf)
          · exact readsFitting_scalar _ _ _ h

theorem eq_ok_of_locate {α : Type} {text : List UInt8} {s : Step α} {a : α}
    (h : locate text s = .ok a) : s = .ok a := by
  cases s with
  | ok b =>
      cases h
      rfl
  | error fault => cases h

/-- The fields of a document are among its own. -/
theorem numbersFit_fields {v : Value} (h : v.NumbersFit) : (Value.object v.fields).NumbersFit := by
  cases v with
  | object fields => exact h
  | _ =>
      apply Value.numbersFit_object
      intro f hf
      cases hf

/-- **The numbers of an object that is read fit.** -/
theorem numbersFit_of_readObject {text : String} {fields : List (String × Value)}
    (h : readObject text = .ok fields) : (Value.object fields).NumbersFit := by
  obtain ⟨⟨v, rest⟩, hv, h⟩ := bind_eq_ok_iff.mp (eq_ok_of_locate h)
  obtain ⟨-, -, h⟩ := bind_eq_ok_iff.mp h
  cases h
  apply numbersFit_fields
  unfold objectValue at hv
  split at hv
  · cases hv
  · split at hv
    · exact readsFitting_value _ _ _ _ hv
    · split at hv
      · cases hv
      · obtain ⟨⟨w, left⟩, -, hv⟩ := bind_eq_ok_iff.mp hv
        cases hv

end Json

end LayerScript
