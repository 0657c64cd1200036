/-
`Proofs/Encoding.lean` -- a configuration survives its own encoding.

A remote trainer is sent the configuration of a project as a document again. That document has
every key, also those that the payload left out, a number for every integer that stood for one, and
`null` for whatever is optional and was not given. To decode it gives the configuration back, and
so does every document between the two: one may take from the encoding as many of the missing keys
as one likes, at the top or inside the records of the callbacks (`Value.Fills`).

Defaults stand in two places for a callback, for the record as a whole and for each of its fields,
and here is where they have to agree. That they do is not looked at key by key: each record is
decoded field by field from what stands under the keys (`Gives`, `Config.GivenBy`), and a field
that is filled in from a document with the same meaning cannot change its own
(`Decode.Steady`).
-/
import LayerScript.Proofs.Config
import LayerScript.Proofs.Scripts
import LayerScript.Proofs.Users

set_option autoImplicit false

namespace LayerScript

/-! ## 1. Filling in -/

/-- Whether a document is what another becomes when keys that it lacks are filled in from a third.
Objects are compared key by key, whatever the order of the keys. Nothing is taken away, what is
there may only be filled in itself, and what is new stands in the third under the same key. -/
inductive Value.Fills : Value → Value → Value → Prop
  | same (full v : Value) : Fills full v v
  | object {full fields more : List (String × Value)}
      (kept : ∀ key x, fields.lookup key = some x → more.lookup key ≠ none)
      (filled : ∀ key x y, fields.lookup key = some x → more.lookup key = some y →
        Fills ((full.lookup key).getD x) x y)
      (added : ∀ key, fields.lookup key = none →
        more.lookup key = none ∨ more.lookup key = full.lookup key) :
      Fills (.object full) (.object fields) (.object more)

/-- What stands under a key among fields in ascending order after one was put in its place. -/
theorem lookup_insertField (key : String) (value : Value) (fields : List (String × Value))
    (other : String) :
    (insertField key value fields).lookup other
      = if other = key then some value else fields.lookup other := by
  have hhead : ∀ (k : String) (v : Value) (rest : List (String × Value)),
      ((k, v) :: rest).lookup other = if other = k then some v else rest.lookup other := by
    intro k v rest
    rw [List.lookup_cons]
    by_cases h : other = k
    · rw [if_pos h, beq_iff_eq.mpr h]
    · rw [if_neg h, beq_eq_false_iff_ne.mpr h]
  induction fields with
  | nil => exact hhead key value []
  | cons field rest ih =>
      obtain ⟨k, v⟩ := field
      unfold insertField
      by_cases hk : key = k
      · subst hk
        rw [if_pos rfl, hhead, hhead]
        split <;> rfl
      · rw [if_neg hk]
        by_cases hlt : key < k
        · rw [if_pos hlt, hhead]
        · rw [if_neg hlt, hhead, hhead, ih]
          by_cases h : other = key
          · rw [if_pos h, if_pos h, if_neg (h ▸ hk)]
          · rw [if_neg h, if_neg h]

/-- A missing key may be put in its place. -/
theorem Value.Fills.insert {full fields : List (String × Value)} {key : String} {z : Value}
    (hfields : fields.lookup key = none) (hfull : full.lookup key = some z) :
    Fills (.object full) (.object fields) (.object (insertField key z fields)) := by
  have hother : ∀ other x, fields.lookup other = some x → other ≠ key := by
    rintro other x hx rfl
    rw [hfields] at hx
    cases hx
  refine .object (fun other x hx => ?_) (fun other x y hx hy => ?_) fun other hnone => ?_
  · rw [lookup_insertField, if_neg (hother other x hx), hx]
    simp
  · rw [lookup_insertField, if_neg (hother other x hx), hx] at hy
    cases hy
    exact .same _ _
  · rw [lookup_insertField]
    by_cases h : other = key
    · rw [if_pos h, h, hfull]
      exact Or.inr rfl
    · rw [if_neg h]
      exact Or.inl hnone

/-- What stands under a key may be filled in itself. -/
theorem Value.Fills.within {full fields : List (String × Value)} {key : String} {x y z : Value}
    (hfields : fields.lookup key = some x) (hfull : full.lookup key = some z) (h : Fills z x y) :
    Fills (.object full) (.object fields) (.object (insertField key y fields)) := by
  refine .object (fun other x' hx' => ?_) (fun other x' y' hx' hy' => ?_) fun other hnone => ?_
  · rw [lookup_insertField]
    by_cases hkey : other = key <;> simp [hkey, hx']
  · rw [lookup_insertField] at hy'
    by_cases hkey : other = key
    · subst hkey
      rw [hfields] at hx'
      rw [if_pos rfl] at hy'
      cases hx'
      cases hy'
      rwa [hfull, Option.getD_some]
    · rw [if_neg hkey, hx'] at hy'
      cases hy'
      exact .same _ _
  · rw [lookup_insertField]
    by_cases hkey : other = key
    · rw [hkey, hfields] at hnone
      cases hnone
    · rw [if_neg hkey]
      exact Or.inl hnone

/-! ## 2. Fields -/

/-- Whether a field has a value: the one that is decoded from what stands under its key or, when
the key is not there, the one that it has then. -/
def Gives {α : Type} (fields : List (String × Value)) (key : String) (decode : Decoder α)
    (absent : Option α) (a : α) : Prop :=
  match fields.lookup key with
  | some v => decode v = .ok a
  | none => absent = some a

namespace Decode

/-- Whether filling in a document from one that is decoded alike makes no difference. -/
def Steady {α : Type} (decode : Decoder α) : Prop :=
  ∀ a x y z, decode z = .ok a → decode x = .ok a → Value.Fills z x y → decode y = .ok a

variable {α : Type} {decode : Decoder α}

/-- Only objects can be filled in. -/
theorem steady_of_no_object (h : ∀ fields a, decode (.object fields) ≠ .ok a) : Steady decode := by
  intro a x y z _ hx hfills
  cases hfills with
  | same => exact hx
  | object => exact absurd hx (h _ a)

theorem steady_text : Steady text := steady_of_no_object nofun

theorem steady_bool : Steady bool := steady_of_no_object nofun

theorem steady_real : Steady real := steady_of_no_object nofun

theorem steady_count : Steady count := steady_of_no_object nofun

theorem steady_list (item : Decoder α) : Steady (list item) := steady_of_no_object nofun

theorem steady_optional (h : ∀ fields a, decode (.object fields) ≠ .ok a) :
    Steady (optional decode) := by
  refine steady_of_no_object fun fields a hobject => ?_
  obtain ⟨b, hb, -⟩ := map_eq_ok_iff.mp hobject
  exact h fields b hb

/-- A count that was decoded is one of 32 bits, so it can be encoded. -/
theorem count_ofNat_of_count {v : Value} {n : Nat} (h : count v = .ok n) :
    count (.ofNat n) = .ok n := by
  unfold count at h
  split at h
  · rename_i i
    split at h
    · rename_i hrange
      cases h
      unfold Value.ofNat count
      dsimp only
      rw [Int.toNat_of_nonneg hrange.1, if_pos hrange]
    · cases h
  · cases h

/-- A list of texts is read as it was written. -/
theorem list_texts (items : List String) : list text (.texts items) = .ok items := by
  change Decode.items text (items.map .text) = _
  induction items with
  | nil => rfl
  | cons s rest ih =>
      rw [List.map_cons, Decode.items, ih]
      rfl

/-- Something optional is read as it was written, unless it is written as `null`. -/
theorem optional_ofOption (write : α → Value) (hwrite : ∀ a, decode (write a) = .ok a)
    (hnull : ∀ a, write a ≠ .null) (o : Option α) :
    optional decode (.ofOption write o) = .ok o := by
  cases o with
  | none => rfl
  | some a =>
      change optional decode (write a) = _
      unfold optional
      split
      · rename_i h
        exact absurd h (hnull a)
      · rw [hwrite]
        rfl

end Decode

namespace Gives

variable {α : Type} {fields full more : List (String × Value)} {key : String} {decode : Decoder α}
  {absent absent' : Option α} {a : α}

/-- A field that has a value has no fault. -/
theorem fault_eq {r : Record} (h : Gives r.fields key decode absent a) :
    (r.slot key decode).fault = (key, none) := by
  unfold Gives at h
  unfold Record.slot Slot.fault
  split at h
  · rename_i v hv
    rw [hv, Option.map_some, h]
  · rename_i hnone
    rw [hnone]
    rfl

/-- A field with a default. -/
theorem iff_orElse {r : Record} {default : α} :
    Gives r.fields key decode (some default) a ↔
      (r.slot key decode).orElse default = .ok a := by
  unfold Gives Slot.orElse Record.slot
  cases r.fields.lookup key with
  | none => simp
  | some v => rfl

/-- A field that has to be there. -/
theorem iff_required {r : Record} :
    Gives r.fields key decode none a ↔ (r.slot key decode).required r = .ok a := by
  unfold Gives Slot.required Record.slot
  cases r.fields.lookup key with
  | none => simp
  | some v => rfl

/-- A count has one of 32 bits, if the one that it has when it is not there is. -/
theorem count_ofNat {n : Nat} {absent : Option Nat} (h : Gives fields key Decode.count absent n)
    (habsent : ∀ k ∈ absent, Decode.count (.ofNat k) = .ok k) :
    Decode.count (.ofNat n) = .ok n := by
  unfold Gives at h
  split at h
  · exact Decode.count_ofNat_of_count h
  · exact habsent n h

/-- Some document is decoded to the value of a field, if one is to the value that the field has
when it is not there. -/
theorem exists_ofValue {v : Value} {default : α} (h : Gives fields key decode (some default) a)
    (hdefault : decode v = .ok default) : ∃ x, decode x = .ok a := by
  unfold Gives at h
  split at h
  · exact ⟨_, h⟩
  · cases h
    exact ⟨v, hdefault⟩

/-- **A field keeps its value when it is filled in**, and so it does when its whole record is. -/
theorem of_fills (hdecode : Decode.Steady decode) (h : Gives fields key decode absent a)
    (hfull : Gives full key decode absent' a)
    (hfills : Value.Fills (.object full) (.object fields) (.object more)) :
    Gives more key decode absent a := by
  cases hfills with
  | same => exact h
  | object kept filled added =>
      unfold Gives at h hfull ⊢
      cases hx : fields.lookup key with
      | none =>
          rw [hx] at h
          rcases added key hx with hnone | hnew
          · rw [hnone]
            exact h
          · rw [hnew]
            split at hfull
            · exact hfull
            · exact h
      | some x =>
          rw [hx] at h
          obtain ⟨y, hy⟩ := Option.ne_none_iff_exists'.mp (kept key x hx)
          have hfilled := filled key x y hx hy
          rw [hy]
          cases hz : full.lookup key with
          | none =>
              rw [hz] at hfilled
              exact hdecode a x y x h h hfilled
          | some z =>
              rw [hz] at hfull hfilled
              exact hdecode a x y z hfull h hfilled

end Gives

/-- Without a fault there is none to report. -/
theorem Record.settle_eq_ok {r : Record} {faults : List (String × Option Fault)}
    (h : ∀ f ∈ faults, f.2 = none) : r.settle faults = .ok () := by
  have hnone : (r.fields.findSome? fun field => (faults.lookup field.1).join) = none := by
    rw [List.findSome?_eq_none_iff]
    intro field _
    cases hfault : faults.lookup field.1 with
    | none => rfl
    | some f =>
        obtain ⟨before, after, hsplit, -⟩ := List.lookup_eq_some_iff.mp hfault
        have hmem : (field.1, f) ∈ faults := by
          rw [hsplit]
          simp
        rw [show f = none from h _ hmem]
        rfl
  unfold settle
  rw [hnone]

/-- An object is no list, so its fields are all there is to it. -/
theorem Record.exists_ofValue_object_iff {type : String} {keys : List String}
    {fields : List (String × Value)} (P : List (String × Value) → Prop) :
    (∃ r, Record.ofValue type keys (.object fields) = .ok r ∧ r.close .json = .ok () ∧
      P r.fields) ↔ P fields := by
  constructor
  · rintro ⟨r, hr, -, hfields⟩
    cases hr
    exact hfields
  · exact fun hfields => ⟨_, rfl, rfl, hfields⟩

/-- What is decoded field by field is steady when its fields are. -/
theorem Decode.steady_of_fields {α : Type} {decode : Decoder α}
    {Given : List (String × Value) → α → Prop}
    (hdecode : ∀ fields a, decode (.object fields) = .ok a ↔ Given fields a)
    (hgiven : ∀ full fields more a, Given full a → Given fields a →
      Value.Fills (.object full) (.object fields) (.object more) → Given more a) :
    Steady decode := by
  intro a x y z hz hx hfills
  cases hfills with
  | same => exact hx
  | object kept filled added =>
      exact (hdecode _ _).mpr (hgiven _ _ _ a ((hdecode _ _).mp hz) ((hdecode _ _).mp hx)
        (.object kept filled added))

/-! ## 3. Callbacks -/

/-- Whether the record is the one that is decoded from these fields. -/
structure EarlyStopping.GivenBy (fields : List (String × Value)) (e : EarlyStopping) : Prop where
  usage : Gives fields "usage" Decode.bool (some false) e.usage
  monitor : Gives fields "monitor" Decode.text (some defaultMonitor) e.monitor
  patience : Gives fields "patience" Decode.count (some 0) e.patience
  minDelta : Gives fields "min_delta" (Decode.optional Decode.real) (some none) e.minDelta
  mode : Gives fields "mode" (Decode.optional Decode.text) (some none) e.mode
  restoreBestWeights : Gives fields "restore_best_weights" (Decode.optional Decode.bool) (some none)
    e.restoreBestWeights

/-- Whether the record is the one that is decoded from these fields. -/
structure RateReduction.GivenBy (fields : List (String × Value)) (l : RateReduction) : Prop where
  usage : Gives fields "usage" Decode.bool (some false) l.usage
  monitor : Gives fields "monitor" Decode.text (some defaultMonitor) l.monitor
  factor : Gives fields "factor" Decode.real (some defaultFactor) l.factor
  patience : Gives fields "patience" Decode.count (some defaultReducePatience) l.patience
  minRate : Gives fields "min_lr" (Decode.optional Decode.real) (some none) l.minRate

namespace EarlyStopping

/-- The record is decoded field by field. -/
theorem ofValue_eq_ok_iff {v : Value} {e : EarlyStopping} :
    ofValue v = .ok e ↔
      ∃ r, Record.ofValue "EarlyStopping"
          ["usage", "monitor", "patience", "min_delta", "mode", "restore_best_weights"] v = .ok r ∧
        r.close .json = .ok () ∧ e.GivenBy r.fields := by
  unfold ofValue
  constructor
  · intro h
    obtain ⟨r, hr, h⟩ := bind_eq_ok_iff.mp h
    obtain ⟨-, -, h⟩ := bind_eq_ok_iff.mp h
    obtain ⟨usage, husage, h⟩ := bind_eq_ok_iff.mp h
    obtain ⟨monitor, hmonitor, h⟩ := bind_eq_ok_iff.mp h
    obtain ⟨patience, hpatience, h⟩ := bind_eq_ok_iff.mp h
    obtain ⟨minDelta, hminDelta, h⟩ := bind_eq_ok_iff.mp h
    obtain ⟨mode, hmode, h⟩ := bind_eq_ok_iff.mp h
    obtain ⟨restore, hrestore, h⟩ := bind_eq_ok_iff.mp h
    obtain ⟨_, hclose, h⟩ := bind_eq_ok_iff.mp h
    cases h
    exact ⟨r, hr, hclose, Gives.iff_orElse.mpr husage, Gives.iff_orElse.mpr hmonitor,
      Gives.iff_orElse.mpr hpatience, Gives.iff_orElse.mpr hminDelta, Gives.iff_orElse.mpr hmode,
      Gives.iff_orElse.mpr hrestore⟩
  · rintro ⟨r, hr, hclose, hgiven⟩
    refine bind_eq_ok_iff.mpr ⟨r, hr, bind_eq_ok_iff.mpr ⟨(), Record.settle_eq_ok ?_, ?_⟩⟩
    · simp [hgiven.usage.fault_eq, hgiven.monitor.fault_eq, hgiven.patience.fault_eq,
        hgiven.minDelta.fault_eq, hgiven.mode.fault_eq, hgiven.restoreBestWeights.fault_eq]
    · dsimp only
      rw [Gives.iff_orElse.mp hgiven.usage, Gives.iff_orElse.mp hgiven.monitor,
        Gives.iff_orElse.mp hgiven.patience, Gives.iff_orElse.mp hgiven.minDelta,
        Gives.iff_orElse.mp hgiven.mode, Gives.iff_orElse.mp hgiven.restoreBestWeights, hclose]
      rfl

/-- Of an object that is all there is. -/
theorem ofValue_object_iff {fields : List (String × Value)} {e : EarlyStopping} :
    ofValue (.object fields) = .ok e ↔ e.GivenBy fields :=
  ofValue_eq_ok_iff.trans (Record.exists_ofValue_object_iff (GivenBy · e))

theorem steady_ofValue : Decode.Steady ofValue :=
  Decode.steady_of_fields (fun _ _ => ofValue_object_iff) fun _ _ _ _ hfull hfields hfills => {
    usage := hfields.usage.of_fills Decode.steady_bool hfull.usage hfills
    monitor := hfields.monitor.of_fills Decode.steady_text hfull.monitor hfills
    patience := hfields.patience.of_fills Decode.steady_count hfull.patience hfills
    minDelta := hfields.minDelta.of_fills (Decode.steady_optional nofun) hfull.minDelta hfills
    mode := hfields.mode.of_fills (Decode.steady_optional nofun) hfull.mode hfills
    restoreBestWeights :=
      hfields.restoreBestWeights.of_fills (Decode.steady_optional nofun) hfull.restoreBestWeights
        hfills }

/-- **The record survives its own encoding.** -/
theorem ofValue_toValue {v : Value} {e : EarlyStopping} (h : ofValue v = .ok e) :
    ofValue e.toValue = .ok e := by
  obtain ⟨r, -, -, hgiven⟩ := ofValue_eq_ok_iff.mp h
  have hpatience : Decode.count (.ofNat e.patience) = .ok e.patience := by
    refine hgiven.patience.count_ofNat fun k hk => ?_
    cases hk
    rfl
  exact ofValue_object_iff.mpr {
    usage := rfl
    monitor := rfl
    patience := hpatience
    minDelta := Decode.optional_ofOption (.number <| .float ·) (fun _ => rfl) nofun e.minDelta
    mode := Decode.optional_ofOption .text (fun _ => rfl) nofun e.mode
    restoreBestWeights :=
      Decode.optional_ofOption .bool (fun _ => rfl) nofun e.restoreBestWeights }

end EarlyStopping

namespace RateReduction

/-- The record is decoded field by field. -/
theorem ofValue_eq_ok_iff {v : Value} {l : RateReduction} :
    ofValue v = .ok l ↔
      ∃ r, Record.ofValue "LearningRateReduction"
          ["usage", "monitor", "factor", "patience", "min_lr"] v = .ok r ∧
        r.close .json = .ok () ∧ l.GivenBy r.fields := by
  unfold ofValue
  constructor
  · intro h
    obtain ⟨r, hr, h⟩ := bind_eq_ok_iff.mp h
    obtain ⟨-, -, h⟩ := bind_eq_ok_iff.mp h
    obtain ⟨usage, husage, h⟩ := bind_eq_ok_iff.mp h
    obtain ⟨monitor, hmonitor, h⟩ := bind_eq_ok_iff.mp h
    obtain ⟨factor, hfactor, h⟩ := bind_eq_ok_iff.mp h
    obtain ⟨patience, hpatience, h⟩ := bind_eq_ok_iff.mp h
    obtain ⟨minRate, hminRate, h⟩ := bind_eq_ok_iff.mp h
    obtain ⟨_, hclose, h⟩ := bind_eq_ok_iff.mp h
    cases h
    exact ⟨r, hr, hclose, Gives.iff_orElse.mpr husage, Gives.iff_orElse.mpr hmonitor,
      Gives.iff_orElse.mpr hfactor, Gives.iff_orElse.mpr hpatience, Gives.iff_orElse.mpr hminRate⟩
  · rintro ⟨r, hr, hclose, hgiven⟩
    refine bind_eq_ok_iff.mpr ⟨r, hr, bind_eq_ok_iff.mpr ⟨(), Record.settle_eq_ok ?_, ?_⟩⟩
    · simp [hgiven.usage.fault_eq, hgiven.monitor.fault_eq, hgiven.factor.fault_eq,
        hgiven.patience.fault_eq, hgiven.minRate.fault_eq]
    · dsimp only
      rw [Gives.iff_orElse.mp hgiven.usage, Gives.iff_orElse.mp hgiven.monitor,
        Gives.iff_orElse.mp hgiven.factor, Gives.iff_orElse.mp hgiven.patience,
        Gives.iff_orElse.mp hgiven.minRate, hclose]
      rfl

/-- Of an object that is all there is. -/
theorem ofValue_object_iff {fields : List (String × Value)} {l : RateReduction} :
    ofValue (.object fields) = .ok l ↔ l.GivenBy fields :=
  ofValue_eq_ok_iff.trans (Record.exists_ofValue_object_iff (GivenBy · l))

theorem steady_ofValue : Decode.Steady ofValue :=
  Decode.steady_of_fields (fun _ _ => ofValue_object_iff) fun _ _ _ _ hfull hfields hfills => {
    usage := hfields.usage.of_fills Decode.steady_bool hfull.usage hfills
    monitor := hfields.monitor.of_fills Decode.steady_text hfull.monitor hfills
    factor := hfields.factor.of_fills Decode.steady_real hfull.factor hfills
    patience := hfields.patience.of_fills Decode.steady_count hfull.patience hfills
    minRate := hfields.minRate.of_fills (Decode.steady_optional nofun) hfull.minRate hfills }

/-- **The record survives its own encoding.** -/
theorem ofValue_toValue {v : Value} {l : RateReduction} (h : ofValue v = .ok l) :
    ofValue l.toValue = .ok l := by
  obtain ⟨r, -, -, hgiven⟩ := ofValue_eq_ok_iff.mp h
  have hpatience : Decode.count (.ofNat l.patience) = .ok l.patience := by
    refine hgiven.patience.count_ofNat fun k hk => ?_
    cases hk
    rfl
  exact ofValue_object_iff.mpr {
    usage := rfl
    monitor := rfl
    factor := rfl
    patience := hpatience
    minRate := Decode.optional_ofOption (.number <| .float ·) (fun _ => rfl) nofun l.minRate }

end RateReduction

/-! ## 4. Configurations -/

/-- Whether a configuration is the one that is decoded from these fields. -/
structure Config.GivenBy (fields : List (String × Value)) (c : Config) : Prop where
  optimizer : Gives fields "optimizer" Decode.text none c.optimizer
  learningRate : Gives fields "learning_rate" Decode.real none c.learningRate
  loss : Gives fields "loss" Decode.text none c.loss
  metrics : Gives fields "metrics" (Decode.list Decode.text) (some []) c.metrics
  batchSize : Gives fields "batch_size" Decode.count none c.batchSize
  epochs : Gives fields "epochs" Decode.count none c.epochs
  earlyStopping : Gives fields "early_stopping" EarlyStopping.ofValue (some {}) c.earlyStopping
  rateReduction :
    Gives fields "learning_rate_reduction" RateReduction.ofValue (some {}) c.rateReduction

namespace Config

/-- A configuration is decoded field by field. -/
theorem ofValue_eq_ok_iff {v : Value} {c : Config} :
    ofValue v = .ok c ↔
      ∃ r, Record.ofValue "Config"
          ["optimizer", "learning_rate", "loss", "metrics", "batch_size", "epochs",
            "early_stopping", "learning_rate_reduction"] v = .ok r ∧
        r.close .json = .ok () ∧ c.GivenBy r.fields := by
  unfold ofValue
  constructor
  · intro h
    obtain ⟨r, hr, h⟩ := bind_eq_ok_iff.mp h
    obtain ⟨-, -, h⟩ := bind_eq_ok_iff.mp h
    obtain ⟨optimizer, hoptimizer, h⟩ := bind_eq_ok_iff.mp h
    obtain ⟨learningRate, hlearningRate, h⟩ := bind_eq_ok_iff.mp h
    obtain ⟨loss, hloss, h⟩ := bind_eq_ok_iff.mp h
    obtain ⟨metrics, hmetrics, h⟩ := bind_eq_ok_iff.mp h
    obtain ⟨batchSize, hbatchSize, h⟩ := bind_eq_ok_iff.mp h
    obtain ⟨epochs, hepochs, h⟩ := bind_eq_ok_iff.mp h
    obtain ⟨earlyStopping, hearlyStopping, h⟩ := bind_eq_ok_iff.mp h
    obtain ⟨rateReduction, hrateReduction, h⟩ := bind_eq_ok_iff.mp h
    obtain ⟨_, hclose, h⟩ := bind_eq_ok_iff.mp h
    cases h
    exact ⟨r, hr, hclose, Gives.iff_required.mpr hoptimizer, Gives.iff_required.mpr hlearningRate,
      Gives.iff_required.mpr hloss, Gives.iff_orElse.mpr hmetrics,
      Gives.iff_required.mpr hbatchSize, Gives.iff_required.mpr hepochs,
      Gives.iff_orElse.mpr hearlyStopping, Gives.iff_orElse.mpr hrateReduction⟩
  · rintro ⟨r, hr, hclose, hgiven⟩
    refine bind_eq_ok_iff.mpr ⟨r, hr, bind_eq_ok_iff.mpr ⟨(), Record.settle_eq_ok ?_, ?_⟩⟩
    · simp [hgiven.optimizer.fault_eq, hgiven.learningRate.fault_eq, hgiven.loss.fault_eq,
        hgiven.metrics.fault_eq, hgiven.batchSize.fault_eq, hgiven.epochs.fault_eq,
        hgiven.earlyStopping.fault_eq, hgiven.rateReduction.fault_eq]
    · rw [Gives.iff_required.mp hgiven.optimizer, Gives.iff_required.mp hgiven.learningRate,
        Gives.iff_required.mp hgiven.loss, Gives.iff_orElse.mp hgiven.metrics,
        Gives.iff_required.mp hgiven.batchSize, Gives.iff_required.mp hgiven.epochs,
        Gives.iff_orElse.mp hgiven.earlyStopping, Gives.iff_orElse.mp hgiven.rateReduction, hclose]
      rfl

/-- Of an object that is all there is. -/
theorem ofValue_object_iff {fields : List (String × Value)} {c : Config} :
    ofValue (.object fields) = .ok c ↔ c.GivenBy fields :=
  ofValue_eq_ok_iff.trans (Record.exists_ofValue_object_iff (GivenBy · c))

theorem steady_ofValue : Decode.Steady ofValue :=
  Decode.steady_of_fields (fun _ _ => ofValue_object_iff) fun _ _ _ _ hfull hfields hfills => {
    optimizer := hfields.optimizer.of_fills Decode.steady_text hfull.optimizer hfills
    learningRate := hfields.learningRate.of_fills Decode.steady_real hfull.learningRate hfills
    loss := hfields.loss.of_fills Decode.steady_text hfull.loss hfills
    metrics := hfields.metrics.of_fills (Decode.steady_list _) hfull.metrics hfills
    batchSize := hfields.batchSize.of_fills Decode.steady_count hfull.batchSize hfills
    epochs := hfields.epochs.of_fills Decode.steady_count hfull.epochs hfills
    earlyStopping :=
      hfields.earlyStopping.of_fills EarlyStopping.steady_ofValue hfull.earlyStopping hfills
    rateReduction :=
      hfields.rateReduction.of_fills RateReduction.steady_ofValue hfull.rateReduction hfills }

/-- **A configuration survives its own encoding.** -/
theorem ofValue_toValue {v : Value} {c : Config} (h : ofValue v = .ok c) :
    ofValue c.toValue = .ok c := by
  obtain ⟨r, -, -, hgiven⟩ := ofValue_eq_ok_iff.mp h
  obtain ⟨x, hx⟩ := hgiven.earlyStopping.exists_ofValue EarlyStopping.ofValue_empty
  obtain ⟨y, hy⟩ := hgiven.rateReduction.exists_ofValue RateReduction.ofValue_empty
  exact ofValue_object_iff.mpr {
    optimizer := rfl
    learningRate := rfl
    loss := rfl
    metrics := Decode.list_texts c.metrics
    batchSize := hgiven.batchSize.count_ofNat nofun
    epochs := hgiven.epochs.count_ofNat nofun
    earlyStopping := EarlyStopping.ofValue_toValue hx
    rateReduction := RateReduction.ofValue_toValue hy }

end Config

/-! ## 5. Projects -/

/-- Whether fields are others with a value under one key, whatever stood there before. -/
structure Replaces (key : String) (value : Value) (fields fields' : List (String × Value)) :
    Prop where
  here : fields'.lookup key = some value
  elsewhere : ∀ other, other ≠ key → fields'.lookup other = fields.lookup other

/-- A value is put under its key without a change elsewhere. -/
theorem replaces_insertField (key : String) (value : Value) (fields : List (String × Value)) :
    Replaces key value fields (insertField key value fields) where
  here := by rw [lookup_insertField, if_pos rfl]
  elsewhere other h := by rw [lookup_insertField, if_neg h]

namespace Project

/-- Binds the fields of a payload for a user. -/
def ofFields (fields : List (String × Value)) (user : Except BindError String) :
    Except BindError Project := do
  let config ← bindPart fields .config Config.ofValue
  if !Literal.isName config.optimizer then .error (.invalidOptimizer config.optimizer)
  let network ← bindPart fields .content Network.ofValue
  let user ← user
  .ok ⟨user, config, (fields.lookup "dataset").getD .null, network⟩

/-- Once a payload is read, its text matters only for the name of a user that is not given. -/
theorem ofPayload_eq (payload : String) (user : Option String) :
    ofPayload payload user =
      ((Json.readObject payload).mapError .malformed).bind fun fields =>
        ofFields fields <| match user with
          | some name => bindUser name
          | none => .ok (payloadUser payload) := by
  unfold ofPayload ofFields
  cases user <;> rfl

variable {fields fields' : List (String × Value)} {user : Except BindError String} {p : Project}

theorem ofFields_eq_ok_iff :
    ofFields fields user = .ok p ↔
      bindPart fields .config Config.ofValue = .ok p.config ∧
      Literal.isName p.config.optimizer = true ∧
      bindPart fields .content Network.ofValue = .ok p.network ∧
      user = .ok p.user ∧ p.dataset = (fields.lookup "dataset").getD .null := by
  unfold ofFields
  constructor
  · intro h
    obtain ⟨config, hconfig, h⟩ := bind_eq_ok_iff.mp h
    by_cases hname : Literal.isName config.optimizer = true
    · rw [hname] at h
      obtain ⟨network, hnetwork, h⟩ := bind_eq_ok_iff.mp h
      obtain ⟨name, huser, h⟩ := bind_eq_ok_iff.mp h
      cases h
      exact ⟨hconfig, hname, hnetwork, huser, rfl⟩
    · rw [Bool.eq_false_iff.mpr hname] at h
      cases h
  · rintro ⟨hconfig, hname, hnetwork, huser, hdataset⟩
    rw [hconfig, hnetwork, huser, ← hdataset]
    refine bind_eq_ok_iff.mpr ⟨_, rfl, ?_⟩
    rw [hname]
    rfl

/-- **A payload gets another configuration from whatever document that is decoded from**, and
nothing else changes. -/
theorem ofFields_of_replaces {e : Value} {c : Config} (he : Config.ofValue e = .ok c)
    (hname : Literal.isName c.optimizer = true) (h : ofFields fields user = .ok p)
    (hfields : Replaces "config" e fields fields') :
    ofFields fields' user = .ok { p with config := c } := by
  obtain ⟨-, -, hnetwork, huser, hdataset⟩ := ofFields_eq_ok_iff.mp h
  refine ofFields_eq_ok_iff.mpr ⟨?_, hname, ?_, huser, ?_⟩
  · exact bindPart_eq_ok_iff.mpr ⟨e, hfields.here, he⟩
  · unfold bindPart at hnetwork ⊢
    rwa [hfields.elsewhere _ (by decide)]
  · rwa [hfields.elsewhere _ (by decide)]

/-- A name that a project goes by is accepted again. -/
theorem bindUser_of_ofPayload {payload : String} {named : Option String}
    (h : ofPayload payload named = .ok p) : bindUser p.user = .ok p.user := by
  unfold bindUser
  rw [if_pos (isUser_of_ofPayload h)]

/-- A project is bound from the fields of its payload. -/
theorem ofFields_of_ofPayload {payload : String} {named : Option String}
    (h : ofPayload payload named = .ok p) (hfields : Json.readObject payload = .ok fields) :
    ofFields fields (bindUser p.user) = .ok p := by
  have huser := bindUser_of_ofPayload h
  rw [ofPayload_eq, hfields] at h
  obtain ⟨hconfig, hname, hnetwork, -, hdataset⟩ := ofFields_eq_ok_iff.mp h
  exact ofFields_eq_ok_iff.mpr ⟨hconfig, hname, hnetwork, huser, hdataset⟩

end Project

/-- **A configuration survives its own encoding.** It is decoded again from its encoding, and from
the document that it was decoded from with any of the missing keys filled in from there. So a
payload may have its configuration replaced by either, with the keys in any order, and the same
user gets the same project, and with it the same scripts. -/
theorem config_survives_encoding {v : Value} {c : Config} (h : Config.ofValue v = .ok c) :
    Config.ofValue c.toValue = .ok c ∧
    (∀ more, Value.Fills c.toValue v more → Config.ofValue more = .ok c) ∧
    ∀ (payload : String) (user : Option String) (p : Project) (fields : List (String × Value)),
      Project.ofPayload payload user = .ok p → Json.readObject payload = .ok fields →
      fields.lookup "config" = some v →
        p.trainBody.field? "config" = some c.toValue ∧
        ∀ e fields', Value.Fills c.toValue v e ∨ Value.Fills c.toValue c.toValue e →
          Replaces "config" e fields fields' →
            Project.ofFields fields' (bindUser p.user) = .ok p ∧
            ∀ payload', Json.readObject payload' = .ok fields' →
              Project.ofPayload payload' (some p.user) = .ok p := by
  have hagain := Config.ofValue_toValue h
  have hfilled : ∀ more, Value.Fills c.toValue v more → Config.ofValue more = .ok c :=
    fun more => Config.steady_ofValue c v more c.toValue hagain h
  have hordered : ∀ e, Value.Fills c.toValue c.toValue e → Config.ofValue e = .ok c :=
    fun e => Config.steady_ofValue c c.toValue e c.toValue hagain hagain
  refine ⟨hagain, hfilled, fun payload user p fields hp hread hv => ?_⟩
  have hbound := Project.ofFields_of_ofPayload hp hread
  obtain ⟨hconfig, hname, -⟩ := Project.ofFields_eq_ok_iff.mp hbound
  obtain ⟨v', hv', hconfig⟩ := bindPart_eq_ok_iff.mp hconfig
  cases hv.symm.trans hv'
  cases hconfig.symm.trans h
  refine ⟨rfl, fun e fields' he hfields => ?_⟩
  have hreplaced : Project.ofFields fields' (bindUser p.user) = .ok p :=
    Project.ofFields_of_replaces (he.elim (hfilled e) (hordered e)) hname hbound hfields
  refine ⟨hreplaced, fun payload' hread' => ?_⟩
  rw [Project.ofPayload_eq, hread']
  exact hreplaced

/-- The fields of a configuration that says nothing but how long to wait before training ends. -/
def patientFields : List (String × Value) :=
  [("batch_size", .ofNat 2), ("early_stopping", .object [("patience", .ofNat 4)]),
   ("epochs", .ofNat 3), ("learning_rate", .ofNat 1), ("loss", .text "mse"),
   ("optimizer", .text "SGD")]

/-- The configuration. -/
def patientConfig : Config where
  optimizer := "SGD"
  learningRate := .ofInt 1
  loss := "mse"
  metrics := []
  batchSize := 2
  epochs := 3
  earlyStopping := { patience := 4 }
  rateReduction := {}

theorem config_survives_encoding_patient :
    (Config.ofValue (.object patientFields) = .ok patientConfig ∧
      Config.ofValue patientConfig.toValue = .ok patientConfig ∧
      Config.ofValue (.object (insertField "learning_rate_reduction"
        (.object [("usage", .bool false), ("monitor", .text "val_loss"),
          ("factor", .number (.float (.ofDecimal false 1 (-1)))), ("patience", .ofNat 10),
          ("min_lr", .null)]) patientFields)) = .ok patientConfig ∧
      Config.ofValue (.object (insertField "early_stopping"
        (.object (insertField "monitor" (.text "val_loss") [("patience", .ofNat 4)]))
          patientFields)) = .ok patientConfig) ∧
    ∃ p fields v, Project.ofPayload chainPayload (some "u") = .ok p ∧
      Json.readObject chainPayload = .ok fields ∧ fields.lookup "config" = some v ∧
      Config.ofValue v = .ok p.config ∧ p.trainBody.field? "config" = some p.config.toValue ∧
      Project.ofFields (insertField "config" p.config.toValue fields) (bindUser p.user) = .ok p := by
  constructor
  · have hdecode : Config.ofValue (.object patientFields) = .ok patientConfig := rfl
    obtain ⟨hagain, hfilled, -⟩ := config_survives_encoding hdecode
    have hmonitor : Value.Fills patientConfig.earlyStopping.toValue
        (.object [("patience", .ofNat 4)])
        (.object (insertField "monitor" (.text "val_loss") [("patience", .ofNat 4)])) :=
      .insert rfl rfl
    exact ⟨hdecode, hagain, hfilled _ (.insert rfl rfl), hfilled _ (.within rfl rfl hmonitor)⟩
  · have hrun : (Project.ofPayload chainPayload (some "u")).toOption.isSome = true := by
      decide +kernel
    obtain ⟨p, hp⟩ := Option.isSome_iff_exists.mp hrun
    have hp := toOption_eq_some_iff.mp hp
    obtain ⟨fields, hread, hconfig, -⟩ := Project.exists_parts_of_ofPayload hp
    obtain ⟨v, hv, hdecode⟩ := bindPart_eq_ok_iff.mp hconfig
    obtain ⟨-, -, hproject⟩ := config_survives_encoding hdecode
    obtain ⟨hbody, hreplaced⟩ := hproject _ _ p fields hp hread hv
    exact ⟨p, fields, v, hp, hread, hv, hdecode, hbody,
      (hreplaced _ _ (.inr (.same _ _)) (replaces_insertField _ _ _)).1⟩

end LayerScript
