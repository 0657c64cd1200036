/-
`Proofs/Disk/Changes.lean` -- what operations look at, and what they put.

An operation on a disk follows paths, and for that it looks at which locations are directories;
what a file holds it never asks before giving it new content. So on two disks that look alike
along its paths it does the same: it puts the same things at the same locations, and has the same
result. `Disk.Uniform` says this for any relation between disks that is strong enough, and two
instances of it carry everything that is proved of requests that share a disk: on disks of one
shape an operation is blind to contents, and on disks that agree inside one directory it is blind
to what goes on outside. Two operations that are blind to each other commute (`Uniform.commute`).
-/
import LayerScript.Proofs.Disk.Access

set_option autoImplicit false

namespace LayerScript

/-- Whether an entry is a directory. -/
def Entry.isDirectory : Entry → Bool
  | .directory => true
  | .file _ => false

namespace Disk

variable {d d' : Disk} {l m start workingDirectory : Location} {e : Entry}
  {steps : List Step} {path text : String} {changes others : List (Location × Entry)}

/-! ## 1. Changes -/

/-- The root stays a directory whatever is put there. -/
theorem at?_put (d : Disk) (l m : Location) (e : Entry) :
    (d.put l e).at? m = if m = l ∧ m ≠ [] then some e else d.at? m := by
  by_cases hroot : m = []
  · rw [hroot, at?_root, at?_root, if_neg fun h => h.2 rfl]
  · by_cases heq : m = l
    · rw [if_pos ⟨heq, hroot⟩, ← heq, at?_put_self d e hroot]
    · rw [if_neg fun h => heq h.1, at?_put_of_ne d e heq]

/-- The disk after things were put on it one after another. -/
def puts (d : Disk) (changes : List (Location × Entry)) : Disk :=
  changes.foldl (fun d c => d.put c.1 c.2) d

theorem puts_cons (d : Disk) (c : Location × Entry) (rest : List (Location × Entry)) :
    d.puts (c :: rest) = (d.put c.1 c.2).puts rest := rfl

theorem puts_append (d : Disk) (first second : List (Location × Entry)) :
    d.puts (first ++ second) = (d.puts first).puts second :=
  List.foldl_append

/-- What stands at a location after changes depends on what stood there. -/
theorem at?_puts_congr (h : d.at? l = d'.at? l) (changes : List (Location × Entry)) :
    (d.puts changes).at? l = (d'.puts changes).at? l := by
  induction changes generalizing d d' with
  | nil => exact h
  | cons c rest ih =>
      rw [puts_cons, puts_cons]
      apply ih
      rw [at?_put, at?_put, h]

theorem at?_puts_of_forall_ne (h : ∀ c ∈ changes, c.1 ≠ l) :
    (d.puts changes).at? l = d.at? l := by
  induction changes generalizing d with
  | nil => rfl
  | cons c rest ih =>
      rw [List.forall_mem_cons] at h
      rw [puts_cons, ih h.2, at?_put_of_ne d c.2 h.1.symm]

/-- A location holds what was put there last, or what it held before. -/
theorem at?_puts (d : Disk) (l : Location) (changes : List (Location × Entry)) :
    (d.puts changes).at? l = d.at? l ∨ ∃ e, (l, e) ∈ changes ∧ (d.puts changes).at? l = some e := by
  induction changes generalizing d with
  | nil => exact Or.inl rfl
  | cons c rest ih =>
      rcases ih (d.put c.1 c.2) with hsame | ⟨e, he, hput⟩
      · rw [puts_cons, hsame, at?_put]
        by_cases hc : l = c.1 ∧ l ≠ []
        · refine Or.inr ⟨c.2, ?_, if_pos hc⟩
          rw [hc.1]
          exact List.mem_cons_self
        · exact Or.inl (if_neg hc)
      · exact Or.inr ⟨e, List.mem_cons_of_mem _ he, hput⟩

/-- The same changes to two disks make them alike at a location, or are none there. -/
theorem at?_puts_or (d d' : Disk) (l : Location) (changes : List (Location × Entry)) :
    (d.puts changes).at? l = (d'.puts changes).at? l ∨
      ((d.puts changes).at? l = d.at? l ∧ (d'.puts changes).at? l = d'.at? l) := by
  by_cases h : ∃ c ∈ changes, c.1 = l
  · obtain ⟨c, hc, hl⟩ := h
    -- From that change on the two hold the same there.
    obtain ⟨front, back, rfl⟩ := List.append_of_mem hc
    refine Or.inl ?_
    rw [puts_append, puts_append, puts_cons, puts_cons]
    apply at?_puts_congr
    rw [at?_put, at?_put]
    by_cases hroot : l = []
    · rw [hroot, if_neg fun h => h.2 rfl, if_neg fun h => h.2 rfl, at?_root, at?_root]
    · rw [if_pos ⟨hl.symm, hroot⟩, if_pos ⟨hl.symm, hroot⟩]
  · have hne : ∀ c ∈ changes, c.1 ≠ l := fun c hc hl => h ⟨c, hc, hl⟩
    exact Or.inr ⟨at?_puts_of_forall_ne hne, at?_puts_of_forall_ne hne⟩

/-- Changes at different locations can be made in either order. -/
theorem at?_puts_comm (h : ∀ c ∈ changes, ∀ c' ∈ others, c.1 ≠ c'.1) (l : Location) :
    ((d.puts changes).puts others).at? l = ((d.puts others).puts changes).at? l := by
  by_cases hl : ∃ c ∈ changes, c.1 = l
  · obtain ⟨c, hc, rfl⟩ := hl
    -- At a location of one kind of changes the other kind makes no difference.
    have hothers : ∀ c' ∈ others, c'.1 ≠ c.1 := fun c' hc' => (h c hc c' hc').symm
    rw [at?_puts_of_forall_ne hothers]
    exact at?_puts_congr (at?_puts_of_forall_ne hothers).symm changes
  · have hchanges : ∀ c ∈ changes, c.1 ≠ l := fun c hc heq => hl ⟨c, hc, heq⟩
    rw [at?_puts_of_forall_ne hchanges]
    exact at?_puts_congr (at?_puts_of_forall_ne hchanges) others

/-! ## 2. Kinds -/

/-- What kind of thing stands at a location, if anything does: a directory or a file. -/
def kind? (d : Disk) (l : Location) : Option Bool :=
  (d.at? l).map Entry.isDirectory

theorem at?_eq_none_iff : d.at? l = none ↔ d.kind? l = none := by
  rw [kind?, Option.map_eq_none_iff]

theorem at?_eq_directory_iff : d.at? l = some .directory ↔ d.kind? l = some true := by
  rw [kind?]
  rcases d.at? l with _ | (_ | content) <;> simp [Entry.isDirectory]

/-- What was put replaces the kind of what stood there. -/
theorem kind?_put_congr (h : d.kind? m = d'.kind? m) (l : Location) (e : Entry) :
    (d.put l e).kind? m = (d'.put l e).kind? m := by
  rw [kind?, kind?, at?_put, at?_put]
  split
  · rfl
  · exact h

/-- To step from a location looks only at its kind. -/
theorem follow_cons_eq (d : Disk) (l : Location) (step : Step) (rest : List Step) :
    d.follow l (step :: rest) = match d.kind? l with
      | none => .error .missing
      | some false => .error .notADirectory
      | some true =>
        if step.isTooLong then .error .nameTooLong else d.follow (step.apply l) rest := by
  rw [follow, kind?]
  rcases d.at? l with _ | (_ | content) <;> rfl

/-- To make a directory looks only at the kind of what is there. -/
theorem ensureDirectory_eq (d : Disk) (start : Location) (steps : List Step) :
    d.ensureDirectory start steps = match d.follow start steps with
      | .error fault => (d, .error fault)
      | .ok l =>
        match d.kind? l with
        | none => (d.put l .directory, .ok ())
        | some true => (d, .ok ())
        | some false => (d, .error .alreadyExists) := by
  unfold ensureDirectory makeDirectory isDirectory kind?
  cases d.follow start steps with
  | error fault => rfl
  | ok l =>
      simp only [bind, Except.bind]
      obtain hl | hl | ⟨content, hl⟩ : d.at? l = none ∨ d.at? l = some .directory ∨
          ∃ content, d.at? l = some (.file content) := by
        rcases d.at? l with _ | (_ | content) <;> simp
      · simp [hl]
      · simp [hl, Entry.isDirectory]
      · simp [hl, Entry.isDirectory]

/-- To write a file looks only at the kind of what is there. -/
theorem write_eq (d : Disk) (workingDirectory : Location) (path text : String) :
    d.write workingDirectory path text = match d.locate workingDirectory path with
      | .error fault => .error fault
      | .ok (_, true) => .error .isADirectory
      | .ok (l, false) =>
        if d.kind? l = some true then .error .isADirectory
        else .ok (d.put l (.file text.toUTF8)) := by
  unfold write alter kind?
  rcases d.locate workingDirectory path with fault | ⟨l, _ | _⟩
  · rfl
  · simp only [bind, Except.bind]
    rcases d.at? l with _ | (_ | content) <;> simp [Entry.isDirectory]
  · rfl

/-- What is put in the place of something of its kind replaces no directory. -/
theorem keeps_put_kind (h : ∀ kind, d.kind? l = some kind → e.isDirectory = kind) :
    Keeps {l} d (d.put l e) := by
  intro m e' he hor
  rw [at?_put]
  split
  · rename_i hm
    rcases hor with rfl | hout
    · -- In the place of a directory only a directory can have been put.
      have hdirectory := h true (by rw [← hm.1, ← at?_eq_directory_iff, he])
      cases e with
      | directory => rfl
      | file content => cases hdirectory
    · exact absurd hm.1 hout
  · exact he

/-! ## 3. Disks that look alike -/

/-- Whether a relation survives putting the same on both disks, where that changes no kind. -/
def Stable (T : Disk → Disk → Prop) : Prop :=
  ∀ (d d' : Disk) (l : Location) (e : Entry), T d d' →
    (∀ kind, d.kind? l = some kind → e.isDirectory = kind) →
    (∀ kind, d'.kind? l = some kind → e.isDirectory = kind) →
    T (d.put l e) (d'.put l e)

/-- Whether related disks look alike along steps, and where these lead. -/
structure AlikeAlong (T : Disk → Disk → Prop) (start : Location) (steps : List Step) : Prop where
  follow : ∀ {d d' : Disk}, T d d' → d.follow start steps = d'.follow start steps
  kind : ∀ {d d' : Disk} {l : Location}, T d d' → d.follow start steps = .ok l →
    d.kind? l = d'.kind? l

/-- Whether an operation does the same on related disks, and puts only what is allowed. -/
def Uniform {α : Type} (T : Disk → Disk → Prop) (allowed : Set (Location × Entry))
    (f : Disk → Disk × α) : Prop :=
  ∀ d d' : Disk, T d d' → ∃ changes, (∀ c ∈ changes, c ∈ allowed) ∧
    (f d).1 = d.puts changes ∧ (f d').1 = d'.puts changes ∧ (f d).2 = (f d').2 ∧
    T (f d).1 (f d').1

/-- One operation after another, unless the first fails. -/
def andThen {ε ε' β : Type} (failure : ε → ε') (x : Disk × Except ε Unit)
    (g : Disk → Disk × Except ε' β) : Disk × Except ε' β :=
  match x.2 with
  | .error e => (x.1, .error (failure e))
  | .ok _ => g x.1

variable {T : Disk → Disk → Prop} {allowed : Set (Location × Entry)} {α β ε : Type}

/-- Disks that look alike along some steps do so one step on, if they do at its end. -/
theorem AlikeAlong.snoc (h : AlikeAlong T start steps) {step : Step}
    (hend : ∀ {d d' : Disk} {l : Location}, T d d' → d.follow start steps = .ok l →
      d.kind? (step.apply l) = d'.kind? (step.apply l)) :
    AlikeAlong T start (steps ++ [step]) where
  follow {d d'} hT := by
    rw [follow_append, follow_append, ← h.follow hT]
    cases hl : d.follow start steps with
    | error fault => rfl
    | ok l =>
        change d.follow l [step] = d'.follow l [step]
        rw [follow_cons_eq, follow_cons_eq, h.kind hT hl]
        rfl
  kind {d d' m} hT hm := by
    rw [follow_append] at hm
    obtain ⟨l, hl, hstep⟩ := bind_eq_ok_iff.mp hm
    obtain ⟨-, -, hlast⟩ := follow_cons_eq_ok_iff.mp hstep
    cases hlast
    exact hend hT hl

/-! ## 4. Operations -/

namespace Uniform

theorem const (T : Disk → Disk → Prop) (allowed : Set (Location × Entry)) (a : α) :
    Uniform T allowed fun d => (d, a) := by
  intro d d' hT
  exact ⟨[], by simp, rfl, rfl, rfl, hT⟩

/-- One operation after another looks at what the two look at. -/
theorem andThen {ε' : Type} {f : Disk → Disk × Except ε Unit} {g : Disk → Disk × Except ε' β}
    (failure : ε → ε') (hf : Uniform T allowed f) (hg : Uniform T allowed g) :
    Uniform T allowed fun d => Disk.andThen failure (f d) g := by
  intro d d' hT
  obtain ⟨first, hfirst, hd, hd', hsame, hT⟩ := hf d d' hT
  dsimp only [Disk.andThen]
  rw [← hsame]
  cases (f d).2 with
  | error e => exact ⟨first, hfirst, hd, hd', rfl, hT⟩
  | ok _ =>
      obtain ⟨second, hsecond, hmade, hmade', hrest⟩ := hg _ _ hT
      refine ⟨first ++ second, List.forall_mem_append.mpr ⟨hfirst, hsecond⟩, ?_, ?_, hrest⟩
      · rw [hmade, hd, puts_append]
      · rw [hmade', hd', puts_append]

/-- **Operations that are blind to each other commute**: either has the result that it would
have alone, and they leave the same behind in either order. -/
theorem commute {f : Disk → Disk × α} {g : Disk → Disk × β} {T' : Disk → Disk → Prop}
    {allowed' : Set (Location × Entry)} (hf : Uniform T allowed f) (hg : Uniform T' allowed' g)
    (hapart : ∀ c ∈ allowed, ∀ c' ∈ allowed', c.1 ≠ c'.1) (hT : T d (g d).1)
    (hT' : T' d (f d).1) :
    (f (g d).1).2 = (f d).2 ∧ (g (f d).1).2 = (g d).2 ∧
      ∀ l, (g (f d).1).1.at? l = (f (g d).1).1.at? l := by
  obtain ⟨changes, hchanges, hfd, hfg, hf, -⟩ := hf d (g d).1 hT
  obtain ⟨others, hothers, hgd, hgf, hg, -⟩ := hg d (f d).1 hT'
  refine ⟨hf.symm, hg.symm, fun l => ?_⟩
  rw [hgf, hfg, hfd, hgd]
  exact at?_puts_comm (fun c hc c' hc' => hapart c (hchanges c hc) c' (hothers c' hc')) l

end Uniform

/-- Making a directory looks at where it is made. -/
theorem uniform_ensureDirectory (hT : Stable T) (halike : AlikeAlong T start steps)
    (hallowed : ∀ {d : Disk} {l : Location}, d.follow start steps = .ok l →
      (l, .directory) ∈ allowed) :
    Uniform T allowed fun d => d.ensureDirectory start steps := by
  intro d d' hrel
  dsimp only
  rw [ensureDirectory_eq, ensureDirectory_eq, ← halike.follow hrel]
  cases hl : d.follow start steps with
  | error fault => exact ⟨[], by simp, rfl, rfl, rfl, hrel⟩
  | ok l =>
      have hkind := halike.kind hrel hl
      dsimp only
      rw [← hkind]
      rcases hnone : d.kind? l with _ | (_ | _)
      · refine ⟨[(l, .directory)], ?_, rfl, rfl, rfl, ?_⟩
        · intro c hc
          rw [List.mem_singleton.mp hc]
          exact hallowed hl
        · refine hT d d' l .directory hrel (fun kind h => ?_) fun kind h => ?_
          · rw [hnone] at h
            cases h
          · rw [← hkind, hnone] at h
            cases h
      · exact ⟨[], by simp, rfl, rfl, rfl, hrel⟩
      · exact ⟨[], by simp, rfl, rfl, rfl, hrel⟩

/-- Whether related disks look alike along a path. -/
def AlikeOn (T : Disk → Disk → Prop) (workingDirectory : Location) (path : String) : Prop :=
  ∀ p, Path.ofText path = some p → AlikeAlong T (p.start workingDirectory) p.steps

/-- Related disks that look alike along a path agree on where it leads. -/
theorem AlikeOn.locate (h : AlikeOn T workingDirectory path) (hrel : T d d') :
    d.locate workingDirectory path = d'.locate workingDirectory path := by
  unfold Disk.locate
  cases writtenFault path with
  | some fault => rfl
  | none =>
      cases hp : Path.ofText path with
      | none => rfl
      | some p =>
          dsimp only
          rw [(h p hp).follow hrel]

end Disk

end LayerScript
