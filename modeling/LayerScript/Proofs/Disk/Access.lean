/-
`Proofs/Disk/Access.lean` -- what changing a disk leaves alone.

A run changes a disk in two ways: it makes directories where nothing was, and it gives files
new content. Neither takes a directory away, so a path that led somewhere leads there still,
and what was written under one name can be read after anything was written under another.
`Disk.Keeps` says this with the places that a change may touch, every operation has one lemma
about it, and nothing else is needed of the operations to follow a file through a run.
-/
import LayerScript.Disk.Access
import LayerScript.Proofs.Disk.Path
import LayerScript.Proofs.Steps
import Mathlib.Data.Set.Insert

set_option autoImplicit false

namespace LayerScript

namespace Disk

variable {d d' : Disk} {workingDirectory l : Location} {path text : String}
  {touched : Set Location}

/-! ## 1. What is kept -/

/-- Whether a disk has all that stood on another, except that files in some places may have
changed. Directories are kept even there. -/
def Keeps (touched : Set Location) (d d' : Disk) : Prop :=
  ∀ l e, d.at? l = some e → e = .directory ∨ l ∉ touched → d'.at? l = some e

namespace Keeps

theorem refl (touched : Set Location) (d : Disk) : Keeps touched d d :=
  fun _ _ h _ => h

theorem trans {d'' : Disk} (h : Keeps touched d d') (h' : Keeps touched d' d'') :
    Keeps touched d d'' :=
  fun l e he hor => h' l e (h l e he hor) hor

theorem mono {more : Set Location} (h : Keeps touched d d') (hsub : touched ⊆ more) :
    Keeps more d d' :=
  fun l e he hor => h l e he (hor.imp_right fun hout hin => hout (hsub hin))

end Keeps

/-- A file that is put somewhere replaces no directory. -/
theorem keeps_put (h : d.at? l ≠ some .directory) (e : Entry) : Keeps {l} d (d.put l e) := by
  intro m e' he hor
  -- At `l` only a directory would have to be kept, and none is there.
  have hne : m ≠ l := by
    rintro rfl
    rcases hor with rfl | hout
    · exact h he
    · exact hout rfl
  rwa [at?_put_of_ne d e hne]

/-- What is put where nothing was replaces nothing. -/
theorem keeps_put_new (h : d.at? l = none) (e : Entry) : Keeps ∅ d (d.put l e) := by
  intro m e' he _
  have hne : m ≠ l := by
    rintro rfl
    rw [h] at he
    cases he
  rwa [at?_put_of_ne d e hne]

/-! ## 2. Following a path -/

/-- A step is taken from a directory, unless its name is too long. -/
theorem follow_cons_eq_ok_iff {step : Step} {rest : List Step} {end' : Location} :
    d.follow l (step :: rest) = .ok end' ↔
      d.at? l = some .directory ∧ step.isTooLong = false ∧
        d.follow (step.apply l) rest = .ok end' := by
  rw [follow]
  cases d.at? l with
  | none => simp
  | some e =>
      cases e with
      | file content => simp
      | directory =>
          by_cases hlong : step.isTooLong = true
          · simp [hlong]
          · simp [hlong]

theorem follow_append (front back : List Step) :
    d.follow l (front ++ back) = d.follow l front >>= fun m => d.follow m back := by
  induction front generalizing l with
  | nil => rfl
  | cons step rest ih =>
      rw [List.cons_append, follow, follow]
      cases d.at? l with
      | none => rfl
      | some e =>
          cases e with
          | file content => rfl
          | directory =>
              by_cases hlong : step.isTooLong = true
              · simp only [hlong, if_true]
                rfl
              · simp only [hlong]
                exact ih

/-- A path leads where it is followed to, if it can be looked up as it is written. -/
theorem locate_eq_ok_iff {wantsDirectory : Bool} :
    d.locate workingDirectory path = .ok (l, wantsDirectory) ↔
      writtenFault path = none ∧ ∃ p, Path.ofText path = some p ∧
        d.follow (p.start workingDirectory) p.steps = .ok l ∧
        p.wantsDirectory = wantsDirectory := by
  unfold locate
  cases writtenFault path with
  | some fault => simp
  | none =>
      cases Path.ofText path with
      | none => simp
      | some p => simp [bind_eq_ok_iff]

/-- The path of a name in a directory leads to a place of that name. -/
theorem getLast?_of_locate_join {directory name : String} (hname : Step.IsEntryName name)
    {wantsDirectory : Bool}
    (h : d.locate workingDirectory (Path.join directory name) = .ok (l, wantsDirectory)) :
    l.getLast? = some name ∧ wantsDirectory = false := by
  obtain ⟨-, p, hp, hfollow, rfl⟩ := locate_eq_ok_iff.mp h
  rw [Path.ofText_join directory hname] at hp
  cases hp
  -- The last step is the name, wherever the steps before it lead.
  rw [follow_append] at hfollow
  obtain ⟨above, -, hlast⟩ := bind_eq_ok_iff.mp hfollow
  obtain ⟨-, -, hend⟩ := follow_cons_eq_ok_iff.mp hlast
  cases hend
  exact ⟨List.getLast?_concat, rfl⟩

theorem Keeps.follow (h : Keeps touched d d') {steps : List Step} {end' : Location}
    (hfollow : d.follow l steps = .ok end') : d'.follow l steps = .ok end' := by
  induction steps generalizing l with
  | nil => exact hfollow
  | cons step rest ih =>
      obtain ⟨hdirectory, hlong, hrest⟩ := follow_cons_eq_ok_iff.mp hfollow
      exact follow_cons_eq_ok_iff.mpr ⟨h l _ hdirectory (Or.inl rfl), hlong, ih hrest⟩

/-- A path that led somewhere leads there still. -/
theorem Keeps.locate (h : Keeps touched d d') {wantsDirectory : Bool}
    (hlocate : d.locate workingDirectory path = .ok (l, wantsDirectory)) :
    d'.locate workingDirectory path = .ok (l, wantsDirectory) := by
  obtain ⟨hwritten, p, hp, hfollow, hwants⟩ := locate_eq_ok_iff.mp hlocate
  exact locate_eq_ok_iff.mpr ⟨hwritten, p, hp, h.follow hfollow, hwants⟩

/-! ## 3. Files -/

/-- What is read is the content of the file that a path leads to. -/
theorem read_eq_ok_iff {content : ByteArray} :
    d.read workingDirectory path = .ok content ↔
      ∃ l, d.locate workingDirectory path = .ok (l, false) ∧ d.at? l = some (.file content) := by
  unfold read entry
  simp only [bind_eq_ok_iff]
  constructor
  · rintro ⟨e, ⟨⟨l, wantsDirectory⟩, hlocate, he⟩, hread⟩
    cases hat : d.at? l with
    | none => simp [hat] at he
    | some found =>
        cases found with
        | directory =>
            simp only [hat, Except.ok.injEq] at he
            rw [← he] at hread
            cases hread
        | file held =>
            cases wantsDirectory with
            | true => simp [hat] at he
            | false =>
                simp only [hat, Bool.false_eq_true, if_false, Except.ok.injEq] at he
                rw [← he] at hread
                cases hread
                exact ⟨l, hlocate, hat⟩
  · rintro ⟨l, hlocate, hat⟩
    exact ⟨.file content, ⟨⟨l, false⟩, hlocate, by simp [hat]⟩, rfl⟩

/-- A file that could be read can still be read, unless it is where something changed. -/
theorem Keeps.read (h : Keeps touched d d') {content : ByteArray}
    (houtside : ∀ l wantsDirectory,
      d.locate workingDirectory path = .ok (l, wantsDirectory) → l ∉ touched)
    (hread : d.read workingDirectory path = .ok content) :
    d'.read workingDirectory path = .ok content := by
  obtain ⟨l, hlocate, hfile⟩ := read_eq_ok_iff.mp hread
  exact read_eq_ok_iff.mpr
    ⟨l, h.locate hlocate, h l _ hfile (Or.inr (houtside l false hlocate))⟩

/-- A file gets new content where its path leads. -/
theorem exists_of_alter {content : Option ByteArray → ByteArray}
    (h : d.alter workingDirectory path content = .ok d') :
    ∃ l old, d.locate workingDirectory path = .ok (l, false) ∧ d.at? l = Option.map .file old ∧
      d' = d.put l (.file (content old)) := by
  unfold alter at h
  obtain ⟨⟨l, wantsDirectory⟩, hlocate, h⟩ := bind_eq_ok_iff.mp h
  cases wantsDirectory with
  | true => cases h
  | false =>
      simp only [Bool.false_eq_true, if_false] at h
      cases hat : d.at? l with
      | none =>
          rw [hat] at h
          cases h
          exact ⟨l, none, hlocate, hat, rfl⟩
      | some e =>
          cases e with
          | directory =>
              rw [hat] at h
              cases h
          | file old =>
              rw [hat] at h
              cases h
              exact ⟨l, some old, hlocate, hat, rfl⟩

/-- Nothing is changed but the file that a path leads to. -/
theorem keeps_of_alter {content : Option ByteArray → ByteArray}
    (h : d.alter workingDirectory path content = .ok d') :
    ∃ l, d.locate workingDirectory path = .ok (l, false) ∧ Keeps {l} d d' := by
  obtain ⟨l, old, hlocate, hold, rfl⟩ := exists_of_alter h
  refine ⟨l, hlocate, keeps_put ?_ _⟩
  rw [hold]
  cases old <;> simp

/-- **What is written is there to be read.** -/
theorem read_of_write (h : d.write workingDirectory path text = .ok d') :
    d'.read workingDirectory path = .ok text.toUTF8 := by
  obtain ⟨m, hlocate, hkeeps⟩ := keeps_of_alter h
  obtain ⟨l, old, hsame, hold, rfl⟩ := exists_of_alter h
  refine read_eq_ok_iff.mpr ⟨l, hkeeps.locate hsame, at?_put_self d _ ?_⟩
  -- The root is a directory.
  rintro rfl
  rw [at?_root] at hold
  cases old <;> cases hold

/-! ## 4. Names in directories -/

/-- The places that bear one of some names. -/
def bearing (names : List String) : Set Location :=
  {l | ∃ name ∈ names, l.getLast? = some name}

theorem bearing_mono {names more : List String} (h : names ⊆ more) :
    bearing names ⊆ bearing more :=
  fun _ ⟨name, hname, hlast⟩ => ⟨name, h hname, hlast⟩

/-- Changing a file of some name in a directory touches only places of that name. -/
theorem keeps_of_alter_join {directory name : String} (hname : Step.IsEntryName name)
    {content : Option ByteArray → ByteArray}
    (h : d.alter workingDirectory (Path.join directory name) content = .ok d') :
    Keeps (bearing [name]) d d' := by
  obtain ⟨l, hlocate, hkeeps⟩ := keeps_of_alter h
  refine hkeeps.mono fun m hm => ?_
  rw [Set.mem_singleton_iff.mp hm]
  exact ⟨name, List.mem_singleton_self name, (getLast?_of_locate_join hname hlocate).1⟩

/-- A file in a directory can still be read when only places of other names were touched. -/
theorem Keeps.read_join {names : List String} (h : Keeps (bearing names) d d')
    {directory name : String} (hname : Step.IsEntryName name) (hother : name ∉ names)
    {content : ByteArray}
    (hread : d.read workingDirectory (Path.join directory name) = .ok content) :
    d'.read workingDirectory (Path.join directory name) = .ok content := by
  refine h.read (fun l _ hlocate hin => ?_) hread
  obtain ⟨other, hmem, hlast⟩ := hin
  rw [(getLast?_of_locate_join hname hlocate).1, Option.some.injEq] at hlast
  exact hother (hlast ▸ hmem)

/-! ## 5. Directories -/

theorem keeps_of_makeDirectory {start : Location} {steps : List Step}
    (h : d.makeDirectory start steps = .ok d') : Keeps ∅ d d' := by
  unfold makeDirectory at h
  obtain ⟨l, -, h⟩ := bind_eq_ok_iff.mp h
  cases hat : d.at? l with
  | some e =>
      rw [hat] at h
      cases h
  | none =>
      rw [hat] at h
      cases h
      exact keeps_put_new hat _

theorem keeps_ensureDirectory (d : Disk) (start : Location) (steps : List Step) :
    Keeps ∅ d (d.ensureDirectory start steps).1 := by
  unfold ensureDirectory
  cases hmake : d.makeDirectory start steps with
  | error fault => exact Keeps.refl _ _
  | ok made => exact keeps_of_makeDirectory hmake

/-- Making the directories above changes nothing else either, and it does not matter which of
them could be made. -/
theorem keeps_ensureDirectories (start : Location) (steps : List Step) (d : Disk) :
    Keeps ∅ d (ensureDirectories start steps d).1 := by
  induction steps generalizing d with
  | nil => exact Keeps.refl _ _
  | cons last above ih =>
      rw [ensureDirectories]
      split
      · split
        · rename_i heq
          have habove := ih d
          rwa [heq] at habove
        · rename_i heq
          have habove := ih d
          rw [heq] at habove
          exact habove.trans (keeps_ensureDirectory _ _ _)
      · exact keeps_ensureDirectory _ _ _

/-- **Creating directories replaces nothing.** -/
theorem keeps_createDirectories (d : Disk) (workingDirectory : Location) (path : String) :
    Keeps ∅ d (d.createDirectories workingDirectory path).1 := by
  unfold createDirectories
  cases writtenFault path with
  | some fault => exact Keeps.refl _ _
  | none =>
      cases Path.ofText path with
      | none => exact Keeps.refl _ _
      | some p => exact keeps_ensureDirectories _ _ _

end Disk

end LayerScript
