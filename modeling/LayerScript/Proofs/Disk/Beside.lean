/-
`Proofs/Disk/Beside.lean` -- disks that differ at one place.

A path that leads neither to a place nor through it cannot tell what stands there: it is followed
from one location to the next, and none of them is the place or below it, since to get below a
place a path has to pass it (`not_prefix_walk`). So whatever is looked up along such paths is the
same on two disks that agree beside the place (`AgreeBeside`), and what is written along them is
the same and keeps the disks in agreement (`stable_obstructed`).

One of the two disks is supposed to have a directory at the place. A file can neither be read nor
written there then, and nothing that is done takes the directory away.
-/
import LayerScript.Proofs.Disk.Location
import Mathlib.Data.List.Infix

set_option autoImplicit false

namespace LayerScript

open LayerScript.Path

/-! ## 1. Paths that stay away from a place -/

section

variable {place start l workingDirectory : Location} {steps : List Step}
  {path directory name : String}

/-- A step that does not lead to a place does not lead below it. -/
theorem not_prefix_apply {step : Step} (h : ¬ place <+: l) (hne : step.apply l ≠ place) :
    ¬ place <+: step.apply l := by
  intro hbelow
  cases step with
  | up =>
      -- Going up from below a place means that the place was above before.
      exact h (hbelow.trans (List.dropLast_prefix l))
  | into name =>
      rcases List.prefix_concat_iff.mp hbelow with heq | hbelow
      · exact hne heq.symm
      · exact h hbelow

/-- Steps that do not pass a place do not lead below it. -/
theorem not_prefix_walk (hstart : ¬ place <+: start)
    (h : ∀ front back, steps = front ++ back → walk start front ≠ place) :
    ¬ place <+: walk start steps := by
  induction steps using List.reverseRecOn with
  | nil => exact hstart
  | append_singleton steps step ih =>
      rw [walk_snoc]
      refine not_prefix_apply (ih fun front back hsteps => ?_) ?_
      · exact h front (back ++ [step]) (by rw [hsteps, List.append_assoc])
      · rw [← walk_snoc]
        exact h _ [] (List.append_nil _).symm

instance : Decidable (LeadsThrough workingDirectory path l) :=
  decidable_of_iff
    (∃ front ∈ (stepsOf path.toList).inits, l = walk (startOf workingDirectory path) front) (by
      simp only [List.mem_inits, LeadsThrough]
      constructor
      · rintro ⟨front, ⟨back, hsteps⟩, hl⟩
        exact ⟨front, back, hsteps.symm, hl⟩
      · rintro ⟨front, back, hsteps, hl⟩
        exact ⟨front, ⟨back, hsteps.symm⟩, hl⟩)

/-- Whether a path leads neither to a place nor below it on the way. -/
def Path.Avoids (workingDirectory : Location) (path : String) (place : Location) : Prop :=
  ∀ l, LeadsThrough workingDirectory path l → ¬ place <+: l

/-- A path that starts elsewhere has to lead through a place to get below it. -/
theorem Path.avoids_iff (hstart : ¬ place <+: workingDirectory) :
    Avoids workingDirectory path place ↔ ¬ LeadsThrough workingDirectory path place := by
  constructor
  · exact fun h hthrough => h place hthrough (List.prefix_refl place)
  · rintro hthrough l ⟨front, back, hsteps, rfl⟩
    have hroot : ¬ place <+: startOf workingDirectory path := by
      unfold startOf
      split
      · -- Only the root stands above the root, and it stands above everything.
        intro hroot
        rw [List.prefix_nil.mp hroot] at hstart
        exact hstart List.nil_prefix
      · exact hstart
    refine not_prefix_walk hroot fun first rest hfront heq => hthrough ⟨first, rest ++ back, ?_, ?_⟩
    · rw [hsteps, hfront, List.append_assoc]
    · exact heq.symm

theorem Path.Avoids.locationOf (h : Avoids workingDirectory path place) :
    ¬ place <+: locationOf workingDirectory path :=
  h _ ⟨_, [], (List.append_nil _).symm, rfl⟩

theorem Path.Avoids.of_join (hname : Step.IsEntryName name)
    (h : Avoids workingDirectory (join directory name) place) :
    Avoids workingDirectory directory place := by
  rintro l ⟨front, back, hsteps, rfl⟩
  refine h _ ⟨front, back ++ [.into name], ?_, ?_⟩
  · rw [stepsOf_join directory hname, hsteps, List.append_assoc]
  · rw [startOf_join _ _ hname]

/-- A name in a directory that avoids a place avoids it if the place has another name. -/
theorem Path.Avoids.join (h : Avoids workingDirectory directory place)
    (hname : Step.IsEntryName name) (hother : place.getLast? ≠ some name) :
    Avoids workingDirectory (join directory name) place := by
  rintro l ⟨front, back, hsteps, rfl⟩
  rw [stepsOf_join directory hname] at hsteps
  rw [startOf_join _ _ hname]
  rcases List.eq_nil_or_concat' back with rfl | ⟨rest, last, rfl⟩
  · -- The whole path: only its last step is new, and that one has another name.
    rw [List.append_nil] at hsteps
    rw [← hsteps, walk_snoc]
    refine not_prefix_apply h.locationOf fun heq => hother ?_
    rw [← heq]
    exact List.getLast?_concat
  · -- A part of it is a part of the path to the directory.
    rw [← List.append_assoc] at hsteps
    exact h _ ⟨front, rest, List.append_inj_left' hsteps rfl, rfl⟩

/-- From the directory of a path on, a name in it is a path of its own. -/
theorem Path.Avoids.relative (h : Avoids workingDirectory (Path.join directory name) place)
    (hname : Step.IsEntryName name) :
    Avoids (Path.locationOf workingDirectory directory) name place := by
  -- A name is what is joined to no directory.
  have hempty : Path.join "" name = name := rfl
  have hstart := startOf_join (Path.locationOf workingDirectory directory) "" hname
  have hname' := stepsOf_join "" hname
  rw [hempty] at hstart hname'
  rintro l ⟨front, back, hsteps, rfl⟩
  refine h _ ⟨stepsOf directory.toList ++ front, back, ?_, ?_⟩
  · rw [List.append_assoc, ← hsteps, stepsOf_join directory hname, hname']
    rfl
  · rw [walk_append, startOf_join _ _ hname, hstart]
    rfl

end

/-! ## 2. Disks that agree beside a place -/

namespace Disk

variable {place l start workingDirectory : Location} {d d' : Disk} {path : String}
  {steps : List Step}

/-- Whether two disks agree everywhere but at a place and below it. -/
def AgreeBeside (place : Location) (d d' : Disk) : Prop :=
  ∀ l, ¬ place <+: l → d.at? l = d'.at? l

/-- Whether two disks agree beside a place, and the second has a directory there. -/
structure Obstructed (place : Location) (d d' : Disk) : Prop where
  beside : AgreeBeside place d d'
  directory : d'.at? place = some .directory

theorem AgreeBeside.kind (h : AgreeBeside place d d') (hl : ¬ place <+: l) :
    d.kind? l = d'.kind? l := by
  rw [kind?, kind?, h l hl]

/-- What is put on both keeps them in agreement, and a directory is only replaced by one. -/
theorem stable_obstructed (place : Location) : Stable (Obstructed place) := by
  intro d d' l e h _ hkind
  refine ⟨fun m hm => ?_, ?_⟩
  · rw [at?_put, at?_put, h.beside m hm]
  · rw [at?_put]
    split
    · -- What is put keeps the kind of what was there, and there was a directory.
      rename_i heq
      have hdirectory := hkind true (by rw [← heq.1, ← at?_eq_directory_iff, h.directory])
      cases e with
      | directory => rfl
      | file content => cases hdirectory
    · exact h.directory

/-- They look alike along steps that lead nowhere below the place. -/
theorem alikeAlong_obstructed
    (h : ∀ front back, steps = front ++ back → ¬ place <+: walk start front) :
    AlikeAlong (Obstructed place) start steps := by
  induction steps using List.reverseRecOn with
  | nil =>
      refine ⟨fun _ => rfl, fun hrel hfollow => ?_⟩
      cases hfollow
      exact hrel.beside.kind (h [] [] rfl)
  | append_singleton steps step ih =>
      have hfront := ih fun front back hsteps => h front (back ++ [step])
        (by rw [hsteps, List.append_assoc])
      refine hfront.snoc fun hrel hfollow => hrel.beside.kind ?_
      rw [eq_walk_of_follow hfollow, ← walk_snoc]
      exact h _ [] (List.append_nil _).symm

theorem alikeAlong_of_avoids (h : Avoids workingDirectory path place) {front back : List Step}
    (hsteps : stepsOf path.toList = front ++ back) :
    AlikeAlong (Obstructed place) (startOf workingDirectory path) front :=
  alikeAlong_obstructed fun first rest hfront => h _
    ⟨first, rest ++ back, by rw [hsteps, hfront, List.append_assoc], rfl⟩

theorem alikeOn_of_avoids (h : Avoids workingDirectory path place) :
    AlikeOn (Obstructed place) workingDirectory path :=
  alikeOn (alikeAlong_of_avoids h (List.append_nil _).symm)

/-! ## 3. Looking -/

/-- **What a path leads to is the same on both, if it avoids the place.** -/
theorem entry_eq_of_avoids (h : Obstructed place d d')
    (havoids : Avoids workingDirectory path place) :
    d.entry workingDirectory path = d'.entry workingDirectory path := by
  unfold entry
  rw [← (alikeOn_of_avoids havoids).locate h]
  rcases hlocate : d.locate workingDirectory path with fault | ⟨l, wantsDirectory⟩
  · rfl
  · have hl := eq_locationOf_of_locate hlocate
    have hat := h.beside _ (hl ▸ havoids.locationOf)
    simp only [bind, Except.bind, hat]

theorem readText_eq_of_avoids (h : Obstructed place d d')
    (havoids : Avoids workingDirectory path place) :
    d.readText workingDirectory path = d'.readText workingDirectory path := by
  unfold readText read
  rw [entry_eq_of_avoids h havoids]

theorem contains_eq_of_avoids (h : Obstructed place d d')
    (havoids : Avoids workingDirectory path place) :
    d.contains workingDirectory path = d'.contains workingDirectory path := by
  unfold contains
  rw [entry_eq_of_avoids h havoids]

theorem enter_eq_of_avoids (h : Obstructed place d d')
    (havoids : Avoids workingDirectory path place) :
    d.enter workingDirectory path = d'.enter workingDirectory path := by
  unfold enter
  rw [← (alikeOn_of_avoids havoids).locate h]
  rcases hlocate : d.locate workingDirectory path with fault | ⟨l, wantsDirectory⟩
  · rfl
  · have hl := eq_locationOf_of_locate hlocate
    have hat := h.beside _ (hl ▸ havoids.locationOf)
    simp only [bind, Except.bind, hat]

/-! ## 4. Changing -/

/-- **Creating directories does the same on both.** -/
theorem createDirectories_of_avoids (h : Obstructed place d d')
    (havoids : Avoids workingDirectory path place) :
    (d.createDirectories workingDirectory path).2 = (d'.createDirectories workingDirectory path).2 ∧
      Obstructed place (d.createDirectories workingDirectory path).1
        (d'.createDirectories workingDirectory path).1 := by
  have huniform : Uniform (Obstructed place) Set.univ
      fun d => d.createDirectories workingDirectory path :=
    uniform_createDirectories (stable_obstructed place)
      (fun _ _ hsteps => alikeAlong_of_avoids havoids hsteps) fun _ _ => Set.mem_univ _
  obtain ⟨-, -, -, -, hresult, hafter⟩ := huniform d d' h
  exact ⟨hresult, hafter⟩

/-- What is put at the place on the first disk is nothing the second has to agree with. -/
theorem Obstructed.put (h : Obstructed place d d') (e : Entry) :
    Obstructed place (d.put place e) d' where
  beside l hl := by
    have hne : l ≠ place := by
      rintro rfl
      exact hl (List.prefix_refl _)
    rw [at?_put_of_ne d e hne, h.beside l hl]
  directory := h.directory

/-- Where there is a directory no file is changed. -/
theorem ne_ok_of_alter {content : Option ByteArray → ByteArray}
    (h : d.at? (locationOf workingDirectory path) = some .directory) (made : Disk) :
    d.alter workingDirectory path content ≠ .ok made := by
  intro halter
  obtain ⟨l, old, hlocate, hold, -⟩ := exists_of_alter halter
  rw [eq_locationOf_of_locate hlocate, h] at hold
  cases old <;> cases hold

end Disk

end LayerScript
