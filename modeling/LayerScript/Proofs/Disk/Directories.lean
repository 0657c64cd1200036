/-
`Proofs/Disk/Directories.lean` -- making a directory together with those above it.

Making a directory tries the whole path first and goes up only where something is missing, so what
it does for several names in one directory depends on that directory alone, up to the last step
(`reach_names`). Either the directory is there in the end, and what is left to do is to make the
name in it; or it cannot be made, and then no name can be made in it, now or later.

How that is reported may change once. A file in the way is found when the directory in its place
is made, and reported as something that exists already; the directories before it stay, so the
next time the whole path is followed up to the file, which is then reported as no directory.
-/
import LayerScript.Proofs.Disk.Changes
import Mathlib.Data.List.Induction

set_option autoImplicit false

namespace LayerScript

/-! ## 1. Where steps lead -/

/-- The location that steps lead to as they are written. Without links no others are needed. -/
def walk (start : Location) (steps : List Step) : Location :=
  steps.foldl (fun l step => step.apply l) start

theorem walk_append (start : Location) (front back : List Step) :
    walk start (front ++ back) = walk (walk start front) back :=
  List.foldl_append

theorem walk_snoc (start : Location) (steps : List Step) (step : Step) :
    walk start (steps ++ [step]) = step.apply (walk start steps) :=
  walk_append start steps [step]

namespace Disk

variable {d d' made : Disk} {start l : Location} {steps front back : List Step} {step : Step}
  {fault : DiskFault}

/-- Steps that can be followed lead where they are written to lead. -/
theorem eq_walk_of_follow (h : d.follow start steps = .ok l) : l = walk start steps := by
  induction steps generalizing start with
  | nil =>
      cases h
      rfl
  | cons step rest ih => exact ih (follow_cons_eq_ok_iff.mp h).2.2

/-- A directory is where steps lead, when they can be followed. -/
theorem isDirectory_iff :
    d.isDirectory start steps = true ↔
      d.follow start steps = .ok (walk start steps) ∧ d.kind? (walk start steps) = some true := by
  unfold isDirectory
  cases hl : d.follow start steps with
  | error fault => simp
  | ok l => rw [eq_walk_of_follow hl, decide_eq_true_eq, at?_eq_directory_iff]; simp

/-- Directories are never taken away. -/
theorem Keeps.isDirectory {touched : Set Location} (h : Keeps touched d d')
    (hthere : d.isDirectory start steps = true) : d'.isDirectory start steps = true := by
  obtain ⟨hfollow, hkind⟩ := isDirectory_iff.mp hthere
  refine isDirectory_iff.mpr ⟨h.follow hfollow, ?_⟩
  rw [← at?_eq_directory_iff] at hkind ⊢
  exact h _ _ hkind (Or.inl rfl)

/-- Steps that cannot be followed cannot be followed further. -/
theorem follow_append_of_error (h : d.follow start front = .error fault) (back : List Step) :
    d.follow start (front ++ back) = .error fault := by
  rw [follow_append, h]
  rfl

/-- Where steps can be followed further there is a directory. -/
theorem at?_walk_of_follow (hback : back ≠ []) (h : d.follow start (front ++ back) = .ok l) :
    d.at? (walk start front) = some .directory := by
  rw [follow_append] at h
  obtain ⟨m, hfront, h⟩ := bind_eq_ok_iff.mp h
  obtain ⟨step, rest, rfl⟩ := List.exists_cons_of_ne_nil hback
  rw [← eq_walk_of_follow hfront]
  exact (follow_cons_eq_ok_iff.mp h).1

/-! ## 2. One directory -/

/-- A directory that was made is there. -/
theorem isDirectory_of_ensureDirectory (h : d.ensureDirectory start steps = (made, .ok ())) :
    made.isDirectory start steps = true := by
  rw [ensureDirectory_eq] at h
  split at h
  · cases h
  · rename_i l hl
    have hwalk := eq_walk_of_follow hl
    split at h
    · rename_i hnone
      cases h
      have hkeeps := keeps_put_new (at?_eq_none_iff.mpr hnone) .directory
      have hroot : l ≠ [] := by
        rintro rfl
        rw [kind?, at?_root] at hnone
        cases hnone
      refine isDirectory_iff.mpr ⟨hwalk ▸ hkeeps.follow hl, ?_⟩
      rw [← hwalk, ← at?_eq_directory_iff, at?_put_self d _ hroot]
    · rename_i hdirectory
      cases h
      exact isDirectory_iff.mpr ⟨hwalk ▸ hl, hwalk ▸ hdirectory⟩
    · cases h

/-- A directory that could not be made left nothing behind. -/
theorem eq_of_ensureDirectory_error (h : d.ensureDirectory start steps = (made, .error fault)) :
    made = d := by
  rw [ensureDirectory_eq] at h
  split at h
  · cases h
    rfl
  · split at h <;> cases h
    rfl

/-- In a directory that is there nothing is missing. -/
theorem ne_missing_of_ensureDirectory (hthere : d.isDirectory start steps = true)
    (h : d.ensureDirectory start (steps ++ [step]) = (made, .error fault)) : fault ≠ .missing := by
  obtain ⟨hfollow, hkind⟩ := isDirectory_iff.mp hthere
  have hstep : d.follow start (steps ++ [step])
      = if step.isTooLong then .error .nameTooLong else .ok (step.apply (walk start steps)) := by
    rw [follow_append, hfollow]
    change d.follow (walk start steps) [step] = _
    rw [follow_cons_eq, hkind]
    rfl
  rw [ensureDirectory_eq, hstep] at h
  by_cases hlong : step.isTooLong = true
  · rw [if_pos hlong] at h
    cases h
    decide
  · rw [if_neg hlong] at h
    dsimp only at h
    split at h
    · cases h
    · cases h
    · cases h
      decide

/-! ## 3. Several directories -/

/-- The disk after a directory was made with those above it, given its steps in order. -/
def reach (d : Disk) (start : Location) (steps : List Step) : Disk × Except DiskFault Unit :=
  ensureDirectories start steps.reverse d

@[simp] theorem reach_nil (d : Disk) (start : Location) : d.reach start [] = (d, .ok ()) := rfl

/-- The whole path is tried first, and where something is missing what is above is made before. -/
theorem reach_snoc (d : Disk) (start : Location) (steps : List Step) (step : Step) :
    d.reach start (steps ++ [step]) = match d.ensureDirectory start (steps ++ [step]) with
      | (_, .error .missing) =>
        match d.reach start steps with
        | (d, .error fault) => (d, .error fault)
        | (d, .ok ()) => d.ensureDirectory start (steps ++ [step])
      | result => result := by
  have hback : (steps ++ [step]).reverse = step :: steps.reverse := by
    rw [List.reverse_append, List.reverse_singleton, List.singleton_append]
  have hforth : steps ++ [step] = (step :: steps.reverse).reverse := by
    rw [← hback, List.reverse_reverse]
  unfold reach
  rw [hback, hforth]
  rfl

/-- What fails at once for another reason than that something is missing fails for that. -/
theorem reach_snoc_of_error
    (h : d.ensureDirectory start (steps ++ [step]) = (made, .error fault))
    (hfault : fault ≠ .missing) : d.reach start (steps ++ [step]) = (d, .error fault) := by
  rw [reach_snoc, h, eq_of_ensureDirectory_error h]
  cases fault with
  | missing => exact absurd rfl hfault
  | _ => rfl

/-- Where something is missing everything depends on what is above. -/
theorem reach_snoc_of_missing
    (h : d.ensureDirectory start (steps ++ [step]) = (made, .error .missing)) :
    d.reach start (steps ++ [step])
      = andThen id (d.reach start steps) fun d => d.ensureDirectory start (steps ++ [step]) := by
  rw [reach_snoc, h, andThen]
  rcases d.reach start steps with ⟨above, fault | _⟩ <;> rfl

/-- What does not fail because something is missing is all there is to do. -/
theorem reach_snoc_of_ne_missing
    (h : (d.ensureDirectory start (steps ++ [step])).2 ≠ .error .missing) :
    d.reach start (steps ++ [step]) = d.ensureDirectory start (steps ++ [step]) := by
  rcases hfirst : d.ensureDirectory start (steps ++ [step]) with ⟨made, fault | _⟩
  · have hmade := eq_of_ensureDirectory_error hfirst
    subst hmade
    refine reach_snoc_of_error hfirst ?_
    rintro rfl
    exact h (by rw [hfirst])
  · rw [reach_snoc, hfirst]

/-- A directory that is there has been reached. -/
theorem reach_of_isDirectory (h : d.isDirectory start steps = true) :
    d.reach start steps = (d, .ok ()) := by
  obtain ⟨hfollow, hkind⟩ := isDirectory_iff.mp h
  induction steps using List.reverseRecOn with
  | nil => rfl
  | append_singleton steps step _ =>
      have hensure : d.ensureDirectory start (steps ++ [step]) = (d, .ok ()) := by
        rw [ensureDirectory_eq, hfollow]
        dsimp only
        rw [hkind]
      rw [reach_snoc, hensure]

/-- In a directory that is there only the name is left to be made. -/
theorem reach_snoc_of_isDirectory (h : d.isDirectory start steps = true) (step : Step) :
    d.reach start (steps ++ [step]) = d.ensureDirectory start (steps ++ [step]) := by
  refine reach_snoc_of_ne_missing fun hmissing => ?_
  exact ne_missing_of_ensureDirectory h (Prod.ext rfl hmissing) rfl

/-- Whether a directory cannot be made where it would be next. -/
structure Blocks (d : Disk) (start : Location) (steps : List Step) (fault : DiskFault) : Prop where
  refused : d.ensureDirectory start steps = (d, .error fault)
  ne_missing : fault ≠ .missing

/-- **A directory is reached or something on the way to it blocks**, if there is anything to
start from. -/
theorem reach_cases (hstart : d.kind? start = some true) (steps : List Step) :
    ∃ made, (d.reach start steps = (made, .ok ()) ∧ made.isDirectory start steps = true) ∨
      ∃ fault front back, d.reach start steps = (made, .error fault) ∧ steps = front ++ back ∧
        made.Blocks start front fault := by
  induction steps using List.reverseRecOn with
  | nil => exact ⟨d, Or.inl ⟨rfl, isDirectory_iff.mpr ⟨rfl, hstart⟩⟩⟩
  | append_singleton steps step ih =>
      rcases hfirst : d.ensureDirectory start (steps ++ [step]) with ⟨made, fault | _⟩
      · by_cases hfault : fault = .missing
        · subst hfault
          rw [reach_snoc_of_missing hfirst]
          -- Once what is above is there, nothing can be missing, so what fails now blocks.
          obtain ⟨above, ⟨hreach, hthere⟩ | ⟨fault, front, back, hreach, rfl, hblocks⟩⟩ := ih
          · rw [hreach]
            rcases hlast : above.ensureDirectory start (steps ++ [step]) with ⟨made, fault | _⟩
            · have hmade := eq_of_ensureDirectory_error hlast
              subst hmade
              exact ⟨made, Or.inr ⟨fault, _, [], hlast, (List.append_nil _).symm, hlast,
                ne_missing_of_ensureDirectory hthere hlast⟩⟩
            · exact ⟨made, Or.inl ⟨hlast, isDirectory_of_ensureDirectory hlast⟩⟩
          · rw [hreach]
            -- What blocked above is on the way to the last step as well.
            exact ⟨above, Or.inr ⟨fault, front, back ++ [step], rfl, List.append_assoc _ _ _,
              hblocks⟩⟩
        · have hmade := eq_of_ensureDirectory_error hfirst
          subst hmade
          exact ⟨made, Or.inr ⟨fault, _, [], reach_snoc_of_error hfirst hfault,
            (List.append_nil _).symm, hfirst, hfault⟩⟩
      · refine ⟨made, Or.inl ⟨?_, isDirectory_of_ensureDirectory hfirst⟩⟩
        rw [reach_snoc, hfirst]

/-- What cannot be followed for another reason than that something is missing cannot be reached,
and is left alone. -/
theorem reach_snoc_of_follow_error (h : d.follow start (steps ++ [step]) = .error fault)
    (hfault : fault ≠ .missing) : d.reach start (steps ++ [step]) = (d, .error fault) := by
  have hrefused : d.ensureDirectory start (steps ++ [step]) = (d, .error fault) := by
    rw [ensureDirectory_eq, h]
  exact reach_snoc_of_error hrefused hfault

/-- What cannot be followed because something is missing depends on what is above. -/
theorem reach_snoc_of_follow_missing (h : d.follow start (steps ++ [step]) = .error .missing) :
    d.reach start (steps ++ [step])
      = andThen id (d.reach start steps) fun d => d.ensureDirectory start (steps ++ [step]) := by
  have hmissing : d.ensureDirectory start (steps ++ [step]) = (d, .error .missing) := by
    rw [ensureDirectory_eq, h]
  exact reach_snoc_of_missing hmissing

/-- Where nothing is, and everything above is there, a directory is made. -/
theorem reach_of_follow_ok (hstart : d.kind? start = some true)
    (hfollow : d.follow start steps = .ok l) (hnone : d.kind? l = none) :
    d.reach start steps = (d.put l .directory, .ok ()) := by
  induction steps using List.reverseRecOn with
  | nil =>
      cases hfollow
      rw [hstart] at hnone
      cases hnone
  | append_singleton steps step _ =>
      rw [reach_snoc, ensureDirectory_eq, hfollow]
      dsimp only
      rw [hnone]

/-- Without a directory to start from nothing can be reached. -/
theorem exists_of_start (hstart : d.kind? start ≠ some true) :
    ∃ fault, ∀ steps ≠ [], d.reach start steps = (d, .error fault) := by
  -- The first step fails at the start, so the fault is the same for all steps.
  have hfollow : ∃ fault, ∀ steps ≠ [], d.follow start steps = .error fault := by
    rcases hkind : d.kind? start with _ | (_ | _)
    · refine ⟨.missing, fun steps hsteps => ?_⟩
      obtain ⟨step, rest, rfl⟩ := List.exists_cons_of_ne_nil hsteps
      rw [follow_cons_eq, hkind]
    · refine ⟨.notADirectory, fun steps hsteps => ?_⟩
      obtain ⟨step, rest, rfl⟩ := List.exists_cons_of_ne_nil hsteps
      rw [follow_cons_eq, hkind]
    · exact absurd hkind hstart
  obtain ⟨fault, hfollow⟩ := hfollow
  refine ⟨fault, fun steps hsteps => ?_⟩
  by_cases hfault : fault = .missing
  · subst hfault
    induction steps using List.reverseRecOn with
    | nil => exact absurd rfl hsteps
    | append_singleton steps step ih =>
        rw [reach_snoc_of_follow_missing (hfollow _ hsteps)]
        by_cases habove : steps = []
        · rw [habove, reach_nil]
          change d.ensureDirectory start ([] ++ [step]) = _
          rw [ensureDirectory_eq, hfollow _ (by simp)]
        · rw [ih habove]
          rfl
  · obtain ⟨above, step, rfl⟩ := (List.eq_nil_or_concat' steps).resolve_left hsteps
    exact reach_snoc_of_follow_error (hfollow _ hsteps) hfault

/-- Making a directory with those above it looks at the locations on the way. -/
theorem uniform_reach {T : Disk → Disk → Prop} {allowed : Set (Location × Entry)} (hT : Stable T)
    (steps : List Step)
    (halike : ∀ front back, steps = front ++ back → AlikeAlong T start front)
    (hallowed : ∀ front back, steps = front ++ back → (walk start front, .directory) ∈ allowed) :
    Uniform T allowed fun d => d.reach start steps := by
  induction steps using List.reverseRecOn with
  | nil => exact Uniform.const T allowed (Except.ok ())
  | append_singleton steps step ih =>
      have hlast : Uniform T allowed fun d => d.ensureDirectory start (steps ++ [step]) := by
        refine uniform_ensureDirectory hT (halike _ [] (List.append_nil _).symm) fun hfollow => ?_
        rw [eq_walk_of_follow hfollow]
        exact hallowed _ [] (List.append_nil _).symm
      have hmore : ∀ {front back}, steps = front ++ back →
          steps ++ [step] = front ++ (back ++ [step]) := fun h => by rw [h, List.append_assoc]
      have habove := ih (fun front back h => halike front _ (hmore h))
        fun front back h => hallowed front _ (hmore h)
      intro d d' hrel
      dsimp only
      obtain ⟨changes, hchanges, hd, hd', hsame, hafter⟩ := hlast d d' hrel
      by_cases hmissing : (d.ensureDirectory start (steps ++ [step])).2 = .error .missing
      · rw [reach_snoc_of_missing (Prod.ext rfl hmissing),
          reach_snoc_of_missing (Prod.ext rfl (hsame ▸ hmissing))]
        exact habove.andThen id hlast d d' hrel
      · rw [reach_snoc_of_ne_missing hmissing, reach_snoc_of_ne_missing (hsame ▸ hmissing)]
        exact ⟨changes, hchanges, hd, hd', hsame, hafter⟩

/-! ## 4. Names in a directory -/

/-- **What blocks the way keeps blocking it**, though a file may be found to be one in another
way. -/
theorem Blocks.reach (h : d.Blocks start front fault) (back : List Step) :
    ∃ again, (fault = again ∨ fault = .alreadyExists ∧ again = .notADirectory) ∧
      ∀ step, d.reach start (front ++ back ++ [step]) = (d, .error again) := by
  have hrefused := h.refused
  rw [ensureDirectory_eq] at hrefused
  cases hfollow : d.follow start front with
  | error fault' =>
      rw [hfollow] at hrefused
      cases hrefused
      refine ⟨fault, Or.inl rfl, fun step => ?_⟩
      refine reach_snoc_of_follow_error ?_ h.ne_missing
      rw [List.append_assoc]
      exact follow_append_of_error hfollow _
  | ok l =>
      rw [hfollow] at hrefused
      dsimp only at hrefused
      rcases hkind : d.kind? l with _ | (_ | _)
      · rw [hkind] at hrefused
        cases (Prod.mk.inj hrefused).2
      · -- A file: the next time it is on the way, and not at its end.
        rw [hkind] at hrefused
        cases hrefused
        refine ⟨.notADirectory, Or.inr ⟨rfl, rfl⟩, fun step => ?_⟩
        refine reach_snoc_of_follow_error ?_ (by decide)
        rw [List.append_assoc, follow_append, hfollow]
        change d.follow l (back ++ [step]) = _
        obtain ⟨first, rest, hfirst⟩ := List.exists_cons_of_ne_nil
          (show back ++ [step] ≠ [] by simp)
        rw [hfirst, follow_cons_eq, hkind]
      · rw [hkind] at hrefused
        cases hrefused

/-- **What was done to reach a directory is not done twice**: whether it is there then or something
blocks the way, to try again changes nothing. -/
theorem reach_again (d : Disk) (start : Location) (steps : List Step) :
    ((d.reach start steps).1.reach start steps).1 = (d.reach start steps).1 := by
  by_cases hstart : d.kind? start = some true
  · obtain ⟨made, ⟨hreach, hthere⟩ | ⟨fault, front, back, hreach, rfl, hblocks⟩⟩ :=
      reach_cases hstart steps
    · rw [hreach, reach_of_isDirectory hthere]
    · rw [hreach]
      rcases List.eq_nil_or_concat' back with rfl | ⟨above, step, rfl⟩
      · rw [List.append_nil]
        -- What blocks is the last step itself, if there is one.
        rcases List.eq_nil_or_concat' front with rfl | ⟨above, step, rfl⟩
        · rfl
        · rw [reach_snoc_of_error hblocks.refused hblocks.ne_missing]
      · obtain ⟨again, -, hstep⟩ := hblocks.reach above
        rw [← List.append_assoc, hstep]
  · obtain ⟨fault, hfault⟩ := exists_of_start hstart
    by_cases hsteps : steps = []
    · rw [hsteps]
      rfl
    · rw [hfault steps hsteps, hfault steps hsteps]

/-- What becomes of names in a directory when that can be made, or is there: each is made in it. -/
structure Opens (d : Disk) (start : Location) (steps : List Step) (made : Disk) : Prop where
  reached : d.reach start steps = (made, .ok ())
  isDirectory : made.isDirectory start steps = true
  reach : ∀ name, d.reach start (steps ++ [.into name])
    = made.ensureDirectory start (steps ++ [.into name])

/-- What becomes of them when it cannot be made: none can be made in it, first or later. -/
structure Refuses (d : Disk) (start : Location) (steps : List Step) (made : Disk)
    (first again : DiskFault) : Prop where
  reach : ∀ name, d.reach start (steps ++ [.into name]) = (made, .error first)
  reach_again : ∀ name, made.reach start (steps ++ [.into name]) = (made, .error again)
  /-- The fault is the same, except for a file that is in the way of directories that are
  missing. -/
  faults : first = again ∨
    first = .alreadyExists ∧ again = .notADirectory ∧ d.follow start steps = .error .missing ∧
      (d.reach start steps).2 = .error .alreadyExists

/-- A disk that is left alone refuses for the same reason again. -/
theorem Refuses.of_unchanged
    (h : ∀ name, d.reach start (steps ++ [.into name]) = (d, .error fault)) :
    d.Refuses start steps d fault fault :=
  ⟨h, h, Or.inl rfl⟩

/-- **A directory opens to all names or refuses them all.** -/
theorem reach_names (d : Disk) (start : Location) (steps : List Step) :
    (∃ made, d.Opens start steps made) ∨ ∃ made first again, d.Refuses start steps made first again := by
  by_cases hstart : d.kind? start = some true
  · cases hfollow : d.follow start steps with
    | error fault =>
        by_cases hfault : fault = .missing
        · subst hfault
          -- Something is missing on the way, so the name waits for the directory.
          have hmissing := fun name =>
            reach_snoc_of_follow_missing (follow_append_of_error hfollow [.into name])
          obtain ⟨made, ⟨hreach, hthere⟩ | ⟨fault, front, back, hreach, rfl, hblocks⟩⟩ :=
            reach_cases hstart steps
          · refine Or.inl ⟨made, hreach, hthere, fun name => ?_⟩
            rw [hmissing name, hreach]
            rfl
          · obtain ⟨again, hagain, hstep⟩ := hblocks.reach back
            refine Or.inr ⟨made, fault, again, fun name => ?_, fun name => hstep _, ?_⟩
            · rw [hmissing name, hreach]
              rfl
            · rcases hagain with hsame | ⟨rfl, hagain⟩
              · exact Or.inl hsame
              · exact Or.inr ⟨rfl, hagain, hfollow, by rw [hreach]⟩
        · exact Or.inr ⟨d, fault, fault, Refuses.of_unchanged fun name =>
            reach_snoc_of_follow_error (follow_append_of_error hfollow _) hfault⟩
    | ok l =>
        have hlast : ∀ name, d.follow start (steps ++ [.into name]) = d.follow l [.into name] := by
          intro name
          rw [follow_append, hfollow]
          rfl
        -- The way is there: only the directory itself is in question.
        rcases hkind : d.kind? l with _ | (_ | _)
        · have hreach := reach_of_follow_ok hstart hfollow hkind
          obtain ⟨made, ⟨hmade, hthere⟩ | ⟨fault, front, back, hmade, -⟩⟩ := reach_cases hstart steps
          · refine Or.inl ⟨made, hmade, hthere, fun name => ?_⟩
            rw [reach_snoc_of_follow_missing (by rw [hlast, follow_cons_eq, hkind]), hmade]
            rfl
          · rw [hreach] at hmade
            cases hmade
        · exact Or.inr ⟨d, _, _, Refuses.of_unchanged fun name => reach_snoc_of_follow_error
            (by rw [hlast, follow_cons_eq, hkind]) (by decide)⟩
        · have hthere : d.isDirectory start steps = true := by
            have hwalk := eq_walk_of_follow hfollow
            subst hwalk
            exact isDirectory_iff.mpr ⟨hfollow, hkind⟩
          exact Or.inl ⟨d, reach_of_isDirectory hthere, hthere, fun name =>
            reach_snoc_of_isDirectory hthere _⟩
  · obtain ⟨fault, hfault⟩ := exists_of_start hstart
    exact Or.inr ⟨d, fault, fault, Refuses.of_unchanged fun name => hfault _ (by simp)⟩

end Disk

end LayerScript
