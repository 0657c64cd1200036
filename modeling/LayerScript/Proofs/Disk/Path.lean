/-
`Proofs/Disk/Path.lean` -- the path of a name in a directory.

Everything a request writes is written under a fixed name in some directory, and the
directory comes from outside: its text may be empty, begin at the root, go up, or end in a
slash or in several. Joining puts a slash in between unless there is one or there is no
directory, so that in all cases the steps of the directory come first, and the last step
leads into the name (`Path.ofText_join`).
-/
import LayerScript.Disk.Path
import LayerScript.Proofs.Text

set_option autoImplicit false

namespace LayerScript

/-- Whether a text is the name of something in a directory: one step of a path, down. -/
structure Step.IsEntryName (name : String) : Prop where
  no_slash : '/' ∉ name.toList
  into : Step.ofSegment name.toList = some (.into name)

namespace Path

/-- The steps that a text stands for. -/
def stepsOf (text : List Char) : List Step :=
  (Text.split '/' text).filterMap Step.ofSegment

/-- Joined to a directory, a name is the last of the segments. -/
theorem exists_split_join (directory : String) {name : String} (h : Step.IsEntryName name) :
    ∃ front, Text.split '/' (join directory name).toList = front ++ [name.toList] ∧
      front.filterMap Step.ofSegment = stepsOf directory.toList := by
  unfold join
  have hname := Text.split_of_not_mem h.no_slash
  cases hlast : directory.toList.getLast? with
  | none =>
      refine ⟨[], hname, ?_⟩
      rw [List.getLast?_eq_none_iff.mp hlast]
      rfl
  | some c =>
      by_cases hc : c = '/'
      · -- The slash at the end of the directory is the one in between.
        subst hc
        obtain ⟨init, hinit⟩ := List.getLast?_eq_some_iff.mp hlast
        refine ⟨Text.split '/' init, ?_, ?_⟩
        · simp only [if_true, String.toList_append, hinit]
          rw [List.append_assoc, List.singleton_append, Text.split_append_cons, hname]
        · rw [stepsOf, hinit, Text.split_append_cons, List.filterMap_append]
          exact (List.append_nil _).symm
      · refine ⟨Text.split '/' directory.toList, ?_, rfl⟩
        simp only [if_neg hc, String.toList_append]
        rw [List.append_assoc]
        exact (Text.split_append_cons '/' directory.toList name.toList).trans (by rw [hname])

/-- Joined to a directory, a name begins as the directory does. -/
theorem head?_join (directory : String) {name : String} (h : Step.IsEntryName name) :
    ((join directory name).toList.head? == some '/') = (directory.toList.head? == some '/') := by
  unfold join
  cases hdirectory : directory.toList with
  | nil =>
      -- The name itself does not begin with a slash.
      change (name.toList.head? == some '/') = false
      rw [beq_eq_false_iff_ne]
      intro hhead
      exact h.no_slash (List.mem_of_mem_head? hhead)
  | cons c rest =>
      cases hlast : (c :: rest).getLast? with
      | none => simp at hlast
      | some last =>
          dsimp only
          split <;> simp [hdirectory]

/-- **A name in a directory is the last step of its path**, which asks for no directory there. -/
theorem ofText_join (directory : String) {name : String} (h : Step.IsEntryName name) :
    ofText (join directory name) = some {
      fromRoot := directory.toList.head? == some '/'
      steps := stepsOf directory.toList ++ [.into name]
      wantsDirectory := false } := by
  obtain ⟨front, hsplit, hsteps⟩ := exists_split_join directory h
  have hhead := head?_join directory h
  have hne : name.toList ≠ [] := by
    intro hempty
    have hinto := h.into
    rw [hempty] at hinto
    cases hinto
  have hpoint : name.toList ≠ ['.'] := by
    intro hpoint
    have hinto := h.into
    rw [hpoint] at hinto
    cases hinto
  unfold ofText
  cases htext : (join directory name).toList with
  | nil =>
      rw [htext] at hsplit
      have hlast : some [] = (front ++ [name.toList]).getLast? := congrArg List.getLast? hsplit
      rw [List.getLast?_concat, Option.some.injEq] at hlast
      exact absurd hlast.symm hne
  | cons c rest =>
      rw [htext] at hsplit hhead
      dsimp only
      rw [hsplit, List.filterMap_append, hsteps]
      simp [h.into, hne, hpoint, ← hhead]

end Path

end LayerScript
