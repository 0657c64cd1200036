/-
`Proofs/Users.lean` -- the user of a project names one thing in a directory.

A user is named in the request, and then the name is judged, or goes by the digest of the payload,
and then nobody looks at the name again. Either way the directory of the request is called by it,
so it has to be one step of a path that leads down: not empty, no point, no two points, and without
a slash. That is what `isUser` comes to, and digits of a digest pass it too.
-/
import LayerScript.Project
import LayerScript.Proofs.Disk.Path
import LayerScript.Proofs.Steps

set_option autoImplicit false

namespace LayerScript

/-! ## 1. Names of users -/

/-- What a user may be called: a text that is not empty and none of the two names that every
directory has, of letters, digits and three marks. -/
theorem isUser_iff {name : String} :
    isUser name = true ↔
      name ≠ "" ∧ name ≠ "." ∧ name ≠ ".." ∧ ∀ c ∈ name.toList, isUserChar c = true := by
  simp [isUser, and_assoc]

/-- **A user names one thing in a directory.** -/
theorem isEntryName_of_isUser {name : String} (h : isUser name = true) : Step.IsEntryName name := by
  obtain ⟨hempty, hpoint, hpoints, hchars⟩ := isUser_iff.mp h
  constructor
  · intro hslash
    exact absurd (hchars _ hslash) (by decide)
  · unfold Step.ofSegment
    split
    · rename_i htext
      exact absurd (String.toList_inj.mp htext) hempty
    · rename_i htext
      exact absurd (String.toList_inj.mp htext) hpoint
    · rename_i htext
      exact absurd (String.toList_inj.mp htext) hpoints
    · rw [String.ofList_toList]

/-! ## 2. Digests -/

/-- A hexadecimal digit may stand in the name of a user, and is no point. -/
theorem Digest.of_mem_wordText {w : UInt32} {c : Char} (h : c ∈ wordText w) :
    isUserChar c = true ∧ c ≠ '.' := by
  obtain ⟨i, -, rfl⟩ := List.mem_map.mp h
  have hdigit : ∀ k < 16, isUserChar (Nat.digitChar k) = true ∧ Nat.digitChar k ≠ '.' := by
    decide
  exact hdigit _ (Nat.mod_lt _ (by decide))

/-- A digest has digits. -/
theorem Digest.exists_toList_sha256 (text : String) :
    ∃ c rest, (sha256 text).toList = c :: rest := by
  rw [sha256, String.toList_ofList, digest]
  exact ⟨_, _, rfl⟩

theorem Digest.of_mem_sha256 {text : String} {c : Char} (h : c ∈ (sha256 text).toList) :
    isUserChar c = true ∧ c ≠ '.' := by
  rw [sha256, String.toList_ofList] at h
  obtain ⟨w, -, hc⟩ := List.mem_flatMap.mp h
  exact of_mem_wordText hc

/-- **What a payload without a user goes by may name a user.** -/
theorem isUser_payloadUser (payload : String) : isUser (payloadUser payload) = true := by
  have htext : (payloadUser payload).toList = (Digest.sha256 payload).toList.take 16 :=
    String.toList_ofList
  have hchars : ∀ c ∈ (payloadUser payload).toList, isUserChar c = true ∧ c ≠ '.' := by
    rw [htext]
    exact fun c hc => Digest.of_mem_sha256 (List.mem_of_mem_take hc)
  have hpoint : ∀ name : String, '.' ∈ name.toList → payloadUser payload ≠ name := by
    rintro name hmem rfl
    exact (hchars _ hmem).2 rfl
  refine isUser_iff.mpr ⟨?_, hpoint _ (by decide), hpoint _ (by decide),
    fun c hc => (hchars c hc).1⟩
  intro hempty
  obtain ⟨c, rest, hdigits⟩ := Digest.exists_toList_sha256 payload
  rw [hempty, hdigits, List.take_succ_cons, String.toList_empty] at htext
  exact absurd htext (List.cons_ne_nil _ _).symm

/-! ## 3. Projects -/

/-- **The user of a project may be called that**, whether the request names one or not. -/
theorem Project.isUser_of_ofPayload {payload : String} {user : Option String} {p : Project}
    (h : ofPayload payload user = .ok p) : isUser p.user = true := by
  unfold ofPayload at h
  obtain ⟨fields, -, h⟩ := bind_eq_ok_iff.mp h
  obtain ⟨config, -, h⟩ := bind_eq_ok_iff.mp h
  by_cases hname : (!Literal.isName config.optimizer) = true
  · rw [if_pos hname] at h
    obtain ⟨_, herror, _⟩ := bind_eq_ok_iff.mp h
    cases herror
  · rw [if_neg hname] at h
    obtain ⟨network, -, h⟩ := bind_eq_ok_iff.mp h
    cases user with
    | none =>
        obtain ⟨name, hname, h⟩ := bind_eq_ok_iff.mp h
        rw [← Except.ok.inj h, ← Except.ok.inj hname]
        exact isUser_payloadUser payload
    | some named =>
        obtain ⟨name, hname, h⟩ := bind_eq_ok_iff.mp h
        cases h
        unfold bindUser at hname
        split at hname
        · rename_i hjudged
          cases hname
          exact hjudged
        · cases hname

end LayerScript
