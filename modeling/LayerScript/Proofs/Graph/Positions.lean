/-
`Proofs/Graph/Positions.lean` -- arrays that are addressed by position.

The loops over a network are written on `Fin n`, where every index is that of a module, and on
lists that hold nothing else. Where a loop is written a second time on arrays, a module is a
natural number and nothing says that an array has a place for it, so that looking it up, changing
what stands there and asking for its successors may all fail for want of one. Here an array is the
image of a function of the modules (`Array.ofFn`), and such an array has a place for every module.
-/
import LayerScript.Graph.Wiring
import Mathlib.Data.List.FinRange
import Mathlib.Data.List.Sort
import Mathlib.Logic.Function.Basic

set_option autoImplicit false

namespace LayerScript

/-! ## 1. Arrays -/

/-- The array with a change at a position. There is no result when there is no such position, or
when what stands there cannot be changed. -/
def changeAt {α : Type} (change : α → Option α) (items : Array α) (i : ℕ) : Option (Array α) := do
  let old ← items[i]?
  let new ← change old
  some (items.setIfInBounds i new)

section

variable {α : Type} {n : ℕ}

theorem replicate_eq_ofFn (a : α) : Array.replicate n a = Array.ofFn fun _ : Fin n => a := by
  ext i hi hi' <;> simp

theorem getElem?_ofFn_val (f : Fin n → α) (v : Fin n) : (Array.ofFn f)[(v : ℕ)]? = some (f v) := by
  simp

/-- At the position of a module the array of a function is changed as the function is. -/
theorem changeAt_ofFn (change : α → Option α) (f : Fin n → α) (v : Fin n) :
    changeAt change (Array.ofFn f) v
      = (change (f v)).map fun new => Array.ofFn (Function.update f v new) := by
  have hset : ∀ new, (Array.ofFn f).setIfInBounds v new = Array.ofFn (Function.update f v new) := by
    intro new
    ext i hi hi'
    · simp
    · rw [Array.getElem_setIfInBounds (by simpa using hi)]
      simp only [Array.getElem_ofFn, Function.update_apply, Fin.ext_iff, eq_comm]
  rw [changeAt, getElem?_ofFn_val]
  cases hchange : change (f v) with
  | none => simp [hchange]
  | some new => simp [hchange, hset]

/-- The same change at the positions of several modules, each of them once. -/
theorem foldlM_changeAt (change : α → α) {vs : List (Fin n)} (hnodup : vs.Nodup) (f : Fin n → α) :
    (vs.map Fin.val).foldlM (changeAt fun a => some (change a)) (Array.ofFn f)
      = some (Array.ofFn fun v => if v ∈ vs then change (f v) else f v) := by
  induction vs generalizing f with
  | nil => simp
  | cons x vs ih =>
      obtain ⟨hx, hvs⟩ := List.nodup_cons.mp hnodup
      rw [List.map_cons, List.foldlM_cons, changeAt_ofFn]
      change List.foldlM _ (Array.ofFn _) _ = _
      rw [ih hvs]
      congr 2
      funext v
      by_cases hv : v = x
      · subst hv
        simp [hx]
      · simp [hv]

end

/-! ## 2. Successors -/

/-- The positions of the members that the module at a position has an edge to. There is no result
when there is no such module. -/
def Wiring.successorsAt {n : ℕ} (w : Wiring n) (members : List (Fin n)) (i : ℕ) :
    Option (List ℕ) :=
  if h : i < n then some (((w.successors ⟨i, h⟩).filter members.contains).map Fin.val) else none

section

variable {n : ℕ}

theorem Wiring.successorsAt_val (w : Wiring n) (members : List (Fin n)) (u : Fin n) :
    w.successorsAt members u
      = some (((w.successors u).filter (· ∈ members)).map Fin.val) := by
  have hcontains : members.contains = fun v => decide (v ∈ members) :=
    funext fun v => List.contains_eq_mem v members
  rw [successorsAt, dif_pos u.isLt, hcontains]

/-- Lists of modules in the order of declaration are the same when they have the same members. -/
theorem eq_of_sublist_finRange {vs us : List (Fin n)} (hvs : vs.Sublist (List.finRange n))
    (hus : us.Sublist (List.finRange n)) (h : ∀ v, v ∈ vs ↔ v ∈ us) : vs = us :=
  have hsorted := (List.sortedLT_finRange n).pairwise
  (hsorted.sublist hvs).sortedLT.eq_of_mem_iff (hsorted.sublist hus).sortedLT h

end

end LayerScript
