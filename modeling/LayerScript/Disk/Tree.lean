/-
`Disk/Tree.lean` -- a disk: which files and directories there are.

The tree is kept flat, as what stands at each location, and `Disk.at?` is the view
that everything else is stated in: two disks are alike when they agree at every
location. There are no links, and names that differ in case are different names.
The root is a directory on every disk.
-/
import LayerScript.Disk.Path

set_option autoImplicit false

namespace LayerScript

/-- What stands at a location. -/
inductive Entry where
  | directory
  | file (content : ByteArray)

/-- Files are alike when their contents are. -/
instance : DecidableEq Entry
  | .directory, .directory => .isTrue rfl
  | .file a, .file b =>
    match ByteArray.instDecidableEq a b with
    | .isTrue h => .isTrue (h ▸ rfl)
    | .isFalse h => .isFalse fun same => h (Entry.file.inj same)
  | .directory, .file _ => .isFalse nofun
  | .file _, .directory => .isFalse nofun

/-- A disk: its entries by location. Of two entries with one location the first counts. -/
structure Disk where
  entries : List (Location × Entry)

namespace Disk

/-- The disk with nothing on it but the root. -/
def empty : Disk := ⟨[]⟩

/-- What stands at a location, if anything does. -/
def at? (d : Disk) (l : Location) : Option Entry :=
  if l = [] then some .directory else d.entries.lookup l

/-- The disk with an entry at a location, which replaces what stood there. -/
def put (d : Disk) (l : Location) (e : Entry) : Disk :=
  ⟨(l, e) :: d.entries.filter fun entry => entry.1 != l⟩

/-- The root is a directory. -/
@[simp] theorem at?_root (d : Disk) : d.at? [] = some .directory := by
  simp [at?]

/-- What was put at a location stands there. -/
theorem at?_put_self (d : Disk) {l : Location} (e : Entry) (h : l ≠ []) :
    (d.put l e).at? l = some e := by
  simp [at?, put, h]

/-- Looking up a key does not depend on the entries under other keys. -/
theorem lookup_filter_ne {l m : Location} (h : m ≠ l) (entries : List (Location × Entry)) :
    (entries.filter fun entry => entry.1 != l).lookup m = entries.lookup m := by
  induction entries with
  | nil => rfl
  | cons entry rest ih =>
    obtain ⟨k, e⟩ := entry
    by_cases hk : k = l
    · subst hk
      have hm : (m == k) = false := by simpa using h
      simp [List.lookup_cons, ih, hm]
    · simp only [List.filter_cons, bne_iff_ne, ne_eq, hk, not_false_eq_true, if_true,
        List.lookup_cons, ih]

/-- Putting something at one location changes nothing elsewhere. -/
theorem at?_put_of_ne (d : Disk) {l m : Location} (e : Entry) (h : m ≠ l) :
    (d.put l e).at? m = d.at? m := by
  by_cases hm : m = []
  · simp [hm]
  · have hml : (m == l) = false := by simpa using h
    simp [at?, put, hm, List.lookup_cons, hml, lookup_filter_ne h]

end Disk

end LayerScript
