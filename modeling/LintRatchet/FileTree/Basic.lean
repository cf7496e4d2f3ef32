/-!
# Trees of files

A *file tree* has files and directories, each at a *location*: the names on the
way from the root.  The root is always a directory and has no entry of its own.
One directory is the working directory, where the way of a relative path starts.

`at?_put` and `at?_erase` say what the two changes do at every location.
-/

namespace LintRatchet

/-- The names on the way from the root. -/
abbrev Location := List String

/-- What is at a location. -/
inductive Entry where
  | file (content : ByteArray)
  | directory
deriving Inhabited

/-- The two entries are the same. -/
def Entry.same : Entry → Entry → Bool
  | .file a, .file b => a.data == b.data
  | .directory, .directory => true
  | _, _ => false

/-- Files and directories. -/
structure FileTree where
  /-- What is at each location but the root. -/
  entries : List (Location × Entry)
  workingDirectory : Location

namespace FileTree

/-- What is at a location. -/
def at? (t : FileTree) (l : Location) : Option Entry :=
  if l = [] then some .directory else t.entries.lookup l

/-- There is a directory at a location. -/
def isDirectory (t : FileTree) (l : Location) : Bool :=
  match t.at? l with
  | some .directory => true
  | _ => false

/-- The tree with an entry at a location, whatever was there before. -/
def put (t : FileTree) (l : Location) (e : Entry) : FileTree :=
  { t with entries := (l, e) :: t.entries.filter fun m => m.1 ≠ l }

/-- The tree with nothing at a location. -/
def erase (t : FileTree) (l : Location) : FileTree :=
  { t with entries := t.entries.filter fun m => m.1 ≠ l }

/-! ## What a change does -/

theorem lookup_filter_ne {entries : List (Location × Entry)} {l m : Location} (h : m ≠ l) :
    (entries.filter fun e => e.1 ≠ l).lookup m = entries.lookup m := by
  induction entries with
  | nil => rfl
  | cons e es ih =>
    rcases e with ⟨k, e⟩
    by_cases hk : k = l
    · have hm : (m == k) = false := by simpa [hk] using h
      rw [List.filter_cons_of_neg (by simpa using hk), List.lookup_cons, hm, ih]
    · rw [List.filter_cons_of_pos (by simpa using hk), List.lookup_cons, List.lookup_cons, ih]

theorem lookup_filter_self (entries : List (Location × Entry)) (l : Location) :
    (entries.filter fun e => e.1 ≠ l).lookup l = none := by
  induction entries with
  | nil => rfl
  | cons e es ih =>
    rcases e with ⟨k, e⟩
    by_cases hk : k = l
    · rw [List.filter_cons_of_neg (by simpa using hk), ih]
    · have hl : (l == k) = false := by simpa using Ne.symm hk
      rw [List.filter_cons_of_pos (by simpa using hk), List.lookup_cons, hl, ih]

theorem at?_root (t : FileTree) : t.at? [] = some .directory := rfl

/-- What is put at a location is there, and all others are as before. -/
theorem at?_put (t : FileTree) {l : Location} (e : Entry) (h : l ≠ []) (m : Location) :
    (t.put l e).at? m = if m = l then some e else t.at? m := by
  unfold at? put
  by_cases hm : m = l
  · subst hm; simp [h]
  · by_cases hr : m = []
    · subst hr; simp [hm]
    · have : (m == l) = false := by simpa using hm
      simp only [hr, ite_false, List.lookup_cons, this, hm]
      exact lookup_filter_ne hm

/-- What is removed is gone, and all others are as before. -/
theorem at?_erase (t : FileTree) {l : Location} (h : l ≠ []) (m : Location) :
    (t.erase l).at? m = if m = l then none else t.at? m := by
  unfold at? erase
  by_cases hm : m = l
  · subst hm
    simpa [h] using lookup_filter_self t.entries m
  · by_cases hr : m = []
    · subst hr; simp [hm]
    · simp only [hr, ite_false, hm]
      exact lookup_filter_ne hm

@[simp] theorem workingDirectory_put (t : FileTree) (l : Location) (e : Entry) :
    (t.put l e).workingDirectory = t.workingDirectory := rfl

@[simp] theorem workingDirectory_erase (t : FileTree) (l : Location) :
    (t.erase l).workingDirectory = t.workingDirectory := rfl

end FileTree

end LintRatchet
