import LintRatchet.FileTree.Change

/-!
# Where paths lead while a tree changes

A path is followed through directories only, so a change that keeps every
directory keeps where a path leads (`KeepsDirectories`).  Putting a file where
there is no directory is such a change, and so are erasing a file and creating
directories.

`Step` says where a single segment leads, and a walk is a sequence of steps
(`walk_cons_eq_ok_iff`, `walk_append_eq_ok_iff`).

`target_eq_ok_iff` lists what it takes for a path to have a target.  All of it
but the walk and its end depends on the path alone.
-/

namespace LintRatchet.FileTree

variable {t t' t'' : FileTree} {path : String} {l : Location}

theorem isDirectory_iff : t.isDirectory l = true ↔ t.at? l = some .directory := by
  unfold isDirectory
  split
  · next h => simp [h]
  · next h => simpa using h

/-- The root is a directory in every tree. -/
theorem ne_root_of_not_isDirectory (h : t.isDirectory l = false) : l ≠ [] := by
  rintro rfl
  exact absurd (isDirectory_iff.mpr (at?_root t)) (by rw [h]; exact Bool.false_ne_true)

/-! ## Changes that keep directories -/

/-- Every directory of the first tree is one of the second, and relative paths start in the same
one. -/
structure KeepsDirectories (t t' : FileTree) : Prop where
  workingDirectory : t'.workingDirectory = t.workingDirectory
  directory : ∀ {l : Location}, t.isDirectory l = true → t'.isDirectory l = true

theorem KeepsDirectories.refl (t : FileTree) : KeepsDirectories t t := ⟨rfl, id⟩

theorem KeepsDirectories.trans (h : KeepsDirectories t t') (h' : KeepsDirectories t' t'') :
    KeepsDirectories t t'' :=
  ⟨h'.workingDirectory.trans h.workingDirectory, fun hd => h'.directory (h.directory hd)⟩

/-- Where there is no directory anything can be put. -/
theorem keepsDirectories_put (h : t.isDirectory l = false) (e : Entry) :
    KeepsDirectories t (t.put l e) where
  workingDirectory := rfl
  directory := by
    intro m hm
    have hne : m ≠ l := by
      rintro rfl
      rw [h] at hm
      exact Bool.false_ne_true hm
    rw [isDirectory_iff] at hm ⊢
    rw [at?_put t e (ne_root_of_not_isDirectory h), if_neg hne, hm]

theorem keepsDirectories_erase (h : t.isDirectory l = false) : KeepsDirectories t (t.erase l) where
  workingDirectory := rfl
  directory := by
    intro m hm
    have hne : m ≠ l := by
      rintro rfl
      rw [h] at hm
      exact Bool.false_ne_true hm
    rw [isDirectory_iff] at hm ⊢
    rw [at?_erase t (ne_root_of_not_isDirectory h), if_neg hne, hm]

/-! ## Following a path -/

/-- A sequence succeeds when each part does. -/
theorem bind_eq_ok_iff {ε α β : Type} {x : Except ε α} {f : α → Except ε β} {b : β} :
    x >>= f = .ok b ↔ ∃ a, x = .ok a ∧ f a = .ok b := by
  cases x with
  | error e =>
    constructor
    · rintro ⟨⟩
    · rintro ⟨_, ⟨⟩, _⟩
  | ok a =>
    constructor
    · intro h
      exact ⟨a, rfl, h⟩
    · rintro ⟨_, ⟨⟩, h⟩
      exact h

theorem segmentKind_ne_root (s : String) : segmentKind s ≠ .root := by
  unfold segmentKind
  split
  · exact LastSegment.noConfusion
  · split <;> exact LastSegment.noConfusion

/-- Where a segment of some kind leads from a directory. -/
inductive Step (t : FileTree) (l : Location) : LastSegment → Location → Prop
  | name {n : String} {m : Location} :
      child l n = .ok m → (t.at? m).isSome = true → Step t l (.name n) m
  | here : Step t l .here l
  | up : Step t l .up l.dropLast

/-- One segment leads from a directory to what is there, to itself or upwards. -/
theorem step_eq_ok_iff {m : Location} {segment : String} :
    t.step l segment = .ok m ↔ t.isDirectory l = true ∧ Step t l (segmentKind segment) m := by
  unfold FileTree.step
  cases hl : t.isDirectory l with
  | false => simp
  | true =>
    simp only [Bool.not_true, Bool.false_eq_true, if_false, true_and]
    cases hkind : segmentKind segment with
    | name n =>
      constructor
      · intro h
        obtain ⟨next, hc, h⟩ := bind_eq_ok_iff.mp h
        split at h
        · next hsome =>
          cases h
          exact .name hc hsome
        · cases h
      · rintro (⟨hc, hsome⟩ | _)
        exact bind_eq_ok_iff.mpr ⟨_, hc, if_pos hsome⟩
    | here =>
      constructor
      · rintro ⟨⟩
        exact .here
      · rintro ⟨⟩
        rfl
    | up =>
      constructor
      · rintro ⟨⟩
        exact .up
      · rintro ⟨⟩
        rfl
    | root => exact absurd hkind (segmentKind_ne_root segment)

/-- A step into a directory is still possible. -/
theorem KeepsDirectories.step (h : KeepsDirectories t t') {m : Location} {segment : String}
    (hs : t.step l segment = .ok m) (hm : t.isDirectory m = true) : t'.step l segment = .ok m := by
  rw [step_eq_ok_iff] at hs ⊢
  obtain ⟨hl, hstep⟩ := hs
  refine ⟨h.directory hl, ?_⟩
  generalize segmentKind segment = kind at hstep
  cases hstep with
  | name hc _ =>
    refine .name hc ?_
    rw [isDirectory_iff.mp (h.directory hm)]
    rfl
  | here => exact .here
  | up => exact .up

/-- A step starts in a directory. -/
theorem isDirectory_of_step {m : Location} {segment : String} (hs : t.step l segment = .ok m) :
    t.isDirectory l = true :=
  (step_eq_ok_iff.mp hs).1

theorem walk_cons_eq_ok_iff {d : Location} {s : String} {ss : List String} :
    t.walk l (s :: ss) = .ok d ↔ ∃ m, t.step l s = .ok m ∧ t.walk m ss = .ok d :=
  bind_eq_ok_iff

/-- A walk along two paths is one walk after the other. -/
theorem walk_append_eq_ok_iff {d : Location} {front back : List String} :
    t.walk l (front ++ back) = .ok d ↔
      ∃ m, t.walk l front = .ok m ∧ t.walk m back = .ok d := by
  induction front generalizing l with
  | nil => simp [FileTree.walk]
  | cons s ss ih =>
    simp only [List.cons_append, walk_cons_eq_ok_iff, ih]
    constructor
    · rintro ⟨next, hs, m, hfront, hback⟩
      exact ⟨m, ⟨next, hs, hfront⟩, hback⟩
    · rintro ⟨m, ⟨next, hs, hfront⟩, hback⟩
      exact ⟨next, hs, m, hfront, hback⟩

/-- A walk to a directory starts in one. -/
theorem isDirectory_of_walk {d : Location} {segments : List String}
    (hw : t.walk l segments = .ok d) (hd : t.isDirectory d = true) : t.isDirectory l = true := by
  cases segments with
  | nil =>
    cases hw
    exact hd
  | cons s ss =>
    obtain ⟨m, hs, -⟩ := walk_cons_eq_ok_iff.mp hw
    exact isDirectory_of_step hs

/-- A walk to a directory is the same as long as directories are kept. -/
theorem KeepsDirectories.walk (h : KeepsDirectories t t') {d : Location} {segments : List String}
    (hd : t.isDirectory d = true) (hw : t.walk l segments = .ok d) :
    t'.walk l segments = .ok d := by
  induction segments generalizing l with
  | nil => exact hw
  | cons s ss ih =>
    obtain ⟨m, hs, hw⟩ := walk_cons_eq_ok_iff.mp hw
    -- The walk goes on from `m` or ends there, and either asks for a directory.
    have hm : t.isDirectory m = true := isDirectory_of_walk hw hd
    exact walk_cons_eq_ok_iff.mpr ⟨m, h.step hs hm, ih hw⟩

/-- What it takes to have a target. -/
theorem target_eq_ok_iff {p : PathTarget} : t.target path = .ok p ↔
    '\x00' ∉ path.toList ∧ path ≠ "" ∧ path.utf8ByteSize ≤ maxPath ∧
      t.walk (t.start path) (PathName.segments path).dropLast = .ok p.directory ∧
      t.isDirectory p.directory = true ∧
      p.last = ((PathName.segments path).getLast?.map segmentKind).getD .root ∧
      p.slash = decide (path.toList.getLast? = some '/') := by
  unfold target
  by_cases hnul : '\x00' ∈ path.toList
  · simp [hnul]
  by_cases hempty : path = ""
  · simp [hempty]
  by_cases hlong : maxPath < path.utf8ByteSize
  · simp [hnul, hempty, hlong, Nat.not_le.mpr hlong]
  rw [if_neg hnul, if_neg hempty, if_neg hlong]
  simp only [bind, Except.bind]
  cases hw : t.walk (t.start path) (PathName.segments path).dropLast with
  | error e => simp
  | ok d =>
    cases hd : t.isDirectory d with
    | false =>
      simp only [hd, Bool.not_false, if_true, reduceCtorEq, false_iff, not_and]
      rintro - - - heq hp
      cases heq
      rw [hd] at hp
      cases hp
    | true =>
      simp only [hd, Bool.not_true, Bool.false_eq_true, if_false, pure, Except.pure,
        Except.ok.injEq]
      constructor
      · rintro rfl
        exact ⟨hnul, hempty, Nat.le_of_not_lt hlong, rfl, hd, rfl, rfl⟩
      · rintro ⟨-, -, -, rfl, -, hlast, hslash⟩
        cases p
        simp_all

/-- A path that could be followed can be followed as long as directories are kept. -/
theorem KeepsDirectories.target (h : KeepsDirectories t t') {p : PathTarget}
    (hp : t.target path = .ok p) : t'.target path = .ok p := by
  obtain ⟨hnul, hempty, hlong, hw, hd, hlast, hslash⟩ := target_eq_ok_iff.mp hp
  have hstart : t'.start path = t.start path := by
    unfold FileTree.start
    rw [h.workingDirectory]
  refine target_eq_ok_iff.mpr ⟨hnul, hempty, hlong, ?_, h.directory hd, hlast, hslash⟩
  rw [hstart]
  exact h.walk hd hw

end LintRatchet.FileTree
