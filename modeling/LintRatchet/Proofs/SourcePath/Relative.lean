import LintRatchet.Proofs.SourcePath

/-!
# Paths relative to a working directory

A path is *anchored* in a working directory if both are absolute and have the
same root.  Only such a path is rewritten; any other one merely loses leading
`./`.  What an anchored path becomes is the text of `climb`, and the components
of that text are the pieces of `climb` again (`components_way`).

`climb` passes over what the two lists of components share at the start.  On
drives that part is shared up to the case of ASCII letters.  `folded` takes the
case away where it does not count, so that shared parts have equal folds
(`dropShared_spec`).
-/

namespace LintRatchet.SourcePath

open LintRatchet.Text (split join split_append split_join not_mem_of_mem_split)

variable {path cwd : List Char} {piece : List Char} {pieces target base : List (List Char)}

/-! ## Components -/

/-- A piece that names something. -/
structure IsComponent (piece : List Char) : Prop where
  ne_nil : piece ≠ []
  ne_here : piece ≠ ['.']
  slash : '/' ∉ piece

theorem isComponent_up : IsComponent ['.', '.'] := ⟨by decide, by decide, by decide⟩

/-- The components of a path are neither empty nor a point, and have no slash. -/
theorem isComponent_of_mem (h : piece ∈ components path) : IsComponent piece := by
  obtain ⟨hsplit, hkept⟩ := List.mem_filter.mp h
  simp only [ne_eq, decide_not, Bool.and_eq_true, Bool.not_eq_true', decide_eq_false_iff_not]
    at hkept
  exact ⟨hkept.1, hkept.2, not_mem_of_mem_split hsplit⟩

/-- Joined components are found again. -/
theorem components_join (h : ∀ p ∈ pieces, IsComponent p) :
    components (join '/' pieces) = pieces := by
  by_cases hnil : pieces = []
  · subst hnil
    rfl
  · rw [components, split_join hnil fun p hp => (h p hp).slash, List.filter_eq_self]
    intro p hp
    simp [(h p hp).ne_nil, (h p hp).ne_here]

theorem isComponent_of_mem_climb (h : piece ∈ climb (components path) base) :
    IsComponent piece := by
  rcases mem_climb h with rfl | hmem
  · exact isComponent_up
  · exact isComponent_of_mem hmem

/-! ## Leading points -/

theorem dropHere_eq_self (h : ¬['.', '/'] <+: path) : dropHere path = path := by
  fun_cases dropHere path with
  | case1 rest => exact absurd ⟨rest, rfl⟩ h
  | case2 _ => rfl

/-- Nothing is left that starts with a point and a slash. -/
theorem not_prefix_dropHere (path : List Char) : ¬['.', '/'] <+: dropHere path := by
  fun_induction dropHere path with
  | case1 rest ih => exact ih
  | case2 path hpath =>
    rintro ⟨rest, rfl⟩
    exact hpath rest rfl

/-- The two kinds of roots. -/
theorem isAbsolute_iff : isAbsolute path = true ↔ (∃ rest, path = '/' :: rest) ∨
    ∃ c rest, path = c :: ':' :: '/' :: rest ∧ c.isAlpha = true := by
  constructor
  · intro h
    fun_cases isAbsolute path with
    | case1 rest => exact .inl ⟨rest, rfl⟩
    | case2 c rest hc => exact .inr ⟨c, rest, rfl, by simpa [isAbsolute, hc] using h⟩
    | case3 => simp_all [isAbsolute]
  · rintro (⟨rest, rfl⟩ | ⟨c, rest, rfl, hc⟩)
    · rfl
    · have hne : c ≠ '/' := by
        rintro rfl
        cases hc
      simpa [isAbsolute, hne] using hc

theorem not_prefix_of_isAbsolute (h : isAbsolute path = true) : ¬['.', '/'] <+: path := by
  rintro ⟨rest, rfl⟩
  simp [isAbsolute] at h

/-! ## What joined components start with -/

/-- What a joined text has before a slash is one of the pieces. -/
theorem mem_of_join_eq {rest : List Char} (h : ∀ p ∈ pieces, IsComponent p) (hpiece : '/' ∉ piece)
    (hjoin : join '/' pieces = piece ++ '/' :: rest) : piece ∈ pieces := by
  have hne : pieces ≠ [] := by
    rintro rfl
    exact absurd hjoin (by simp [join])
  have hsplit := split_join hne fun p hp => (h p hp).slash
  rw [hjoin, split_append hpiece] at hsplit
  exact hsplit ▸ List.mem_cons_self

theorem not_prefix_join (h : ∀ p ∈ pieces, IsComponent p) : ¬['.', '/'] <+: join '/' pieces := by
  rintro ⟨rest, hrest⟩
  have hmem : ['.'] ∈ pieces := mem_of_join_eq h (by decide) hrest.symm
  exact (h _ hmem).ne_here rfl

theorem head?_join (h : ∀ p ∈ pieces, IsComponent p) : (join '/' pieces).head? ≠ some '/' := by
  intro hhead
  obtain ⟨rest, hjoin⟩ := List.head?_eq_some_iff.mp hhead
  have hmem : [] ∈ pieces := mem_of_join_eq h List.not_mem_nil hjoin
  exact (h _ hmem).ne_nil rfl

/-! ## Anchored paths -/

/-- The path and the working directory are absolute and have the same root. -/
structure Anchored (path cwd : List Char) : Prop where
  absolute : isAbsolute path = true
  cwd_absolute : isAbsolute cwd = true
  root : sameRoot (components path) (components cwd) = true

/-- The text of the way from a working directory to a path. -/
def way (path cwd : List Char) : List Char :=
  if climb (components path) (components cwd) = [] then ['.']
  else join '/' (climb (components path) (components cwd))

/-- The way from one directory to another climbs and then descends. -/
theorem components_way (path cwd : List Char) :
    components (way path cwd) = climb (components path) (components cwd) := by
  unfold way
  split
  · next hnil => rw [hnil]; rfl
  · exact components_join fun _ => isComponent_of_mem_climb

theorem not_prefix_way (path cwd : List Char) : ¬['.', '/'] <+: way path cwd := by
  unfold way
  split
  · decide
  · exact not_prefix_join fun _ => isComponent_of_mem_climb

/-- An anchored path becomes the way to it. -/
theorem normalizeChars_of_anchored (h : Anchored (slashes path) (slashes cwd)) :
    normalizeChars path cwd = way (slashes path) (slashes cwd) := by
  have hrel : relative? (slashes path) (slashes cwd) = some (way (slashes path) (slashes cwd)) := by
    rw [relative?, h.cwd_absolute, h.root]
    rfl
  rw [normalizeChars, if_pos h.absolute, hrel, Option.getD_some]
  exact dropHere_eq_self (not_prefix_way _ _)

/-- A path that is not anchored only loses leading `./`. -/
theorem normalizeChars_of_not_anchored (h : ¬Anchored (slashes path) (slashes cwd)) :
    normalizeChars path cwd = dropHere (slashes path) := by
  rw [normalizeChars]
  split
  · next habs =>
    have hrel : relative? (slashes path) (slashes cwd) = none := by
      rw [relative?, if_neg]
      intro hcond
      rw [Bool.and_eq_true] at hcond
      exact h ⟨habs, hcond.1, hcond.2⟩
    rw [hrel, Option.getD_none]
  · rfl

/-! ## What two lists of components share -/

/-- The components without the case of ASCII letters where it does not count. -/
def folded (onDrive : Bool) (pieces : List (List Char)) : List (List Char) :=
  pieces.map fun piece => if onDrive then piece.map Char.toLower else piece

@[simp] theorem folded_false (pieces : List (List Char)) : folded false pieces = pieces := by
  simp [folded]

/-- Letters are folded in each part by itself. -/
theorem folded_append (onDrive : Bool) (front back : List (List Char)) :
    folded onDrive (front ++ back) = folded onDrive front ++ folded onDrive back :=
  List.map_append

theorem folded_cons_eq_iff {onDrive : Bool} {p q : List Char} {ps qs : List (List Char)} :
    folded onDrive (p :: ps) = folded onDrive (q :: qs) ↔
      same onDrive p q = true ∧ folded onDrive ps = folded onDrive qs := by
  cases onDrive <;> simp [folded, same]

/-- Two lists of components are what they share, up to case, and what is left of each. -/
theorem dropShared_spec (onDrive : Bool) (target base : List (List Char)) :
    ∃ front front', target = front ++ (dropShared onDrive target base).1 ∧
      base = front' ++ (dropShared onDrive target base).2 ∧
      folded onDrive front = folded onDrive front' := by
  fun_induction dropShared onDrive target base with
  | case1 t target b base hsame ih =>
    obtain ⟨front, front', htarget, hbase, hfold⟩ := ih
    exact ⟨t :: front, b :: front', congrArg (t :: ·) htarget, congrArg (b :: ·) hbase,
      folded_cons_eq_iff.mpr ⟨hsame, hfold⟩⟩
  | case2 => exact ⟨[], [], rfl, rfl, rfl⟩
  | case3 => exact ⟨[], [], rfl, rfl, rfl⟩

/-- The way to a target goes up from what is left of the base and down through what is left of the
target. -/
theorem climb_spec (target base : List (List Char)) :
    ∃ front front' down up, target = front ++ down ∧ base = front' ++ up ∧
      folded (drive? target).isSome front = folded (drive? target).isSome front' ∧
      climb target base = List.replicate up.length ['.', '.'] ++ down := by
  obtain ⟨front, front', htarget, hbase, hfold⟩ :=
    dropShared_spec (drive? target).isSome target base
  exact ⟨front, front', _, _, htarget, hbase, hfold, congrArg (· ++ _) (List.map_const' ..)⟩

/-- What is shared up to the case of letters is dropped. -/
theorem dropShared_of_folded_eq {onDrive : Bool} {front : List (List Char)}
    (h : folded onDrive front = folded onDrive base) (back : List (List Char)) :
    dropShared onDrive (front ++ back) base = (back, []) := by
  induction front generalizing base with
  | nil =>
    obtain rfl : base = [] := List.map_eq_nil_iff.mp h.symm
    cases back <;> rfl
  | cons p front ih =>
    cases base with
    | nil => exact absurd h (by simp [folded])
    | cons b base =>
      obtain ⟨hsame, hfold⟩ := folded_cons_eq_iff.mp h
      rw [List.cons_append, dropShared, if_pos hsame]
      exact ih hfold

/-- The way to a target that runs through the whole base is what comes after it. -/
theorem climb_of_folded_eq {front back : List (List Char)}
    (h : folded (drive? (front ++ back)).isSome front =
      folded (drive? (front ++ back)).isSome base) : climb (front ++ back) base = back := by
  rw [climb, dropShared_of_folded_eq h]
  rfl

end LintRatchet.SourcePath
