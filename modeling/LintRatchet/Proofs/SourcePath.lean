import LintRatchet.SourcePath

/-!
# The characters of a source path

The one spelling of a path is put together from pieces of the reported path,
from `..`, and from slashes.  The working directory decides which pieces are
left out and lends none of its own.  So what the reported path does not contain,
its one spelling does not contain either (`mem_normalizeChars`), and it has no
backslash.
-/

namespace LintRatchet

/-! ## Characters of pieces -/

namespace Text

variable {sep c : Char} {cs piece : List Char} {pieces : List (List Char)}

theorem mem_of_mem_split (hp : piece ∈ split sep cs) (hc : c ∈ piece) : c ∈ cs := by
  induction cs generalizing piece with
  | nil =>
    obtain rfl : piece = [] := by simpa [split] using hp
    exact hc
  | cons d ds ih =>
    simp only [split] at hp
    split at hp
    · rcases List.mem_cons.mp hp with rfl | hp
      · exact absurd hc List.not_mem_nil
      · exact List.mem_cons_of_mem _ (ih hp hc)
    · split at hp
      · next hnil => exact absurd hnil (split_ne_nil sep ds)
      · next first others hs =>
        rcases List.mem_cons.mp hp with rfl | hp
        · rcases List.mem_cons.mp hc with rfl | hc
          · exact List.mem_cons_self
          · exact List.mem_cons_of_mem _ (ih (hs ▸ List.mem_cons_self) hc)
        · exact List.mem_cons_of_mem _ (ih (hs ▸ List.mem_cons_of_mem _ hp) hc)

/-- A character of joined pieces is the separator or one of theirs. -/
theorem mem_join (h : c ∈ join sep pieces) : c = sep ∨ ∃ p ∈ pieces, c ∈ p := by
  induction pieces with
  | nil => exact absurd h List.not_mem_nil
  | cons p ps ih =>
    cases ps with
    | nil => exact .inr ⟨p, List.mem_cons_self, h⟩
    | cons q qs =>
      rw [join_cons p (by simp)] at h
      rcases List.mem_append.mp h with h | h
      · exact .inr ⟨p, List.mem_cons_self, h⟩
      · rcases List.mem_cons.mp h with rfl | h
        · exact .inl rfl
        · rcases ih h with rfl | ⟨p', hp', hc⟩
          · exact .inl rfl
          · exact .inr ⟨p', List.mem_cons_of_mem _ hp', hc⟩

end Text

/-! ## Characters of a path -/

namespace SourcePath

variable {c : Char} {path cwd : List Char} {piece : List Char} {target base : List (List Char)}

/-- Slashes are all that is changed, so other characters come from the path. -/
theorem mem_slashes (h : c ∈ slashes path) : c = '/' ∨ c ∈ path ∧ c ≠ '\\' := by
  obtain ⟨d, hd, rfl⟩ := List.mem_map.mp h
  split
  · exact .inl rfl
  · next hne => exact .inr ⟨hd, hne⟩

theorem slashes_eq_self (h : '\\' ∉ path) : slashes path = path := by
  have hkept : ∀ c ∈ path, (if c = '\\' then '/' else c) = c := by
    intro c hc
    refine if_neg ?_
    rintro rfl
    exact h hc
  exact (List.map_congr_left hkept).trans (List.map_id path)

theorem dropHere_suffix (path : List Char) : dropHere path <:+ path := by
  fun_induction dropHere path with
  | case1 rest ih => exact ih.trans ((List.suffix_cons ..).trans (List.suffix_cons ..))
  | case2 path _ => exact List.suffix_rfl

theorem dropShared_suffix (onDrive : Bool) (target base : List (List Char)) :
    (dropShared onDrive target base).1 <:+ target := by
  fun_induction dropShared onDrive target base with
  | case1 t target b base _ ih => exact ih.trans (List.suffix_cons ..)
  | case2 => exact List.suffix_rfl
  | case3 => exact List.suffix_rfl

/-- The way to a target consists of steps up and of components of the target. -/
theorem mem_climb (h : piece ∈ climb target base) : piece = ['.', '.'] ∨ piece ∈ target := by
  rcases List.mem_append.mp h with h | h
  · obtain ⟨_, -, rfl⟩ := List.mem_map.mp h
    exact .inl rfl
  · exact .inr ((dropShared_suffix _ target base).subset h)

/-- A relative path has no characters but points, slashes and those of the path. -/
theorem mem_relative? {way : List Char} (h : relative? path cwd = some way) (hc : c ∈ way) :
    c = '.' ∨ c = '/' ∨ c ∈ path := by
  unfold relative? at h
  split at h
  · cases h
    split at hc
    · exact .inl (List.mem_singleton.mp hc)
    · rcases Text.mem_join hc with rfl | ⟨piece, hpiece, hc⟩
      · exact .inr (.inl rfl)
      · rcases mem_climb hpiece with rfl | hpiece
        · exact .inl (by simpa using hc)
        · exact .inr (.inr (Text.mem_of_mem_split (List.mem_filter.mp hpiece).1 hc))
  · cases h

/-- The one spelling of a path has only points, slashes and characters of the path, and no
backslash. -/
theorem mem_normalizeChars (h : c ∈ normalizeChars path cwd) :
    c = '.' ∨ c = '/' ∨ c ∈ path ∧ c ≠ '\\' := by
  have hslashes : ∀ {d : Char}, d ∈ slashes path → d = '.' ∨ d = '/' ∨ d ∈ path ∧ d ≠ '\\' :=
    fun hd => .inr (mem_slashes hd)
  have hmem := (dropHere_suffix _).subset h
  split at hmem
  · cases hr : relative? (slashes path) (slashes cwd) with
    | none =>
      rw [hr] at hmem
      exact hslashes hmem
    | some way =>
      rw [hr] at hmem
      rcases mem_relative? hr hmem with rfl | rfl | hc
      · exact .inl rfl
      · exact .inr (.inl rfl)
      · exact hslashes hc
  · exact hslashes hmem

/-- A normalized path has no backslash. -/
theorem backslash_not_mem_normalizeChars (path cwd : List Char) :
    '\\' ∉ normalizeChars path cwd := by
  intro h
  rcases mem_normalizeChars h with hpoint | hslash | ⟨-, hne⟩
  · exact absurd hpoint (by decide)
  · exact absurd hslash (by decide)
  · exact hne rfl

/-- A character other than points, slashes and backslashes is not brought in. -/
theorem not_mem_normalize {path cwd : String} (hpoint : c ≠ '.') (hslash : c ≠ '/')
    (h : c ∉ path.toList ∨ c = '\\') : c ∉ (normalize path cwd).toList := by
  rw [normalize, String.toList_ofList]
  intro hc
  rcases mem_normalizeChars hc with rfl | rfl | ⟨hmem, hne⟩
  · exact hpoint rfl
  · exact hslash rfl
  · rcases h with hnot | rfl
    · exact hnot hmem
    · exact hne rfl

end SourcePath

end LintRatchet
