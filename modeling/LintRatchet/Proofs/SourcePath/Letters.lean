import LintRatchet.Proofs.SourcePath.Relative
import Mathlib

/-!
# Letters in a source path

On drives the case of ASCII letters does not count.  It does not decide how a
path is taken apart either.  Separators, points and the colon of a drive are no
letters, so a path in small letters has the components of the path in small
letters (`components_map_toLower`), and it is absolute exactly when the path is.

A path that starts with the components of the working directory, up to case on a
drive, has its root (`sameRoot_append`) and is spelled as what comes after them
(`normalizeChars_of_folded_eq`).
-/

namespace LintRatchet

namespace Text

theorem split_map {sep : Char} {f : Char → Char} (hf : ∀ c, f c = sep ↔ c = sep)
    (cs : List Char) : split sep (cs.map f) = (split sep cs).map (List.map f) := by
  induction cs with
  | nil => rfl
  | cons c cs ih =>
    simp only [List.map_cons, split, ih, hf]
    split
    · rfl
    · cases hs : split sep cs with
      | nil => rfl
      | cons piece pieces => rfl

end Text

namespace SourcePath

open LintRatchet.Text (split join)

variable {path : List Char} {piece : List Char} {front back base : List (List Char)}

/-! ## Small and capital letters -/

/-- A character with one case is no letter. -/
theorem isAlpha_eq_false_of_toLower_eq_toUpper {c : Char} (h : c.toLower = c.toUpper) :
    c.isAlpha = false := by
  rw [← Char.isLower_toLower_eq_isAlpha, h, Char.isLower_toUpper_eq_false]

/-- What is no letter is the small form of itself only. -/
theorem toLower_eq_iff {c d : Char} (hd : d.isAlpha = false) : c.toLower = d ↔ c = d := by
  have hkept : ∀ {e : Char}, e.isAlpha = false → e.toLower = e := fun he =>
    Char.toLower_eq_of_not_isUpper (Bool.eq_false_iff.mp (Bool.or_eq_false_iff.mp he).1)
  constructor
  · rintro rfl
    rw [Char.isAlpha_toLower_eq_isAlpha] at hd
    exact (hkept hd).symm
  · rintro rfl
    exact hkept hd

theorem map_toLower_eq_iff {fixed : List Char} (h : ∀ c ∈ fixed, c.isAlpha = false) :
    piece.map Char.toLower = fixed ↔ piece = fixed := by
  induction fixed generalizing piece with
  | nil => exact List.map_eq_nil_iff
  | cons d fixed ih =>
    obtain ⟨hd, hfixed⟩ := List.forall_mem_cons.mp h
    cases piece with
    | nil => simp
    | cons c piece =>
      rw [List.map_cons, List.cons.injEq, List.cons.injEq, toLower_eq_iff hd, ih hfixed]

/-! ## Paths in small letters -/

theorem isAbsolute_map_toLower (path : List Char) :
    isAbsolute (path.map Char.toLower) = isAbsolute path := by
  have hslash : ∀ {c : Char}, c.toLower = '/' ↔ c = '/' := toLower_eq_iff rfl
  have hcolon : ∀ {c : Char}, c.toLower = ':' ↔ c = ':' := toLower_eq_iff rfl
  rw [Bool.eq_iff_iff, isAbsolute_iff, isAbsolute_iff]
  rcases path with _ | ⟨c, _ | ⟨d, _ | ⟨e, rest⟩⟩⟩ <;>
    simp [hslash, hcolon, and_assoc]

/-- The components of a path in small letters are those of the path in small letters. -/
theorem components_map_toLower (path : List Char) :
    components (path.map Char.toLower) = folded true (components path) := by
  have hslash : ∀ c : Char, c.toLower = '/' ↔ c = '/' := fun c => toLower_eq_iff rfl
  have hhere : ∀ piece : List Char, piece.map Char.toLower = ['.'] ↔ piece = ['.'] :=
    fun piece => map_toLower_eq_iff (by simp)
  rw [components, Text.split_map hslash, List.filter_map]
  simp only [components, folded, Function.comp_def, ne_eq, List.map_eq_nil_iff, hhere, if_true]

/-- Texts that are compared as equal have components that are equal up to case. -/
theorem folded_components_of_same {onDrive : Bool} {a b : List Char} (h : same onDrive a b = true) :
    folded onDrive (components a) = folded onDrive (components b) := by
  cases onDrive with
  | false =>
    obtain rfl : a = b := by simpa [same] using h
    rfl
  | true =>
    have hlower : a.map Char.toLower = b.map Char.toLower := by simpa [same] using h
    rw [← components_map_toLower, ← components_map_toLower, hlower]

/-! ## Roots -/

theorem drive?_cons (piece : List Char) (pieces : List (List Char)) :
    drive? (piece :: pieces) = if piece.getLast? = some ':' then some piece else none := by
  simp [drive?, Option.filter]

/-- Whether a component ends in a colon does not depend on the case of its letters. -/
theorem getLast?_eq_colon_of_same {onDrive : Bool} {p q : List Char} (h : same onDrive p q = true) :
    p.getLast? = some ':' ↔ q.getLast? = some ':' := by
  cases onDrive with
  | false =>
    obtain rfl : p = q := by simpa [same] using h
    rfl
  | true =>
    have hlower : p.map Char.toLower = q.map Char.toLower := by simpa [same] using h
    have hcolon : ∀ r : List Char,
        (r.map Char.toLower).getLast? = some ':' ↔ r.getLast? = some ':' := fun r => by
      rw [List.getLast?_map, Option.map_eq_some_iff]
      constructor
      · rintro ⟨c, hc, heq⟩
        rw [hc, (toLower_eq_iff rfl).mp heq]
      · intro hc
        exact ⟨':', hc, rfl⟩
    rw [← hcolon p, hlower, hcolon q]

/-- What starts with a base, up to case where that does not count, has the root of the base. -/
theorem sameRoot_append (hne : base ≠ [])
    (h : folded (drive? base).isSome front = folded (drive? base).isSome base)
    (back : List (List Char)) :
    sameRoot (front ++ back) base = true ∧ (drive? (front ++ back)).isSome = (drive? base).isSome := by
  cases base with
  | nil => exact absurd rfl hne
  | cons b base =>
    cases front with
    | nil => exact absurd h.symm (by simp [folded])
    | cons p front =>
      obtain ⟨hsame, -⟩ := folded_cons_eq_iff.mp h
      have hcolon := getLast?_eq_colon_of_same hsame
      rw [List.cons_append, sameRoot, drive?_cons, drive?_cons]
      by_cases hb : b.getLast? = some ':'
      · rw [if_pos hb, if_pos (hcolon.mpr hb)]
        rw [drive?_cons, if_pos hb, Option.isSome_some] at hsame
        exact ⟨hsame, rfl⟩
      · rw [if_neg hb, if_neg fun hp => hb (hcolon.mp hp)]
        exact ⟨rfl, rfl⟩

/-- A path that runs through the components of the working directory is spelled as what comes after
them. -/
theorem normalizeChars_of_folded_eq {cwd : List Char} (hpath : isAbsolute (slashes path) = true)
    (hcwd : isAbsolute (slashes cwd) = true) (hne : components (slashes cwd) ≠ [])
    (hcomponents : components (slashes path) = front ++ back)
    (hfold : folded (drive? (components (slashes cwd))).isSome front =
      folded (drive? (components (slashes cwd))).isSome (components (slashes cwd))) :
    normalizeChars path cwd = if back = [] then ['.'] else join '/' back := by
  obtain ⟨hroot, hdrive⟩ := sameRoot_append hne hfold back
  have hanchored : Anchored (slashes path) (slashes cwd) := ⟨hpath, hcwd, hcomponents ▸ hroot⟩
  have hclimb : climb (components (slashes path)) (components (slashes cwd)) = back := by
    rw [hcomponents]
    exact climb_of_folded_eq (hdrive ▸ hfold)
  rw [normalizeChars_of_anchored hanchored, way, hclimb]

end SourcePath

end LintRatchet
