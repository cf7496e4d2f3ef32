import LintRatchet.Proofs.SourcePath.Location
import LintRatchet.Proofs.SourcePath.Repeated

/-!
# Paths that stay apart

Absolute paths with one spelling should lead to one place.  On paths that start
with a slash the case of letters counts, so that place is one list of
components.  This holds as long as the first component of the working directory
does not end in a colon.

Where it does, it is taken for a drive, slash or not, and the case of letters in
the working directory counts no more.  Below `/data:/app` the files
`/data:/app/a.js` and `/data:/App/a.js` lie in two directories and have the one
spelling `a.js`.  `normalize_separates_iff` says that this is all that can
happen: places with one spelling differ in the case of letters at most, and they
are equal for all paths exactly when there is no such component in front or no
letter in the working directory.
-/

namespace LintRatchet.SourcePath

open LintRatchet.Text (split join)

variable {path cwd a b : List Char} {piece piece' : List Char}
  {front front' target base pieces pieces' : List (List Char)}

/-- A path that starts with a slash and has no backslash. -/
structure Posix (path : List Char) : Prop where
  rooted : path.head? = some '/'
  no_backslash : '\\' ∉ path

theorem head?_slashes (h : path.head? = some '/') : (slashes path).head? = some '/' := by
  obtain ⟨rest, rfl⟩ := List.head?_eq_some_iff.mp h
  rfl

theorem isAbsolute_of_head? (h : path.head? = some '/') : isAbsolute path = true := by
  obtain ⟨rest, rfl⟩ := List.head?_eq_some_iff.mp h
  rfl

/-! ## Ways to paths with one spelling -/

/-- A path with a root of its own keeps its text. -/
theorem normalizeChars_of_rooted (h : path.head? = some '/')
    (hnot : ¬Anchored (slashes path) (slashes cwd)) : normalizeChars path cwd = slashes path := by
  have habs := isAbsolute_of_head? (head?_slashes h)
  rw [normalizeChars_of_not_anchored hnot, dropHere_eq_self (not_prefix_of_isAbsolute habs)]

/-- No path is spelled like the way to another one, since a way does not start with a slash. -/
theorem anchored_of_normalizeChars_eq (h : normalizeChars a cwd = normalizeChars b cwd)
    (hb : b.head? = some '/') (ha : Anchored (slashes a) (slashes cwd)) :
    Anchored (slashes b) (slashes cwd) := by
  by_contra hnot
  rw [normalizeChars_of_anchored ha, normalizeChars_of_rooted hb hnot] at h
  exact head?_way _ _ (h ▸ head?_slashes hb)

/-- Rooted paths with one spelling have one text, or one way leads to both. -/
theorem climb_eq_of_normalizeChars_eq (ha : a.head? = some '/') (hb : b.head? = some '/')
    (h : normalizeChars a cwd = normalizeChars b cwd) :
    slashes a = slashes b ∨
      Anchored (slashes a) (slashes cwd) ∧ Anchored (slashes b) (slashes cwd) ∧
        climb (components (slashes a)) (components (slashes cwd)) =
          climb (components (slashes b)) (components (slashes cwd)) := by
  by_cases hanch : Anchored (slashes a) (slashes cwd)
  · have hanch' := anchored_of_normalizeChars_eq h hb hanch
    rw [normalizeChars_of_anchored hanch, normalizeChars_of_anchored hanch'] at h
    have hway := congrArg components h
    rw [components_way, components_way] at hway
    exact .inr ⟨hanch, hanch', hway⟩
  · have hanch' := mt (anchored_of_normalizeChars_eq h.symm ha) hanch
    rw [normalizeChars_of_rooted ha hanch, normalizeChars_of_rooted hb hanch'] at h
    exact .inl h

/-! ## Places up to case -/

theorem folded_true_of_folded {onDrive : Bool} (h : folded onDrive front = folded onDrive front') :
    folded true front = folded true front' := by
  cases onDrive with
  | false =>
    rw [folded_false, folded_false] at h
    rw [h]
  | true => exact h

/-- Paths that normalize to the same name the same place, up to the case of letters. -/
theorem folded_place_eq (hup : ['.', '.'] ∉ components (slashes cwd)) (ha : a.head? = some '/')
    (hb : b.head? = some '/') (h : normalizeChars a cwd = normalizeChars b cwd) :
    folded true (follow [] (components (slashes a))) =
      folded true (follow [] (components (slashes b))) := by
  rcases climb_eq_of_normalizeChars_eq ha hb h with heq | ⟨-, -, hway⟩
  · rw [heq]
  · rw [← folded_true_of_folded (follow_climb (components (slashes a)) hup),
      ← folded_true_of_folded (follow_climb (components (slashes b)) hup), hway]

/-! ## Where the case of letters counts -/

/-- No letter of a directory is read without regard to its case. -/
def CaseCounts (base : List (List Char)) : Prop :=
  drive? base = none ∨ ∀ piece ∈ base, ∀ c ∈ piece, c.isAlpha = false

/-- Where there are no letters folding changes nothing. -/
theorem eq_of_folded_eq (hletters : ∀ piece ∈ front', ∀ c ∈ piece, c.isAlpha = false)
    (h : folded true front = folded true front') : front = front' := by
  induction front' generalizing front with
  | nil => exact List.map_eq_nil_iff.mp h
  | cons q front' ih =>
    obtain ⟨hq, hfront'⟩ := List.forall_mem_cons.mp hletters
    cases front with
    | nil => exact absurd h.symm (by simp [folded])
    | cons p front =>
      obtain ⟨hsame, hfold⟩ := folded_cons_eq_iff.mp h
      have hlower : p.map Char.toLower = q.map Char.toLower := by simpa [same] using hsame
      rw [(map_toLower_eq_iff hq).mpr rfl] at hlower
      rw [(map_toLower_eq_iff hq).mp hlower, ih hfront' hfold]

/-- What is shared with a directory in which the case of letters counts is the same on both sides. -/
theorem CaseCounts.eq_of_folded_eq (hcase : CaseCounts base) (hfront : front' <+: base)
    (h : folded (drive? base).isSome front = folded (drive? base).isSome front') :
    front = front' := by
  rcases hcase with hnone | hletters
  · rw [hnone, Option.isSome_none, folded_false, folded_false] at h
    exact h
  · exact SourcePath.eq_of_folded_eq (fun piece hpiece => hletters piece (hfront.subset hpiece))
      (folded_true_of_folded h)

theorem CaseCounts.follow_climb (hcase : CaseCounts base) (hup : ['.', '.'] ∉ base)
    (hroot : sameRoot target base = true) :
    follow base (climb target base) = follow [] target := by
  obtain ⟨front, front', down, hprefix, hfold, hway, hpath⟩ :=
    follow_climb_spec target hup
  rw [isSome_drive?_eq hroot] at hfold
  rw [hway, hpath, hcase.eq_of_folded_eq hprefix hfold]

/-- Where the case of letters counts, paths with one spelling lead to one place. -/
theorem place_eq (hcase : CaseCounts (components (slashes cwd)))
    (hup : ['.', '.'] ∉ components (slashes cwd)) (ha : a.head? = some '/')
    (hb : b.head? = some '/') (h : normalizeChars a cwd = normalizeChars b cwd) :
    follow [] (components (slashes a)) = follow [] (components (slashes b)) := by
  rcases climb_eq_of_normalizeChars_eq ha hb h with heq | ⟨hanch, hanch', hway⟩
  · rw [heq]
  · rw [← hcase.follow_climb hup hanch.root, ← hcase.follow_climb hup hanch'.root, hway]

/-! ## The working directory in other letters -/

theorem mem_of_map_toLower_eq {c : Char} (hc : c.isAlpha = false)
    (h : piece'.map Char.toLower = piece.map Char.toLower) (hmem : c ∈ piece') : c ∈ piece := by
  have hlower : c ∈ piece'.map Char.toLower :=
    List.mem_map.mpr ⟨c, hmem, (toLower_eq_iff hc).mpr rfl⟩
  rw [h] at hlower
  obtain ⟨d, hd, heq⟩ := List.mem_map.mp hlower
  rwa [(toLower_eq_iff hc).mp heq] at hd

theorem IsComponent.recased (hpiece : IsComponent piece)
    (h : piece'.map Char.toLower = piece.map Char.toLower) : IsComponent piece' where
  ne_nil := by
    rintro rfl
    exact hpiece.ne_nil (List.map_eq_nil_iff.mp h.symm)
  ne_here := by
    rintro rfl
    exact hpiece.ne_here ((map_toLower_eq_iff (by simp)).mp h.symm)
  slash hmem := hpiece.slash (mem_of_map_toLower_eq rfl h hmem)

theorem exists_of_mem_of_folded_eq (h : folded true pieces = folded true base)
    (hmem : piece' ∈ pieces) :
    ∃ piece ∈ base, piece'.map Char.toLower = piece.map Char.toLower := by
  have hlower : piece'.map Char.toLower ∈ folded true base := h ▸ List.mem_map_of_mem hmem
  obtain ⟨piece, hpiece, heq⟩ := List.mem_map.mp hlower
  exact ⟨piece, hpiece, heq.symm⟩

theorem backslash_not_mem_of_mem_components (h : piece ∈ components (slashes path)) :
    '\\' ∉ piece := by
  intro hc
  rcases mem_slashes (Text.mem_of_mem_split (List.mem_filter.mp h).1 hc) with hslash | ⟨-, hne⟩
  · exact absurd hslash (by decide)
  · exact hne rfl

/-- The path that has components from the root. -/
def rootedAt (pieces : List (List Char)) : List Char := '/' :: join '/' pieces

theorem posix_rootedAt (h : ∀ p ∈ pieces, '\\' ∉ p) : Posix (rootedAt pieces) where
  rooted := rfl
  no_backslash hmem := by
    rcases List.mem_cons.mp hmem with hslash | hmem
    · exact absurd hslash (by decide)
    · rcases Text.mem_join hmem with hslash | ⟨p, hp, hc⟩
      · exact absurd hslash (by decide)
      · exact h p hp hc

/-- A path that is put together from components has them again. -/
theorem components_rootedAt (h : ∀ p ∈ pieces, IsComponent p ∧ '\\' ∉ p) :
    components (slashes (rootedAt pieces)) = pieces := by
  rw [slashes_eq_self (posix_rootedAt fun p hp => (h p hp).2).no_backslash]
  exact components_join fun p hp => (h p hp).1

theorem isComponent_of_folded_eq (h : folded true pieces = folded true (components (slashes path))) :
    ∀ p ∈ pieces, IsComponent p ∧ '\\' ∉ p := by
  intro p hp
  obtain ⟨piece, hpiece, hlower⟩ := exists_of_mem_of_folded_eq h hp
  exact ⟨(isComponent_of_mem hpiece).recased hlower, fun hc =>
    backslash_not_mem_of_mem_components hpiece (mem_of_map_toLower_eq rfl hlower hc)⟩

/-- On what is taken for a drive, the working directory in other letters is another place, and a path
to it is spelled like one to the working directory itself. -/
theorem exists_recased_directory {cwd : String} (hcwd : cwd.toList.head? = some '/')
    (hdrive : (drive? (parts cwd)).isSome = true) (hup : ['.', '.'] ∉ parts cwd)
    (h : folded true pieces = folded true (parts cwd)) :
    ∃ path : String, Posix path.toList ∧ normalize path cwd = "." ∧
      follow [] (parts path) = pieces := by
  have hpieces := isComponent_of_folded_eq h
  have hposix : Posix (rootedAt pieces) := posix_rootedAt fun p hp => (hpieces p hp).2
  have hcomponents := components_rootedAt hpieces
  have hne : components (slashes cwd.toList) ≠ [] := fun hnil => by
    rw [parts, hnil] at hdrive
    cases hdrive
  have hself : normalizeChars (rootedAt pieces) cwd.toList = ['.'] := by
    have hfront : components (slashes (rootedAt pieces)) = pieces ++ [] :=
      hcomponents.trans (List.append_nil pieces).symm
    rw [parts] at hdrive
    rw [normalizeChars_of_folded_eq (isAbsolute_of_head? (head?_slashes hposix.rooted))
      (isAbsolute_of_head? (head?_slashes hcwd)) hne hfront (hdrive.symm ▸ h), if_pos rfl]
  refine ⟨String.ofList (rootedAt pieces), ?_, ?_, ?_⟩
  · rwa [String.toList_ofList]
  · rw [normalize, String.toList_ofList, hself]
  · rw [parts, String.toList_ofList, hcomponents, follow_down (up_not_mem_of_folded_eq h hup),
      List.nil_append]

/-- Changing the case of letters does not show once they are folded. -/
theorem folded_map {f : Char → Char} (hf : ∀ c, (f c).toLower = c.toLower)
    (pieces : List (List Char)) : folded true (pieces.map (List.map f)) = folded true pieces := by
  simp [folded, Function.comp_def, hf]

/-! ## Separation -/

/-- Where spellings separate places, the case of letters counts.  Otherwise the working directory in
small and in capital letters would have one spelling. -/
theorem caseCounts_of_separates {cwd : String} (hcwd : cwd.toList.head? = some '/')
    (hup : ['.', '.'] ∉ parts cwd)
    (h : ∀ a b : String, Posix a.toList → Posix b.toList → normalize a cwd = normalize b cwd →
      follow [] (parts a) = follow [] (parts b)) : CaseCounts (parts cwd) := by
  cases hdrive : drive? (parts cwd) with
  | none => exact .inl hdrive
  | some drive =>
    have hsome : (drive? (parts cwd)).isSome = true := by rw [hdrive]; rfl
    obtain ⟨small, hsmall, hspelled, hplace⟩ :=
      exists_recased_directory hcwd hsome hup (folded_map Char.toLower_toLower_eq_toLower (parts cwd))
    obtain ⟨capital, hcapital, hspelled', hplace'⟩ :=
      exists_recased_directory hcwd hsome hup (folded_map Char.toLower_toUpper_eq_toLower (parts cwd))
    have hsame := h small capital hsmall hcapital (hspelled.trans hspelled'.symm)
    rw [hplace, hplace'] at hsame
    refine .inr fun piece hpiece c hc => isAlpha_eq_false_of_toLower_eq_toUpper ?_
    exact List.map_inj_left.mp (List.map_inj_left.mp hsame piece hpiece) c hc

/-- Rooted paths with one spelling lead to places that are equal up to the case of letters, and to
one place if they have no drive.  They always lead to one place exactly when the case of letters
counts in the working directory. -/
theorem normalize_separates_iff {cwd : String} (hcwd : cwd.toList.head? = some '/')
    (hup : ['.', '.'] ∉ parts cwd) :
    (∀ a b : String, Posix a.toList → Posix b.toList → normalize a cwd = normalize b cwd →
      folded true (follow [] (parts a)) = folded true (follow [] (parts b)) ∧
        (drive? (parts a) = none → follow [] (parts a) = follow [] (parts b))) ∧
    ((∀ a b : String, Posix a.toList → Posix b.toList → normalize a cwd = normalize b cwd →
      follow [] (parts a) = follow [] (parts b)) ↔ CaseCounts (parts cwd)) := by
  have hchars : ∀ {a b : String}, normalize a cwd = normalize b cwd →
      normalizeChars a.toList cwd.toList = normalizeChars b.toList cwd.toList := fun h =>
    String.ofList_injective h
  refine ⟨fun a b ha hb h => ⟨folded_place_eq hup ha.rooted hb.rooted (hchars h), fun hnone => ?_⟩,
    caseCounts_of_separates hcwd hup,
    fun hcase a b ha hb h => place_eq hcase hup ha.rooted hb.rooted (hchars h)⟩
  rcases climb_eq_of_normalizeChars_eq ha.rooted hb.rooted (hchars h) with heq | ⟨hanch, -, -⟩
  · rw [parts, parts, heq]
  · have hdrive : (drive? (parts a)).isSome = (drive? (parts cwd)).isSome :=
      isSome_drive?_eq hanch.root
    rw [hnone] at hdrive
    have hcase : CaseCounts (parts cwd) :=
      .inl (Option.isNone_iff_eq_none.mp (Option.isSome_eq_false_iff.mp hdrive.symm))
    exact place_eq hcase hup ha.rooted hb.rooted (hchars h)

/-- Two ways out of a directory, and a directory below a component with a colon, where a file has the
spelling of another one. -/
theorem normalize_separates_climbing :
    let cwd := "/repo/pkg"
    let a := "/repo/../b.js"
    let b := "/b.js"
    let colonCwd := "/data:/app"
    let c := "/data:/App/../b.js"
    let d := "/data:/app/../b.js"
    (cwd.toList.head? = some '/' ∧ ['.', '.'] ∉ parts cwd ∧ Posix a.toList ∧ Posix b.toList ∧
      normalize a cwd = normalize b cwd ∧ drive? (parts a) = none) ∧
    follow [] (parts a) = follow [] (parts b) ∧
    (colonCwd.toList.head? = some '/' ∧ ['.', '.'] ∉ parts colonCwd ∧ Posix c.toList ∧
      Posix d.toList ∧ normalize c colonCwd = normalize d colonCwd) ∧
    folded true (follow [] (parts c)) = folded true (follow [] (parts d)) := by
  intro cwd a b colonCwd c d
  have hcwd : cwd.toList.head? = some '/' ∧ ['.', '.'] ∉ parts cwd := by decide +kernel
  have hcolon : colonCwd.toList.head? = some '/' ∧ ['.', '.'] ∉ parts colonCwd := by
    decide +kernel
  have ha : Posix a.toList := ⟨by decide +kernel, by decide +kernel⟩
  have hb : Posix b.toList := ⟨by decide +kernel, by decide +kernel⟩
  have hc : Posix c.toList := ⟨by decide +kernel, by decide +kernel⟩
  have hd : Posix d.toList := ⟨by decide +kernel, by decide +kernel⟩
  have hab : normalize a cwd = normalize b cwd ∧ drive? (parts a) = none := by decide +kernel
  have hcd : normalize c colonCwd = normalize d colonCwd := by decide +kernel
  exact ⟨⟨hcwd.1, hcwd.2, ha, hb, hab⟩,
    ((normalize_separates_iff hcwd.1 hcwd.2).1 a b ha hb hab.1).2 hab.2,
    ⟨hcolon.1, hcolon.2, hc, hd, hcd⟩,
    ((normalize_separates_iff hcolon.1 hcolon.2).1 c d hc hd hcd).1⟩

/-- Two directories that differ in one letter are one where a component with a colon is in front. -/
theorem normalize_merges_cases :
    let cwd := "/data:/app"
    let a := "/data:/app/a.js"
    let b := "/data:/App/a.js"
    (cwd.toList.head? = some '/' ∧ ['.', '.'] ∉ parts cwd ∧ Posix a.toList ∧ Posix b.toList) ∧
      normalize a cwd = normalize b cwd ∧ follow [] (parts a) ≠ follow [] (parts b) := by
  refine ⟨⟨by decide +kernel, by decide +kernel, ?_, ?_⟩, by decide +kernel, by decide +kernel⟩
  · exact ⟨by decide +kernel, by decide +kernel⟩
  · exact ⟨by decide +kernel, by decide +kernel⟩

end LintRatchet.SourcePath
