import LintRatchet.Fingerprint
import LintRatchet.Proofs.ErrorLine
import LintRatchet.Proofs.SourcePath.Location
import Mathlib.Logic.Relation

/-!
# The spellings of a file

A file below the working directory can be written in many ways.  A `Spelling`
is relative, after any number of `./`, or it is the working directory, a slash
and the relative path.  The working directory may in turn be written with
separators at its end, with doubled ones and with `.` between them
(`Respelled`), and on a drive with other letter cases.  Any slash may be a
backslash.

`normalize_spelling` says that every one of them has the relative path as its
one spelling.  A respelled directory has the same components and is just as
absolute, and a path that runs through the components of the working directory
is what comes after them.  So annotation lines that differ only in the spelling
of the file carry one finding.
-/

namespace LintRatchet

namespace Text

theorem split_append_cons (sep : Char) (front back : List Char) :
    split sep (front ++ sep :: back) = split sep front ++ split sep back := by
  induction front with
  | nil => simp [split]
  | cons c front ih =>
    simp only [List.cons_append, split, ih]
    split
    · rfl
    · cases hs : split sep front with
      | nil => exact absurd hs (split_ne_nil sep front)
      | cons piece pieces => rfl

theorem mem_of_mem_of_ne {sep c : Char} {cs : List Char} (h : c ∈ cs) (hne : c ≠ sep) :
    ∃ piece ∈ split sep cs, c ∈ piece := by
  rw [← join_split sep cs] at h
  exact (mem_join h).resolve_left hne

end Text

namespace SourcePath

open LintRatchet.Text (split join join_split)

variable {cwd file path dir dir' : List Char}

/-! ## Directories -/

/-- One thing more in how a directory is written, which leaves it the same directory. -/
inductive Respelled : List Char → List Char → Prop
  /-- A separator at the end. -/
  | trailing (dir : List Char) : Respelled dir (dir ++ ['/'])
  /-- A separator doubled. -/
  | doubled (front back : List Char) :
      Respelled (front ++ '/' :: back) (front ++ '/' :: '/' :: back)
  /-- A `.` after a separator. -/
  | here (front back : List Char) :
      Respelled (front ++ '/' :: back) (front ++ '/' :: '.' :: '/' :: back)

/-- A slash divides the components of a path. -/
theorem components_append_slash (front back : List Char) :
    components (front ++ '/' :: back) = components front ++ components back := by
  rw [components, Text.split_append_cons, List.filter_append]
  rfl

/-- As many points and slashes as there are in front are dropped. -/
theorem dropHere_points (n : Nat) (path : List Char) :
    dropHere ((List.replicate n ['.', '/']).flatten ++ path) = dropHere path := by
  induction n with
  | zero => rfl
  | succ n ih => exact ih

theorem isAbsolute_append (h : isAbsolute dir = true) (rest : List Char) :
    isAbsolute (dir ++ rest) = true := by
  rcases isAbsolute_iff.mp h with ⟨r, rfl⟩ | ⟨c, r, rfl, hc⟩
  · rfl
  · exact isAbsolute_iff.mpr (.inr ⟨c, r ++ rest, rfl, hc⟩)

/-- Where a text is absolute is settled before its first slash that is no part of a root. -/
theorem isAbsolute_append_slash (dir rest rest' : List Char) :
    isAbsolute (dir ++ '/' :: rest) = isAbsolute (dir ++ '/' :: rest') := by
  rw [Bool.eq_iff_iff, isAbsolute_iff, isAbsolute_iff]
  rcases dir with _ | ⟨c, _ | ⟨d, _ | ⟨e, dir⟩⟩⟩ <;> simp

/-- A directory that is spelled in another way has the same components. -/
theorem Respelled.components_eq (h : Respelled dir dir') : components dir = components dir' := by
  cases h with
  | trailing => rw [components_append_slash]; exact (List.append_nil _).symm
  | doubled front back =>
    have hnone : components ('/' :: back) = components back := components_append_slash [] back
    rw [components_append_slash, components_append_slash, hnone]
  | here front back =>
    have hnone : components ('.' :: '/' :: back) = components back :=
      components_append_slash ['.'] back
    rw [components_append_slash, components_append_slash, hnone]

theorem Respelled.isAbsolute_eq (h : Respelled dir dir') (rest : List Char) :
    isAbsolute (dir ++ '/' :: rest) = isAbsolute (dir' ++ '/' :: rest) := by
  cases h with
  | trailing | doubled | here =>
    simp only [List.append_assoc, List.cons_append, List.nil_append]
    exact isAbsolute_append_slash ..

/-- What is kept by each respelling is kept by any number of them, forwards and backwards. -/
theorem apply_respelled {α : Type} {f : List Char → α}
    (hf : ∀ dir dir', Respelled dir dir' → f dir = f dir')
    (h : Relation.EqvGen Respelled dir dir') : f dir = f dir' := by
  induction h with
  | rel dir dir' h => exact hf dir dir' h
  | refl dir => rfl
  | symm dir dir' _ ih => exact ih.symm
  | trans dir dir' dir'' _ _ ih ih' => exact ih.trans ih'

theorem isAbsolute_append_of_same {onDrive : Bool} (h : same onDrive dir dir' = true)
    (rest : List Char) : isAbsolute (dir ++ '/' :: rest) = isAbsolute (dir' ++ '/' :: rest) := by
  cases onDrive with
  | false =>
    obtain rfl : dir = dir' := by simpa [same] using h
    rfl
  | true =>
    have hlower : dir.map Char.toLower = dir'.map Char.toLower := by simpa [same] using h
    rw [← isAbsolute_map_toLower, ← isAbsolute_map_toLower (dir' ++ _), List.map_append,
      List.map_append, hlower]

/-! ## Files -/

/-- A relative path of segments that are components without backslashes. -/
structure Plain (file : List Char) : Prop where
  not_absolute : isAbsolute file = false
  segments : ∀ s ∈ split '/' file, s ≠ [] ∧ s ≠ ['.'] ∧ '\\' ∉ s

/-- The ways to write a file in a working directory, with slashes. -/
inductive Spelling (cwd file : List Char) : List Char → Prop
  /-- The relative path, after any number of `./`. -/
  | relative (n : Nat) : Spelling cwd file ((List.replicate n ['.', '/']).flatten ++ file)
  /-- The working directory and the relative path.  On a drive the case of the directory does not
  count. -/
  | absolute {dir dir' : List Char} : Relation.EqvGen Respelled cwd dir →
      same (drive? (components cwd)).isSome dir' dir = true → Spelling cwd file (dir' ++ '/' :: file)

namespace Plain

theorem no_backslash (h : Plain file) : '\\' ∉ file := by
  intro hmem
  have hne : '\\' ≠ '/' := by decide
  obtain ⟨s, hs, hc⟩ := Text.mem_of_mem_of_ne hmem hne
  exact (h.segments s hs).2.2 hc

/-- A plain path has no components but its parts. -/
theorem components_eq (h : Plain file) : components file = split '/' file := by
  rw [components, List.filter_eq_self]
  intro s hs
  obtain ⟨hne, hhere, -⟩ := h.segments s hs
  simp [hne, hhere]

theorem join_components (h : Plain file) : join '/' (components file) = file := by
  rw [h.components_eq, join_split]

theorem components_ne_nil (h : Plain file) : components file ≠ [] := by
  rw [h.components_eq]
  exact Text.split_ne_nil '/' file

theorem no_here (h : Plain file) : ¬['.', '/'] <+: file := by
  rintro ⟨rest, rfl⟩
  have hsplit : split '/' ('.' :: '/' :: rest) = ['.'] :: split '/' rest :=
    Text.split_append_cons '/' ['.'] rest
  exact (h.segments ['.'] (hsplit ▸ List.mem_cons_self)).2.1 rfl

/-- Leading `./` are dropped, and what is left is left alone. -/
theorem normalizeChars_relative (h : Plain file) {n : Nat}
    (hpath : slashes path = (List.replicate n ['.', '/']).flatten ++ file) :
    normalizeChars path cwd = file := by
  have habs : isAbsolute (slashes path) = false := by
    rw [hpath]
    cases n with
    | zero => exact h.not_absolute
    | succ n =>
      rw [Bool.eq_false_iff]
      exact fun habs => not_prefix_of_isAbsolute habs ⟨_, rfl⟩
  have hnot : ¬Anchored (slashes path) (slashes cwd) := fun hanchored => by
    rw [hanchored.absolute] at habs
    cases habs
  rw [normalizeChars_of_not_anchored hnot, hpath, dropHere_points, dropHere_eq_self h.no_here]

/-- The working directory in front of the file is dropped, in whatever letters it is on a drive. -/
theorem normalizeChars_absolute (h : Plain file) (hcwd : isAbsolute (slashes cwd) = true)
    (hne : components (slashes cwd) ≠ []) (hpath : slashes path = dir ++ '/' :: file)
    (habs : isAbsolute (dir ++ '/' :: file) = true)
    (hfold : folded (drive? (components (slashes cwd))).isSome (components dir) =
      folded (drive? (components (slashes cwd))).isSome (components (slashes cwd))) :
    normalizeChars path cwd = file := by
  have hcomponents : components (slashes path) = components dir ++ components file := by
    rw [hpath, components_append_slash]
  rw [normalizeChars_of_folded_eq (hpath ▸ habs) hcwd hne hcomponents hfold,
    if_neg h.components_ne_nil, h.join_components]

/-- Every spelling of a plain path normalizes to it. -/
theorem normalizeChars_spelling (h : Plain file) (hcwd : isAbsolute (slashes cwd) = true)
    (hne : components (slashes cwd) ≠ []) (hpath : Spelling (slashes cwd) file (slashes path)) :
    normalizeChars path cwd = file := by
  generalize hp : slashes path = p at hpath
  cases hpath with
  | relative n => exact h.normalizeChars_relative hp
  | @absolute dir dir' hdir hcase =>
    refine h.normalizeChars_absolute hcwd hne hp ?_ ?_
    · have hroot : isAbsolute (slashes cwd ++ '/' :: file) = isAbsolute (dir ++ '/' :: file) :=
        apply_respelled (f := fun d => isAbsolute (d ++ '/' :: file))
          (fun _ _ hstep => hstep.isAbsolute_eq file) hdir
      rw [isAbsolute_append_of_same hcase, ← hroot]
      exact isAbsolute_append hcwd _
    · have hparts : components (slashes cwd) = components dir :=
        apply_respelled (fun _ _ hstep => hstep.components_eq) hdir
      rw [folded_components_of_same hcase, ← hparts]

end Plain

theorem normalize_of_spelling {cwd file path : String}
    (hcwd : isAbsolute (slashes cwd.toList) = true) (hne : parts cwd ≠ [])
    (hfile : Plain file.toList)
    (hpath : Spelling (slashes cwd.toList) file.toList (slashes path.toList)) :
    normalize path cwd = file := by
  rw [normalize, hfile.normalizeChars_spelling hcwd hne hpath, String.ofList_toList]

open ErrorLine in
/-- Every spelling of a file below the working directory, with slashes or backslashes, has the
relative path as its one spelling.  Annotation lines that differ only in the spelling of the file
are read as one finding, which has one fingerprint. -/
theorem normalize_spelling {cwd file : String} (hcwd : isAbsolute (slashes cwd.toList) = true)
    (hne : parts cwd ≠ []) (hfile : Plain file.toList) :
    (∀ path : String, Spelling (slashes cwd.toList) file.toList (slashes path.toList) →
      normalize path cwd = file) ∧
    ∀ a b : Annotation, a.WellFormed → b.WellFormed → b = { a with file := b.file } →
      Spelling (slashes cwd.toList) file.toList (slashes a.file.toList) →
      Spelling (slashes cwd.toList) file.toList (slashes b.file.toList) →
      ∃ f, f.file = file ∧ parse? a.text cwd = some f ∧ parse? b.text cwd = some f ∧
        (parse? a.text cwd).map Finding.fingerprint =
          (parse? b.text cwd).map Finding.fingerprint := by
  refine ⟨fun path hpath => normalize_of_spelling hcwd hne hfile hpath, ?_⟩
  intro a b ha hb hab hafile hbfile
  have hnormal : normalize a.file cwd = file := normalize_of_spelling hcwd hne hfile hafile
  have hnormal' : normalize b.file cwd = file := normalize_of_spelling hcwd hne hfile hbfile
  obtain ⟨f, hf, hreports⟩ := ha.parse?_text cwd
  obtain ⟨g, hg, hreports'⟩ := hb.parse?_text cwd
  have hreported : b.Reports cwd f := by
    rw [hab]
    exact ⟨hreports.rule, by rw [hreports.file, hnormal, hnormal'], hreports.line,
      hreports.message⟩
  have hsame : g = f := hreports'.unique hreported
  exact ⟨f, hreports.file.trans hnormal, hf, hsame ▸ hg, by rw [hf, hg, hsame]⟩

open ErrorLine in
/-- A file that goes up again, after points and below a drive that is written otherwise. -/
theorem normalize_spelling_below_drive :
    let cwd := "C:\\work\\.\\repo/"
    let file := "src/../a.js"
    let a : Annotation := ⟨"rule", "c:/WORK//repo\\src/..\\a.js", "7", "::message"⟩
    let b : Annotation := ⟨"rule", ".\\./src/../a.js", "7", "::message"⟩
    (isAbsolute (slashes cwd.toList) = true ∧ parts cwd ≠ [] ∧ Plain file.toList) ∧
    (Spelling (slashes cwd.toList) file.toList (slashes a.file.toList) ∧
      Spelling (slashes cwd.toList) file.toList (slashes b.file.toList) ∧
      a.WellFormed ∧ b.WellFormed ∧ b = { a with file := b.file }) ∧
    normalize a.file cwd = file ∧ normalize b.file cwd = file ∧
    ∃ f, f.file = file ∧ parse? a.text cwd = some f ∧ parse? b.text cwd = some f ∧
      (parse? a.text cwd).map Finding.fingerprint = (parse? b.text cwd).map Finding.fingerprint := by
  intro cwd file a b
  have hcwd : isAbsolute (slashes cwd.toList) = true := by decide +kernel
  have hne : parts cwd ≠ [] := by decide +kernel
  have hfile : Plain file.toList := ⟨by decide +kernel, by decide +kernel⟩
  have hslashes : slashes cwd.toList = "C:/work".toList ++ '/' :: '.' :: '/' :: "repo/".toList := by
    decide +kernel
  have hpoint : Respelled "C:/work/repo/".toList (slashes cwd.toList) :=
    hslashes ▸ .here "C:/work".toList "repo/".toList
  have hend : Respelled "C:/work/repo".toList "C:/work/repo/".toList :=
    .trailing "C:/work/repo".toList
  have hdouble : Respelled "C:/work/repo".toList "C:/work//repo".toList :=
    .doubled "C:/work".toList "repo".toList
  have hdir : Relation.EqvGen Respelled (slashes cwd.toList) "C:/work//repo".toList :=
    .trans _ _ _ (.symm _ _ (.rel _ _ hpoint))
      (.trans _ _ _ (.symm _ _ (.rel _ _ hend)) (.rel _ _ hdouble))
  have hcase : same (drive? (components (slashes cwd.toList))).isSome "c:/WORK//repo".toList
      "C:/work//repo".toList = true := by decide +kernel
  have hpath : slashes a.file.toList = "c:/WORK//repo".toList ++ '/' :: file.toList := by
    decide +kernel
  have ha : Spelling (slashes cwd.toList) file.toList (slashes a.file.toList) :=
    hpath ▸ .absolute hdir hcase
  have hpath' : slashes b.file.toList =
      (List.replicate 2 ['.', '/']).flatten ++ file.toList := by decide +kernel
  have hb : Spelling (slashes cwd.toList) file.toList (slashes b.file.toList) :=
    hpath' ▸ .relative 2
  have hdigits : ∀ c ∈ a.digits.toList, c.isDigit = true := List.all_eq_true.mp (by decide +kernel)
  have hwell : a.WellFormed := by
    constructor
    case digits_ascii => exact hdigits
    all_goals decide +kernel
  have hwell' : b.WellFormed := { hwell with file_ne := by decide +kernel, file_comma := by decide +kernel }
  have hnormal := (normalize_spelling hcwd hne hfile).1
  have hread := (normalize_spelling hcwd hne hfile).2 a b hwell hwell' rfl ha hb
  exact ⟨⟨hcwd, hne, hfile⟩, ⟨ha, hb, hwell, hwell', rfl⟩, hnormal _ ha, hnormal _ hb, hread⟩

end SourcePath

end LintRatchet
