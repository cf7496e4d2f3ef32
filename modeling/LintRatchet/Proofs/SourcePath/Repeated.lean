import LintRatchet.Proofs.SourcePath.Relative

/-!
# Bringing a path into its one spelling again

The spelling of a path has no backslash and no leading `./`.  It is left alone
unless it is itself anchored in the working directory (`normalizeChars_eq_self_iff`).
So a second pass changes nothing but what the first pass *exposed*: an absolute
path that stood behind something that was dropped.  There are two places where
it can stand.

* Behind leading `./`.  The rest of `.//a` is `/a`.
* Behind a working directory on a drive.  Below `C:/work` the rest of
  `C:/work/C:/work/a` is `C:/work/a`.

`normalize_stable_iff` says that these are all.
-/

namespace LintRatchet.SourcePath

open LintRatchet.Text (split join split_append split_join)

variable {path cwd : List Char} {pieces target base : List (List Char)}

/-! ## Roots -/

theorem isSome_drive?_eq (h : sameRoot target base = true) :
    (drive? target).isSome = (drive? base).isSome := by
  unfold sameRoot at h
  split at h
  · next htarget hbase => rw [htarget, hbase]
  · next htarget hbase => rw [htarget, hbase]; rfl
  · exact absurd h Bool.false_ne_true

/-- An absolute path that does not start with a slash starts with a drive. -/
theorem isSome_drive?_of_isAbsolute (h : isAbsolute path = true) (hslash : path.head? ≠ some '/') :
    (drive? (components path)).isSome = true := by
  rcases isAbsolute_iff.mp h with ⟨rest, rfl⟩ | ⟨c, rest, rfl, -⟩
  · exact absurd rfl hslash
  · have hc : c ≠ '/' := fun hc => hslash (congrArg some hc)
    have hpiece : '/' ∉ [c, ':'] := by simp [hc.symm]
    have hsplit : split '/' (c :: ':' :: '/' :: rest) = [c, ':'] :: split '/' rest :=
      split_append hpiece rest
    simp [components, hsplit, drive?]

/-! ## The way as a path -/

theorem head?_way (path cwd : List Char) : (way path cwd).head? ≠ some '/' := by
  unfold way
  split
  · decide
  · exact head?_join fun _ => isComponent_of_mem_climb

/-- A way that is itself absolute does not climb: the path runs through the working directory, and
what comes after it starts with a drive. -/
theorem exists_rest_of_isAbsolute_way (h : isAbsolute (way path cwd) = true) :
    ∃ front rest, components path = front ++ rest ∧
      folded (drive? (components path)).isSome front =
        folded (drive? (components path)).isSome (components cwd) ∧
      way path cwd = join '/' rest ∧ (drive? rest).isSome = true := by
  have hdrive := isSome_drive?_of_isAbsolute h (head?_way path cwd)
  rw [components_way] at hdrive
  obtain ⟨front, front', down, up, hpath, hcwd, hfold, hclimb⟩ :=
    climb_spec (components path) (components cwd)
  rw [hclimb] at hdrive
  cases up with
  | nil =>
    rw [List.append_nil] at hcwd
    rw [List.length_nil, List.replicate_zero, List.nil_append] at hclimb hdrive
    have hne : down ≠ [] := by
      rintro rfl
      cases hdrive
    refine ⟨front, down, hpath, hcwd ▸ hfold, ?_, hdrive⟩
    rw [way, hclimb, if_neg hne]
  | cons u up => cases hdrive

/-- The way to an anchored path is another path. -/
theorem way_ne (h : Anchored path cwd) : way path cwd ≠ path := by
  intro hsame
  have habs : isAbsolute (way path cwd) = true := hsame.symm ▸ h.absolute
  obtain ⟨front, rest, hpath, hfold, -, hdrive⟩ := exists_rest_of_isAbsolute_way habs
  have hclimb := components_way path cwd
  rw [hsame, hpath, climb_of_folded_eq (hpath ▸ hfold)] at hclimb
  have hfront : front = [] := List.append_left_eq_self.mp hclimb
  rw [hfront] at hfold hpath
  have hcwd : components cwd = [] := List.map_eq_nil_iff.mp hfold.symm
  have hroot := isSome_drive?_eq h.root
  rw [hcwd, hpath, List.nil_append, hdrive] at hroot
  cases hroot

/-! ## Paths that are left alone -/

theorem not_prefix_normalizeChars (path cwd : List Char) :
    ¬['.', '/'] <+: normalizeChars path cwd := by
  by_cases h : Anchored (slashes path) (slashes cwd)
  · rw [normalizeChars_of_anchored h]
    exact not_prefix_way _ _
  · rw [normalizeChars_of_not_anchored h]
    exact not_prefix_dropHere _

/-- A path as it is written when it needs no rewriting in a working directory. -/
structure Settled (path cwd : List Char) : Prop where
  no_backslash : '\\' ∉ path
  no_here : ¬['.', '/'] <+: path
  not_anchored : ¬Anchored path (slashes cwd)

/-- A path is left as it is when it is settled. -/
theorem normalizeChars_eq_self_iff : normalizeChars path cwd = path ↔ Settled path cwd := by
  constructor
  · intro hself
    have hbackslash : '\\' ∉ path := hself ▸ backslash_not_mem_normalizeChars path cwd
    have hslashes := slashes_eq_self hbackslash
    refine ⟨hbackslash, hself ▸ not_prefix_normalizeChars path cwd, fun hanchored => ?_⟩
    have hway := normalizeChars_of_anchored (hslashes.symm ▸ hanchored)
    rw [hself, hslashes] at hway
    exact way_ne hanchored hway.symm
  · intro h
    have hslashes := slashes_eq_self h.no_backslash
    rw [normalizeChars_of_not_anchored (hslashes.symm ▸ h.not_anchored), hslashes,
      dropHere_eq_self h.no_here]

/-! ## What a second pass changes -/

/-- An absolute path that is on the root of the working directory stands behind what the first
pass drops. -/
inductive Exposed (path cwd : List Char) : Prop
  /-- It stands behind leading `./`. -/
  | here : isAbsolute path = false → Anchored (dropHere path) cwd → Exposed path cwd
  /-- It stands behind the working directory. -/
  | under {front rest : List (List Char)} : Anchored path cwd → components path = front ++ rest →
      folded true front = folded true (components cwd) → Anchored (join '/' rest) cwd →
      Exposed path cwd

/-- What stands behind the working directory can only be absolute on a drive. -/
theorem isSome_drive?_of_rest {rest : List (List Char)} (hpath : Anchored path cwd)
    (hcomponents : ∀ p ∈ rest, IsComponent p) (hrest : Anchored (join '/' rest) cwd) :
    (drive? (components path)).isSome = true := by
  rw [isSome_drive?_eq hpath.root, ← isSome_drive?_eq hrest.root]
  exact isSome_drive?_of_isAbsolute hrest.absolute (head?_join hcomponents)

/-- A normalized path is anchored again only when dropping points has exposed it. -/
theorem anchored_normalizeChars_iff :
    Anchored (normalizeChars path cwd) (slashes cwd) ↔ Exposed (slashes path) (slashes cwd) := by
  by_cases hanch : Anchored (slashes path) (slashes cwd)
  · rw [normalizeChars_of_anchored hanch]
    constructor
    · intro h
      obtain ⟨front, rest, hpath, hfold, hway, -⟩ := exists_rest_of_isAbsolute_way h.absolute
      have hcomponents : ∀ p ∈ rest, IsComponent p := fun p hp =>
        isComponent_of_mem (hpath ▸ List.mem_append_right front hp)
      rw [hway] at h
      rw [isSome_drive?_of_rest hanch hcomponents h] at hfold
      exact .under hanch hpath hfold h
    · intro h
      cases h with
      | here habs _ =>
        rw [hanch.absolute] at habs
        cases habs
      | @under front rest _ hpath hfold hrest =>
        have hcomponents : ∀ p ∈ rest, IsComponent p := fun p hp =>
          isComponent_of_mem (hpath ▸ List.mem_append_right front hp)
        have hdrive := isSome_drive?_of_rest hanch hcomponents hrest
        have hne : rest ≠ [] := by
          rintro rfl
          exact absurd hrest.absolute (by decide)
        rw [hpath] at hdrive
        rwa [way, hpath, climb_of_folded_eq (by rw [hdrive]; exact hfold), if_neg hne]
  · rw [normalizeChars_of_not_anchored hanch]
    constructor
    · intro h
      refine .here (Bool.eq_false_iff.mpr fun habs => ?_) h
      rw [dropHere_eq_self (not_prefix_of_isAbsolute habs)] at h
      exact hanch h
    · intro h
      cases h with
      | here _ h => exact h
      | under h _ _ _ => exact absurd h hanch

/-- The spelling of a path has no backslash, and a second pass changes nothing but what the first one
exposed. -/
theorem normalize_stable_iff (path cwd : String) :
    '\\' ∉ (normalize path cwd).toList ∧
      (normalize path cwd = path ↔ Settled path.toList cwd.toList) ∧
      (normalize (normalize path cwd) cwd = normalize path cwd ↔
        ¬Exposed (slashes path.toList) (slashes cwd.toList)) := by
  have heq : ∀ p : String, normalize p cwd = p ↔ Settled p.toList cwd.toList := fun p => by
    rw [← normalizeChars_eq_self_iff, normalize, ← String.toList_inj, String.toList_ofList]
  refine ⟨?_, heq path, ?_⟩
  · rw [normalize, String.toList_ofList]
    exact backslash_not_mem_normalizeChars _ _
  · rw [heq, ← anchored_normalizeChars_iff, normalize, String.toList_ofList]
    exact ⟨fun h => h.not_anchored, fun h =>
      ⟨backslash_not_mem_normalizeChars _ _, not_prefix_normalizeChars _ _, h⟩⟩

/-- Behind leading `./` and behind a working directory on a drive. -/
theorem normalize_exposed :
    (normalize ".//a.js" "/work" = "/a.js" ∧ normalize "/a.js" "/work" = "../a.js") ∧
      (normalize "C:/work/C:/work/a.js" "C:/work" = "C:/work/a.js" ∧
        normalize "C:/work/a.js" "C:/work" = "a.js") := by
  decide +kernel

end LintRatchet.SourcePath
