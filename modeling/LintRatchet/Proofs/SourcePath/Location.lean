import LintRatchet.Proofs.SourcePath.Letters
import Mathlib.Data.List.Induction

/-!
# Where a path leads

A place is given by the components on the way to it from the root.  To *follow*
a path from a place is to take its components one after the other: `..` leads
one up, but not beyond the root, and every other component leads into what it
names.

The spelling of an absolute path, followed from the working directory, leads to
the place of the path itself (`normalize_location`).  The way goes up out of what
is not shared and is then at what is shared, from where the rest of the path is
followed.  The working directory must not have `..` among its components, since
each component of it stands for one step up.  On drives what is shared may differ
in the case of ASCII letters, and so may the two places.
-/

namespace LintRatchet.SourcePath

variable {piece : List Char} {place place' pieces front front' : List (List Char)}

/-! ## Following a path -/

/-- The place that a component leads to. -/
def enter (place : List (List Char)) (piece : List Char) : List (List Char) :=
  if piece = ['.', '.'] then place.dropLast else place ++ [piece]

/-- The place that components lead to, one after the other. -/
def follow (place pieces : List (List Char)) : List (List Char) := pieces.foldl enter place

theorem follow_cons (place : List (List Char)) (piece : List Char) (pieces : List (List Char)) :
    follow place (piece :: pieces) = follow (enter place piece) pieces := rfl

theorem follow_append (place front back : List (List Char)) :
    follow place (front ++ back) = follow (follow place front) back := List.foldl_append

/-- As many steps up as there are components lead back to where they started. -/
theorem follow_up (place up : List (List Char)) :
    follow (place ++ up) (List.replicate up.length ['.', '.']) = place := by
  induction up using List.reverseRecOn with
  | nil => exact List.append_nil place
  | append_singleton up u ih =>
    have hstep : enter (place ++ (up ++ [u])) ['.', '.'] = place ++ up := by
      rw [enter, if_pos rfl, ← List.append_assoc, List.dropLast_concat]
    rw [List.length_append, List.length_singleton, List.replicate_succ, follow_cons, hstep]
    exact ih

/-- Without `..` a path leads down only. -/
theorem follow_down (h : ['.', '.'] ∉ pieces) (place : List (List Char)) :
    follow place pieces = place ++ pieces := by
  induction pieces generalizing place with
  | nil => exact (List.append_nil place).symm
  | cons piece pieces ih =>
    simp only [List.mem_cons, not_or] at h
    rw [follow_cons, enter, if_neg (Ne.symm h.1), ih h.2, List.append_assoc, List.singleton_append]

/-! ## Following without regard to case -/

theorem folded_enter {onDrive : Bool} (h : folded onDrive place = folded onDrive place')
    (piece : List Char) :
    folded onDrive (enter place piece) = folded onDrive (enter place' piece) := by
  unfold enter
  split
  · rw [folded, folded, List.map_dropLast, List.map_dropLast]
    exact congrArg List.dropLast h
  · rw [folded_append, folded_append, h]

/-- The same path leads from places that are equal up to case to such places. -/
theorem folded_follow {onDrive : Bool} (h : folded onDrive place = folded onDrive place')
    (pieces : List (List Char)) :
    folded onDrive (follow place pieces) = folded onDrive (follow place' pieces) := by
  induction pieces generalizing place place' with
  | nil => exact h
  | cons piece pieces ih => exact ih (folded_enter h piece)

/-- What is equal up to case to components without `..` has none. -/
theorem up_not_mem_of_folded_eq {onDrive : Bool} (h : folded onDrive front = folded onDrive front')
    (hup : ['.', '.'] ∉ front') : ['.', '.'] ∉ front := by
  cases onDrive with
  | false =>
    rw [folded_false, folded_false] at h
    rwa [h]
  | true =>
    intro hmem
    have hlower : ['.', '.'] ∈ folded true front' := h ▸ List.mem_map_of_mem hmem
    obtain ⟨piece, hpiece, heq⟩ := List.mem_map.mp hlower
    have hpiece' : piece.map Char.toLower = ['.', '.'] := heq
    exact hup ((map_toLower_eq_iff (by simp)).mp hpiece' ▸ hpiece)

/-! ## The way to a path -/

/-- The way to a path, followed from the working directory, and the path itself go on alike from what
the two share, each in its own letters. -/
theorem follow_climb_spec (target : List (List Char)) {base : List (List Char)}
    (hup : ['.', '.'] ∉ base) :
    ∃ front front' down, front' <+: base ∧
      folded (drive? target).isSome front = folded (drive? target).isSome front' ∧
      follow base (climb target base) = follow front' down ∧
      follow [] target = follow front down := by
  obtain ⟨front, front', down, up, htarget, hbase, hfold, hclimb⟩ := climb_spec target base
  have hfront' : ['.', '.'] ∉ front' := fun h => hup (hbase ▸ List.mem_append_left up h)
  have hfront := up_not_mem_of_folded_eq hfold hfront'
  refine ⟨front, front', down, hbase ▸ List.prefix_append front' up, hfold, ?_, ?_⟩
  · rw [hclimb, hbase, follow_append, follow_up]
  · rw [htarget, follow_append, follow_down hfront, List.nil_append]

/-- The way to a path, followed from the working directory, leads where the path leads. -/
theorem follow_climb (target : List (List Char)) {base : List (List Char)}
    (hup : ['.', '.'] ∉ base) :
    folded (drive? target).isSome (follow base (climb target base)) =
      folded (drive? target).isSome (follow [] target) := by
  obtain ⟨front, front', down, -, hfold, hway, hpath⟩ := follow_climb_spec target hup
  rw [hway, hpath]
  exact (folded_follow hfold down).symm

/-- The components of a path, whatever its separators. -/
def parts (path : String) : List (List Char) := components (slashes path.toList)

/-- The spelling of an absolute path leads from the working directory where the path itself leads
from the root, up to case on a drive.  A path with another root stays as it is. -/
theorem normalize_location {path cwd : String} (hpath : isAbsolute (slashes path.toList) = true)
    (hcwd : isAbsolute (slashes cwd.toList) = true) (hup : ['.', '.'] ∉ parts cwd) :
    (drive? (parts path) = none → drive? (parts cwd) = none →
      follow (parts cwd) (components (normalize path cwd).toList) = follow [] (parts path)) ∧
    (∀ d e, drive? (parts path) = some d → drive? (parts cwd) = some e →
      d.map Char.toLower = e.map Char.toLower →
      folded true (follow (parts cwd) (components (normalize path cwd).toList)) =
        folded true (follow [] (parts path))) ∧
    (sameRoot (parts path) (parts cwd) = false → normalize path cwd = withSlashes path) := by
  have hleads : sameRoot (parts path) (parts cwd) = true →
      folded (drive? (parts path)).isSome
        (follow (parts cwd) (components (normalize path cwd).toList)) =
      folded (drive? (parts path)).isSome (follow [] (parts path)) := fun hroot => by
    rw [normalize, String.toList_ofList, normalizeChars_of_anchored ⟨hpath, hcwd, hroot⟩,
      components_way]
    exact follow_climb _ hup
  refine ⟨fun hnone hnone' => ?_, fun d e hd he hlower => ?_, fun hroot => ?_⟩
  · have hroot : sameRoot (parts path) (parts cwd) = true := by rw [sameRoot, hnone, hnone']
    have h := hleads hroot
    rwa [hnone, Option.isSome_none, folded_false, folded_false] at h
  · have hroot : sameRoot (parts path) (parts cwd) = true := by
      rw [sameRoot, hd, he]
      exact decide_eq_true hlower
    have h := hleads hroot
    rwa [hd, Option.isSome_some] at h
  · have hnot : ¬Anchored (slashes path.toList) (slashes cwd.toList) := fun h => by
      rw [parts, parts, h.root] at hroot
      cases hroot
    rw [normalize, normalizeChars_of_not_anchored hnot,
      dropHere_eq_self (not_prefix_of_isAbsolute hpath)]
    rfl

/-- Up out of the working directory and down through `..`, and the same on a drive. -/
theorem normalize_location_climbing :
    let path := "/work//lib/../b/./a.js"
    let cwd := "/work/./pkg/"
    let drivePath := "c:\\Work\\..\\a.js"
    let driveCwd := "C:\\work\\pkg"
    (isAbsolute (slashes path.toList) = true ∧ isAbsolute (slashes cwd.toList) = true ∧
      ['.', '.'] ∉ parts cwd ∧ drive? (parts path) = none ∧ drive? (parts cwd) = none) ∧
    (normalize path cwd = "../lib/../b/a.js" ∧
      follow (parts cwd) (components (normalize path cwd).toList) = follow [] (parts path)) ∧
    (isAbsolute (slashes drivePath.toList) = true ∧ isAbsolute (slashes driveCwd.toList) = true ∧
      ['.', '.'] ∉ parts driveCwd ∧ drive? (parts drivePath) = some ['c', ':'] ∧
      drive? (parts driveCwd) = some ['C', ':']) ∧
    (normalize drivePath driveCwd = "../../a.js" ∧
      folded true (follow (parts driveCwd) (components (normalize drivePath driveCwd).toList)) =
        folded true (follow [] (parts drivePath))) := by
  intro path cwd drivePath driveCwd
  have h : isAbsolute (slashes path.toList) = true ∧ isAbsolute (slashes cwd.toList) = true ∧
      ['.', '.'] ∉ parts cwd ∧ drive? (parts path) = none ∧ drive? (parts cwd) = none := by
    decide +kernel
  have hdrive : isAbsolute (slashes drivePath.toList) = true ∧
      isAbsolute (slashes driveCwd.toList) = true ∧ ['.', '.'] ∉ parts driveCwd ∧
      drive? (parts drivePath) = some ['c', ':'] ∧ drive? (parts driveCwd) = some ['C', ':'] := by
    decide +kernel
  obtain ⟨hpath, hcwd, hup, hnone, hnone'⟩ := h
  obtain ⟨hpath', hcwd', hup', hd, he⟩ := hdrive
  exact ⟨⟨hpath, hcwd, hup, hnone, hnone'⟩,
    ⟨by decide +kernel, (normalize_location hpath hcwd hup).1 hnone hnone'⟩,
    ⟨hpath', hcwd', hup', hd, he⟩,
    by decide +kernel, (normalize_location hpath' hcwd' hup').2.1 _ _ hd he rfl⟩

end LintRatchet.SourcePath
