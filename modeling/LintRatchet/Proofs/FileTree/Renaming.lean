import LintRatchet.Proofs.FileTree.Naming

/-!
# Renaming

`rename` moves what is at a location to where a path leads.  It is used on a
location where there was nothing before, so that a file can be written there
first.  When the file has been moved the tree is as if it had been put where the
path leads at once (`rename_put`), and when it is erased instead nothing has
happened (`erase_put`).

While the file is there it is in the way of nobody.  No path leads anywhere that
it did not lead before (`slot_of_slot_put`), and a path leads where it did
unless it goes through the name of the file (`slot_put_file`).
-/

namespace LintRatchet.FileTree

variable {t : FileTree} {path n : String} {l d place : Location} {bytes : ByteArray}

/-! ## A location that is used for a while -/

theorem put_put (t : FileTree) (l : Location) (e e' : Entry) : (t.put l e).put l e' = t.put l e' := by
  simp only [put, ne_eq, List.filter_cons, not_true_eq_false, decide_false, Bool.false_eq_true,
    if_false, List.filter_filter, Bool.and_self]

theorem put_erase (t : FileTree) (l : Location) (e : Entry) : (t.erase l).put l e = t.put l e := by
  simp only [put, erase, List.filter_filter, Bool.and_self]

theorem ne_root_of_at?_eq_none (hnone : t.at? l = none) : l ≠ [] := by
  rintro rfl
  rw [at?_root] at hnone
  cases hnone

/-- What is put where nothing was and removed again leaves no trace. -/
theorem erase_put (hnone : t.at? l = none) (e : Entry) : (t.put l e).erase l = t := by
  have hlookup : t.entries.lookup l = none := by
    rwa [at?, if_neg (ne_root_of_at?_eq_none hnone)] at hnone
  have hall : t.entries.filter (fun m => m.1 ≠ l) = t.entries := by
    rw [List.filter_eq_self]
    intro m hm
    have hne := List.lookup_eq_none_iff.mp hlookup m hm
    exact decide_eq_true (Ne.symm (bne_iff_ne.mp hne))
  simp only [put, erase, ne_eq, List.filter_cons, not_true_eq_false, decide_false,
    Bool.false_eq_true, if_false, List.filter_filter, Bool.and_self]
  rw [hall]

/-- Moves what is at a location to where a path leads, in the place of what is there. -/
def rename (t : FileTree) (place : Location) (path : String) : Except FileProblem FileTree := do
  let l ← t.slot path
  match t.at? place with
  | some e => return (t.erase place).put l e
  | none => .error .notFound

/-- What was just put at a location and is moved away was never there. -/
theorem rename_put (hnone : t.at? place = none) (e : Entry) :
    (t.put place e).rename place path = ((t.put place e).slot path).map fun l => t.put l e := by
  unfold rename
  cases (t.put place e).slot path with
  | error e' => rfl
  | ok l =>
    have hat : (t.put place e).at? place = some e := by
      rw [at?_put t e (ne_root_of_at?_eq_none hnone), if_pos rfl]
    simp only [bind, Except.bind, hat, erase_put hnone]
    rfl

/-! ## What a new file hides -/

/-- A file that is put where nothing was hides no directory. -/
theorem isDirectory_put_file (hnone : t.at? place = none) (m : Location) :
    (t.put place (.file bytes)).isDirectory m = t.isDirectory m := by
  unfold isDirectory
  rw [at?_put t _ (ne_root_of_at?_eq_none hnone)]
  by_cases hm : m = place
  · rw [if_pos hm, hm, hnone]
  · rw [if_neg hm]

/-- A path that leads past a new file led there before. -/
theorem slot_of_slot_put (hnone : t.at? place = none)
    (h : (t.put place (.file bytes)).slot path = .ok l) : t.slot path = .ok l := by
  obtain ⟨hl, hd⟩ := slot_eq_ok_iff.mp h
  rw [isDirectory_put_file hnone] at hd
  refine slot_eq_ok_iff.mpr ⟨hl.keep ⟨rfl, fun {m} hm => ?_⟩, hd⟩
  rwa [isDirectory_put_file hnone] at hm

theorem eq_of_segmentKind {s m : String} (h : segmentKind s = .name m) : m = s := by
  unfold segmentKind at h
  split at h
  · cases h
  · split at h <;> cases h
    rfl

theorem step_put_file (hnone : t.at? (d ++ [n]) = none) {s : String} (hs : s ≠ n) :
    (t.put (d ++ [n]) (.file bytes)).step l s = t.step l s := by
  unfold FileTree.step
  rw [isDirectory_put_file hnone]
  cases hkind : segmentKind s with
  | name m =>
    obtain rfl : m = s := eq_of_segmentKind hkind
    cases hc : child l m with
    | error e => simp only [hc, bind, Except.bind]
    | ok next =>
      have hne : next ≠ d ++ [n] := by
        rw [child_eq hc]
        intro heq
        exact hs (List.singleton_inj.mp (List.append_inj' heq rfl).2)
      have hat : (t.put (d ++ [n]) (.file bytes)).at? next = t.at? next := by
        rw [at?_put t _ (ne_root_of_at?_eq_none hnone), if_neg hne]
      simp only [hc, bind, Except.bind, hat]
  | here => rfl
  | up => rfl
  | root => rfl

/-- A walk that does not go through the name of a new file does not notice it. -/
theorem walk_put_file (hnone : t.at? (d ++ [n]) = none) {ss : List String} (hss : n ∉ ss) :
    (t.put (d ++ [n]) (.file bytes)).walk l ss = t.walk l ss := by
  induction ss generalizing l with
  | nil => rfl
  | cons s ss ih =>
    obtain ⟨hs, hss⟩ := not_or.mp (mt List.mem_cons.mpr hss)
    unfold FileTree.walk
    rw [step_put_file hnone (Ne.symm hs)]
    simp only [ih hss]

/-- A path that does not go through the name of a new file leads where it led before. -/
theorem slot_put_file (hnone : t.at? (d ++ [n]) = none)
    (hn : n ∉ (PathName.segments path).dropLast) :
    (t.put (d ++ [n]) (.file bytes)).slot path = t.slot path := by
  have htarget : (t.put (d ++ [n]) (.file bytes)).target path = t.target path := by
    unfold target
    simp only [walk_put_file hnone hn, isDirectory_put_file hnone]
    rfl
  unfold slot
  simp only [htarget, isDirectory_put_file hnone]

end LintRatchet.FileTree
