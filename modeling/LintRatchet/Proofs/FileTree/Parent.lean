import LintRatchet.Proofs.FileTree.Naming
import Mathlib.Data.List.Basic

/-!
# The directories above

A path is followed by looking at the tree, and its parent is found by looking at
its text.  The two fit together: one who can follow a path comes through its
parent (`namesDirectory_of_parent?`).  So creating directories fails only for a
path that names none, also after what has been created on the way
(`createDirectories_failsWithout`).

A location is *grounded* when it and everything above it are directories.  Going
up from a grounded location leads to a directory, so where the working directory
is grounded a file is read only through its own name (`leadsTo_of_read`).
-/

namespace LintRatchet.FileTree

variable {t : FileTree} {path parent : String} {l d : Location}

/-! ## Coming through a parent -/

theorem start_of_segments_eq_nil (h : PathName.segments path = []) (hne : path ≠ "") :
    t.start path = [] := by
  unfold FileTree.start
  rw [if_pos (PathName.head?_eq_slash_of_segments_eq_nil h hne)]

/-- A walk along all segments of a path to a directory finds what the path names. -/
theorem locate_of_walk (hnul : '\x00' ∉ path.toList) (hne : path ≠ "")
    (hlong : path.utf8ByteSize ≤ maxPath)
    (hw : t.walk (t.start path) (PathName.segments path) = .ok l) (hl : t.isDirectory l = true) :
    t.locate path = .ok l := by
  rcases List.eq_nil_or_concat (PathName.segments path) with hs | ⟨front, last, hs⟩
  · have hstart := start_of_segments_eq_nil (t := t) hs hne
    rw [hs, hstart] at hw
    cases hw
    have htarget : t.target path = .ok ⟨[], .root, decide (path.toList.getLast? = some '/')⟩ := by
      refine target_eq_ok_iff.mpr ⟨hnul, hne, hlong, ?_, hl, ?_, rfl⟩
      · rw [hs, hstart]
        rfl
      · rw [hs]
        rfl
    simp only [FileTree.locate, htarget, bind, Except.bind]
    rfl
  · rw [List.concat_eq_append] at hs
    rw [hs] at hw
    obtain ⟨m, hfront, hstep⟩ := walk_append_eq_ok_iff.mp hw
    obtain ⟨_, hstep, ⟨⟩⟩ := walk_cons_eq_ok_iff.mp hstep
    obtain ⟨hm, hstep⟩ := step_eq_ok_iff.mp hstep
    have htarget : t.target path =
        .ok ⟨m, segmentKind last, decide (path.toList.getLast? = some '/')⟩ := by
      refine target_eq_ok_iff.mpr ⟨hnul, hne, hlong, ?_, hm, ?_, rfl⟩
      · rw [hs, List.dropLast_concat]
        exact hfront
      · rw [hs, List.getLast?_concat]
        rfl
    simp only [FileTree.locate, htarget, bind, Except.bind]
    generalize segmentKind last = kind at hstep
    cases hstep with
    | name hc _ =>
      simp only [hc, isDirectory_iff.mp hl]
      rfl
    | here => rfl
    | up => rfl

theorem exists_target_of_locate (h : t.locate path = .ok l) : ∃ p, t.target path = .ok p := by
  obtain ⟨p, hp, -⟩ := bind_eq_ok_iff.mp h
  exact ⟨p, hp⟩

/-- One who can follow a path comes through its parent. -/
theorem namesDirectory_of_parent? {p : PathTarget} (ht : t.target path = .ok p)
    (hparent : PathName.parent? path = some parent) (hne : parent ≠ "") :
    t.namesDirectory parent = true := by
  obtain ⟨hnul, -, hlong, hwalk, hd, -, -⟩ := target_eq_ok_iff.mp ht
  obtain ⟨tail, rfl⟩ := PathName.exists_append_of_parent? hparent
  obtain ⟨rest, hrest, hsegments⟩ := PathName.segments_parent? hparent
  rw [hsegments, List.dropLast_append_of_ne_nil hrest] at hwalk
  obtain ⟨m, hm, hback⟩ := walk_append_eq_ok_iff.mp hwalk
  have hstart : t.start (parent ++ tail) = t.start parent := by
    have hlist : parent.toList ≠ [] := by simpa using hne
    unfold FileTree.start
    rw [String.toList_append, List.head?_append_of_ne_nil _ hlist]
  rw [hstart] at hm
  have hdirectory := isDirectory_of_walk hback hd
  rw [String.toList_append, List.mem_append, not_or] at hnul
  rw [String.utf8ByteSize_append] at hlong
  have hlocate := locate_of_walk hnul.1 hne (by omega) hm hdirectory
  exact namesDirectory_iff.mpr ⟨m, hlocate, hdirectory⟩

/-- The path of a point names the working directory. -/
theorem namesDirectory_here (h : t.isDirectory t.workingDirectory = true) :
    t.namesDirectory "." = true := by
  have hwalk : t.walk (t.start ".") (PathName.segments ".") = .ok t.workingDirectory := by
    have hsegments : PathName.segments "." = ["."] := by decide
    have hkind : segmentKind "." = .here := by decide
    rw [hsegments]
    refine walk_cons_eq_ok_iff.mpr ⟨t.workingDirectory, ?_, rfl⟩
    refine step_eq_ok_iff.mpr ⟨h, ?_⟩
    rw [hkind]
    exact .here
  have hlocate := locate_of_walk (by decide) (by decide) (by decide) hwalk h
  exact namesDirectory_iff.mpr ⟨_, hlocate, h⟩

/-- A path that leads somewhere has a directory above. -/
theorem LeadsTo.namesDirectory (h : LeadsTo t path l) :
    t.namesDirectory (PathName.directory path) = true := by
  obtain ⟨d, n, ht, hc⟩ := h
  unfold PathName.directory
  split
  · next hparent =>
    obtain ⟨-, -, -, hwalk, hd, -, -⟩ := target_eq_ok_iff.mp ht
    have hstart : t.start path = t.workingDirectory := by
      unfold FileTree.start
      rw [if_neg (PathName.head?_ne_slash_of_parent? hparent)]
    rw [hstart] at hwalk
    have hdirectory := isDirectory_of_walk hwalk hd
    exact namesDirectory_here hdirectory
  · next parent hne hparent => exact namesDirectory_of_parent? ht hparent hne
  · next hparent =>
    obtain ⟨-, -, -, -, -, hlast, -⟩ := target_eq_ok_iff.mp ht
    cases hs : (PathName.segments path).getLast? with
    | none =>
      rw [hs] at hlast
      cases hlast
    | some s =>
      have hhere := PathName.eq_here_of_parent?_eq_none hparent s (List.mem_of_getLast? hs)
      rw [hs, hhere] at hlast
      cases hlast

/-! ## Files in a grounded tree -/

/-- A location and everything above it are directories. -/
def Grounded (t : FileTree) (l : Location) : Prop := ∀ m, m <+: l → t.isDirectory m = true

theorem grounded_root (t : FileTree) : t.Grounded [] := by
  intro m hm
  rw [List.prefix_nil.mp hm]
  rfl

theorem Grounded.up (h : t.Grounded l) : t.Grounded l.dropLast :=
  fun m hm => h m (hm.trans (List.dropLast_prefix l))

theorem Grounded.keep {t' : FileTree} (h : t.Grounded l) (hk : KeepsDirectories t t') :
    t'.Grounded l :=
  fun m hm => hk.directory (h m hm)

theorem Grounded.step {s : String} (h : t.Grounded l) (hs : t.step l s = .ok d)
    (hd : t.isDirectory d = true) : t.Grounded d := by
  obtain ⟨-, hstep⟩ := step_eq_ok_iff.mp hs
  generalize segmentKind s = kind at hstep
  cases hstep with
  | name hc _ =>
    intro m hm
    rw [child_eq hc, List.prefix_concat_iff, ← child_eq hc] at hm
    rcases hm with rfl | hm
    · exact hd
    · exact h m hm
  | here => exact h
  | up => exact h.up

/-- From a grounded directory all ways lead to grounded ones. -/
theorem Grounded.walk {segments : List String} (h : t.Grounded l)
    (hw : t.walk l segments = .ok d) (hd : t.isDirectory d = true) : t.Grounded d := by
  induction segments generalizing l with
  | nil =>
    cases hw
    exact h
  | cons s ss ih =>
    obtain ⟨m, hs, hw⟩ := walk_cons_eq_ok_iff.mp hw
    exact ih (h.step hs (isDirectory_of_walk hw hd)) hw

/-- A path that ends in no name leads to a directory, also when it ends with the way up. -/
theorem locate_of_fixed {last : LastSegment} {slash : Bool} (hg : t.Grounded t.workingDirectory)
    (ht : t.target path = .ok ⟨d, last, slash⟩) (hlast : last = .here ∨ last = .up ∨ last = .root) :
    ∃ l, t.locate path = .ok l ∧ t.isDirectory l = true := by
  obtain ⟨-, -, -, hwalk, hd, -, -⟩ := target_eq_ok_iff.mp ht
  have hstart : t.Grounded (t.start path) := by
    unfold FileTree.start
    split
    · exact t.grounded_root
    · exact hg
  have hgrounded : t.Grounded d := hstart.walk hwalk hd
  simp only [FileTree.locate, ht, bind, Except.bind]
  rcases hlast with rfl | rfl | rfl
  · exact ⟨d, rfl, hd⟩
  · exact ⟨d.dropLast, rfl, hgrounded.up _ List.prefix_rfl⟩
  · exact ⟨[], rfl, rfl⟩

/-- In a grounded tree only the name of a file leads to it, not the way up from a directory. -/
theorem leadsTo_of_read (hg : t.Grounded t.workingDirectory) {bytes : ByteArray}
    (h : t.read path = .ok bytes) : ∃ l, LeadsTo t path l ∧ t.at? l = some (.file bytes) := by
  obtain ⟨l, hl, hread⟩ := bind_eq_ok_iff.mp h
  have hfile : t.at? l = some (.file bytes) := by
    split at hread
    · next hl =>
      cases hread
      exact hl
    · cases hread
    · cases hread
  refine ⟨l, ?_, hfile⟩
  cases t.way path with
  | blocked ht =>
    obtain ⟨p, hp, -⟩ := bind_eq_ok_iff.mp hl
    rw [ht] at hp
    cases hp
  | fixed ht hlast =>
    obtain ⟨m, hm, hd⟩ := locate_of_fixed hg ht hlast
    rw [hl] at hm
    cases hm
    rw [isDirectory_iff, hfile] at hd
    cases hd
  | unnamed ht hc =>
    simp only [FileTree.locate, ht, hc, bind, Except.bind] at hl
    cases hl
  | @named d n slash m ht hc =>
    simp only [FileTree.locate, ht, hc, bind, Except.bind] at hl
    split at hl
    · cases hl
    · next hd =>
      cases hl
      rw [hfile] at hd
      cases hd
    · split at hl
      · cases hl
      · next hslash =>
        cases hl
        obtain rfl : slash = false := by simpa using hslash
        exact ⟨d, n, ht, hc⟩

/-- Only a file that can be read is removed. -/
theorem leadsTo_of_remove {t' : FileTree} (h : t.remove path = .ok t') :
    ∃ l bytes, LeadsTo t path l ∧ t.at? l = some (.file bytes) := by
  obtain ⟨d, n, slash, ht, h⟩ := exists_name_of_eq_ok h
  obtain ⟨l, hc, h⟩ := bind_eq_ok_iff.mp h
  cases hl : t.at? l with
  | none =>
    rw [hl] at h
    cases h
  | some e =>
    cases e with
    | directory =>
      rw [hl] at h
      cases h
    | file bytes =>
      cases slash with
      | true =>
        rw [hl] at h
        cases h
      | false => exact ⟨l, bytes, ⟨d, n, ht, hc⟩, hl⟩

/-! ## Creating directories that fails -/

/-- Where it fails, the path names no directory in the tree that is left behind. -/
def FailsWithout (path : String) (r : Result FileTree FileProblem Unit) : Prop :=
  ∀ e, r.outcome = .error e → r.state.namesDirectory path = false

theorem failsWithout_ensureDirectory (t : FileTree) (path : String) :
    FailsWithout path (Procedure.change (ensureDirectory · path) t) := by
  intro e he
  cases hu : t.ensureDirectory path with
  | ok u =>
    simp only [Procedure.change, hu] at he
    cases he
  | error e' =>
    simp only [Procedure.change, hu]
    refine Bool.eq_false_iff.mpr fun hnames => ?_
    rw [ensureDirectory_of_namesDirectory hnames] at hu
    cases hu

/-- Creating directories fails only for a path that names none afterwards. -/
theorem createDirectories_failsWithout (path : String) (t : FileTree) :
    FailsWithout path (createDirectories path t) := by
  rw [createDirectories]
  split
  · intro e he
    cases he
  · split
    · next parent _ hparent =>
      have hshorter : parent.length < path.length := PathName.parent?_length hparent
      have habove := createDirectories_failsWithout parent t
      rw [Procedure.bind_apply]
      cases hr : createDirectories parent t with
      | mk outcome u journal =>
        rw [hr] at habove
        cases outcome with
        | ok _ => exact failsWithout_ensureDirectory u path
        | error e =>
          -- One who could follow the path would come through its parent, which is no directory.
          intro _ _
          refine Bool.eq_false_iff.mpr fun hnames => ?_
          have hne : parent ≠ "" := by
            rintro rfl
            rw [createDirectories] at hr
            cases hr
          obtain ⟨l, hl, -⟩ := namesDirectory_iff.mp hnames
          obtain ⟨p, hp⟩ := exists_target_of_locate hl
          have hyes := namesDirectory_of_parent? hp hparent hne
          rw [habove e rfl] at hyes
          cases hyes
    · exact failsWithout_ensureDirectory t path
termination_by path.length

end LintRatchet.FileTree
