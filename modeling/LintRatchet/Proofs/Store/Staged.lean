import LintRatchet.Proofs.FileTree.Footprint
import LintRatchet.Proofs.FileTree.Renaming
import LintRatchet.Proofs.Store.File

/-!
# Saving is all or nothing

`publish` puts a file at a path in one step.  A machine has no such step.  It
writes a temporary file in the directory of the path and renames it, and when
something goes wrong it removes the temporary file again.  `publishThrough` is
written that way, for a temporary file of any name that may break off while it
is written.

Both end in one of two ways (`Published`).  Either the directories are created
and the file is put where the path leads, or the directories are created as far
as that is possible and nothing else has happened.  The temporary file is gone
in both cases.  With a name that is free, and without trouble, the two
procedures end alike (`publishThrough_eq`).

What saving comes to follows from that (`save_written_or_kept`): the store's
file is the new baseline, or no file has changed.
-/

namespace LintRatchet

/-! ## A temporary file -/

/-- The temporary file of a save. -/
structure TemporaryFile where
  name : String
  /-- What goes wrong before it is moved, and the bytes that it has by then. -/
  trouble : Option (FileProblem × ByteArray) := none

namespace TemporaryFile

open FileTree (createDirectories)

variable (f : TemporaryFile) {path : String} {place : Location} {bytes : ByteArray}
  {t u : FileTree}

/-- Creates the file.  It is not to be one that is there already. -/
def create (place : Location) : Procedure FileTree FileProblem Unit :=
  Procedure.change fun t =>
    if (t.at? place).isSome then .error .exists else .ok (t.put place (.file ByteArray.empty))

/-- Writes the file, or as much of it as can be written. -/
def fill (place : Location) (bytes : ByteArray) : Procedure FileTree FileProblem Unit :=
  match f.trouble with
  | none => Procedure.change fun t => .ok (t.put place (.file bytes))
  | some (problem, part) => do
    Procedure.change fun t => .ok (t.put place (.file part))
    Procedure.fail problem

/-- Writes the file and moves it to the path. -/
def install (place : Location) (path : String) (bytes : ByteArray) :
    Procedure FileTree FileProblem Unit := do
  f.fill place bytes
  Procedure.change (FileTree.rename · place path)

/-- Creates the file and installs it.  If that does not succeed it is removed. -/
def deliver (place : Location) (path : String) (bytes : ByteArray) :
    Procedure FileTree FileProblem Unit := do
  create place
  match ← Procedure.attempt (f.install place path bytes) with
  | .ok _ => pure ()
  | .error problem =>
    Procedure.change fun t => .ok (t.erase place)
    Procedure.fail problem

/-- Puts a file at a path by way of a temporary file in the same directory. -/
def publishThrough (path : String) (bytes : ByteArray) : Procedure FileTree FileProblem Unit := do
  createDirectories (PathName.directory path)
  let directory ← Procedure.query (FileTree.locate · (PathName.directory path))
  let place ← Procedure.query fun _ => FileTree.child directory f.name
  f.deliver place path bytes

/-- A name that is taken is not used for the temporary file. -/
theorem deliver_occupied (h : (u.at? place).isSome = true) :
    (f.deliver place path bytes u).ends = (.error .exists, u) := by
  have hcreate : (create place u).ends = (.error .exists, u) := by
    rw [create, Procedure.ends_change, if_pos h]
  exact Procedure.ends_bind_error hcreate _

/-- Installing a file that was just created. -/
theorem ends_install (h : u.at? place = none) :
    (f.install place path bytes (u.put place (.file ByteArray.empty))).ends =
      match f.trouble, (u.put place (.file bytes)).slot path with
      | some (problem, part), _ => (.error problem, u.put place (.file part))
      | none, .error problem => (.error problem, u.put place (.file bytes))
      | none, .ok l => (.ok (), u.put l (.file bytes)) := by
  cases hf : f.trouble with
  | some trouble =>
    have hfill : (f.fill place bytes (u.put place (.file ByteArray.empty))).ends =
        (.error trouble.1, u.put place (.file trouble.2)) := by
      simp only [fill, hf]
      rw [Procedure.ends_bind, Procedure.ends_change, FileTree.put_put]
      rfl
    exact Procedure.ends_bind_error hfill _
  | none =>
    have hfill : (f.fill place bytes (u.put place (.file ByteArray.empty))).ends =
        (.ok (), u.put place (.file bytes)) := by
      simp only [fill, hf]
      rw [Procedure.ends_change, FileTree.put_put]
    rw [install, Procedure.ends_bind_ok hfill, Procedure.ends_change, FileTree.rename_put h]
    cases (u.put place (.file bytes)).slot path <;> rfl

/-- A temporary file is moved to the path, or removed again. -/
theorem deliver_free (h : u.at? place = none) :
    (f.deliver place path bytes u).ends =
      match f.trouble, (u.put place (.file bytes)).slot path with
      | some (problem, _), _ => (.error problem, u)
      | none, .error problem => (.error problem, u)
      | none, .ok l => (.ok (), u.put l (.file bytes)) := by
  have hcreate : (create place u).ends = (.ok (), u.put place (.file ByteArray.empty)) := by
    rw [create, Procedure.ends_change, h]
    rfl
  rw [deliver, Procedure.ends_bind_ok hcreate, Procedure.ends_bind, Procedure.ends_attempt,
    f.ends_install h]
  cases f.trouble with
  | some trouble =>
    simp only [Procedure.ends_bind, Procedure.ends_change, Procedure.ends_fail, FileTree.erase_put h]
  | none =>
    cases (u.put place (.file bytes)).slot path with
    | error problem =>
      simp only [Procedure.ends_bind, Procedure.ends_change, Procedure.ends_fail,
        FileTree.erase_put h]
    | ok l => rfl

end TemporaryFile

/-! ## How a file gets to a path -/

namespace FileStore

open FileTree (createDirectories)

variable {path : String} {bytes : ByteArray} {t u : FileTree}

/-- How publishing ends, from the tree that has the directories: the file is put where the path leads,
or nothing has happened. -/
inductive Published (path : String) (bytes : ByteArray) (u : FileTree) :
    Except FileProblem Unit × FileTree → Prop
  | done {l : Location} : u.slot path = .ok l → Published path bytes u (.ok (), u.put l (.file bytes))
  | failed {problem : FileProblem} : Published path bytes u (.error problem, u)

theorem published_after {rest : Procedure FileTree FileProblem Unit}
    (h : ∀ u, Published path bytes u (rest u).ends) :
    Published path bytes (createDirectories (PathName.directory path) t).state
      ((do createDirectories (PathName.directory path); rest) t).ends := by
  rw [Procedure.ends_bind]
  cases hr : createDirectories (PathName.directory path) t with
  | mk outcome u journal =>
    cases outcome with
    | error problem => exact .failed
    | ok _ => exact h u

theorem published_publish (path : String) (bytes : ByteArray) (t : FileTree) :
    Published path bytes (createDirectories (PathName.directory path) t).state
      (publish path bytes t).ends := by
  refine published_after fun u => ?_
  rw [Procedure.ends_change, FileTree.replace]
  cases hslot : u.slot path with
  | error problem => exact .failed
  | ok l => exact .done hslot

theorem published_deliver (f : TemporaryFile) (place : Location) (u : FileTree) :
    Published path bytes u (f.deliver place path bytes u).ends := by
  cases hplace : u.at? place with
  | some e =>
    rw [f.deliver_occupied (by rw [hplace]; rfl)]
    exact .failed
  | none =>
    rw [f.deliver_free hplace]
    cases f.trouble with
    | some trouble => exact .failed
    | none =>
      cases hslot : (u.put place (.file bytes)).slot path with
      | error problem => exact .failed
      | ok l => exact .done (FileTree.slot_of_slot_put hplace hslot)

/-- Through a temporary file a document is published in one step, or not at all. -/
theorem published_publishThrough (f : TemporaryFile) (path : String) (bytes : ByteArray)
    (t : FileTree) :
    Published path bytes (createDirectories (PathName.directory path) t).state
      (f.publishThrough path bytes t).ends := by
  refine published_after fun u => ?_
  rw [Procedure.ends_bind, Procedure.ends_query]
  cases u.locate (PathName.directory path) with
  | error problem => exact .failed
  | ok directory =>
    simp only [Procedure.ends_bind, Procedure.ends_query]
    cases FileTree.child directory f.name with
    | error problem => exact .failed
    | ok place => exact published_deliver f place u

/-- In the directory of a path nothing has the name, and the path does not go through it. -/
structure NameFree (n path : String) (u : FileTree) : Prop where
  unused : ∀ d, u.locate (PathName.directory path) = .ok d →
    FileTree.child d n = .ok (d ++ [n]) ∧ u.at? (d ++ [n]) = none
  aside : n ∉ (PathName.segments path).dropLast

/-- By way of a temporary file the same comes about as in one step. -/
theorem publishThrough_eq (f : TemporaryFile) (hf : f.trouble = none)
    (hfree : NameFree f.name path (createDirectories (PathName.directory path) t).state) :
    (f.publishThrough path bytes t).ends = (publish path bytes t).ends := by
  have hspec := FileTree.createDirectories_spec (PathName.directory path) t
  rw [TemporaryFile.publishThrough, publish]
  cases hr : createDirectories (PathName.directory path) t with
  | mk outcome u journal =>
    rw [hr] at hfree hspec
    have hends := congrArg Result.ends hr
    cases outcome with
    | error problem =>
      rw [Procedure.ends_bind_error hends, Procedure.ends_bind_error hends]
    | ok _ =>
      rw [Procedure.ends_bind_ok hends, Procedure.ends_bind_ok hends]
      obtain ⟨d, hd, -⟩ :=
        FileTree.namesDirectory_iff.mp (hspec.names (directory_ne_empty path) rfl)
      obtain ⟨hchild, hnone⟩ := hfree.unused d hd
      have hdirectory :
          (Procedure.query (FileTree.locate · (PathName.directory path)) u :
            Result FileTree FileProblem Location).ends = (.ok d, u) := by
        rw [Procedure.ends_query, hd]
      have hplace :
          (Procedure.query (fun _ => FileTree.child d f.name) u :
            Result FileTree FileProblem Location).ends = (.ok (d ++ [f.name]), u) := by
        rw [Procedure.ends_query, hchild]
      rw [Procedure.ends_bind_ok hdirectory, Procedure.ends_bind_ok hplace, f.deliver_free hnone,
        hf, FileTree.slot_put_file hnone hfree.aside, Procedure.ends_change, FileTree.replace]
      cases u.slot path <;> rfl

/-! ## Saving -/

/-- Saving, with some procedure that puts a file at a path. -/
def saveBy (publisher : String → ByteArray → Procedure FileTree FileProblem Unit)
    (findings : List Finding) : Procedure FileStore StoreFault Baseline := do
  let s ← Procedure.state
  let b := Baseline.ofFindings findings s.version
  Procedure.explain (StoreFault.unwritable s.path) (onTree (publisher s.path b.render.toUTF8))
  Procedure.note .debug .file ("Wrote baseline with " ++ toString b.fingerprints.length ++
    " fingerprint(s) to " ++ s.path)
  return b

theorem saveBy_publish : saveBy publish = save := rfl

theorem ends_saveBy (publisher : String → ByteArray → Procedure FileTree FileProblem Unit)
    (fs : List Finding) (s : FileStore) :
    (saveBy publisher fs s).ends =
      match (publisher s.path (Baseline.ofFindings fs s.version).render.toUTF8 s.tree).ends with
      | (.ok _, t) => (.ok (Baseline.ofFindings fs s.version), { s with tree := t })
      | (.error problem, t) => (.error (.unwritable s.path problem), { s with tree := t }) := by
  have hstate : (Procedure.state s : Result FileStore StoreFault FileStore).ends = (.ok s, s) := rfl
  rw [saveBy, Procedure.ends_bind_ok hstate, Procedure.ends_bind, Procedure.ends_explain, onTree,
    Procedure.ends_within]
  cases (publisher s.path (Baseline.ofFindings fs s.version).render.toUTF8 s.tree).ends with
  | mk outcome t => cases outcome <;> rfl

/-- How a save may end. -/
inductive SaveEnds (fs : List Finding) (s : FileStore) : Except StoreFault Baseline × FileStore → Prop
  /-- The path leads to a file, which has the text of the new baseline.  At every other location is
  what was there before, or a directory that was missing above the path. -/
  | written {t : FileTree} {l : Location} :
      t.LeadsTo s.path l →
      t.at? l = some (.file (Baseline.ofFindings fs s.version).render.toUTF8) →
      t.read s.path = .ok (Baseline.ofFindings fs s.version).render.toUTF8 →
      s.tree.isDirectory l = false →
      (∀ m, m ≠ l → FileTree.Fate s.tree t [] [s.path] m) →
      t.workingDirectory = s.tree.workingDirectory →
      SaveEnds fs s (.ok (Baseline.ofFindings fs s.version), { s with tree := t })
  /-- At every location is what was there before, or a directory that was missing above the path. -/
  | kept {t : FileTree} {problem : FileProblem} :
      FileTree.Footprint s.tree t [] [s.path] →
      SaveEnds fs s (.error (.unwritable s.path problem), { s with tree := t })

/-- Any way of publishing that is all or nothing makes saving so. -/
theorem saveEnds_saveBy {publisher : String → ByteArray → Procedure FileTree FileProblem Unit}
    (hp : ∀ path bytes t, Published path bytes
      (createDirectories (PathName.directory path) t).state (publisher path bytes t).ends)
    (fs : List Finding) (s : FileStore) : SaveEnds fs s (saveBy publisher fs s).ends := by
  have hcreated := FileTree.footprint_createDirectories s.path s.tree
  have hpublished := hp s.path (Baseline.ofFindings fs s.version).render.toUTF8 s.tree
  rw [ends_saveBy]
  generalize (publisher s.path (Baseline.ofFindings fs s.version).render.toUTF8 s.tree).ends = r
    at hpublished
  cases hpublished with
  | failed => exact .kept hcreated
  | @done l hslot =>
    obtain ⟨hl, hd⟩ := FileTree.slot_eq_ok_iff.mp hslot
    have hboth := hcreated.put hl hd (Baseline.ofFindings fs s.version).render.toUTF8
    have hleads := hl.keep (FileTree.keepsDirectories_put hd
      (.file (Baseline.ofFindings fs s.version).render.toUTF8))
    have hfile := FileTree.at?_put (createDirectories (PathName.directory s.path) s.tree).state
      (.file (Baseline.ofFindings fs s.version).render.toUTF8)
      (FileTree.ne_root_of_not_isDirectory hd) l
    rw [if_pos rfl] at hfile
    refine .written hleads hfile (hleads.read hfile) (Bool.eq_false_iff.mpr fun hdir => ?_)
      (fun m hm => hboth.elsewhere hleads hm) hboth.workingDirectory
    rw [hcreated.keepsDirectories.directory hdir] at hd
    cases hd

/-- A save that succeeds has put the store's file in place, and created directories above it. -/
theorem footprint_of_save {s s' : FileStore} {fs : List Finding} {b : Baseline}
    (h : (save fs s).ends = (.ok b, s')) :
    FileTree.Footprint s.tree s'.tree [s.path] [s.path] ∧ ∃ l, s'.tree.LeadsTo s.path l := by
  have hends := saveEnds_saveBy published_publish fs s
  rw [saveBy_publish, h] at hends
  cases hends with
  | @written t l hl hfile _ hd helsewhere hwd =>
    refine ⟨⟨hwd, fun m => ?_⟩, l, hl⟩
    by_cases hm : m = l
    · subst hm
      exact .filled (List.mem_singleton_self _) hl hd hfile
    · cases helsewhere m hm with
      | same hsame => exact .same hsame
      | filled hmem => cases hmem
      | made hmem hup hlocate hnone hmade => exact .made hmem hup hlocate hnone hmade

/-- A save that fails has left the store's file alone.  Where the path leads to a location that is
free, also because of a directory that was just created, saving does not fail. -/
theorem spares_of_save_error {s s' : FileStore} {fs : List Finding} {fault : StoreFault}
    (h : (save fs s).ends = (.error fault, s')) :
    FileTree.Spares s.tree s'.tree s.path [s.path] := by
  have hends := saveEnds_saveBy published_publish fs s
  rw [saveBy_publish, h] at hends
  cases hends with
  | @kept t problem hfootprint =>
    refine ⟨hfootprint, fun bytes => ⟨?_, hfootprint.hasFile⟩⟩
    -- A path that leads to a file afterwards is one to which saving would have succeeded.
    rintro ⟨l, hl, hfile⟩
    have hsave := ends_save fs s
    rw [h] at hsave
    cases hp : publish s.path (Baseline.ofFindings fs s.version).render.toUTF8 s.tree with
    | mk outcome u journal =>
      rw [hp] at hsave
      cases outcome with
      | ok _ => cases hsave
      | error problem =>
        cases hsave
        have hstate : _ = t := congrArg Result.state hp
        rw [← hstate] at hl hfile
        exact absurd hl (not_leadsTo_of_publish_error (congrArg Result.outcome hp) hfile)

/-- Saving writes the whole baseline or keeps every file as it is.  So it does when the file gets to
its path by way of a temporary file, whatever the name of that and whatever goes wrong with it. -/
theorem save_written_or_kept (fs : List Finding) (s : FileStore) :
    SaveEnds fs s (save fs s).ends ∧
      ∀ f : TemporaryFile, SaveEnds fs s (saveBy f.publishThrough fs s).ends :=
  ⟨saveEnds_saveBy published_publish fs s,
    fun f => saveEnds_saveBy (published_publishThrough f) fs s⟩

/-- There is a file where the directory of the path should be. -/
example :
    let blocked : FileStore := {
      tree := ⟨[(["blocker"], .file ByteArray.empty)], []⟩
      path := "/blocker/baseline.json" }
    (save [] blocked).outcome = .error (.unwritable "/blocker/baseline.json" .exists) := by
  decide +kernel

end FileStore

end LintRatchet
