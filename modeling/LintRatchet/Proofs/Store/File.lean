import LintRatchet.Proofs.CanonicalForm
import LintRatchet.Proofs.Document.Baseline
import LintRatchet.Proofs.FileTree.Parent
import LintRatchet.Proofs.Procedure
import LintRatchet.Store.File

/-!
# What a file store keeps

A path is *writable* when a file can be put there.  What the file would hold
plays no part in that.  Once it has been done, the directories exist and the
path leads to a location that is free of directories (`Ready`), and it goes on
doing so while files come and go there.

`Holds s b` says that the file of the store is the text of `b` and that `b` is
in canonical form.  Saving ends in such a state (`save_ok`), loading gives `b`
back, and clearing leaves nothing behind (`Vacant`).

Saving can also fail, and may have created directories by then.  It does not
leave a file where there was none: a path to which no file can be saved is
`Unfilled` afterwards (`unfilled_of_save_error`).
-/

namespace LintRatchet.FileStore

variable {t t' : FileTree} {path : String} {l : Location}

/-! ## Putting a file at a path -/

/-- The directories of the path exist and it leads to a location where a file can be. -/
structure Ready (t : FileTree) (path : String) (l : Location) : Prop where
  parent : t.namesDirectory (PathName.directory path) = true
  leads : t.LeadsTo path l
  free : t.isDirectory l = false

/-- A path stays ready as long as directories are kept and none is put there. -/
theorem Ready.keep (h : Ready t path l) (hk : t.KeepsDirectories t')
    (hf : t'.isDirectory l = false) : Ready t' path l :=
  ⟨hk.namesDirectory h.parent, h.leads.keep hk, hf⟩

theorem Ready.at?_put (h : Ready t path l) (e : Entry) : (t.put l e).at? l = some e := by
  rw [FileTree.at?_put t e (FileTree.ne_root_of_not_isDirectory h.free), if_pos rfl]

theorem Ready.put (h : Ready t path l) (bytes : ByteArray) :
    Ready (t.put l (.file bytes)) path l :=
  h.keep (FileTree.keepsDirectories_put h.free _) (by
    rw [FileTree.isDirectory, h.at?_put])

theorem Ready.at?_erase (h : Ready t path l) : (t.erase l).at? l = none := by
  rw [FileTree.at?_erase t (FileTree.ne_root_of_not_isDirectory h.free), if_pos rfl]

theorem Ready.erase (h : Ready t path l) : Ready (t.erase l) path l :=
  h.keep (FileTree.keepsDirectories_erase h.free) (by
    rw [FileTree.isDirectory, h.at?_erase])

theorem publish_apply (path : String) (bytes : ByteArray) (t : FileTree) :
    publish path bytes t =
      match FileTree.createDirectories (PathName.directory path) t with
      | ⟨.ok _, u, _⟩ =>
        match u.replace path bytes with
        | .ok u => ⟨.ok (), u, []⟩
        | .error e => ⟨.error e, u, []⟩
      | ⟨.error e, u, _⟩ => ⟨.error e, u, []⟩ := by
  have hj := (FileTree.createDirectories_spec (PathName.directory path) t).journal
  rw [publish, Procedure.bind_apply]
  cases hr : FileTree.createDirectories (PathName.directory path) t with
  | mk outcome u journal =>
    rw [hr] at hj
    cases hj
    cases outcome with
    | error e => rfl
    | ok _ =>
      simp only [Procedure.change]
      cases u.replace path bytes <;> rfl

/-- Where a path is ready a file is put there, and nothing else happens. -/
theorem Ready.publish (h : Ready t path l) (bytes : ByteArray) :
    publish path bytes t = ⟨.ok (), t.put l (.file bytes), []⟩ := by
  rw [publish_apply, FileTree.createDirectories_of_namesDirectory h.parent]
  simp only [h.leads.replace h.free]

theorem directory_ne_empty (path : String) : PathName.directory path ≠ "" := by
  unfold PathName.directory
  split
  · decide
  · next parent hne _ => exact fun he => hne he
  · decide

/-- Whether a file can be put at a path does not depend on what it holds. -/
theorem ready_of_publish {bytes : ByteArray} (h : (publish path bytes t).outcome = .ok ()) :
    ∃ u l, Ready u path l ∧ ∀ bytes', publish path bytes' t = ⟨.ok (), u.put l (.file bytes'), []⟩ := by
  have hspec := FileTree.createDirectories_spec (PathName.directory path) t
  rw [publish_apply] at h
  cases hr : FileTree.createDirectories (PathName.directory path) t with
  | mk outcome u journal =>
    rw [hr] at h hspec
    cases outcome with
    | error e => cases h
    | ok _ =>
      cases hu : u.replace path bytes with
      | error e =>
        simp only [hu] at h
        cases h
      | ok u' =>
        obtain ⟨l, hl, hd, -⟩ := FileTree.leadsTo_of_replace hu
        have hready : Ready u path l := ⟨hspec.names (directory_ne_empty path) rfl, hl, hd⟩
        refine ⟨u, l, hready, fun bytes' => ?_⟩
        rw [publish_apply, hr]
        simp only [hl.replace hd]

/-! ## The store -/

variable {s s' : FileStore} {b : Baseline}

/-- A file can be put at the path of the store. -/
def Writable (s : FileStore) : Prop := (publish s.path ByteArray.empty s.tree).outcome = .ok ()

/-- There is nothing at the path of the store. -/
def Vacant (s : FileStore) : Prop := s.tree.locate s.path = .error .notFound

/-- The file of the store is the text of a baseline in canonical form. -/
structure Holds (s : FileStore) (b : Baseline) : Prop where
  file : ∃ l, Ready s.tree s.path l ∧ s.tree.at? l = some (.file b.render.toUTF8)
  canonical : b.normalize = b

theorem Ready.writable (h : Ready s.tree s.path l) : s.Writable := by
  rw [Writable, h.publish]

theorem Holds.writable (h : s.Holds b) : s.Writable := by
  obtain ⟨l, hready, -⟩ := h.file
  exact hready.writable

/-- A text is read back from its bytes. -/
theorem fromUTF8?_toUTF8 (text : String) : String.fromUTF8? text.toUTF8 = some text := by
  unfold String.fromUTF8?
  rw [dif_pos (show text.toUTF8.IsValidUTF8 from text.isValidUTF8)]
  rfl

theorem Vacant.load (h : s.Vacant) :
    s.load = ⟨none, [⟨.debug, .file, "No baseline at " ++ s.path⟩]⟩ := by
  have hp : s.tree.present s.path = false := by
    rw [FileTree.present, show s.tree.locate s.path = .error .notFound from h]
  simp [FileStore.load, tryLoad, loadJournal, hp]

theorem Holds.read (h : s.Holds b) : s.tree.read s.path = .ok b.render.toUTF8 := by
  obtain ⟨l, hready, hfile⟩ := h.file
  exact hready.leads.read hfile

/-- A store that holds a baseline loads it. -/
theorem Holds.load (h : s.Holds b) : s.load = ⟨some b, []⟩ := by
  obtain ⟨l, hready, hfile⟩ := h.file
  have hl : s.tree.locate s.path = .ok l := by
    rw [hready.leads.locate, hfile]
    rfl
  have hp : s.tree.present s.path = true := by rw [FileTree.present, hl]
  have htext : s.tree.readText s.path = .ok b.render := by
    simp only [FileTree.readText, h.read, bind, Except.bind, fromUTF8?_toUTF8]
    rfl
  simp only [FileStore.load, tryLoad, loadJournal, hp, htext, Baseline.decode_render, h.canonical,
    Bool.not_true, Bool.false_eq_true, if_false, if_true]

/-- Saving ends as the publishing of the document does. -/
theorem ends_save (fs : List Finding) (s : FileStore) :
    (save fs s).ends =
      match publish s.path (Baseline.ofFindings fs s.version).render.toUTF8 s.tree with
      | ⟨.ok _, t, _⟩ => (.ok (Baseline.ofFindings fs s.version), { s with tree := t })
      | ⟨.error e, t, _⟩ => (.error (.unwritable s.path e), { s with tree := t }) := by
  simp only [save, Procedure.bind_apply, Procedure.state, Procedure.explain, onTree,
    Procedure.within]
  cases publish s.path (Baseline.ofFindings fs s.version).render.toUTF8 s.tree with
  | mk outcome t journal => cases outcome <;> rfl

/-- On a writable path saving succeeds. -/
theorem Writable.save (h : s.Writable) (fs : List Finding) : ∃ t,
    (save fs s).ends = (.ok (Baseline.ofFindings fs s.version), { s with tree := t }) ∧
      Holds { s with tree := t } (Baseline.ofFindings fs s.version) := by
  obtain ⟨u, l, hready, hpublish⟩ := ready_of_publish h
  rw [ends_save, hpublish]
  exact ⟨_, rfl, ⟨l, hready.put _, hready.at?_put _⟩, Baseline.normalize_ofFindings fs s.version⟩

/-- What was saved is the baseline of the findings, and the store holds it. -/
theorem save_ok {fs : List Finding} (h : (save fs s).ends = (.ok b, s')) :
    b = Baseline.ofFindings fs s.version ∧ s'.Holds b ∧ s'.version = s.version := by
  have hwritable : s.Writable := by
    rw [ends_save] at h
    cases hp : publish s.path (Baseline.ofFindings fs s.version).render.toUTF8 s.tree with
    | mk outcome t journal =>
      rw [hp] at h
      cases outcome with
      | error e => cases h
      | ok _ =>
        obtain ⟨u, l, -, hpublish⟩ := ready_of_publish (congrArg Result.outcome hp)
        rw [Writable, hpublish]
  obtain ⟨t, hsave, hholds⟩ := hwritable.save fs
  rw [hsave] at h
  cases h
  exact ⟨rfl, hholds, rfl⟩

/-- What was saved is loaded again as it was saved, and it records the findings. -/
theorem load_of_save {fs : List Finding} (h : (save fs s).ends = (.ok b, s')) :
    s'.load.baseline = some b ∧ b.Records fs s.version := by
  obtain ⟨rfl, hholds, -⟩ := save_ok h
  exact ⟨congrArg Loaded.baseline hholds.load, Baseline.records_ofFindings fs s.version⟩

/-- One finding that is reported three times, in characters that a document has to escape. -/
theorem load_of_save_escaped :
    let f : Finding := ⟨"a \"rule\"", "dir\\a.js", 4294967295, "tab\t, escape \x1b and \x7f"⟩
    let g : Finding := { f with message := "beyond the first plane: 😀\n" }
    let s : FileStore := { tree := ⟨[], ["work"]⟩, path := "/ci/baseline.json", version := "1\x00" }
    ∃ b t, (save [f, g, f] s).ends = (.ok b, t) ∧ t.load.baseline = some b ∧
      b.Records [f, g, f] "1\x00" := by
  intro f g s
  have hwritable : s.Writable := by
    unfold Writable
    decide +kernel
  obtain ⟨t, hsave, -⟩ := hwritable.save [f, g, f]
  exact ⟨_, _, hsave, load_of_save hsave⟩

theorem Vacant.clear (h : s.Vacant) : (clear s).ends = (.ok false, s) := by
  rw [FileStore.clear, FileTree.remove_of_locate_notFound h]
  rfl

/-- A baseline that is there is removed, and another one can be written. -/
theorem Holds.clear (h : s.Holds b) : ∃ t, (clear s).ends = (.ok true, { s with tree := t }) ∧
    Vacant { s with tree := t } ∧ Writable { s with tree := t } := by
  obtain ⟨l, hready, hfile⟩ := h.file
  refine ⟨s.tree.erase l, ?_, ?_, Ready.writable (s := { s with tree := _ }) hready.erase⟩
  · rw [FileStore.clear, hready.leads.remove hfile]
    rfl
  · rw [Vacant, hready.erase.leads.locate, hready.at?_erase]
    rfl

/-! ## Where there is no file -/

/-- No file can be read at the path of the store. -/
def Unfilled (s : FileStore) : Prop := ∀ bytes, s.tree.read s.path ≠ .ok bytes

/-- Relative paths start in a directory that has directories above it all the way. -/
def Grounded (s : FileStore) : Prop := s.tree.Grounded s.tree.workingDirectory

theorem Vacant.unfilled (h : s.Vacant) : s.Unfilled := by
  intro bytes hread
  simp only [FileTree.read, show s.tree.locate s.path = .error .notFound from h, bind,
    Except.bind] at hread
  cases hread

theorem Unfilled.load (h : s.Unfilled) : s.load.baseline = none := by
  have htry : ∀ b, s.tryLoad ≠ .ok (some b) := by
    intro b hb
    unfold tryLoad at hb
    split at hb
    · cases hb
    · cases hread : s.tree.read s.path with
      | ok bytes => exact h bytes hread
      | error e =>
        simp only [FileTree.readText, hread, bind, Except.bind] at hb
        cases hb
  unfold FileStore.load
  cases ht : s.tryLoad with
  | error e => rfl
  | ok found =>
    cases found with
    | none => rfl
    | some b => exact absurd ht (htry b)

/-- Nothing can be removed where there is no file. -/
theorem Unfilled.clear (h : s.Unfilled) : (clear s).state = s := by
  unfold FileStore.clear
  cases hr : s.tree.remove s.path with
  | ok t =>
    obtain ⟨l, bytes, hl, hfile⟩ := FileTree.leadsTo_of_remove hr
    exact absurd (hl.read hfile) (h bytes)
  | error e => cases e <;> rfl

/-- Publishing keeps directories, also when it fails. -/
theorem keepsDirectories_publish (path : String) (bytes : ByteArray) (t : FileTree) :
    t.KeepsDirectories (publish path bytes t).state := by
  have hadds := (FileTree.createDirectories_spec (PathName.directory path) t).adds
  rw [publish_apply]
  cases hr : FileTree.createDirectories (PathName.directory path) t with
  | mk outcome u journal =>
    rw [hr] at hadds
    cases outcome with
    | error e => exact hadds.keepsDirectories
    | ok _ =>
      cases hu : u.replace path bytes with
      | error e =>
        simp only [hu]
        exact hadds.keepsDirectories
      | ok u' =>
        obtain ⟨l, -, hd, rfl⟩ := FileTree.leadsTo_of_replace hu
        simp only [hu]
        exact hadds.keepsDirectories.trans (FileTree.keepsDirectories_put hd _)

/-- Where no file could be put, there is none. -/
theorem not_leadsTo_of_publish_error {bytes content : ByteArray} {e : FileProblem}
    (h : (publish path bytes t).outcome = .error e)
    (hfile : (publish path bytes t).state.at? l = some (.file content)) :
    ¬(publish path bytes t).state.LeadsTo path l := by
  have hfails := FileTree.createDirectories_failsWithout (PathName.directory path) t
  rw [publish_apply] at h hfile ⊢
  intro hl
  cases hr : FileTree.createDirectories (PathName.directory path) t with
  | mk outcome u journal =>
    rw [hr] at h hfails hfile hl
    cases outcome with
    | error e' =>
      have hnames : u.namesDirectory (PathName.directory path) = true := hl.namesDirectory
      rw [hfails e' rfl] at hnames
      cases hnames
    | ok _ =>
      cases hu : u.replace path bytes with
      | ok u' =>
        simp only [hu] at h
        cases h
      | error e' =>
        simp only [hu] at hfile hl
        have hd : u.isDirectory l = false := by rw [FileTree.isDirectory, hfile]
        rw [hl.replace hd bytes] at hu
        cases hu

/-- Saving changes the tree and nothing else, whether it succeeds or not. -/
theorem state_save (fs : List Finding) (s : FileStore) :
    (save fs s).state =
      { s with
        tree := (publish s.path (Baseline.ofFindings fs s.version).render.toUTF8 s.tree).state } := by
  have hends := congrArg Prod.snd (ends_save fs s)
  cases hp : publish s.path (Baseline.ofFindings fs s.version).render.toUTF8 s.tree with
  | mk outcome t journal =>
    rw [hp] at hends
    cases outcome <;> exact hends

theorem Grounded.save (h : s.Grounded) (fs : List Finding) : (save fs s).state.Grounded := by
  rw [state_save]
  have hk := keepsDirectories_publish s.path
    (Baseline.ofFindings fs s.version).render.toUTF8 s.tree
  rw [Grounded, hk.workingDirectory]
  exact FileTree.Grounded.keep h hk

/-- A path where saving fails stays without a file, even if directories have been created. -/
theorem unfilled_of_save_error {fs : List Finding} {fault : StoreFault} (hg : s.Grounded)
    (h : (save fs s).outcome = .error fault) : (save fs s).state.Unfilled := by
  have hgrounded := hg.save fs
  rw [state_save] at hgrounded ⊢
  intro content hread
  obtain ⟨l, hl, hfile⟩ := FileTree.leadsTo_of_read hgrounded hread
  have hends := congrArg Prod.fst (ends_save fs s)
  cases hp : publish s.path (Baseline.ofFindings fs s.version).render.toUTF8 s.tree with
  | mk outcome t journal =>
    rw [hp] at hends
    cases outcome with
    | ok _ =>
      rw [show (save fs s).ends.1 = .error fault from h] at hends
      cases hends
    | error e => exact not_leadsTo_of_publish_error (congrArg Result.outcome hp) hfile hl

theorem Grounded.clear (h : s.Grounded) : (clear s).state.Grounded := by
  unfold FileStore.clear
  cases hr : s.tree.remove s.path with
  | error e => cases e <;> exact h
  | ok t =>
    obtain ⟨l, bytes, hl, hfile⟩ := FileTree.leadsTo_of_remove hr
    rw [hl.remove hfile] at hr
    cases hr
    have hd : s.tree.isDirectory l = false := by rw [FileTree.isDirectory, hfile]
    exact FileTree.Grounded.keep h (FileTree.keepsDirectories_erase hd)

theorem path_clear (s : FileStore) : (clear s).state.path = s.path := by
  unfold FileStore.clear
  cases s.tree.remove s.path with
  | ok t => rfl
  | error e => cases e <;> rfl

end LintRatchet.FileStore
