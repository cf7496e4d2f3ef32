import LintRatchet.Proofs.FileTree.Following
import LintRatchet.Proofs.FileTree.PathName

/-!
# Operations on the location that a path names

Every operation follows its path in the same way, and `Way` lists how far it can
get.  The proofs about an operation have one case for each.

`LeadsTo t path l` says that the path names the location `l` in an existing
directory.  Every operation on the path is then one on that location, and the
path goes on leading there as long as directories are kept.

`createDirectories` only ever adds directories where there was nothing
(`AddsDirectories`), also when it fails.  Each of them is named by the path or
by a path above it (`CreatesDirectory.made`).  When it succeeds, the path names
a directory, and doing it again changes nothing.
-/

namespace LintRatchet.FileTree

variable {t t' t'' : FileTree} {path : String} {l : Location}

/-! ## Names in a directory -/

/-- How far a path can be followed. -/
inductive Way (t : FileTree) (path : String) : Prop
  | blocked {e : FileProblem} : t.target path = .error e → Way t path
  /-- The path ends in no name, but in something that always exists. -/
  | fixed {d : Location} {last : LastSegment} {slash : Bool} :
      t.target path = .ok ⟨d, last, slash⟩ → last = .here ∨ last = .up ∨ last = .root → Way t path
  | unnamed {d : Location} {n : String} {slash : Bool} {e : FileProblem} :
      t.target path = .ok ⟨d, .name n, slash⟩ → child d n = .error e → Way t path
  | named {d : Location} {n : String} {slash : Bool} {l : Location} :
      t.target path = .ok ⟨d, .name n, slash⟩ → child d n = .ok l → Way t path

/-- Every path can be followed in one of the ways. -/
theorem way (t : FileTree) (path : String) : Way t path := by
  cases ht : t.target path with
  | error e => exact .blocked ht
  | ok p =>
    obtain ⟨d, last, slash⟩ := p
    cases last with
    | here => exact .fixed ht (.inl rfl)
    | up => exact .fixed ht (.inr (.inl rfl))
    | root => exact .fixed ht (.inr (.inr rfl))
    | name n =>
      cases hc : child d n with
      | error e => exact .unnamed ht hc
      | ok l => exact .named ht hc

/-- An operation that needs a name at the end of its path succeeds only where there is one. -/
theorem exists_name_of_eq_ok {α : Type} {k : PathTarget → String → Except FileProblem α}
    {e : FileProblem} {a : α}
    (h : (do
      let p ← t.target path
      match p.last with
      | .name n => k p n
      | _ => .error e) = .ok a) :
    ∃ d n slash, t.target path = .ok ⟨d, .name n, slash⟩ ∧ k ⟨d, .name n, slash⟩ n = .ok a := by
  obtain ⟨⟨d, last, slash⟩, ht, h⟩ := bind_eq_ok_iff.mp h
  cases last with
  | name n => exact ⟨d, n, slash, ht, h⟩
  | here => cases h
  | up => cases h
  | root => cases h

/-- The path names the location in an existing directory, and does not ask for a directory there. -/
def LeadsTo (t : FileTree) (path : String) (l : Location) : Prop :=
  ∃ d n, t.target path = .ok ⟨d, .name n, false⟩ ∧ child d n = .ok l

theorem child_eq {d : Location} {n : String} (h : child d n = .ok l) : l = d ++ [n] := by
  unfold child at h
  split at h
  · cases h
  · cases h
    rfl

/-- A path leads to the same place as long as directories are kept. -/
theorem LeadsTo.keep (h : LeadsTo t path l) (hk : KeepsDirectories t t') : LeadsTo t' path l := by
  obtain ⟨d, n, ht, hc⟩ := h
  exact ⟨d, n, hk.target ht, hc⟩

theorem LeadsTo.locate (h : LeadsTo t path l) :
    t.locate path = if (t.at? l).isSome then .ok l else .error .notFound := by
  obtain ⟨d, n, ht, hc⟩ := h
  simp only [FileTree.locate, ht, hc, bind, Except.bind]
  cases t.at? l with
  | none => rfl
  | some e =>
    cases e with
    | directory => rfl
    | file bytes => rfl

theorem LeadsTo.read (h : LeadsTo t path l) {bytes : ByteArray}
    (hf : t.at? l = some (.file bytes)) : t.read path = .ok bytes := by
  have hl : t.locate path = .ok l := by
    rw [h.locate, hf]
    rfl
  simp only [FileTree.read, hl, bind, Except.bind, hf]
  rfl

theorem LeadsTo.remove (h : LeadsTo t path l) {bytes : ByteArray}
    (hf : t.at? l = some (.file bytes)) : t.remove path = .ok (t.erase l) := by
  obtain ⟨d, n, ht, hc⟩ := h
  simp only [FileTree.remove, ht, hc, bind, Except.bind, hf, Bool.false_eq_true, if_false]
  rfl

/-- A file is put only where the path leads, and not where there is a directory. -/
theorem slot_eq_ok_iff : t.slot path = .ok l ↔ LeadsTo t path l ∧ t.isDirectory l = false := by
  unfold slot
  constructor
  · intro h
    split at h
    · cases h
    · obtain ⟨d, n, slash, ht, h⟩ := exists_name_of_eq_ok h
      obtain ⟨m, hc, h⟩ := bind_eq_ok_iff.mp h
      cases slash with
      | true => cases h
      | false =>
        cases hd : t.isDirectory m with
        | true =>
          rw [hd] at h
          cases h
        | false =>
          rw [hd] at h
          cases h
          exact ⟨⟨d, n, ht, hc⟩, hd⟩
  · rintro ⟨⟨d, n, ht, hc⟩, hd⟩
    have hnul : '\x00' ∉ path.toList := (target_eq_ok_iff.mp ht).1
    simp only [hnul, if_false, ht, hc, bind, Except.bind, Bool.false_eq_true, hd]
    rfl

/-- A file is put where the path leads, in the place of a file or of nothing. -/
theorem LeadsTo.replace (h : LeadsTo t path l) (hd : t.isDirectory l = false) (bytes : ByteArray) :
    t.replace path bytes = .ok (t.put l (.file bytes)) := by
  rw [FileTree.replace, slot_eq_ok_iff.mpr ⟨h, hd⟩]
  rfl

/-- A file is put only where the path leads, and never over a directory. -/
theorem leadsTo_of_replace {bytes : ByteArray} (h : t.replace path bytes = .ok t') :
    ∃ l, LeadsTo t path l ∧ t.isDirectory l = false ∧ t' = t.put l (.file bytes) := by
  unfold FileTree.replace at h
  cases hs : t.slot path with
  | error e =>
    rw [hs] at h
    cases h
  | ok l =>
    rw [hs] at h
    cases h
    obtain ⟨hl, hd⟩ := slot_eq_ok_iff.mp hs
    exact ⟨l, hl, hd, rfl⟩

/-- A file is overwritten, or created, only where the path leads. -/
theorem leadsTo_of_write {bytes : ByteArray} (h : t.write path bytes = .ok t') :
    ∃ l, LeadsTo t path l ∧ t.isDirectory l = false ∧ t' = t.put l (.file bytes) := by
  obtain ⟨d, n, slash, ht, h⟩ := exists_name_of_eq_ok h
  cases slash with
  | true => cases h
  | false =>
    obtain ⟨l, hc, h⟩ := bind_eq_ok_iff.mp h
    cases hd : t.isDirectory l with
    | true =>
      rw [hd] at h
      cases h
    | false =>
      rw [hd] at h
      cases h
      exact ⟨l, ⟨d, n, ht, hc⟩, hd, rfl⟩

/-- What is not there cannot be removed. -/
theorem remove_of_locate_notFound (h : t.locate path = .error .notFound) :
    t.remove path = .error .notFound := by
  unfold FileTree.locate at h
  unfold FileTree.remove
  cases t.way path with
  | blocked ht =>
    simp only [ht, bind, Except.bind] at h ⊢
    cases h
    rfl
  | fixed ht hlast =>
    rcases hlast with rfl | rfl | rfl <;>
    · simp only [ht, bind, Except.bind] at h
      cases h
  | unnamed ht hc =>
    simp only [ht, hc, bind, Except.bind] at h ⊢
    cases h
    rfl
  | @named d n slash l ht hc =>
    simp only [ht, hc, bind, Except.bind] at h ⊢
    cases hl : t.at? l with
    | none => rfl
    | some e =>
      rw [hl] at h
      cases e with
      | directory => cases h
      | file bytes => cases slash <;> cases h

/-! ## Creating directories -/

/-- The second tree is the first one with directories where there was nothing. -/
structure AddsDirectories (t t' : FileTree) : Prop where
  workingDirectory : t'.workingDirectory = t.workingDirectory
  at? : ∀ l, t'.at? l = t.at? l ∨ (t.at? l = none ∧ t'.at? l = some .directory)

theorem AddsDirectories.refl (t : FileTree) : AddsDirectories t t := ⟨rfl, fun _ => .inl rfl⟩

theorem AddsDirectories.trans (h : AddsDirectories t t') (h' : AddsDirectories t' t'') :
    AddsDirectories t t'' where
  workingDirectory := h'.workingDirectory.trans h.workingDirectory
  at? l := by
    rcases h.at? l with he | ⟨hn, hs⟩ <;> rcases h'.at? l with he' | ⟨hn', hs'⟩
    · exact .inl (he'.trans he)
    · exact .inr ⟨he ▸ hn', hs'⟩
    · exact .inr ⟨hn, he'.trans hs⟩
    · rw [hs] at hn'
      cases hn'

theorem AddsDirectories.keepsDirectories (h : AddsDirectories t t') : KeepsDirectories t t' where
  workingDirectory := h.workingDirectory
  directory := by
    intro l hl
    rw [isDirectory_iff] at hl ⊢
    rcases h.at? l with he | ⟨-, hs⟩
    · rw [he, hl]
    · exact hs

/-- A path names a directory when it can be followed to one. -/
theorem namesDirectory_iff : t.namesDirectory path = true ↔
    ∃ l, t.locate path = .ok l ∧ t.isDirectory l = true := by
  unfold namesDirectory
  cases t.locate path with
  | error e => simp
  | ok l => simp

/-- What names a directory goes on naming it. -/
theorem KeepsDirectories.locate (hk : KeepsDirectories t t') (hl : t.locate path = .ok l)
    (hd : t.isDirectory l = true) : t'.locate path = .ok l := by
  unfold FileTree.locate at hl ⊢
  cases t.way path with
  | blocked ht =>
    simp only [ht, bind, Except.bind] at hl
    cases hl
  | fixed ht hlast =>
    simp only [ht, hk.target ht, bind, Except.bind] at hl ⊢
    rcases hlast with rfl | rfl | rfl <;> exact hl
  | unnamed ht hc =>
    simp only [ht, hc, bind, Except.bind] at hl
    cases hl
  | @named d n slash m ht hc =>
    simp only [ht, hk.target ht, hc, bind, Except.bind] at hl ⊢
    cases hm : t.at? m with
    | none =>
      rw [hm] at hl
      cases hl
    | some e =>
      rw [hm] at hl
      cases e with
      | directory =>
        cases hl
        rw [isDirectory_iff.mp (hk.directory hd)]
        rfl
      | file bytes =>
        cases slash with
        | true => cases hl
        | false =>
          cases hl
          rw [isDirectory_iff, hm] at hd
          cases hd

theorem KeepsDirectories.namesDirectory (hk : KeepsDirectories t t')
    (h : t.namesDirectory path = true) : t'.namesDirectory path = true := by
  obtain ⟨l, hl, hd⟩ := namesDirectory_iff.mp h
  exact namesDirectory_iff.mpr ⟨l, hk.locate hl hd, hk.directory hd⟩

/-- A directory is put only where the path names nothing. -/
theorem makeDirectory_eq_ok (h : t.makeDirectory path = .ok t') : ∃ d n slash l,
    t.target path = .ok ⟨d, .name n, slash⟩ ∧ child d n = .ok l ∧ t.at? l = none ∧
      t' = t.put l .directory := by
  obtain ⟨d, n, slash, ht, h⟩ := exists_name_of_eq_ok h
  obtain ⟨l, hc, h⟩ := bind_eq_ok_iff.mp h
  cases hl : t.at? l with
  | some e =>
    rw [hl] at h
    cases h
  | none =>
    rw [hl] at h
    cases h
    exact ⟨d, n, slash, l, ht, hc, hl, rfl⟩

theorem addsDirectories_put (hl : t.at? l = none) (hroot : l ≠ []) :
    AddsDirectories t (t.put l .directory) := by
  refine ⟨rfl, fun m => ?_⟩
  rw [at?_put t .directory hroot]
  by_cases hm : m = l
  · subst hm
    exact .inr ⟨hl, if_pos rfl⟩
  · exact .inl (if_neg hm)

/-- The second tree is the first one with a directory at the path, which may have been there. -/
structure GainsDirectory (t : FileTree) (path : String) (t' : FileTree) : Prop where
  adds : AddsDirectories t t'
  names : t'.namesDirectory path = true
  made : ∀ l, t.at? l = none → t'.at? l = some .directory → t'.locate path = .ok l

/-- Making a directory adds one directory, which the path names afterwards. -/
theorem makeDirectory_spec (h : t.makeDirectory path = .ok t') : GainsDirectory t path t' := by
  obtain ⟨d, n, slash, l, ht, hc, hl, rfl⟩ := makeDirectory_eq_ok h
  have hroot : l ≠ [] := by
    rw [child_eq hc]
    simp
  have hadds : AddsDirectories t (t.put l .directory) := addsDirectories_put hl hroot
  have hat : (t.put l .directory).at? l = some .directory := by
    rw [at?_put t .directory hroot, if_pos rfl]
  have hlocate : (t.put l .directory).locate path = .ok l := by
    simp only [FileTree.locate, hadds.keepsDirectories.target ht, hc, bind, Except.bind, hat]
    rfl
  refine ⟨hadds, namesDirectory_iff.mpr ⟨l, hlocate, isDirectory_iff.mpr hat⟩, fun m hm hm' => ?_⟩
  by_cases heq : m = l
  · rw [heq, hlocate]
  · rw [at?_put t .directory hroot, if_neg heq, hm] at hm'
    cases hm'

/-- A directory that is there cannot be made. -/
theorem makeDirectory_of_namesDirectory (h : t.namesDirectory path = true) :
    t.makeDirectory path = .error .exists := by
  obtain ⟨l, hl, -⟩ := namesDirectory_iff.mp h
  unfold FileTree.locate at hl
  unfold makeDirectory
  cases t.way path with
  | blocked ht =>
    simp only [ht, bind, Except.bind] at hl
    cases hl
  | fixed ht hlast =>
    simp only [ht, bind, Except.bind]
    rcases hlast with rfl | rfl | rfl <;> rfl
  | unnamed ht hc =>
    simp only [ht, hc, bind, Except.bind] at hl
    cases hl
  | @named d n slash m ht hc =>
    simp only [ht, hc, bind, Except.bind] at hl ⊢
    cases hm : t.at? m with
    | none =>
      rw [hm] at hl
      cases hl
    | some e => rfl

theorem ensureDirectory_spec (h : t.ensureDirectory path = .ok t') : GainsDirectory t path t' := by
  unfold ensureDirectory at h
  cases hm : t.makeDirectory path with
  | ok t₁ =>
    rw [hm] at h
    cases h
    exact makeDirectory_spec hm
  | error e =>
    rw [hm] at h
    cases hn : t.namesDirectory path with
    | true =>
      rw [hn] at h
      cases h
      exact ⟨.refl t, hn, fun l hl hl' => by rw [hl] at hl'; cases hl'⟩
    | false =>
      rw [hn] at h
      cases h

/-- Nothing is done for a directory that is there. -/
theorem ensureDirectory_of_namesDirectory (h : t.namesDirectory path = true) :
    t.ensureDirectory path = .ok t := by
  rw [ensureDirectory, makeDirectory_of_namesDirectory h, h]
  rfl

/-- What a procedure that creates a directory does: it adds directories, which the path or one above
it names, and nothing else.  When it succeeds the path names one.  The empty path asks for nothing. -/
structure CreatesDirectory (t : FileTree) (path : String) (r : Result FileTree FileProblem Unit) :
    Prop where
  adds : AddsDirectories t r.state
  made : ∀ l, t.at? l = none → r.state.at? l = some .directory →
    ∃ above, PathName.UpFrom path above ∧ r.state.locate above = .ok l
  names : path ≠ "" → r.outcome = .ok () → r.state.namesDirectory path = true
  journal : r.journal = []

/-- Nothing is created. -/
theorem CreatesDirectory.idle {outcome : Except FileProblem Unit}
    (names : path ≠ "" → outcome = .ok () → t.namesDirectory path = true) :
    CreatesDirectory t path ⟨outcome, t, []⟩ where
  adds := .refl t
  made l hl hl' := by
    rw [hl] at hl'
    cases hl'
  names := names
  journal := rfl

theorem change_ensureDirectory_spec (t : FileTree) (path : String) :
    CreatesDirectory t path (Procedure.change (ensureDirectory · path) t) := by
  cases he : t.ensureDirectory path with
  | error e =>
    have hr : Procedure.change (ensureDirectory · path) t = ⟨.error e, t, []⟩ := by
      simp only [Procedure.change, he]
    rw [hr]
    exact .idle fun _ h => (nomatch h)
  | ok t₁ =>
    have hr : Procedure.change (ensureDirectory · path) t = ⟨.ok (), t₁, []⟩ := by
      simp only [Procedure.change, he]
    rw [hr]
    obtain ⟨hadds, hnames, hmade⟩ := ensureDirectory_spec he
    exact ⟨hadds, fun l hl hl' => ⟨path, .refl, hmade l hl hl'⟩, fun _ _ => hnames, rfl⟩

/-- The directory above comes first.  When it fails, what was created is kept. -/
theorem CreatesDirectory.andThen {above : String} {p q : Procedure FileTree FileProblem Unit}
    (habove : PathName.parent? path = some above) (hp : CreatesDirectory t above (p t))
    (hq : ∀ u, CreatesDirectory u path (q u)) : CreatesDirectory t path ((do p; q) t) := by
  have hup : ∀ {far : String}, PathName.UpFrom above far → PathName.UpFrom path far :=
    fun h => .head habove h
  rw [Procedure.bind_apply]
  cases hr : p t with
  | mk outcome u journal =>
    rw [hr] at hp
    obtain rfl : journal = [] := hp.journal
    cases outcome with
    | error e =>
      refine ⟨hp.adds, fun l hl hl' => ?_, fun _ h => (nomatch h), rfl⟩
      obtain ⟨far, hfar, hlocate⟩ := hp.made l hl hl'
      exact ⟨far, hup hfar, hlocate⟩
    | ok _ =>
      refine ⟨hp.adds.trans (hq u).adds, fun l hl hl' => ?_, (hq u).names, (hq u).journal⟩
      rcases hp.adds.at? l with hu | ⟨-, hu⟩
      · exact (hq u).made l (hu.trans hl) hl'
      · -- It was made on the way, and the name by which it was made still leads to it.
        obtain ⟨far, hfar, hlocate⟩ := hp.made l hl hu
        exact ⟨far, hup hfar,
          (hq u).adds.keepsDirectories.locate hlocate (isDirectory_iff.mpr hu)⟩

/-- Creating directories does nothing else, whether it fails or not. -/
theorem createDirectories_spec (path : String) (t : FileTree) :
    CreatesDirectory t path (createDirectories path t) := by
  rw [createDirectories]
  split
  · next hp => exact .idle fun h => absurd hp h
  · split
    · next parent _ hparent =>
      have hshorter : parent.length < path.length := PathName.parent?_length hparent
      have habove := createDirectories_spec parent t
      exact habove.andThen hparent fun u => change_ensureDirectory_spec u path
    · exact change_ensureDirectory_spec t path
termination_by path.length

theorem createDirectories_of_namesDirectory (h : t.namesDirectory path = true) :
    createDirectories path t = ⟨.ok (), t, []⟩ := by
  have hensure : Procedure.change (ensureDirectory · path) t = ⟨.ok (), t, []⟩ := by
    simp only [Procedure.change, ensureDirectory_of_namesDirectory h]
  rw [createDirectories]
  split
  · rfl
  · split
    · next hmake _ =>
      rw [makeDirectory_of_namesDirectory h] at hmake
      cases hmake
    · exact hensure

end LintRatchet.FileTree
