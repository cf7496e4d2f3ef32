import LintRatchet.Proofs.FileTree.Parent

/-!
# What a change of a tree leaves alone

A change is meant to touch the files that some paths name, and may create the
directories that are missing above some paths.  `Footprint t t' files above`
says that it does no more than that, for one location at a time: each is as
before, or the file of one of the paths is there now, or a directory that one
of the other paths needs (`Fate`).

Such a change keeps directories, so what a path led to before it still leads to,
and changes one after the other have a footprint as well (`Footprint.trans`).
Where `files` is empty no file is changed, removed or added
(`Footprint.at?_file`).
-/

namespace LintRatchet.FileTree

variable {t t' t'' : FileTree} {files above files' above' : List String} {path : String}
  {l : Location} {bytes : ByteArray}

/-- What a change has done to a location. -/
inductive Fate (t t' : FileTree) (files above : List String) (l : Location) : Prop
  | same : t'.at? l = t.at? l → Fate t t' files above l
  /-- One of the paths leads there, and there is a file now. -/
  | filled {path : String} {bytes : ByteArray} :
      path ∈ files → t'.LeadsTo path l → t.isDirectory l = false →
      t'.at? l = some (.file bytes) → Fate t t' files above l
  /-- There was nothing, and now there is a directory above one of the paths. -/
  | made {path up : String} :
      path ∈ above → PathName.Above path up → t'.locate up = .ok l →
      t.at? l = none → t'.at? l = some .directory → Fate t t' files above l

/-- A change does nothing but put files where some paths lead and create directories that are missing
above some paths. -/
structure Footprint (t t' : FileTree) (files above : List String) : Prop where
  workingDirectory : t'.workingDirectory = t.workingDirectory
  fate : ∀ l, Fate t t' files above l

theorem Footprint.refl (t : FileTree) (files above : List String) : Footprint t t files above :=
  ⟨rfl, fun _ => .same rfl⟩

theorem Footprint.keepsDirectories (h : Footprint t t' files above) : KeepsDirectories t t' where
  workingDirectory := h.workingDirectory
  directory := by
    intro l hl
    cases h.fate l with
    | same hsame => rwa [isDirectory_iff, hsame, ← isDirectory_iff]
    | filled _ _ hd _ =>
      rw [hd] at hl
      cases hl
    | made _ _ _ _ hmade => exact isDirectory_iff.mpr hmade

theorem Footprint.mono (h : Footprint t t' files above) (hfiles : files ⊆ files')
    (habove : above ⊆ above') : Footprint t t' files' above' where
  workingDirectory := h.workingDirectory
  fate l := by
    cases h.fate l with
    | same hsame => exact .same hsame
    | filled hmem hl hd hfile => exact .filled (hfiles hmem) hl hd hfile
    | made hmem hup hl hnone hmade => exact .made (habove hmem) hup hl hnone hmade

/-- Changes one after the other have a footprint together. -/
theorem Footprint.trans (h : Footprint t t' files above) (h' : Footprint t' t'' files above) :
    Footprint t t'' files above where
  workingDirectory := h'.workingDirectory.trans h.workingDirectory
  fate l := by
    cases h'.fate l with
    | same hsame' =>
      cases h.fate l with
      | same hsame => exact .same (hsame'.trans hsame)
      | filled hmem hl hd hfile =>
        exact .filled hmem (hl.keep h'.keepsDirectories) hd (hsame'.trans hfile)
      | made hmem hup hl hnone hmade =>
        exact .made hmem hup (h'.keepsDirectories.locate hl (isDirectory_iff.mpr hmade)) hnone
          (hsame'.trans hmade)
    | filled hmem hl hd' hfile =>
      -- A second file may stand where the first change put one, but not where a directory was.
      refine .filled hmem hl (Bool.eq_false_iff.mpr fun hd => ?_) hfile
      rw [h.keepsDirectories.directory hd] at hd'
      cases hd'
    | made hmem hup hl hnone' hmade =>
      cases h.fate l with
      | same hsame => exact .made hmem hup hl (hsame.symm.trans hnone') hmade
      | filled _ _ _ hfile =>
        rw [hnone'] at hfile
        cases hfile
      | made _ _ _ _ hmade' =>
        rw [hnone'] at hmade'
        cases hmade'

/-! ## Files -/

/-- Without paths of files, the files after the change are those before it. -/
theorem Footprint.at?_file (h : Footprint t t' [] above) (l : Location) (bytes : ByteArray) :
    t'.at? l = some (.file bytes) ↔ t.at? l = some (.file bytes) := by
  cases h.fate l with
  | same hsame => rw [hsame]
  | filled hmem => cases hmem
  | made _ _ _ hnone hmade => simp [hnone, hmade]

/-- A path leads to one location only. -/
theorem LeadsTo.unique {m : Location} (h : LeadsTo t path l) (h' : LeadsTo t path m) : l = m := by
  obtain ⟨d, n, ht, hc⟩ := h
  obtain ⟨d', n', ht', hc'⟩ := h'
  rw [ht] at ht'
  cases ht'
  rw [hc] at hc'
  cases hc'
  rfl

/-- With the path of one file only, what is at another location is as before or a directory. -/
theorem Footprint.elsewhere (h : Footprint t t' [path] above) (hl : LeadsTo t' path l)
    {m : Location} (hm : m ≠ l) : Fate t t' [] above m := by
  cases h.fate m with
  | same hsame => exact .same hsame
  | filled hmem hm' =>
    obtain rfl := List.mem_singleton.mp hmem
    exact absurd (hm'.unique hl) hm
  | made hmem hup hm hnone hmade => exact .made hmem hup hm hnone hmade

/-- The path leads to a file with the bytes. -/
def HasFile (t : FileTree) (path : String) (bytes : ByteArray) : Prop :=
  ∃ l, LeadsTo t path l ∧ t.at? l = some (.file bytes)

theorem Footprint.hasFile (h : Footprint t t' [] above) (hf : HasFile t path bytes) :
    HasFile t' path bytes := by
  obtain ⟨l, hl, hat⟩ := hf
  exact ⟨l, hl.keep h.keepsDirectories, (h.at?_file l bytes).mpr hat⟩

/-- Where the path could be followed before, it leads to a file only if it did so before. -/
theorem Footprint.hasFile_iff (h : Footprint t t' [] above) {p : PathTarget}
    (hp : t.target path = .ok p) : HasFile t' path bytes ↔ HasFile t path bytes := by
  refine ⟨?_, h.hasFile⟩
  rintro ⟨l, ⟨d, n, ht', hc⟩, hat⟩
  have ht := h.keepsDirectories.target hp
  rw [ht'] at ht
  cases ht
  exact ⟨l, ⟨d, n, hp, hc⟩, (h.at?_file l bytes).mp hat⟩

/-- No file has changed, and a path leads to a file where it did so before and nowhere else. -/
structure Spares (t t' : FileTree) (path : String) (above : List String) : Prop where
  footprint : Footprint t t' [] above
  file : ∀ bytes, HasFile t' path bytes ↔ HasFile t path bytes

theorem Spares.refl (t : FileTree) (path : String) (above : List String) : Spares t t path above :=
  ⟨.refl t [] above, fun _ => Iff.rfl⟩

theorem Footprint.spares (h : Footprint t t' [] above) {p : PathTarget}
    (hp : t.target path = .ok p) : Spares t t' path above :=
  ⟨h, fun _ => h.hasFile_iff hp⟩

/-! ## The changes -/

/-- A file is put where a path leads. -/
theorem footprint_put (hl : LeadsTo t path l) (hd : t.isDirectory l = false) (bytes : ByteArray) :
    Footprint t (t.put l (.file bytes)) [path] [] where
  workingDirectory := rfl
  fate m := by
    have hat := at?_put t (.file bytes) (ne_root_of_not_isDirectory hd) m
    by_cases hm : m = l
    · subst hm
      rw [if_pos rfl] at hat
      exact .filled (List.mem_singleton_self path) (hl.keep (keepsDirectories_put hd _)) hd hat
    · rw [if_neg hm] at hat
      exact .same hat

/-- In a tree whose directories are created for the path of a file, the file may be put. -/
theorem Footprint.put (h : Footprint t t' [] [path]) (hl : LeadsTo t' path l)
    (hd : t'.isDirectory l = false) (bytes : ByteArray) :
    Footprint t (t'.put l (.file bytes)) [path] [path] :=
  (h.mono (List.nil_subset _) (List.Subset.refl _)).trans
    ((footprint_put hl hd bytes).mono (List.Subset.refl _) (List.nil_subset _))

/-- Creating directories for a path changes nothing but what was missing above it. -/
theorem footprint_createDirectories (path : String) (t : FileTree) :
    Footprint t (createDirectories (PathName.directory path) t).state [] [path] := by
  obtain ⟨hadds, hmade, -, -⟩ := createDirectories_spec (PathName.directory path) t
  refine ⟨hadds.workingDirectory, fun l => ?_⟩
  rcases hadds.at? l with hsame | ⟨hnone, hdirectory⟩
  · exact .same hsame
  · obtain ⟨up, hup, hl⟩ := hmade l hnone hdirectory
    exact .made (List.mem_singleton_self path) hup hl hnone hdirectory

end LintRatchet.FileTree
