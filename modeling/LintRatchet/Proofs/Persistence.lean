import LintRatchet.Proofs.Reported
import LintRatchet.Proofs.Session

/-!
# What a store can come to hold

A store that starts without a baseline only ever comes to hold well-formed ones
(`Baseline.WellFormed`).  They are in canonical form, name their findings by
fingerprints, and have findings as reports have them.

Every operation changes a store by saving the findings of a report or by
clearing, if it changes it at all.  So whatever these two keep, also when they
fail, holds after every sequence of operations (`Kept.afterwards`).  In a file
there is then either nothing or the text of a well-formed baseline, byte for
byte.
-/

namespace LintRatchet

/-! ## Well-formed baselines -/

/-- The digits of a fingerprint. -/
def hexDigits : List Char := "0123456789abcdef".toList

theorem hexDigit_mem {n : Nat} (h : n < 16) : Digest.hexDigit n ∈ hexDigits := by
  have hall : ∀ m < 16, Digest.hexDigit m ∈ hexDigits := by decide
  exact hall n h

/-- A fingerprint has thirty-two hexadecimal digits. -/
theorem fingerprint_digits (f : Finding) :
    f.fingerprint.length = 32 ∧ ∀ c ∈ f.fingerprint.toList, c ∈ hexDigits := by
  constructor
  · rw [Finding.fingerprint, String.length_ofList, Digest.length_hex, List.length_take,
      Digest.Sha256.length_hash]
    rfl
  · intro c hc
    rw [Finding.fingerprint, String.toList_ofList] at hc
    obtain ⟨b, -, hb⟩ := List.mem_flatMap.mp hc
    have hlt := b.toNat_lt
    simp only [Digest.hexByte, List.mem_cons, List.not_mem_nil, or_false] at hb
    rcases hb with rfl | rfl
    · exact hexDigit_mem (by omega)
    · exact hexDigit_mem (by omega)

/-- What every baseline is like that findings of reports have been saved in. -/
structure Baseline.WellFormed (b : Baseline) : Prop where
  /-- Its fingerprints are those of its findings, ascending, and its findings are in order. -/
  canonical : b.Records b.errors b.linterVersion
  digits : ∀ p ∈ b.fingerprints, p.length = 32 ∧ ∀ c ∈ p.toList, c ∈ hexDigits
  reported : ∀ f ∈ b.errors, f.Reported

/-- What records findings records them in any order. -/
theorem Baseline.Records.of_perm {b : Baseline} {fs gs : List Finding} {v : String}
    (h : b.Records fs v) (hp : fs.Perm gs) : b.Records gs v where
  version := h.version
  ascending := h.ascending
  accepts p := by
    rw [h.accepts]
    simp only [hp.mem_iff]
  keeps := h.keeps.trans hp
  sorted := h.sorted

/-- A baseline of reported findings is well-formed. -/
theorem Baseline.wellFormed_ofFindings {fs : List Finding} (h : ∀ f ∈ fs, f.Reported) (v : String) :
    (Baseline.ofFindings fs v).WellFormed where
  canonical :=
    (Baseline.records_ofFindings fs v).of_perm (Baseline.records_ofFindings fs v).keeps.symm
  digits p hp := by
    obtain ⟨f, -, rfl⟩ := ((Baseline.records_ofFindings fs v).accepts p).mp hp
    exact fingerprint_digits f
  reported f hf := h f (Finding.mem_sort.mp hf)

/-! ## Sequences of operations -/

section Operations

variable {σ : Type} [Store σ]

/-- The store that operations leave behind, one after the other. -/
def afterwards (s : σ) (ops : List Operation) : σ := ops.foldl (fun s op => (op.perform s).state) s

/-- What saving findings of reports and clearing keep, however they end. -/
structure Kept (holds : σ → Prop) : Prop where
  save {s : σ} {fs : List Finding} : holds s → (∀ f ∈ fs, f.Reported) →
    holds (Store.save fs s).state
  clear {s : σ} : holds s → holds (Store.clear s).state

variable {holds : σ → Prop} {s : σ}

theorem Kept.check (hk : Kept holds) (hs : holds s) (plan : Plan) (report : String) :
    holds (Store.check plan report s).state := by
  rw [Store.state_check]
  split
  · exact hk.save hs fun _ hf => Report.reported_of_mem_read hf
  · exact hs

/-- What saving and clearing keep every operation keeps. -/
theorem Kept.perform (hk : Kept holds) (hs : holds s) (op : Operation) :
    holds (op.perform s).state := by
  cases op with
  | check plan report =>
    rw [Operation.perform, Procedure.state_map]
    exact hk.check hs plan report
  | snapshot report cwd =>
    rw [Operation.perform, Procedure.state_map, Store.state_snapshot]
    exact hk.save hs fun _ hf => Report.reported_of_mem_read hf
  | discard =>
    rw [Operation.perform, Procedure.state_map]
    have hstate : (Store.discard s).state = (Store.clear s).state :=
      congrArg Prod.snd (Store.ends_discard s)
    rw [hstate]
    exact hk.clear hs
  | status =>
    rw [Operation.perform, Procedure.state_map]
    exact hs

/-- What every operation keeps holds after any list of them. -/
theorem Kept.afterwards (hk : Kept holds) (hs : holds s) (ops : List Operation) :
    holds (afterwards s ops) := by
  induction ops generalizing s with
  | nil => exact hs
  | cons op ops ih => exact ih (hk.perform hs op)

end Operations

/-! ## The two stores -/

theorem MemoryStore.kept_wellFormed :
    Kept fun m : MemoryStore => m.held = none ∨ ∃ b, m.held = some b ∧ b.WellFormed where
  save {m fs} hm hfs := by
    have hstate := congrArg Prod.snd (MemoryStore.ends_save fs m)
    replace hstate : (Store.save fs m).state = _ := hstate
    rw [hstate]
    split
    · exact hm
    · exact .inr ⟨_, rfl, Baseline.wellFormed_ofFindings hfs m.version⟩
  clear {m} hm := by
    have hstate := congrArg Prod.snd (MemoryStore.ends_clear m)
    replace hstate : (Store.clear m).state = _ := hstate
    rw [hstate]
    split
    · exact hm
    · exact .inl rfl

/-- The file of the store is that of a well-formed baseline, or there is none. -/
structure FileStore.Sound (path : String) (s : FileStore) : Prop where
  path : s.path = path
  grounded : s.Grounded
  held : s.Unfilled ∨ ∃ b, s.Holds b ∧ b.WellFormed

theorem FileStore.kept_sound (path : String) : Kept (FileStore.Sound path) where
  save {s fs} hs hfs := by
    refine ⟨?_, hs.grounded.save fs, ?_⟩
    · show (FileStore.save fs s).state.path = path
      rw [FileStore.state_save]
      exact hs.path
    · cases ho : (FileStore.save fs s).outcome with
      | error fault => exact .inl (FileStore.unfilled_of_save_error hs.grounded ho)
      | ok b =>
        have hends : (FileStore.save fs s).ends = (.ok b, (FileStore.save fs s).state) :=
          Prod.ext ho rfl
        obtain ⟨rfl, hholds, -⟩ := FileStore.save_ok hends
        exact .inr ⟨_, hholds, Baseline.wellFormed_ofFindings hfs s.version⟩
  clear {s} hs := by
    refine ⟨(FileStore.path_clear s).trans hs.path, hs.grounded.clear, ?_⟩
    rcases hs.held with hnone | ⟨b, hb, -⟩
    · show (FileStore.clear s).state.Unfilled ∨ _
      rw [hnone.clear]
      exact .inl hnone
    · obtain ⟨t, hclear, hvacant, -⟩ := hb.clear
      have hstate : (FileStore.clear s).state = { s with tree := t } := congrArg Prod.snd hclear
      show (FileStore.clear s).state.Unfilled ∨ _
      rw [hstate]
      exact .inl hvacant.unfilled

theorem Baseline.getLast?_render (b : Baseline) : b.render.toList.getLast? = some '\n' := by
  rw [Baseline.render, String.toList_append]
  exact List.getLast?_concat

/-- After every sequence of operations a store that started without a baseline holds nothing or a
well-formed baseline.  In a file it is written out byte for byte, with a line feed at the end.  All
that is asked of the file tree is that the working directory is there, with directories above it. -/
theorem held_wellFormed {m : MemoryStore} {f : FileStore} (hm : m.held = none)
    (hf : f.Unfilled) (hgrounded : f.Grounded) (ops : List Operation) :
    ((afterwards m ops).held = none ∨
        ∃ b, (afterwards m ops).held = some b ∧ b.WellFormed) ∧
      ((afterwards f ops).Unfilled ∧ (afterwards f ops).load.baseline = none ∨
        ∃ b, (afterwards f ops).load.baseline = some b ∧ b.WellFormed ∧
          (afterwards f ops).tree.read f.path = .ok b.render.toUTF8 ∧
          b.render.toList.getLast? = some '\n') := by
  refine ⟨MemoryStore.kept_wellFormed.afterwards (.inl hm) ops, ?_⟩
  have hsound : (afterwards f ops).Sound f.path :=
    (FileStore.kept_sound f.path).afterwards ⟨rfl, hgrounded, .inl hf⟩ ops
  rcases hsound.held with hnone | ⟨b, hb, hwell⟩
  · exact .inl ⟨hnone, hnone.load⟩
  · refine .inr ⟨b, congrArg Loaded.baseline hb.load, hwell, ?_, b.getLast?_render⟩
    rw [← hsound.path]
    exact hb.read

/-- Operations on a store in memory, and on one whose path runs through a directory that is not
there yet. -/
theorem held_wellFormed_in_missing_directory :
    let m : MemoryStore := {}
    let f : FileStore := { tree := ⟨[(["work"], .directory)], ["work"]⟩, path := "ci/../b.json" }
    let report := "::error title=r:1,file=C:\\src\\./a.js,line=007,col=1::old:::  new \r\n::error\n"
    let ops : List Operation := [
      .check ⟨{ strict := true }, "c:/src", "1.9"⟩ report, .check ⟨{}, "/", "1.9"⟩ "", .discard,
      .snapshot (report ++ report) "/", .check ⟨{ failOnImprovement := true }, "", "2.0"⟩ report]
    (m.held = none ∧ f.Unfilled ∧ f.Grounded) ∧
      ((afterwards m ops).held = none ∨
        ∃ b, (afterwards m ops).held = some b ∧ b.WellFormed) ∧
      ((afterwards f ops).Unfilled ∧ (afterwards f ops).load.baseline = none ∨
        ∃ b, (afterwards f ops).load.baseline = some b ∧ b.WellFormed ∧
          (afterwards f ops).tree.read "ci/../b.json" = .ok b.render.toUTF8 ∧
          b.render.toList.getLast? = some '\n') := by
  intro m f report ops
  have hvacant : f.Vacant := by
    unfold FileStore.Vacant
    decide +kernel
  have hgrounded : f.Grounded := by
    intro l hl
    have hwork : l <+: [] ++ ["work"] := hl
    rcases List.prefix_concat_iff.mp hwork with rfl | hroot
    · rfl
    · exact FileTree.grounded_root _ l hroot
  exact ⟨⟨rfl, hvacant.unfilled, hgrounded⟩,
    held_wellFormed rfl hvacant.unfilled hgrounded ops⟩

end LintRatchet
