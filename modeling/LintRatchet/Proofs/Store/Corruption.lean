import LintRatchet.Proofs.Evaluation
import LintRatchet.Proofs.FileTree.Renaming
import LintRatchet.Proofs.Operations
import LintRatchet.Proofs.Store.Loading

/-!
# Files that are no baseline

The file of a store may be broken: its bytes may be no text, or the text may be
no baseline.  Loading passes over such a file with a warning.  So everything
that is done with the store goes as if the file were not there, and the journal
has the warning in the place of the note that there is no baseline.

This needs only two facts about a store.  It loads nothing in both cases, and
it saves the same: a check without a baseline always saves, and saving replaces
a file that is there.  `NothingIn` has these facts for stores of any kind, and
the operations are compared on that ground.
-/

namespace LintRatchet

/-! ## Results that tell different things -/

/-- The outcome of both is the same, and so is the journal, up to one event. -/
structure Result.Swaps {σ ε α : Type} (event event' : Event) (r r' : Result σ ε α) : Prop where
  outcome : r.outcome = r'.outcome
  journal : ∃ front back,
    r.journal = front ++ event :: back ∧ r'.journal = front ++ event' :: back

namespace Procedure

variable {σ ε α β : Type} {s s' t : σ} {event event' : Event}

/-- What is recorded comes in order. -/
theorem bind_of_ok {p : Procedure σ ε α} {a : α} {first : List Event}
    (h : p s = ⟨.ok a, t, first⟩) (f : α → Procedure σ ε β) :
    (p >>= f) s = ⟨(f a t).outcome, (f a t).state, first ++ (f a t).journal⟩ := by
  rw [bind_apply, h]

/-- What comes first records the same in both. -/
theorem swaps_bind {p : Procedure σ ε α} {a : α} {first : List Event}
    (h : p s = ⟨.ok a, s, first⟩) (h' : p s' = ⟨.ok a, s', first⟩) {f : α → Procedure σ ε β}
    (hf : (f a s).Swaps event event' (f a s')) :
    ((p >>= f) s).Swaps event event' ((p >>= f) s') := by
  obtain ⟨front, back, hj, hj'⟩ := hf.journal
  rw [bind_of_ok h, bind_of_ok h']
  refine ⟨hf.outcome, first ++ front, back, ?_, ?_⟩
  · rw [hj, List.append_assoc]
  · rw [hj', List.append_assoc]

/-- What comes first is where the two differ. -/
theorem swaps_bind_first {p : Procedure σ ε α} {a : α} (h : p s = ⟨.ok a, s, [event]⟩)
    (h' : p s' = ⟨.ok a, s', [event']⟩) {f : α → Procedure σ ε β}
    (houtcome : (f a s).outcome = (f a s').outcome)
    (hjournal : (f a s).journal = (f a s').journal) :
    ((p >>= f) s).Swaps event event' ((p >>= f) s') := by
  rw [bind_of_ok h, bind_of_ok h', ← hjournal]
  exact ⟨houtcome, [], _, rfl, rfl⟩

end Procedure

/-! ## Stores that hold nothing -/

namespace Store

open Procedure

variable {σ : Type} [Store σ] {s s' : σ} {event event' : Event}

omit [Store σ] in
/-- An evaluation without a baseline lets nothing in, so there is one note of it. -/
theorem noteEvaluation_evaluateFirst (fs : List Finding) (s : σ) :
    (noteEvaluation (evaluateFirst fs) : Procedure σ StoreFault Unit) s =
      ⟨.ok (), s, [⟨.info, .check, (evaluateFirst fs).journalText⟩]⟩ :=
  rfl

theorem loading_of_load {b : Option Baseline} {journal : List Event}
    (h : load s = ⟨b, journal⟩) : loading s = ⟨.ok b, s, journal⟩ := by
  rw [loading, h]

theorem evaluation_of_load {b : Option Baseline} {journal : List Event}
    (h : load s = ⟨b, journal⟩) (plan : Plan) (report : String) :
    evaluation plan report s = evaluate (plan.findings report) b plan.policy := by
  rw [evaluation, h]

/-- Both stores hold nothing and say so in different words, and what is saved ends in the same
store. -/
structure NothingIn (event event' : Event) (s s' : σ) : Prop where
  load : load s = ⟨none, [event]⟩
  load' : Store.load s' = ⟨none, [event']⟩
  save : ∀ fs, Store.save fs s = Store.save fs s'
  location : location s = location s'

namespace NothingIn

variable (h : NothingIn event event' s s')
include h

/-- The findings are saved, and from then on there is one store only. -/
theorem apply_evaluateFirst (fs : List Finding) :
    apply (evaluateFirst fs) fs s = apply (evaluateFirst fs) fs s' := by
  show (Store.save fs >>= _) s = (Store.save fs >>= _) s'
  rw [bind_apply, bind_apply, h.save]

/-- A check on either store differs in one event only. -/
theorem check (plan : Plan) (report : String) :
    (check plan report s).Swaps event event' (Store.check plan report s') := by
  rw [check_eq]
  refine swaps_bind (p := noteTally _) rfl rfl
    (swaps_bind_first (loading_of_load h.load) (loading_of_load h.load') ?_ ?_)
  all_goals
    simp only [evaluate, bind_of_ok (noteEvaluation_evaluateFirst _ _), bind_apply,
      h.apply_evaluateFirst]

theorem ends_check (plan : Plan) (report : String) :
    (Store.check plan report s).ends = (Store.check plan report s').ends := by
  rw [Store.ends_check, Store.ends_check, evaluation_of_load h.load, evaluation_of_load h.load',
    h.save]
  rfl

/-- A snapshot on either store differs in one event only. -/
theorem snapshot (report cwd : String) :
    (snapshot report cwd s).Swaps event event' (Store.snapshot report cwd s') := by
  rw [snapshot_eq]
  refine swaps_bind (p := note _ _ _) rfl rfl
    (swaps_bind_first (loading_of_load h.load) (loading_of_load h.load') ?_ ?_)
  all_goals simp only [bind_apply, h.save]

theorem status : (status s).Swaps event event' (Store.status s') := by
  refine swaps_bind_first (loading_of_load h.load) (loading_of_load h.load') ?_ rfl
  have hsummary : Summary.of (Store.location s) none = Summary.of (Store.location s') none := by
    rw [h.location]
  exact congrArg Except.ok hsummary

end NothingIn

end Store

namespace FileStore

open Procedure

variable {s : FileStore} {l : Location} {bytes : ByteArray} {b : Baseline}

/-! ## The file taken away -/

/-- The bytes are no document of a baseline. -/
inductive Corrupt (bytes : ByteArray) : Prop
  | notText : String.fromUTF8? bytes = none → Corrupt bytes
  | notDecoded {text : String} {problem : Json.Problem} :
      String.fromUTF8? bytes = some text → Baseline.decode text = .error problem → Corrupt bytes

/-- The store with nothing at a location of its tree. -/
def without (s : FileStore) (l : Location) : FileStore := { s with tree := s.tree.erase l }

theorem ready_of_file (hl : s.tree.LeadsTo s.path l) (hfile : s.tree.at? l = some (.file bytes)) :
    Ready s.tree s.path l :=
  ⟨hl.namesDirectory, hl, by rw [FileTree.isDirectory, hfile]⟩

/-- Without its file a store is vacant. -/
theorem Ready.vacant_without (h : Ready s.tree s.path l) : (s.without l).Vacant := by
  rw [Vacant, without, h.erase.leads.locate, h.at?_erase]
  rfl

/-- Saving where the path leads puts the document there, whatever was there. -/
theorem Ready.save (h : Ready s.tree s.path l) (fs : List Finding) :
    save fs s =
      ⟨.ok (Baseline.ofFindings fs s.version),
        { s with tree := s.tree.put l (.file (Baseline.ofFindings fs s.version).render.toUTF8) },
        [⟨.debug, .file, "Wrote baseline with " ++
          toString (Baseline.ofFindings fs s.version).fingerprints.length ++
          " fingerprint(s) to " ++ s.path⟩]⟩ := by
  simp only [FileStore.save, bind_apply, Procedure.state, explain, onTree, within, h.publish, note,
    pure_apply, List.nil_append, List.append_nil]

/-- Saving does not notice whether a file is there. -/
theorem Ready.save_without (h : Ready s.tree s.path l) (fs : List Finding) :
    FileStore.save fs s = FileStore.save fs (s.without l) := by
  rw [h.save, Ready.save (s := s.without l) h.erase, without, FileTree.put_erase]

/-- A corrupt file is a fault when it is loaded. -/
theorem Corrupt.tryLoad (h : Corrupt bytes) (hread : s.tree.read s.path = .ok bytes) :
    ∃ fault, s.tryLoad = .error fault := by
  have htext := readText_of_read hread
  cases h with
  | notText hnone =>
    rw [hnone] at htext
    refine ⟨.unreadable s.path .notText, ?_⟩
    unfold FileStore.tryLoad
    rw [present_of_read hread, htext]
    rfl
  | @notDecoded text problem hsome hdecode =>
    rw [hsome] at htext
    refine ⟨.undecodable s.path problem, ?_⟩
    rw [tryLoad_of_readText htext, hdecode]

/-- A file that is there is loaded without a note. -/
theorem load_of_read (hread : s.tree.read s.path = .ok bytes) :
    s.load =
      match s.tryLoad with
      | .ok b => ⟨b, []⟩
      | .error e => ⟨none, [⟨.warning, .file, e.message ++ "; treating as no baseline"⟩]⟩ := by
  unfold FileStore.load loadJournal
  rw [present_of_read hread]
  rfl

/-! ## What is done with a store -/

/-- Whatever is done with the first store ends as it does with the second, and leaves the same
behind.  The journals differ in one event. -/
structure AlikeBut (event event' : Event) (s s' : FileStore) : Prop where
  check : ∀ plan report, ∃ run t,
    (Store.check plan report s).ends = (.ok run, t) ∧
    (Store.check plan report s').ends = (.ok run, t) ∧
    t.Holds (Baseline.ofFindings (plan.findings report) s.version) ∧
    (Store.check plan report s).Swaps event event' (Store.check plan report s')
  snapshot : ∀ report cwd, ∃ b t,
    (Store.snapshot report cwd s).ends = (.ok ⟨b, false⟩, t) ∧
    (Store.snapshot report cwd s').ends = (.ok ⟨b, false⟩, t) ∧
    t.Holds b ∧
    (Store.snapshot report cwd s).Swaps event event' (Store.snapshot report cwd s')
  status :
    (Store.status s).ends = (.ok (Summary.of s.path none), s) ∧
    (Store.status s').ends = (.ok (Summary.of s.path none), s') ∧
    (Store.status s).Swaps event event' (Store.status s')

/-- Where a file can be put, nothing of this fails. -/
theorem alikeBut_of_nothingIn {event event' : Event} {s s' : FileStore}
    (h : Store.NothingIn event event' s s') (hwritable : s.Writable) :
    AlikeBut event event' s s' where
  check plan report := by
    obtain ⟨t, hsave, hholds⟩ := hwritable.save (plan.findings report)
    have hsave' : (Store.save (plan.findings report) s).ends = _ := hsave
    have hends : (Store.check plan report s).ends =
        (.ok (plan.run report (evaluateFirst (plan.findings report)) s.path),
          { s with tree := t }) := by
      rw [Store.ends_check, Store.evaluation_of_load h.load, hsave']
      rfl
    exact ⟨_, _, hends, (h.ends_check plan report).symm.trans hends, hholds, h.check plan report⟩
  snapshot report cwd := by
    obtain ⟨t, hsave, hholds⟩ := hwritable.save (Report.read report cwd).1
    have hsave' : (Store.save (Report.read report cwd).1 s).ends = _ := hsave
    refine ⟨_, _, ?_, ?_, hholds, h.snapshot report cwd⟩
    · rw [Store.ends_snapshot, hsave', h.load]
      rfl
    · rw [Store.ends_snapshot, ← h.save, hsave', h.load']
      rfl
  status := by
    refine ⟨?_, ?_, h.status⟩
    · rw [Store.ends_status, h.load]
      rfl
    · rw [Store.ends_status, h.load', ← h.location]
      rfl

theorem Ready.nothingIn (h : Ready s.tree s.path l) {fault : StoreFault}
    (hread : s.tree.read s.path = .ok bytes) (hfault : s.tryLoad = .error fault) :
    Store.NothingIn ⟨.warning, .file, fault.message ++ "; treating as no baseline"⟩
      ⟨.debug, .file, "No baseline at " ++ s.path⟩ s (s.without l) where
  load := by
    show s.load = _
    rw [load_of_read hread, hfault]
  load' := h.vacant_without.load
  save := h.save_without
  location := rfl

/-- Against a baseline that can be read a check succeeds and does not start afresh. -/
theorem Ready.check_read (h : Ready s.tree s.path l) (hload : s.load = ⟨some b, []⟩) (plan : Plan)
    (report : String) : ∃ run t, (Store.check plan report s).ends = (.ok run, t) ∧
      run.receipt.evaluation.outcome ≠ .baselineCreated ∧
      run.receipt.evaluation.action ≠ .create := by
  have hevaluation : Store.evaluation plan report s =
      evaluateAgainst b (plan.findings report) plan.policy :=
    Store.evaluation_of_load (s := s) hload plan report
  obtain ⟨t, hends⟩ : ∃ t, (Store.check plan report s).ends =
      (.ok (plan.run report (Store.evaluation plan report s) s.path), t) := by
    rw [Store.ends_check]
    split
    · rw [show Store.save (plan.findings report) s = _ from h.save _]
      exact ⟨_, rfl⟩
    · exact ⟨_, rfl⟩
  refine ⟨_, t, hends, ?_⟩
  show (Store.evaluation plan report s).outcome ≠ _ ∧ (Store.evaluation plan report s).action ≠ _
  rw [hevaluation]
  exact (branch_evaluateAgainst b (plan.findings report) plan.policy).not_created

/-- A file that is no baseline goes for no file: a check, a snapshot and a status end as if it were
not there, and the journal has a warning where there would be a note that there is no baseline.
A file that is one is loaded in canonical form, and no check starts afresh.  Loading leaves the
store as it is. -/
theorem corrupt_file_is_no_file (hl : s.tree.LeadsTo s.path l)
    (hfile : s.tree.at? l = some (.file bytes)) :
    (s.without l).Vacant ∧
    (Corrupt bytes → ∃ fault : StoreFault, s.tryLoad = .error fault ∧
      AlikeBut ⟨.warning, .file, fault.message ++ "; treating as no baseline"⟩
        ⟨.debug, .file, "No baseline at " ++ s.path⟩ s (s.without l)) ∧
    (∀ b, Documents bytes b → s.load = ⟨some b.normalize, []⟩ ∧
      ∀ plan report, ∃ run t, (Store.check plan report s).ends = (.ok run, t) ∧
        run.receipt.evaluation.outcome ≠ .baselineCreated ∧
        run.receipt.evaluation.action ≠ .create) ∧
    (Store.loading s).state = s := by
  have hready := ready_of_file hl hfile
  have hread := hl.read hfile
  refine ⟨hready.vacant_without, fun hcorrupt => ?_, fun b hb => ?_, rfl⟩
  · obtain ⟨fault, hfault⟩ := hcorrupt.tryLoad hread
    exact ⟨fault, hfault, alikeBut_of_nothingIn (hready.nothingIn hread hfault) hready.writable⟩
  · have hload : s.load = ⟨some b.normalize, []⟩ := by
      rw [load_of_read hread, Lists.tryLoad ⟨bytes, hread, hb⟩]
    exact ⟨hload, hready.check_read hload⟩

/-- Bytes that are no text, a text that is no baseline, and a baseline with a repeated entry. -/
theorem files_passed_over_and_read :
    let s := alone ⟨#[0xff]⟩
    let t := alone "\x7b this is not json".toUTF8
    let b : Baseline := ⟨"1.9", ["0a", "0a"], []⟩
    let c : Baseline := ⟨"1.9", ["0a"], []⟩
    let u := alone b.toValue.compact.toUTF8
    (∃ fault : StoreFault, s.tryLoad = .error fault ∧
      AlikeBut ⟨.warning, .file, fault.message ++ "; treating as no baseline"⟩
        ⟨.debug, .file, "No baseline at /b.json"⟩ s (s.without ["b.json"])) ∧
    (∃ fault : StoreFault, t.tryLoad = .error fault ∧
      AlikeBut ⟨.warning, .file, fault.message ++ "; treating as no baseline"⟩
        ⟨.debug, .file, "No baseline at /b.json"⟩ t (t.without ["b.json"])) ∧
    u.load = ⟨some c, []⟩ := by
  intro s t b c u
  have hnotText : Corrupt ⟨#[0xff]⟩ := .notText (by decide +kernel)
  have hnotDecoded : Corrupt "\x7b this is not json".toUTF8 :=
    @Corrupt.notDecoded _ _ .malformed (fromUTF8?_toUTF8 _) rfl
  have hcanonical : c.Canonical := ⟨by simp [c], by simp [c]⟩
  have hsame : b.SameContent c := ⟨rfl, by simp [b, c], .nil⟩
  have hnormal : b.normalize = c := by
    rw [Baseline.normalize_eq_normalize_iff.mpr hsame, hcanonical.normalize_eq]
  obtain ⟨-, hs, -, -⟩ := corrupt_file_is_no_file (s := s) (ready_alone _).leads rfl
  obtain ⟨-, ht, -, -⟩ := corrupt_file_is_no_file (s := t) (ready_alone _).leads rfl
  obtain ⟨-, -, hu, -⟩ := corrupt_file_is_no_file (s := u) (ready_alone _).leads rfl
  obtain ⟨hload, -⟩ := hu b (documents_compact b)
  rw [hnormal] at hload
  exact ⟨hs hnotText, ht hnotDecoded, hload⟩

end FileStore

end LintRatchet
