import LintRatchet.Proofs.Evaluation
import LintRatchet.Proofs.Store.Lawful

/-!
# Checks that are repeated

A check or a snapshot that has written the findings of a report leaves nothing
to do for a check of the same report.  The store loads the baseline of these
findings, so the run and the baseline have the same fingerprints.  Then the count
has not dropped and nothing is new, and no policy has a say in that
(`evaluateAgainst_ofFindings`).

A check that has written nothing has left the store as it was, so it comes to
the same again.  `Repeats` says both.
-/

namespace LintRatchet

open Store (load evaluation)
open LawfulStore (version)

/-- Findings that are held against their own baseline. -/
theorem evaluateAgainst_ofFindings (fs : List Finding) (v : String) (policy : Policy) :
    evaluateAgainst (Baseline.ofFindings fs v) fs policy =
      ruling (fingerprintsOf fs) (fingerprintsOf fs) .pass .unchanged .keep 0 [] := by
  have hnew : newTo (fingerprintsOf fs) fs = [] := newTo_eq_nil_iff.mpr subset_rfl
  rw [evaluateAgainst_eq, accepted_ofFindings, if_neg fun h => lt_irrefl _ h.1, if_pos hnew]

/-- A check that has found the baseline to be what the report says. -/
structure CheckRun.Settled (run : CheckRun) : Prop where
  outcome : run.receipt.evaluation.outcome = .unchanged
  verdict : run.receipt.evaluation.verdict = .pass
  exitCode : run.exitCode = 0
  fixedCount : run.receipt.evaluation.fixedCount = 0
  counts : run.receipt.evaluation.baselineCount = some run.receipt.evaluation.currentCount
  applied : run.receipt.applied = false

variable {σ : Type} [Store σ] {plan : Plan} {report : String} {s t : σ}

/-- A store that holds the baseline of a report stays as it is when the report is checked. -/
theorem settled_of_load {v : String}
    (h : (load s).baseline = some (Baseline.ofFindings (plan.findings report) v)) :
    ∃ run, (Store.check plan report s).ends = (.ok run, s) ∧ run.Settled := by
  have hruled : evaluation plan report s =
      ruling (fingerprintsOf (plan.findings report)) (fingerprintsOf (plan.findings report))
        .pass .unchanged .keep 0 [] := by
    rw [evaluation, h]
    exact evaluateAgainst_ofFindings _ v plan.policy
  have hends := Store.ends_check plan report s
  rw [hruled] at hends
  refine ⟨_, hends, rfl, rfl, rfl, ?_, rfl, rfl⟩
  show count (fingerprintsOf (plan.findings report) \ fingerprintsOf (plan.findings report)).card = 0
  rw [Finset.sdiff_self]
  rfl

section Lawful

variable [LawfulStore σ]

/-- A check that has applied its action leaves the baseline of its findings. -/
theorem load_of_applied {run : CheckRun} (h : (Store.check plan report s).ends = (.ok run, t))
    (happlied : run.receipt.applied = true) :
    (load t).baseline = some (Baseline.ofFindings (plan.findings report) (version s)) := by
  obtain ⟨rfl, ⟨hno, -⟩ | ⟨-, b, hsave⟩⟩ := Store.check_ok h
  · rw [show (evaluation plan report s).action.writes = true from happlied] at hno
    cases hno
  · obtain ⟨rfl, hload, -⟩ := LawfulStore.save_ok hsave
    exact hload

/-- A snapshot leaves the baseline of its findings. -/
theorem load_of_snapshot {cwd : String} {saved : SnapshotRun}
    (h : (Store.snapshot report cwd s).ends = (.ok saved, t)) :
    (load t).baseline = some (Baseline.ofFindings (Report.read report cwd).1 (version s)) := by
  rw [Store.ends_snapshot] at h
  cases hs : (Store.save (Report.read report cwd).1 s).ends with
  | mk outcome u =>
    rw [hs] at h
    cases outcome with
    | error fault => cases h
    | ok b =>
      cases h
      obtain ⟨rfl, hload, -⟩ := LawfulStore.save_ok hs
      exact hload

end Lawful

/-- How checks of a report go on, where `t` is what one of them or a snapshot has made of `s`. -/
structure Repeats (plan : Plan) (report : String) (s t : σ) : Prop where
  /-- Where the findings have been written, every check of the same report has nothing to do,
  whatever its policy. -/
  written : ((∃ run, (Store.check plan report s).ends = (.ok run, t) ∧ run.receipt.applied = true) ∨
      ∃ saved, (Store.snapshot report plan.workingDirectory s).ends = (.ok saved, t)) →
    ∀ again : Plan, again.workingDirectory = plan.workingDirectory →
      ∃ run, (Store.check again report t).ends = (.ok run, t) ∧ run.Settled
  /-- A check that has applied nothing can be repeated with the same result. -/
  unwritten : ∀ run, (Store.check plan report s).ends = (.ok run, t) → run.receipt.applied = false →
    t = s ∧ (Store.check plan report t).ends = (.ok run, t)

theorem repeats [LawfulStore σ] (plan : Plan) (report : String) (s t : σ) :
    Repeats plan report s t where
  written hfirst again hcwd := by
    have hload : (load t).baseline =
        some (Baseline.ofFindings (again.findings report) (version s)) := by
      rw [Plan.findings, hcwd]
      rcases hfirst with ⟨run, hcheck, happlied⟩ | ⟨saved, hsnapshot⟩
      · exact load_of_applied hcheck happlied
      · exact load_of_snapshot hsnapshot
    exact settled_of_load hload
  unwritten run hcheck happlied := by
    have hsame : t = s := by
      refine Store.check_keeps hcheck ?_
      obtain ⟨rfl, -⟩ := Store.check_ok hcheck
      exact happlied
    subst hsame
    exact ⟨rfl, hcheck⟩

/-- Checks can be repeated on every store in memory and on every store in a file, whatever is there
to begin with. -/
theorem check_repeated (plan : Plan) (report : String) :
    (∀ s t : MemoryStore, Repeats plan report s t) ∧ ∀ s t : FileStore, Repeats plan report s t :=
  ⟨repeats plan report, repeats plan report⟩

/-- A check that replaces a file that is no baseline, and one that refuses a new finding. -/
theorem check_repeated_over_corrupt_file :
    let plan : Plan := ⟨{}, "/work", "1.9"⟩
    let report := "::error title=rule,file=a.js,line=1::message\r\n"
    let s : FileStore := { tree := ⟨[(["a.json"], .file "[1,".toUTF8)], []⟩, path := "/a.json" }
    let t := (Store.check plan report s).state
    let run := plan.run report (evaluation plan report s) "/a.json"
    let m : MemoryStore := { held := some ⟨"1.8", ["known"], []⟩ }
    let after := (Store.check plan report m).state
    let refused := plan.run report (evaluation plan report m) "<memory>"
    ((Store.check plan report s).ends = (.ok run, t) ∧ run.receipt.applied = true ∧
      ∀ again : Plan, again.workingDirectory = "/work" →
        ∃ run, (Store.check again report t).ends = (.ok run, t) ∧ run.Settled) ∧
    (Store.check plan report m).ends = (.ok refused, after) ∧ refused.receipt.applied = false ∧
      after = m ∧ (Store.check plan report after).ends = (.ok refused, after) := by
  intro plan report s t run m after refused
  have happlied : run.receipt.applied = true := by decide +kernel
  have hwrites : (Store.check plan report s).ends = (.ok run, t) :=
    Prod.ext (by decide +kernel) rfl
  have hrefused : (Store.check plan report m).ends = (.ok refused, after) :=
    Prod.ext (by decide +kernel) rfl
  have hkept : refused.receipt.applied = false := by decide +kernel
  obtain ⟨hmemory, hfile⟩ := check_repeated plan report
  exact ⟨⟨hwrites, happlied, (hfile s t).written (.inl ⟨run, hwrites, happlied⟩)⟩, hrefused, hkept,
    (hmemory m after).unwritten refused hrefused hkept⟩

end LintRatchet
