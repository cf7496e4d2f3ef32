import LintRatchet.Operations
import LintRatchet.Proofs.Procedure

/-!
# What the operations come to

The equations here say how each operation on a store ends, in terms of what the
store loads and of how its own `save` and `clear` end.  So they hold for stores
of every kind.

A check comes to its evaluation (`Store.evaluation`).  It leaves the store as
it is unless the evaluation writes, and then it ends as saving the findings
ends.
-/

namespace LintRatchet

/-! ## Checks -/

/-- The findings of a report. -/
def Plan.findings (plan : Plan) (report : String) : List Finding :=
  (Report.read report plan.workingDirectory).1

/-- The receipt for an evaluation. -/
def Plan.receipt (plan : Plan) (e : Evaluation) : Receipt where
  schema := Receipt.currentSchema
  tool := Tool.this
  linterVersion := plan.linterVersion
  evaluation := e
  applied := e.action.writes

/-- What a check that comes to an evaluation ends with, at a location. -/
def Plan.run (plan : Plan) (report : String) (e : Evaluation) (location : String) : CheckRun :=
  ⟨plan.receipt e, plan.findings report, (plan.receipt e).render location⟩

namespace Store

open Procedure (ends_bind ends_bind_ok ends_note ends_pure)

variable {σ : Type} [Store σ]

theorem ends_loading (s : σ) : (loading s).ends = (.ok (load s).baseline, s) := rfl

theorem ends_locating (s : σ) : (locating s).ends = (.ok (location s), s) := rfl

/-- The evaluation that a check of a report comes to. -/
def evaluation (plan : Plan) (report : String) (s : σ) : Evaluation :=
  evaluate (plan.findings report) (load s).baseline plan.policy

omit [Store σ] in
theorem ends_noteEvaluation (e : Evaluation) (s : σ) :
    ((noteEvaluation e : Procedure σ StoreFault Unit) s).ends = (.ok (), s) := by
  rw [noteEvaluation, ends_bind_ok (ends_note ..)]
  split
  · exact ends_note ..
  · exact ends_pure ..

theorem ends_apply (e : Evaluation) (fs : List Finding) (s : σ) :
    (apply e fs s).ends =
      if e.action.writes then
        match (save fs s).ends with
        | (.ok _, t) => (.ok (), t)
        | (.error fault, t) => (.error fault, t)
      else (.ok (), s) := by
  unfold apply
  split
  · rw [ends_bind]
    cases (save fs s).ends with
    | mk outcome t =>
      cases outcome with
      | error fault => rfl
      | ok b => exact (ends_bind_ok (ends_locating t) _).trans (ends_note ..)
  · exact ends_pure ..

/-- A check is a tally, a loading and an evaluation, which is then applied. -/
theorem check_eq (plan : Plan) (report : String) :
    (check plan report : Procedure σ StoreFault CheckRun) = (do
      noteTally (Report.read report plan.workingDirectory).2
      let e := evaluate (plan.findings report) (← loading) plan.policy
      noteEvaluation e
      apply e (plan.findings report)
      return plan.run report e (← locating)) := rfl

/-- A check leaves the store as it is, or saves the findings. -/
theorem ends_check (plan : Plan) (report : String) (s : σ) :
    (check plan report s).ends =
      if (evaluation plan report s).action.writes then
        match (save (plan.findings report) s).ends with
        | (.ok _, t) => (.ok (plan.run report (evaluation plan report s) (location t)), t)
        | (.error fault, t) => (.error fault, t)
      else (.ok (plan.run report (evaluation plan report s) (location s)), s) := by
  rw [check_eq, ends_bind_ok (p := noteTally _) (ends_note ..), ends_bind_ok (ends_loading s)]
  rw [ends_bind_ok (ends_noteEvaluation _ s), ends_bind, ends_apply]
  by_cases hw : (evaluation plan report s).action.writes = true
  · rw [← evaluation, if_pos hw, if_pos hw]
    cases (save (plan.findings report) s).ends with
    | mk outcome t => cases outcome <;> rfl
  · rw [← evaluation, if_neg hw, if_neg hw]
    rfl

/-- The store after a check, whether it succeeds or not. -/
theorem state_check (plan : Plan) (report : String) (s : σ) :
    (check plan report s).state =
      if (evaluation plan report s).action.writes then (save (plan.findings report) s).state
      else s := by
  have hends := ends_check plan report s
  split
  · next hw =>
    rw [if_pos hw] at hends
    cases hs : save (plan.findings report) s with
    | mk outcome t journal =>
      rw [hs] at hends
      cases outcome <;> exact congrArg Prod.snd hends
  · next hw =>
    rw [if_neg hw] at hends
    exact congrArg Prod.snd hends

/-- What is known of a check that succeeds. -/
theorem check_ok {plan : Plan} {report : String} {s t : σ} {run : CheckRun}
    (h : (check plan report s).ends = (.ok run, t)) :
    run = plan.run report (evaluation plan report s) (location t) ∧
      ((evaluation plan report s).action.writes = false ∧ t = s ∨
        (evaluation plan report s).action.writes = true ∧
          ∃ b, (save (plan.findings report) s).ends = (.ok b, t)) := by
  rw [ends_check] at h
  split at h
  · next hw =>
    cases hs : (save (plan.findings report) s).ends with
    | mk outcome u =>
      rw [hs] at h
      cases outcome with
      | error fault => cases h
      | ok b =>
        cases h
        exact ⟨rfl, .inr ⟨hw, b, rfl⟩⟩
  · next hw =>
    cases h
    exact ⟨rfl, .inl ⟨Bool.eq_false_iff.mpr hw, rfl⟩⟩

/-- A check that is to write nothing leaves the store as it is. -/
theorem check_keeps {plan : Plan} {report : String} {s t : σ} {run : CheckRun}
    (h : (check plan report s).ends = (.ok run, t))
    (hw : (evaluation plan report s).action.writes = false) : t = s := by
  obtain ⟨-, ⟨-, ht⟩ | ⟨hw', -⟩⟩ := check_ok h
  · exact ht
  · rw [hw] at hw'
    cases hw'

/-! ## The other operations -/

theorem snapshot_eq (report cwd : String) :
    (snapshot report cwd : Procedure σ StoreFault SnapshotRun) = (do
      Procedure.note .debug .baseline ("Parsed " ++ toString (Report.read report cwd).2.parsed ++
        " finding(s), dropped " ++ toString (Report.read report cwd).2.dropped ++
        " malformed annotation line(s)")
      let replaced := (← loading).isSome
      let baseline ← save (Report.read report cwd).1
      Procedure.note .info .baseline ("Saved baseline with " ++
        toString baseline.fingerprints.length ++ " fingerprint(s) to " ++ (← locating))
      return ⟨baseline, replaced⟩) := rfl

/-- A snapshot saves the findings, whatever was there. -/
theorem ends_snapshot (report cwd : String) (s : σ) :
    (snapshot report cwd s).ends =
      match (save (Report.read report cwd).1 s).ends with
      | (.ok b, t) => (.ok ⟨b, (load s).baseline.isSome⟩, t)
      | (.error fault, t) => (.error fault, t) := by
  rw [snapshot_eq, ends_bind_ok (ends_note ..), ends_bind_ok (ends_loading s), ends_bind]
  cases (save (Report.read report cwd).1 s).ends with
  | mk outcome t => cases outcome <;> rfl

theorem state_snapshot (report cwd : String) (s : σ) :
    (snapshot report cwd s).state = (save (Report.read report cwd).1 s).state := by
  have hends := ends_snapshot report cwd s
  cases hs : save (Report.read report cwd).1 s with
  | mk outcome t journal =>
    rw [hs] at hends
    cases outcome <;> exact congrArg Prod.snd hends

/-- Discarding ends as the store clears. -/
theorem ends_discard (s : σ) : (discard s).ends = (clear s).ends := by
  unfold discard
  rw [ends_bind]
  cases (clear s).ends with
  | mk outcome t =>
    cases outcome with
    | error fault => rfl
    | ok existed => cases existed <;> rfl

theorem ends_status (s : σ) :
    (status s).ends = (.ok (Summary.of (location s) (load s).baseline), s) := rfl

end Store

end LintRatchet
