import LintRatchet.Baseline

/-!
# The ratchet

`evaluate` compares the findings of a run with the baseline and decides whether
the run passes and what is to become of the baseline.  It looks at the sets of
fingerprints `C` of the run and `B` of the baseline.

1. Without a baseline the run's findings become the baseline.  The run passes
   if there are none.
2. If `C` is smaller than `B`, the ratchet moves: the run passes and its
   findings become the baseline.  The policy may reject the run or keep the
   baseline as it is.  A strict policy does not let the ratchet move while a
   finding of the run is missing from the baseline.
3. Otherwise the run fails if one of its findings is missing from the baseline.
4. Otherwise it passes, and nothing changes.
-/

namespace LintRatchet

/-! ## What an evaluation says -/

/-- Whether a run passes. -/
inductive Verdict where
  | pass
  | fail
deriving DecidableEq, Repr, Inhabited

/-- The branch of the ratchet that a run took. -/
inductive Outcome where
  /-- There was no baseline. -/
  | baselineCreated
  /-- The count dropped and the baseline moves. -/
  | ratcheted
  /-- The count dropped and the policy keeps the baseline. -/
  | ratchetSkipped
  /-- The count dropped and the policy rejects that. -/
  | improvementRejected
  /-- A finding is missing from the baseline. -/
  | newFindings
  /-- Nothing new and nothing to move. -/
  | unchanged
deriving DecidableEq, Repr, Inhabited

/-- What is to become of the baseline. -/
inductive BaselineAction where
  | keep
  | create
  | overwrite
deriving DecidableEq, Repr, Inhabited

/-- The result of comparing a run with the baseline. -/
structure Evaluation where
  verdict : Verdict
  outcome : Outcome
  action : BaselineAction
  /-- Distinct fingerprints of the run. -/
  currentCount : UInt32
  /-- Distinct fingerprints of the baseline, if there was one. -/
  baselineCount : Option UInt32
  /-- Fingerprints of the baseline that the run no longer has. -/
  fixedCount : UInt32
  /-- Findings missing from the baseline that were accepted because the count dropped. -/
  absorbedCount : UInt32
  /-- Findings missing from the baseline that made the run fail. -/
  newFindings : List Finding
deriving DecidableEq, Repr, Inhabited

/-- What happens when the number of findings drops. -/
structure Policy where
  /-- Reject the run, so that the improvement is recorded by hand. -/
  failOnImprovement : Bool := false
  /-- Pass and keep the baseline as it is. -/
  skipBaselineUpdate : Bool := false
  /-- Do not move while a finding of the run is missing from the baseline. -/
  strict : Bool := false
deriving DecidableEq, Repr, Inhabited

namespace Verdict

/-- The name of a verdict in documents. -/
def name : Verdict → String
  | pass => "pass"
  | fail => "fail"

/-- The status that a process ends with. -/
def exitCode : Verdict → Nat
  | pass => 0
  | fail => 1

/-- The verdicts by name. -/
def named : List (String × Verdict) := [pass, fail].map fun v => (v.name, v)

end Verdict

namespace Outcome

/-- The name of an outcome in documents. -/
def name : Outcome → String
  | baselineCreated => "baseline_created"
  | ratcheted => "ratcheted"
  | ratchetSkipped => "ratchet_skipped"
  | improvementRejected => "improvement_rejected"
  | newFindings => "new_findings"
  | unchanged => "unchanged"

/-- The outcomes by name. -/
def named : List (String × Outcome) :=
  [baselineCreated, ratcheted, ratchetSkipped, improvementRejected, newFindings, unchanged].map
    fun o => (o.name, o)

end Outcome

namespace BaselineAction

/-- The name of an action in documents. -/
def name : BaselineAction → String
  | keep => "none"
  | create => "create"
  | overwrite => "overwrite"

/-- The actions by name. -/
def named : List (String × BaselineAction) := [keep, create, overwrite].map fun a => (a.name, a)

/-- The baseline is written. -/
def writes (a : BaselineAction) : Bool := a ≠ keep

end BaselineAction

/-! ## Evaluating -/

/-- A size as a 32-bit count, at most the largest one. -/
def count (n : Nat) : UInt32 := UInt32.ofNat (min n (UInt32.size - 1))

/-- The evaluation of a run when there is no baseline. -/
def evaluateFirst (current : List Finding) : Evaluation where
  verdict := if current = [] then .pass else .fail
  outcome := .baselineCreated
  action := .create
  currentCount := count (Fingerprint.set current).length
  baselineCount := none
  fixedCount := 0
  absorbedCount := 0
  newFindings := []

/-- The findings of a run whose fingerprint is not among the given ones. -/
def missingFrom (known : List String) (current : List Finding) : List Finding :=
  current.filter fun f => !known.contains f.fingerprint

/-- The evaluation of a run against a baseline. -/
def evaluateAgainst (baseline : Baseline) (current : List Finding) (policy : Policy) :
    Evaluation :=
  let known := Fingerprint.ascending baseline.fingerprints
  let seen := Fingerprint.set current
  let missing := missingFrom known current
  let unchanged : Evaluation := {
    verdict := .pass
    outcome := .unchanged
    action := .keep
    currentCount := count seen.length
    baselineCount := some (count known.length)
    fixedCount := count (known.filter fun p => !seen.contains p).length
    absorbedCount := 0
    newFindings := [] }
  if seen.length < known.length && !(policy.strict && !missing.isEmpty) then
    if policy.failOnImprovement then
      { unchanged with verdict := .fail, outcome := .improvementRejected }
    else if policy.skipBaselineUpdate then
      { unchanged with outcome := .ratchetSkipped, absorbedCount := count missing.length }
    else
      { unchanged with
        outcome := .ratcheted, action := .overwrite, absorbedCount := count missing.length }
  else if missing.isEmpty then unchanged
  else { unchanged with verdict := .fail, outcome := .newFindings, newFindings := missing }

/-- The evaluation of a run against the baseline, if there is one. -/
def evaluate (current : List Finding) (baseline : Option Baseline) (policy : Policy) :
    Evaluation :=
  match baseline with
  | none => evaluateFirst current
  | some b => evaluateAgainst b current policy

end LintRatchet
