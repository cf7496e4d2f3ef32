import LintRatchet.Document.Receipt
import LintRatchet.Report
import LintRatchet.Store.Basic

/-!
# What can be done with a store

`check` reads a report, evaluates it against the store's baseline and does with
the baseline what the evaluation says.  `snapshot` makes the findings of a
report the baseline, whatever they are.  `clear` removes the baseline and
`status` says what the store holds.

The only thing that can fail is a change of the store.
-/

namespace LintRatchet

/-- What a check needs to know besides the report and the store. -/
structure Plan where
  policy : Policy
  /-- The directory that the paths of the report are made relative to. -/
  workingDirectory : String
  linterVersion : String
deriving DecidableEq, Repr

/-- What a check ends with. -/
structure CheckRun where
  receipt : Receipt
  /-- The findings of the report in canonical order. -/
  findings : List Finding
  text : String
deriving DecidableEq, Repr

/-- The status that the process ends with. -/
def CheckRun.exitCode (r : CheckRun) : Nat := r.receipt.evaluation.verdict.exitCode

/-- What a snapshot ends with. -/
structure SnapshotRun where
  baseline : Baseline
  /-- There was a readable baseline before. -/
  replaced : Bool
deriving DecidableEq, Repr

/-- An evaluation in one line of the journal. -/
def Evaluation.journalText (e : Evaluation) : String :=
  "Evaluation: " ++ e.outcome.name ++ " (" ++ countText e.currentCount ++ " current, " ++
    ((e.baselineCount.map countText).getD "no") ++ " baseline, " ++ countText e.fixedCount ++
    " fixed)"

namespace Store

variable {σ : Type} [Store σ]

/-- Records how a report was read. -/
def noteTally (t : Report.Tally) : Procedure σ StoreFault Unit :=
  Procedure.note .debug .check ("Parsed " ++ toString t.parsed ++ " finding(s) from " ++
    toString t.candidates ++ " annotation line(s), dropped " ++ toString t.dropped)

/-- Records an evaluation, and whether it lets findings in. -/
def noteEvaluation (e : Evaluation) : Procedure σ StoreFault Unit := do
  Procedure.note .info .check e.journalText
  if 0 < e.absorbedCount then
    Procedure.note .warning .check (countText e.absorbedCount ++ " finding(s) missing from " ++
      "the baseline were accepted because the total count dropped")

/-- Does with the baseline what an evaluation says. -/
def apply (e : Evaluation) (findings : List Finding) : Procedure σ StoreFault Unit := do
  if e.action.writes then
    let _ ← save findings
    Procedure.note .info .check ("Baseline " ++ e.action.name ++ " at " ++ (← locating))

/-- Evaluates a report against the baseline and moves the baseline if it is to move. -/
def check (plan : Plan) (report : String) : Procedure σ StoreFault CheckRun := do
  let (findings, tally) := Report.read report plan.workingDirectory
  noteTally tally
  let evaluation := evaluate findings (← loading) plan.policy
  noteEvaluation evaluation
  apply evaluation findings
  let receipt : Receipt := {
    schema := Receipt.currentSchema
    tool := Tool.this
    linterVersion := plan.linterVersion
    evaluation
    applied := evaluation.action.writes }
  return ⟨receipt, findings, receipt.render (← locating)⟩

/-- Makes the findings of a report the baseline. -/
def snapshot (report workingDirectory : String) : Procedure σ StoreFault SnapshotRun := do
  let (findings, tally) := Report.read report workingDirectory
  Procedure.note .debug .baseline ("Parsed " ++ toString tally.parsed ++
    " finding(s), dropped " ++ toString tally.dropped ++ " malformed annotation line(s)")
  let replaced := (← loading).isSome
  let baseline ← save findings
  Procedure.note .info .baseline ("Saved baseline with " ++
    toString baseline.fingerprints.length ++ " fingerprint(s) to " ++ (← locating))
  return ⟨baseline, replaced⟩

/-- Removes the baseline, and says whether there was one. -/
def discard : Procedure σ StoreFault Bool := do
  let existed ← clear
  if existed then Procedure.note .info .baseline ("Removed baseline " ++ (← locating))
  return existed

/-- Says what a store holds. -/
def status : Procedure σ StoreFault Summary := do
  let baseline ← loading
  return Summary.of (← locating) baseline

end Store

end LintRatchet
