import LintRatchet.Document.Finding
import LintRatchet.Evaluation

/-!
# Evaluations as documents

An evaluation is an object.  The member `baseline_count` is left out when there
was no baseline, `absorbed_count` when it is zero and `new_findings` when there
are none.  Reading takes the same values for members that are missing.
-/

namespace LintRatchet.Evaluation

open LintRatchet.Json

/-- The members of an evaluation, which a receipt has among its own. -/
def toMembers (e : Evaluation) : List (String × Value) :=
  [("status", .text e.verdict.name), ("outcome", .text e.outcome.name),
    ("action", .text e.action.name), ("current_count", .count e.currentCount)] ++
  Value.member? "baseline_count" Value.count e.baselineCount ++
  [("fixed_count", .count e.fixedCount)] ++
  (if e.absorbedCount = 0 then [] else [("absorbed_count", .count e.absorbedCount)]) ++
  (if e.newFindings = [] then []
    else [("new_findings", .array (e.newFindings.map Finding.toValue))])

/-- The document of an evaluation. -/
def toValue (e : Evaluation) : Value := .object e.toMembers

/-- What has been read of an evaluation. -/
structure Draft where
  verdict : Option Verdict := none
  outcome : Option Outcome := none
  action : Option BaselineAction := none
  currentCount : Option UInt32 := none
  baselineCount : Option (Option UInt32) := none
  fixedCount : Option UInt32 := none
  absorbedCount : Option UInt32 := none
  newFindings : Option (List Finding) := none

/-- The fields of an evaluation. -/
def slots : List (Slot Draft) := [
  slot "status" (readName Verdict.named) (·.verdict) (fun d a => { d with verdict := some a }),
  slot "outcome" (readName Outcome.named) (·.outcome) (fun d a => { d with outcome := some a }),
  slot "action" (readName BaselineAction.named) (·.action)
    (fun d a => { d with action := some a }),
  slot "current_count" readCount (·.currentCount) (fun d a => { d with currentCount := some a }),
  slot "baseline_count" (readOption readCount) (·.baselineCount)
    (fun d a => { d with baselineCount := some a }),
  slot "fixed_count" readCount (·.fixedCount) (fun d a => { d with fixedCount := some a }),
  slot "absorbed_count" readCount (·.absorbedCount)
    (fun d a => { d with absorbedCount := some a }),
  slot "new_findings" (readArray Finding.read) (·.newFindings)
    (fun d a => { d with newFindings := some a })]

/-- The evaluation of a draft that lacks at most the members that may be left out. -/
def Draft.finish (d : Draft) : Option Evaluation := do
  return {
    verdict := ← d.verdict
    outcome := ← d.outcome
    action := ← d.action
    currentCount := ← d.currentCount
    baselineCount := d.baselineCount.getD none
    fixedCount := ← d.fixedCount
    absorbedCount := d.absorbedCount.getD 0
    newFindings := d.newFindings.getD [] }

/-- Reads an evaluation. -/
def read : Reader Evaluation := readRecord slots false {} Draft.finish

/-- The evaluation that a text holds. -/
def decode (text : String) : Except Problem Evaluation := readAll read text

end LintRatchet.Evaluation
