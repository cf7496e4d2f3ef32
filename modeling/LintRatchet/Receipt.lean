import LintRatchet.Evaluation

/-!
# Receipts and summaries

A *receipt* is what a check leaves behind for machines: the evaluation, the tool
and linter versions, and whether the baseline was written.  A *summary* says
what a store holds.  Both have a rendering for people.
-/

namespace LintRatchet

/-! ## Receipts -/

/-- The tool that wrote a receipt. -/
structure Tool where
  name : String
  version : String
deriving DecidableEq, Repr, Inhabited

/-- The tool itself. -/
def Tool.this : Tool := ⟨"biomegate", "0.1.0"⟩

/-- What a check leaves behind. -/
structure Receipt where
  schema : String
  tool : Tool
  linterVersion : String
  evaluation : Evaluation
  applied : Bool
deriving DecidableEq, Repr, Inhabited

/-- The name of the schema that receipts are written by. -/
def Receipt.currentSchema : String := "biomegate.check.v1"

/-- The first line of a rendered receipt. -/
def Verdict.headline : Verdict → String
  | .pass => "biomegate: PASS\n"
  | .fail => "biomegate: FAIL\n"

/-- A finding on a line of its own. -/
def Finding.lineText (f : Finding) : String :=
  "  " ++ f.file ++ ":" ++ toString f.line.toNat ++ " " ++ f.rule ++ " " ++ f.message ++ "\n"

/-- A count in digits. -/
def countText (n : UInt32) : String := toString n.toNat

/-- What an evaluation says after the headline.  The baseline is named by its location. -/
def Evaluation.details (e : Evaluation) (location : String) : String :=
  let before := countText (e.baselineCount.getD 0)
  let now := countText e.currentCount
  let fixed := countText e.fixedCount
  match e.outcome with
  | .baselineCreated =>
    "No baseline found; created " ++ location ++ " with " ++ now ++ " finding(s).\n" ++
      (if e.verdict = .fail then "Review and commit the new baseline.\n" else "")
  | .ratcheted =>
    fixed ++ " finding(s) fixed; baseline updated (" ++ before ++ " -> " ++ now ++ ").\n"
  | .ratchetSkipped => fixed ++ " finding(s) fixed; baseline update skipped.\n"
  | .improvementRejected =>
    "Finding count dropped (" ++ before ++ " -> " ++ now ++
      "); run `biomegate update` to record the improvement.\n"
  | .newFindings =>
    toString e.newFindings.length ++ " new finding(s) not in baseline:\n" ++
      String.join (e.newFindings.map Finding.lineText)
  | .unchanged =>
    "No new findings (" ++ now ++ " known).\n" ++
      (if 0 < e.fixedCount then fixed ++ " finding(s) fixed.\n" else "")

/-- A receipt for people. -/
def Receipt.render (r : Receipt) (location : String) : String :=
  r.evaluation.verdict.headline ++ r.evaluation.details location

/-! ## Summaries -/

/-- What a store holds. -/
structure Summary where
  path : String
  present : Bool
  linterVersion : Option String
  fingerprints : UInt32
  findings : UInt32
deriving DecidableEq, Repr, Inhabited

/-- The summary of the baseline at a location, if there is one. -/
def Summary.of (path : String) (baseline : Option Baseline) : Summary where
  path
  present := baseline.isSome
  linterVersion := baseline.map Baseline.linterVersion
  fingerprints := (baseline.map fun b => count b.fingerprints.length).getD 0
  findings := (baseline.map fun b => count b.errors.length).getD 0

/-- A summary for people. -/
def Summary.render (s : Summary) : String :=
  if s.present then
    "Baseline " ++ s.path ++ ": " ++ countText s.fingerprints ++ " fingerprint(s), " ++
      countText s.findings ++ " finding(s), biome " ++ s.linterVersion.getD unknownVersion ++ "\n"
  else "No baseline at " ++ s.path ++ ".\n"

end LintRatchet
