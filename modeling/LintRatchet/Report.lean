import LintRatchet.ErrorLine
import LintRatchet.Text.Lines

/-!
# Reports

A report is what a linter run prints.  Its annotation lines carry the findings,
and all other lines are passed over.  A line with the error marker is a
*candidate*; one that is not a well-formed annotation is dropped, never an
error.
-/

namespace LintRatchet.Report

/-- How many lines of a report carried the marker, and how many of them a finding.  The counters
stand for ones of thirty-two bits.  They have no bound here, and so they agree with those for every
report with fewer than `2 ^ 32` lines that carry the marker. -/
structure Tally where
  /-- Lines that start with the error marker. -/
  candidates : Nat
  /-- Candidates that are well-formed annotations. -/
  parsed : Nat
deriving DecidableEq, Repr

/-- Candidates that are no well-formed annotations. -/
def Tally.dropped (t : Tally) : Nat := t.candidates - t.parsed

/-- The lines of a report that start with the error marker. -/
def candidates (text : List Char) : List (List Char) :=
  (Text.lines text).filter ErrorLine.marker.isPrefixOf

/-- The findings of a report in canonical order, and its tally. -/
def read (text cwd : String) : List Finding × Tally :=
  let lines := candidates text.toList
  let findings := lines.filterMap (ErrorLine.parseChars? · cwd.toList)
  (Finding.sort findings, ⟨lines.length, findings.length⟩)

end LintRatchet.Report
