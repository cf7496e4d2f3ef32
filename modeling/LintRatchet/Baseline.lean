import LintRatchet.Fingerprint

/-!
# Baselines

A baseline is the set of findings that a project has accepted.  It lists their
fingerprints, ascending and each once, and the findings themselves in canonical
order with every duplicate.  `Baseline.normalize` brings a baseline that was
edited by hand into this form.
-/

namespace LintRatchet

/-- The findings a project has accepted. -/
structure Baseline where
  linterVersion : String
  fingerprints : List String
  errors : List Finding
deriving DecidableEq, Repr, Inhabited

/-- The version recorded when nobody knows the linter's. -/
def unknownVersion : String := "unknown"

namespace Baseline

/-- The baseline that accepts the findings of a run. -/
def ofFindings (findings : List Finding) (linterVersion : String) : Baseline :=
  let errors := Finding.sort findings
  ⟨linterVersion, Fingerprint.set errors, errors⟩

/-- The same baseline with its fingerprints ascending, each once, and its findings in order. -/
def normalize (b : Baseline) : Baseline :=
  { b with fingerprints := Fingerprint.ascending b.fingerprints, errors := Finding.sort b.errors }

end Baseline

end LintRatchet
