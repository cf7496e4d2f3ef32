import LintRatchet.Baseline
import LintRatchet.Document.Finding

/-!
# Baselines as documents

A baseline is an object with the members `biomeVersion`, `fingerprints` and
`errors`.  Older files have further members, which are passed over.  On disk it
is indented by two spaces and ends with a line feed.
-/

namespace LintRatchet.Baseline

open LintRatchet.Json

/-- The document of a baseline. -/
def toValue (b : Baseline) : Value :=
  .object [("biomeVersion", .text b.linterVersion), ("fingerprints", .texts b.fingerprints),
    ("errors", .array (b.errors.map Finding.toValue))]

/-- The text of a baseline file. -/
def render (b : Baseline) : String := b.toValue.pretty ++ "\n"

/-- What has been read of a baseline. -/
structure Draft where
  linterVersion : Option String := none
  fingerprints : Option (List String) := none
  errors : Option (List Finding) := none

/-- The fields of a baseline. -/
def slots : List (Slot Draft) := [
  slot "biomeVersion" readText (·.linterVersion) (fun d a => { d with linterVersion := some a }),
  slot "fingerprints" (readArray readText) (·.fingerprints)
    (fun d a => { d with fingerprints := some a }),
  slot "errors" (readArray Finding.read) (·.errors) (fun d a => { d with errors := some a })]

/-- The baseline of a draft that has all fields. -/
def Draft.finish (d : Draft) : Option Baseline := do
  return ⟨← d.linterVersion, ← d.fingerprints, ← d.errors⟩

/-- Reads a baseline. -/
def read : Reader Baseline := readRecord slots false {} Draft.finish

/-- The baseline that a text holds. -/
def decode (text : String) : Except Problem Baseline := readAll read text

end LintRatchet.Baseline
