import LintRatchet.Finding
import LintRatchet.Json.Printer
import LintRatchet.Json.Record

/-!
# Findings as documents

A finding is an object with the members `rule`, `file`, `line` and `message`.
-/

namespace LintRatchet.Finding

open LintRatchet.Json

/-- The document of a finding. -/
def toValue (f : Finding) : Value :=
  .object [("rule", .text f.rule), ("file", .text f.file), ("line", .count f.line),
    ("message", .text f.message)]

/-- What has been read of a finding. -/
structure Draft where
  rule : Option String := none
  file : Option String := none
  line : Option UInt32 := none
  message : Option String := none

/-- The fields of a finding. -/
def slots : List (Slot Draft) := [
  slot "rule" readText (·.rule) (fun d a => { d with rule := some a }),
  slot "file" readText (·.file) (fun d a => { d with file := some a }),
  slot "line" readCount (·.line) (fun d a => { d with line := some a }),
  slot "message" readText (·.message) (fun d a => { d with message := some a })]

/-- The finding of a draft that has all fields. -/
def Draft.finish (d : Draft) : Option Finding := do
  return ⟨← d.rule, ← d.file, ← d.line, ← d.message⟩

/-- Reads a finding. -/
def read : Reader Finding := readRecord slots false {} Draft.finish

/-- The finding that a text holds. -/
def decode (text : String) : Except Problem Finding := readAll read text

end LintRatchet.Finding
