import LintRatchet.Configuration.Settings
import LintRatchet.Json.Printer
import LintRatchet.Json.Record

/-!
# Configurations as documents

A configuration is an object with the one member `defaults`.  A default that is
absent is left out.  Both records are closed.  A configuration without the table
has the built-in defaults, and one with an empty table has none.
-/

namespace LintRatchet

open LintRatchet.Json

namespace Defaults

/-- The document of the defaults. -/
def toValue (d : Defaults) : Value :=
  .object (Value.member? "baseline" Value.text d.baseline ++
    Value.member? "biome" Value.texts d.linter ++
    Value.member? "paths" Value.texts d.paths ++
    Value.member? "fail_on_improvement" Value.bool d.failOnImprovement ++
    Value.member? "skip_baseline_update" Value.bool d.skipBaselineUpdate ++
    Value.member? "strict_ratchet" Value.bool d.strictRatchet)

/-- What has been read of the defaults. -/
structure Draft where
  baseline : Option (Option String) := none
  linter : Option (Option (List String)) := none
  paths : Option (Option (List String)) := none
  failOnImprovement : Option (Option Bool) := none
  skipBaselineUpdate : Option (Option Bool) := none
  strictRatchet : Option (Option Bool) := none

/-- The fields of the defaults. -/
def slots : List (Slot Draft) := [
  slot "baseline" (readOption readText) (·.baseline) (fun d a => { d with baseline := some a }),
  slot "biome" (readOption (readArray readText)) (·.linter)
    (fun d a => { d with linter := some a }),
  slot "paths" (readOption (readArray readText)) (·.paths)
    (fun d a => { d with paths := some a }),
  slot "fail_on_improvement" (readOption readBool) (·.failOnImprovement)
    (fun d a => { d with failOnImprovement := some a }),
  slot "skip_baseline_update" (readOption readBool) (·.skipBaselineUpdate)
    (fun d a => { d with skipBaselineUpdate := some a }),
  slot "strict_ratchet" (readOption readBool) (·.strictRatchet)
    (fun d a => { d with strictRatchet := some a })]

/-- The defaults of a draft.  Every one of them may be absent. -/
def Draft.finish (d : Draft) : Option Defaults :=
  some ⟨d.baseline.getD none, d.linter.getD none, d.paths.getD none,
    d.failOnImprovement.getD none, d.skipBaselineUpdate.getD none, d.strictRatchet.getD none⟩

/-- Reads the defaults. -/
def read : Reader Defaults := readRecord slots true {} Draft.finish

end Defaults

namespace Configuration

/-- The document of a configuration. -/
def toValue (c : Configuration) : Value := .object [("defaults", c.defaults.toValue)]

/-- What has been read of a configuration. -/
structure Draft where
  defaults : Option Defaults := none

/-- The one field of a configuration. -/
def slots : List (Slot Draft) :=
  [slot "defaults" Defaults.read (·.defaults) (fun d a => { d with defaults := some a })]

/-- The configuration of a draft, built in where the table is absent. -/
def Draft.finish (d : Draft) : Option Configuration := some ⟨d.defaults.getD .builtin⟩

/-- Reads a configuration. -/
def read : Reader Configuration := readRecord slots true {} Draft.finish

/-- The configuration that a text holds. -/
def decode (text : String) : Except Problem Configuration := readAll read text

end Configuration

end LintRatchet
