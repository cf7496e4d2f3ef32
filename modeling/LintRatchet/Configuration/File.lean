import LintRatchet.Configuration.Settings
import LintRatchet.Toml.Reader

/-!
# Configuration files

A configuration file is a TOML text with the one table `defaults`.  The table
may also be an array that lists the defaults in order, from the first on.
-/

namespace LintRatchet

namespace Toml.Value

/-- The value as a text. -/
def asText? : Value → Option String
  | .text s => some s
  | _ => none

/-- The value as a truth value. -/
def asBool? : Value → Option Bool
  | .bool b => some b
  | _ => none

/-- The value as a list of texts. -/
def asTexts? : Value → Option (List String)
  | .array vs => vs.mapM asText?
  | _ => none

/-- The value that may be missing. -/
def optional? {α : Type} (kind : Value → Option α) : Option Value → Option (Option α)
  | none => some none
  | some v => (kind v).map some

end Toml.Value

open Toml

/-- The defaults whose values are found by the name and the place of each. -/
def Defaults.ofLookup? (find : String → Nat → Option Value) : Option Defaults := do
  return {
    baseline := ← Value.optional? Value.asText? (find "baseline" 0)
    linter := ← Value.optional? Value.asTexts? (find "biome" 1)
    paths := ← Value.optional? Value.asTexts? (find "paths" 2)
    failOnImprovement := ← Value.optional? Value.asBool? (find "fail_on_improvement" 3)
    skipBaselineUpdate := ← Value.optional? Value.asBool? (find "skip_baseline_update" 4)
    strictRatchet := ← Value.optional? Value.asBool? (find "strict_ratchet" 5) }

/-- The names of the defaults. -/
def Defaults.names : List String :=
  ["baseline", "biome", "paths", "fail_on_improvement", "skip_baseline_update", "strict_ratchet"]

/-- The defaults that a value is. -/
def Defaults.ofToml? : Value → Option Defaults
  | .table _ ms =>
    if ms.all fun m => Defaults.names.contains m.1 then
      Defaults.ofLookup? fun name _ => ms.lookup name
    else none
  | .array vs => Defaults.ofLookup? fun _ place => vs[place]?
  | _ => none

/-- The configuration in a text. -/
def Configuration.ofToml? (text : String) : Option Configuration := do
  let ms ← Toml.parse? text
  if ms.all fun m => m.1 = "defaults" then
    match ms.lookup "defaults" with
    | none => return .builtin
    | some v => return ⟨← Defaults.ofToml? v⟩
  else none

end LintRatchet
