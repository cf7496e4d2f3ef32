import LintRatchet.Evaluation

/-!
# Configuration and settings

A *configuration* is what a configuration file says.  It has one table of
defaults, and each of them may be absent.  *Settings* are what a run uses: what
the file says, and the built-in value for what it does not say.
-/

namespace LintRatchet

/-- The table of defaults in a configuration file. -/
structure Defaults where
  baseline : Option String := none
  linter : Option (List String) := none
  paths : Option (List String) := none
  failOnImprovement : Option Bool := none
  skipBaselineUpdate : Option Bool := none
  strictRatchet : Option Bool := none
deriving DecidableEq, Repr, Inhabited

/-- What holds when a configuration file has no table of defaults. -/
def Defaults.builtin : Defaults where
  baseline := some ".biome-baseline.json"
  linter := some ["npx", "@biomejs/biome"]
  paths := some ["."]
  failOnImprovement := some false
  skipBaselineUpdate := some false
  strictRatchet := some false

/-- A configuration file. -/
structure Configuration where
  defaults : Defaults
deriving DecidableEq, Repr

/-- The configuration of an empty file, or of none. -/
def Configuration.builtin : Configuration := ⟨.builtin⟩

/-- What a run uses. -/
structure Settings where
  baseline : String
  linter : List String
  paths : List String
  policy : Policy
deriving DecidableEq, Repr

/-- The settings of a configuration, with the built-in values where it says nothing. -/
def Configuration.settings (c : Configuration) : Settings where
  baseline := (c.defaults.baseline.or Defaults.builtin.baseline).getD ""
  linter := (c.defaults.linter.or Defaults.builtin.linter).getD []
  paths := (c.defaults.paths.or Defaults.builtin.paths).getD []
  policy := {
    failOnImprovement := c.defaults.failOnImprovement.getD false
    skipBaselineUpdate := c.defaults.skipBaselineUpdate.getD false
    strict := c.defaults.strictRatchet.getD false }

end LintRatchet
