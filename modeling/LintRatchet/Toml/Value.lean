/-!
# TOML values

A value as TOML 1.0 has it, as far as a configuration can tell values apart: of
a number and of a date or time only the kind is kept.
-/

namespace LintRatchet.Toml

/-- How a table came to be.  This decides how it may be extended. -/
inductive Origin where
  /-- By a header of its own. -/
  | header
  /-- As a step on the way of a header. -/
  | implied
  /-- As a step on the way of a dotted key. -/
  | dotted
  /-- Written between braces. -/
  | inline
deriving DecidableEq, Repr

/-- A TOML value. -/
inductive Value where
  | text (s : String)
  | bool (b : Bool)
  | number
  /-- A date, a time or both. -/
  | moment
  | array (items : List Value)
  | table (origin : Origin) (members : List (String × Value))
  /-- Tables with headers of the same name: those before the last one, and the last one. -/
  | series (earlier : List (List (String × Value))) (last : List (String × Value))
deriving Repr, Inhabited

/-- The members of a table in order. -/
abbrev Members := List (String × Value)

end LintRatchet.Toml
