/-!
# The journal

While it works the program records *events*.  An event has a level, the part of
the program it comes from, and a message.  All events of a run in order are its
journal.  How much of the journal is shown is decided elsewhere.
-/

namespace LintRatchet

/-- How important an event is. -/
inductive Level where
  | error
  | warning
  | info
  | debug
  | trace
deriving DecidableEq, Repr, Inhabited

namespace Level

/-- The place of a level, the most important one first. -/
def rank : Level → Nat
  | error => 0
  | warning => 1
  | info => 2
  | debug => 3
  | trace => 4

/-- The name of a level as it is shown. -/
def name : Level → String
  | error => "ERROR"
  | warning => "WARN"
  | info => "INFO"
  | debug => "DEBUG"
  | trace => "TRACE"

end Level

/-- A part of the program. -/
inductive Source where
  | program
  | configuration
  | linter
  | check
  | baseline
  | file
deriving DecidableEq, Repr, Inhabited

/-- The name by which a filter selects the events of a part. -/
def Source.target : Source → String
  | program => "biomegate"
  | configuration => "biomegate::config"
  | linter => "biomegate::biome"
  | check => "biomegate_core::check"
  | baseline => "biomegate_core::commands"
  | file => "biomegate_store::file"

/-- Something that the program records. -/
structure Event where
  level : Level
  source : Source
  message : String
deriving DecidableEq, Repr, Inhabited

/-- The names of the fields that every event has. -/
def Event.fields : List String := ["message"]

end LintRatchet
