import LintRatchet.Filter.Directive

/-!
# What of the journal is shown

A filter is a list of directives.  Of the directives that speak of an event, the
one with the longest target decides, of two with the same target the one that
asks for a field, and of two that are equal in this too the later one.  What no
directive speaks of is not shown.

In a text the directives are separated by commas.
-/

namespace LintRatchet

open LintRatchet.Text

/-- What is shown of the journal. -/
structure Filter where
  directives : List Directive
deriving DecidableEq, Repr

namespace Filter

/-! ## Reading -/

/-- The filter that shows one level and all that are more important. -/
def atLevel (level : Level) : Filter := ⟨[{ target := "", level := some level }]⟩

/-- The filter that a text is.  One without directives shows errors. -/
def parse? (text : String) : Option Filter := do
  let words := (split ',' text.toList).filter fun word => !word.isEmpty
  if words.isEmpty then return atLevel .error else return ⟨← words.mapM Directive.ofWord?⟩

/-- The variable that holds a filter. -/
def variableName : String := "RUST_LOG"

/-- The filter in a variable, or the one at a level when the variable holds none. -/
def choose (value : Option String) (level : Level) : Filter :=
  (value.bind parse?).getD (atLevel level)

/-! ## Showing -/

/-- The directive that decides about the events of a part. -/
def deciding? (f : Filter) (s : Source) : Option Directive :=
  (f.directives.filter (Directive.speaksOf · s)).foldl (fun best d =>
    match best with
    | some b => if b.yieldsTo d then some d else some b
    | none => some d) none

/-- An event is shown. -/
def shows (f : Filter) (e : Event) : Bool :=
  match (f.deciding? e.source).bind Directive.level with
  | some level => e.level.rank ≤ level.rank
  | none => false

/-- What is shown of a journal. -/
def apply (f : Filter) (journal : List Event) : List Event := journal.filter f.shows

end Filter

end LintRatchet
