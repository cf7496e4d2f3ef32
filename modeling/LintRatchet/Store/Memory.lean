import LintRatchet.Store.Basic

/-!
# Baselines in memory

A memory store keeps the baseline as a value and counts how often it has been
changed.  It may refuse every change.
-/

namespace LintRatchet

/-- A store that keeps its baseline as a value. -/
structure MemoryStore where
  held : Option Baseline := none
  /-- The linter version of the baselines that it saves. -/
  version : String := unknownVersion
  readOnly : Bool := false
  /-- How many changes it has taken. -/
  writes : Nat := 0
deriving DecidableEq, Repr

namespace MemoryStore

/-- Where the baseline is, in words. -/
def location : String := "<memory>"

/-- The store with another baseline or none. -/
def hold (s : MemoryStore) (b : Option Baseline) : Except StoreFault MemoryStore :=
  if s.readOnly then .error (.readOnly location)
  else .ok { s with held := b, writes := s.writes + 1 }

/-- Keeps the baseline that accepts some findings. -/
def save (findings : List Finding) : Procedure MemoryStore StoreFault Baseline := do
  let b := Baseline.ofFindings findings (← Procedure.state).version
  Procedure.change (hold · (some b))
  return b

/-- Holds no baseline any more, and says whether there was one. -/
def clear : Procedure MemoryStore StoreFault Bool := do
  let before := (← Procedure.state).held
  Procedure.change (hold · none)
  return before.isSome

instance : Store MemoryStore where
  location _ := location
  load s := ⟨s.held, []⟩
  save := save
  clear := clear

end MemoryStore

end LintRatchet
