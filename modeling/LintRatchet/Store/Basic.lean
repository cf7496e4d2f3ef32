import LintRatchet.Document.Baseline
import LintRatchet.FileTree.Problem
import LintRatchet.Procedure

/-!
# Stores

A store holds a baseline or none.  Loading never fails: what cannot be read
counts as no baseline, and the journal says so.  Saving replaces the baseline by
the one that accepts the given findings.
-/

namespace LintRatchet

/-- Why a store did not do what it was asked. -/
inductive StoreFault where
  | unreadable (path : String) (cause : FileProblem)
  | undecodable (path : String) (cause : Json.Problem)
  | unwritable (path : String) (cause : FileProblem)
  | unremovable (path : String) (cause : FileProblem)
  | readOnly (location : String)
deriving DecidableEq, Repr

/-- What is said of a text that is not the document it should be. -/
def Json.Problem.message (_ : Json.Problem) : String := "<json error>"

namespace StoreFault

/-- What lies behind a fault. -/
def cause : StoreFault → String
  | unreadable _ c => c.message
  | undecodable _ c => c.message
  | unwritable _ c => c.message
  | unremovable _ c => c.message
  | readOnly _ => "store is read-only"

/-- A fault and what lies behind it, in words. -/
def message (f : StoreFault) : String :=
  match f with
  | unreadable path _ => "read baseline " ++ path ++ ": " ++ f.cause
  | undecodable path _ => "parse baseline " ++ path ++ ": " ++ f.cause
  | unwritable path _ => "write baseline " ++ path ++ ": " ++ f.cause
  | unremovable path _ => "remove baseline " ++ path ++ ": " ++ f.cause
  | readOnly location => "write baseline " ++ location ++ ": " ++ f.cause

end StoreFault

/-- What a store holds, and what loading it recorded. -/
structure Loaded where
  baseline : Option Baseline
  journal : List Event

/-- Something that holds a baseline. -/
class Store (σ : Type) where
  /-- Where the baseline is, in words. -/
  location : σ → String
  /-- What the store holds. -/
  load : σ → Loaded
  /-- Replaces the baseline by the one that accepts some findings. -/
  save : List Finding → Procedure σ StoreFault Baseline
  /-- Removes the baseline, and says whether there was one. -/
  clear : Procedure σ StoreFault Bool

namespace Store

variable {σ : Type} [Store σ]

/-- Loads the baseline as a step of a procedure. -/
def loading : Procedure σ StoreFault (Option Baseline) := fun s =>
  ⟨.ok (load s).baseline, s, (load s).journal⟩

/-- Asks a store for its location. -/
def locating : Procedure σ StoreFault String := do
  return location (← Procedure.state)

end Store

end LintRatchet
