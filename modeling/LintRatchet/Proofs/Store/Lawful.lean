import LintRatchet.Proofs.Operations
import LintRatchet.Proofs.Store.File
import LintRatchet.Store.Memory

/-!
# Lawful stores

A store is lawful when a baseline that it has saved is the one that it loads
next.  That is all that a sequence of operations needs to know of a store.
Stores in memory and in files are lawful, whatever they hold and whatever the
file tree looks like.
-/

namespace LintRatchet

/-- A store that loads what it has saved. -/
class LawfulStore (σ : Type) [Store σ] where
  /-- The linter version of the baselines that the store saves. -/
  version : σ → String
  /-- Saving findings ends with the baseline that accepts them, and that is what is loaded next. -/
  save_ok {fs : List Finding} {s t : σ} {b : Baseline} :
    (Store.save fs s).ends = (.ok b, t) →
      b = Baseline.ofFindings fs (version s) ∧ (Store.load t).baseline = some b ∧
        version t = version s

namespace MemoryStore

/-- Up to the journal saving keeps the baseline, or refuses. -/
theorem ends_save (fs : List Finding) (s : MemoryStore) :
    (save fs s).ends =
      if s.readOnly then (.error (.readOnly location), s)
      else (.ok (Baseline.ofFindings fs s.version),
        { s with held := some (Baseline.ofFindings fs s.version), writes := s.writes + 1 }) := by
  simp only [save, Procedure.bind_apply, Procedure.state, Procedure.change, hold]
  cases s.readOnly <;> rfl

/-- Clearing a memory store counts as a change, unless it is read only. -/
theorem ends_clear (s : MemoryStore) :
    (clear s).ends =
      if s.readOnly then (.error (.readOnly location), s)
      else (.ok s.held.isSome, { s with held := none, writes := s.writes + 1 }) := by
  simp only [clear, Procedure.bind_apply, Procedure.state, Procedure.change, hold]
  cases s.readOnly <;> rfl

instance : LawfulStore MemoryStore where
  version := MemoryStore.version
  save_ok {fs s t b} h := by
    rw [show (Store.save fs s).ends = (save fs s).ends from rfl, ends_save] at h
    split at h
    · cases h
    · cases h
      exact ⟨rfl, rfl, rfl⟩

end MemoryStore

instance : LawfulStore FileStore where
  version := FileStore.version
  save_ok h := by
    obtain ⟨hb, hholds, hversion⟩ := FileStore.save_ok h
    exact ⟨hb, congrArg Loaded.baseline hholds.load, hversion⟩

end LintRatchet
