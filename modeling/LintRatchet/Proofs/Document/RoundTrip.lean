import LintRatchet.Document.Configuration
import LintRatchet.Proofs.Document.Receipt

/-!
# Documents read back

Main statement: every document is read back from what is written for it, on one
line or over several, with a line feed at the end or without.

What is left out of a document is left out because the value is absent, zero or
empty, and reading puts the same value there.  A configuration is different: its
table stands for itself even when it is empty, and only a document without the
table has the built-in defaults.
-/

namespace LintRatchet

open LintRatchet.Json

variable {l : Layout}

/-! ## Configurations -/

/-- The defaults are read back, whichever of them are there. -/
theorem Defaults.written (hl : l.IsBlank) (d : Defaults) : Written l Defaults.read d.toValue d := by
  have hbaseline : Fills l (readRecordMember slots true) {}
      (Value.member? "baseline" Value.text d.baseline)
      ⟨d.baseline.map some, none, none, none, none, none⟩ :=
    fills_member? (fun s => takes_slot hl rfl rfl (written_option_text s)) (by
      cases d.baseline <;> rfl)
  have hlinter : Fills l (readRecordMember slots true)
      ⟨d.baseline.map some, none, none, none, none, none⟩
      (Value.member? "biome" Value.texts d.linter)
      ⟨d.baseline.map some, d.linter.map some, none, none, none, none⟩ :=
    fills_member? (fun ss => takes_slot hl rfl rfl (written_option_texts hl ss)) (by
      cases d.linter <;> rfl)
  have hpaths : Fills l (readRecordMember slots true)
      ⟨d.baseline.map some, d.linter.map some, none, none, none, none⟩
      (Value.member? "paths" Value.texts d.paths)
      ⟨d.baseline.map some, d.linter.map some, d.paths.map some, none, none, none⟩ :=
    fills_member? (fun ss => takes_slot hl rfl rfl (written_option_texts hl ss)) (by
      cases d.paths <;> rfl)
  have hfail : Fills l (readRecordMember slots true)
      ⟨d.baseline.map some, d.linter.map some, d.paths.map some, none, none, none⟩
      (Value.member? "fail_on_improvement" Value.bool d.failOnImprovement)
      ⟨d.baseline.map some, d.linter.map some, d.paths.map some, d.failOnImprovement.map some,
        none, none⟩ :=
    fills_member? (fun b => takes_slot hl rfl rfl (written_option_bool b)) (by
      cases d.failOnImprovement <;> rfl)
  have hskip : Fills l (readRecordMember slots true)
      ⟨d.baseline.map some, d.linter.map some, d.paths.map some, d.failOnImprovement.map some,
        none, none⟩
      (Value.member? "skip_baseline_update" Value.bool d.skipBaselineUpdate)
      ⟨d.baseline.map some, d.linter.map some, d.paths.map some, d.failOnImprovement.map some,
        d.skipBaselineUpdate.map some, none⟩ :=
    fills_member? (fun b => takes_slot hl rfl rfl (written_option_bool b)) (by
      cases d.skipBaselineUpdate <;> rfl)
  have hstrict : Fills l (readRecordMember slots true)
      ⟨d.baseline.map some, d.linter.map some, d.paths.map some, d.failOnImprovement.map some,
        d.skipBaselineUpdate.map some, none⟩
      (Value.member? "strict_ratchet" Value.bool d.strictRatchet)
      ⟨d.baseline.map some, d.linter.map some, d.paths.map some, d.failOnImprovement.map some,
        d.skipBaselineUpdate.map some, d.strictRatchet.map some⟩ :=
    fills_member? (fun b => takes_slot hl rfl rfl (written_option_bool b)) (by
      cases d.strictRatchet <;> rfl)
  have hall := ((((hbaseline.append hlinter).append hpaths).append hfail).append hskip).append
    hstrict
  refine written_record hl hall ?_
  simp only [Draft.finish, getD_map_some]

/-- A configuration is read back with its defaults. -/
theorem Configuration.written (hl : l.IsBlank) (c : Configuration) :
    Written l Configuration.read c.toValue c := by
  have hfills : Fills l (readRecordMember slots true) {} [("defaults", c.defaults.toValue)]
      ⟨some c.defaults⟩ :=
    .cons (takes_slot hl rfl rfl (Defaults.written hl c.defaults)) .nil
  exact written_record hl hfills rfl

/-! ## What is left out -/

/-- The value is an object with a member of the name. -/
def Json.Value.Has (v : Value) (name : String) : Prop :=
  ∃ ms, v = .object ms ∧ Value.allNamed ms name ≠ []

/-- An object has a member when it has a value for the name. -/
theorem Json.Value.has_object {ms : List (String × Value)} {name : String} :
    (Value.object ms).Has name ↔ Value.allNamed ms name ≠ [] := by
  constructor
  · rintro ⟨_, ⟨⟩, h⟩
    exact h
  · exact fun h => ⟨ms, rfl, h⟩

/-- Of the members of an evaluation that may be left out, the document has those whose values are
there. -/
structure Evaluation.ShownIn (e : Evaluation) (v : Value) : Prop where
  baselineCount : v.Has "baseline_count" ↔ e.baselineCount ≠ none
  absorbedCount : v.Has "absorbed_count" ↔ e.absorbedCount ≠ 0
  newFindings : v.Has "new_findings" ↔ e.newFindings ≠ []

/-- The document of an evaluation leaves out what has no value. -/
theorem Evaluation.shownIn_toValue (e : Evaluation) : e.ShownIn e.toValue where
  baselineCount := by simp [toValue, Value.has_object, toMembers_eq]
  absorbedCount := by simp [toValue, Value.has_object, toMembers_eq, absorbed?]
  newFindings := by simp [toValue, Value.has_object, toMembers_eq, new?]

/-- A receipt shows its evaluation in the same way. -/
theorem Receipt.shownIn_toValue (r : Receipt) : r.evaluation.ShownIn r.toValue where
  baselineCount := by simp [toValue, Value.has_object, Evaluation.toMembers_eq]
  absorbedCount := by
    simp [toValue, Value.has_object, Evaluation.toMembers_eq, Evaluation.absorbed?]
  newFindings := by simp [toValue, Value.has_object, Evaluation.toMembers_eq, Evaluation.new?]

/-- A document of a configuration has the defaults that are there. -/
structure Defaults.ShownIn (d : Defaults) (v : Value) : Prop where
  baseline : v.Has "baseline" ↔ d.baseline ≠ none
  linter : v.Has "biome" ↔ d.linter ≠ none
  paths : v.Has "paths" ↔ d.paths ≠ none
  failOnImprovement : v.Has "fail_on_improvement" ↔ d.failOnImprovement ≠ none
  skipBaselineUpdate : v.Has "skip_baseline_update" ↔ d.skipBaselineUpdate ≠ none
  strictRatchet : v.Has "strict_ratchet" ↔ d.strictRatchet ≠ none

theorem Defaults.shownIn_toValue (d : Defaults) : d.ShownIn d.toValue where
  baseline := by simp [toValue, Value.has_object]
  linter := by simp [toValue, Value.has_object]
  paths := by simp [toValue, Value.has_object]
  failOnImprovement := by simp [toValue, Value.has_object]
  skipBaselineUpdate := by simp [toValue, Value.has_object]
  strictRatchet := by simp [toValue, Value.has_object]

/-! ## All documents -/

/-- Every document is read back, and what it leaves out is what has no value. -/
theorem documents_readBack :
    (ReadBack Finding.decode Finding.toValue ∧ ReadBack Baseline.decode Baseline.toValue ∧
      ReadBack Evaluation.decode Evaluation.toValue ∧ ReadBack Receipt.decode Receipt.toValue ∧
      ReadBack Summary.decode Summary.toValue ∧
      ReadBack Configuration.decode Configuration.toValue) ∧
    (∀ e : Evaluation, e.ShownIn e.toValue) ∧ (∀ r : Receipt, r.evaluation.ShownIn r.toValue) ∧
      (∀ s : Summary, s.toValue.Has "biome_version" ↔ s.linterVersion ≠ none) ∧
      ∀ c : Configuration, ∃ v, c.toValue = .object [("defaults", v)] ∧ c.defaults.ShownIn v := by
  refine ⟨⟨readBack_of_written Finding.written, readBack_of_written Baseline.written,
    readBack_of_written Evaluation.written, readBack_of_written Receipt.written,
    readBack_of_written Summary.written, readBack_of_written Configuration.written⟩,
    Evaluation.shownIn_toValue, Receipt.shownIn_toValue, ?_, ?_⟩
  · intro s
    simp [Summary.toValue, Value.has_object]
  · exact fun c => ⟨_, rfl, c.defaults.shownIn_toValue⟩

end LintRatchet
