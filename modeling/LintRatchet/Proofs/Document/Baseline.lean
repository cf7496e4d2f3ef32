import LintRatchet.Document.Baseline
import LintRatchet.Proofs.Json.Written

/-!
# Baselines read back

A finding and a baseline are read back from what any layout writes for them.
`decode_render` says so of the text of a baseline file, for every baseline.
-/

namespace LintRatchet

open LintRatchet.Json

variable {l : Layout}

/-- A finding is read back from the value that is written for it. -/
theorem Finding.written (hl : l.IsBlank) (f : Finding) : Written l Finding.read f.toValue f := by
  have hfills : Fills l (readRecordMember Finding.slots false) {}
      [("rule", .text f.rule), ("file", .text f.file), ("line", .count f.line),
        ("message", .text f.message)]
      ⟨some f.rule, some f.file, some f.line, some f.message⟩ :=
    .cons (takes_slot hl rfl rfl (written_text f.rule))
      (.cons (takes_slot hl rfl rfl (written_text f.file))
        (.cons (takes_slot hl rfl rfl (written_count f.line))
          (.cons (takes_slot hl rfl rfl (written_text f.message)) .nil)))
  exact written_record hl hfills rfl

theorem Finding.written_list (hl : l.IsBlank) (fs : List Finding) :
    Written l (readArray Finding.read) (.array (fs.map Finding.toValue)) fs :=
  written_array hl fun f _ => Finding.written hl f

/-- A baseline is read back from the value that is written for it, with its findings in order. -/
theorem Baseline.written (hl : l.IsBlank) (b : Baseline) :
    Written l Baseline.read b.toValue b := by
  have hfills : Fills l (readRecordMember Baseline.slots false) {}
      [("biomeVersion", .text b.linterVersion), ("fingerprints", .texts b.fingerprints),
        ("errors", .array (b.errors.map Finding.toValue))]
      ⟨some b.linterVersion, some b.fingerprints, some b.errors⟩ :=
    .cons (takes_slot hl rfl rfl (written_text b.linterVersion))
      (.cons (takes_slot hl rfl rfl (written_texts hl b.fingerprints))
        (.cons (takes_slot hl rfl rfl (Finding.written_list hl b.errors)) .nil))
  exact written_record hl hfills rfl

/-- The text of a baseline file holds the baseline. -/
theorem Baseline.decode_render (b : Baseline) : Baseline.decode b.render = .ok b :=
  (Baseline.written Layout.isBlank_pretty b).readAll.2

end LintRatchet
