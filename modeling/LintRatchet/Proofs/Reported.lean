import LintRatchet.Proofs.CanonicalForm
import LintRatchet.Proofs.ErrorLine
import LintRatchet.Proofs.SourcePath
import LintRatchet.Report

/-!
# What findings of a report are like

A finding that was read off a report is not any finding.  Its rule and file hold
no comma, its file is in its one spelling and on one line, its line counts from
one, and its message is trimmed and holds no `::`.  All of this comes from the
form of annotation lines, from the lines of a text being free of line feeds,
and from the characters that a source path can have.
-/

namespace LintRatchet

/-! ## Lines -/

namespace Text

theorem dropReturn_subset (line : List Char) : dropReturn line ⊆ line := by
  unfold dropReturn
  split
  · exact List.dropLast_subset line
  · exact List.Subset.refl line

/-- No line has a line feed in it. -/
theorem newline_not_mem_of_mem_lines {line : List Char} (text : List Char) (h : line ∈ lines text) :
    '\n' ∉ line := by
  induction text using lines_induction with
  | empty =>
    rw [lines_nil] at h
    exact absurd h List.not_mem_nil
  | last only honly hne =>
    rw [lines_of_not_mem honly hne, List.mem_singleton] at h
    rwa [h]
  | more first rest hfirst ih =>
    rw [lines_append_newline hfirst] at h
    rcases List.mem_cons.mp h with rfl | h
    · exact fun hmem => hfirst (dropReturn_subset first hmem)
    · exact ih h

end Text

/-! ## Findings -/

/-- What a finding of a report is like. -/
structure Finding.Reported (f : Finding) : Prop where
  line_pos : 1 ≤ f.line.toNat
  rule_ne : f.rule ≠ ""
  rule_comma : ',' ∉ f.rule.toList
  file_backslash : '\\' ∉ f.file.toList
  file_comma : ',' ∉ f.file.toList
  file_newline : '\n' ∉ f.file.toList
  message_trimmed : Text.Trimmed f.message.toList
  message_colons : ¬"::".toList <:+: f.message.toList

namespace ErrorLine

/-- The characters of the file stand in the line. -/
theorem Annotation.mem_text {a : Annotation} {c : Char} (h : c ∈ a.file.toList) :
    c ∈ a.text.toList := by
  rw [text_toList]
  simp [h]

theorem reported_of_parse? {line cwd : String} {f : Finding} (h : parse? line cwd = some f)
    (hline : '\n' ∉ line.toList) : f.Reported := by
  obtain ⟨a, ha, rfl, hf⟩ := Annotation.parse?_eq_some_iff.mp h
  obtain ⟨m, hm, hmessage⟩ := hf.message
  have hnewline : '\n' ∉ a.file.toList := fun hmem => hline (a.mem_text hmem)
  have hlist : f.message.toList = Text.trim m := by rw [hmessage, String.toList_ofList]
  refine ⟨?_, ?_, ?_, ?_, ?_, ?_, ?_, ?_⟩
  · rw [hf.line]
    exact ha.number_pos
  · rw [hf.rule]
    exact ha.rule_ne
  · rw [hf.rule]
    exact ha.rule_comma
  · rw [hf.file]
    exact SourcePath.not_mem_normalize (by decide) (by decide) (.inr rfl)
  · rw [hf.file]
    exact SourcePath.not_mem_normalize (by decide) (by decide) (.inl ha.file_comma)
  · rw [hf.file]
    exact SourcePath.not_mem_normalize (by decide) (by decide) (.inl hnewline)
  · rw [hlist]
    exact Text.trimmed_trim m
  · rw [hlist]
    exact fun hcolons => hm.not_infix (hcolons.trans (Text.trim_infix m))

end ErrorLine

/-- Every finding of a report is like that, whatever the report and the working directory. -/
theorem Report.reported_of_mem_read {text cwd : String} {f : Finding}
    (h : f ∈ (Report.read text cwd).1) : f.Reported := by
  have hmem : f ∈ (candidates text.toList).filterMap (ErrorLine.parseChars? · cwd.toList) :=
    Finding.mem_sort.mp h
  obtain ⟨line, hline, hparse⟩ := List.mem_filterMap.mp hmem
  have hnewline := Text.newline_not_mem_of_mem_lines text.toList (List.mem_filter.mp hline).1
  have hline : ErrorLine.parse? (String.ofList line) cwd = some f := by
    rw [ErrorLine.parse?, String.toList_ofList]
    exact hparse
  refine ErrorLine.reported_of_parse? hline ?_
  rw [String.toList_ofList]
  exact hnewline

end LintRatchet
