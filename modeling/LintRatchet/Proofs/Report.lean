import LintRatchet.Operations
import LintRatchet.Proofs.CanonicalForm
import LintRatchet.Proofs.ErrorLine
import Mathlib.Data.List.DropRight

/-!
# What a report depends on

Of a report only its annotation lines count.  Neither their order nor carriage
returns at their ends matter, and the lines between them do not either.
`Report.presented` keeps what is left: the lines that start with the marker,
cut at line feeds and without carriage returns at their ends.

`read_eq_presented` says that reading depends on these lines alone.  A carriage
return never decides whether or how a line is read, and sorting findings forgets
their order altogether.  So two reports that present the same lines, in
whatever order, lead to the same result in everything that is done with them.
-/

namespace LintRatchet

/-! ## Carriage returns -/

namespace Text

/-- A line without the carriage returns at its end. -/
def withoutReturns (line : List Char) : List Char := line.rdropWhile (· == '\r')

theorem withoutReturns_append_return (line : List Char) :
    withoutReturns (line ++ ['\r']) = withoutReturns line :=
  List.rdropWhile_concat_pos _ _ _ rfl

/-- What does not depend on one carriage return at the end does not depend on all of them. -/
theorem apply_withoutReturns {α : Type} {f : List Char → α}
    (h : ∀ line, f (line ++ ['\r']) = f line) (line : List Char) :
    f (withoutReturns line) = f line := by
  induction line using List.reverseRecOn with
  | nil => rfl
  | append_singleton line c ih =>
    by_cases hc : c = '\r'
    · rw [hc, withoutReturns_append_return, ih, h]
    · rw [withoutReturns, List.rdropWhile_concat_neg _ _ _ (by simpa using hc)]

/-- The return before a line feed is one of those at the end of a line. -/
theorem withoutReturns_dropReturn (line : List Char) :
    withoutReturns (dropReturn line) = withoutReturns line := by
  unfold dropReturn
  split
  · next h =>
    obtain ⟨front, rfl⟩ := List.getLast?_eq_some_iff.mp h
    rw [List.dropLast_concat, withoutReturns_append_return]
  · rfl

/-- Lines are what line feeds separate.  The two differ in carriage returns at the end, and in an
empty piece after the last line feed. -/
theorem filter_lines {p : List Char → Bool} (hempty : p [] = false) (text : List Char) :
    ((lines text).map withoutReturns).filter p =
      ((split '\n' text).map withoutReturns).filter p := by
  induction text using lines_induction with
  | empty => simp [split, withoutReturns, hempty]
  | last line hline hne => rw [split_of_not_mem hline, lines_of_not_mem hline hne]
  | more line rest hline ih =>
    rw [lines_append_newline hline, split_append hline, List.map_cons, List.map_cons,
      withoutReturns_dropReturn, List.filter_cons, List.filter_cons, ih]

end Text

namespace ErrorLine

theorem isPrefixOf_append_return (line : List Char) :
    marker.isPrefixOf (line ++ ['\r']) = marker.isPrefixOf line := by
  rw [Bool.eq_iff_iff, List.isPrefixOf_iff_prefix, List.isPrefixOf_iff_prefix,
    List.prefix_concat_iff]
  constructor
  · rintro (h | h)
    · have hlast := congrArg List.getLast? h
      rw [List.getLast?_concat] at hlast
      exact absurd hlast (by decide)
    · exact h
  · exact .inr

theorem parseChars?_append_return (cwd line : List Char) :
    parseChars? (line ++ ['\r']) cwd = parseChars? line cwd := by
  have h := Annotation.parse?_push_return (String.ofList line) (String.ofList cwd)
  simpa only [parse?, String.toList_push, String.toList_ofList] using h

/-- Whether a line carries the marker does not depend on carriage returns at its end. -/
theorem isPrefixOf_withoutReturns (line : List Char) :
    marker.isPrefixOf (Text.withoutReturns line) = marker.isPrefixOf line :=
  Text.apply_withoutReturns isPrefixOf_append_return line

/-- Returns at the end make no difference to what is read of a line. -/
theorem parseChars?_withoutReturns (cwd line : List Char) :
    parseChars? (Text.withoutReturns line) cwd = parseChars? line cwd :=
  Text.apply_withoutReturns (f := (parseChars? · cwd)) (parseChars?_append_return cwd) line

end ErrorLine

/-! ## Reading -/

namespace Report

open Text (withoutReturns)

/-- The annotation lines of a text, without the carriage returns at their ends. -/
def presented (text : String) : List (List Char) :=
  ((Text.split '\n' text.toList).map withoutReturns).filter ErrorLine.marker.isPrefixOf

theorem map_candidates (text : String) :
    (candidates text.toList).map withoutReturns = presented text := by
  have hmarker : ErrorLine.marker.isPrefixOf ∘ withoutReturns = ErrorLine.marker.isPrefixOf :=
    funext ErrorLine.isPrefixOf_withoutReturns
  rw [presented, ← Text.filter_lines (by decide), List.filter_map, hmarker]
  rfl

/-- The findings and the tally of a report are those of the lines that it presents. -/
theorem read_eq_presented (text cwd : String) :
    read text cwd =
      let findings := (presented text).filterMap (ErrorLine.parseChars? · cwd.toList)
      (Finding.sort findings, ⟨(presented text).length, findings.length⟩) := by
  have hparse : (ErrorLine.parseChars? · cwd.toList) ∘ withoutReturns =
      (ErrorLine.parseChars? · cwd.toList) :=
    funext (ErrorLine.parseChars?_withoutReturns cwd.toList)
  rw [← map_candidates, List.filterMap_map, hparse, List.length_map]
  rfl

/-- A report is read by its marker lines, in whatever order they come. -/
theorem read_eq_of_perm {a b : String} (h : (presented a).Perm (presented b)) (cwd : String) :
    read a cwd = read b cwd := by
  have hfindings := h.filterMap (ErrorLine.parseChars? · cwd.toList)
  rw [read_eq_presented, read_eq_presented]
  simp only [Finding.sort_eq_sort_iff.mpr hfindings, h.length_eq, hfindings.length_eq]

end Report

/-! ## What is done with a report -/

/-- Reports that present the same annotation lines in any order are read alike, and a check or a
snapshot of one does exactly what it does of the other: it ends with the same run, leaves the same
store behind and records the same events. -/
theorem indistinguishable_of_perm_presented {a b : String}
    (h : (Report.presented a).Perm (Report.presented b)) :
    (∀ cwd, Report.read a cwd = Report.read b cwd) ∧
      ∀ {σ : Type} [Store σ] (s : σ),
        (∀ plan, Store.check plan a s = Store.check plan b s) ∧
          ∀ cwd, Store.snapshot a cwd s = Store.snapshot b cwd s := by
  have hread := Report.read_eq_of_perm h
  refine ⟨hread, fun s => ⟨fun plan => ?_, fun cwd => ?_⟩⟩
  · unfold Store.check
    rw [hread]
  · unfold Store.snapshot
    rw [hread]

/-- Two reports in another order, with other line ends and other lines between. -/
theorem indistinguishable_reordered :
    let a := "::error title=r,file=./a.js,line=1::m\r\n2 problems\r\n::error oops\r\n" ++
      "::error title=q,file=b.js,line=2,col=1::x::n"
    let b := "linting ...\n::error title=q,file=b.js,line=2,col=1::x::n\r\r\n::error oops\n" ++
      "::error title=r,file=./a.js,line=1::m\n"
    (Report.presented a).Perm (Report.presented b) ∧
      (∀ cwd, Report.read a cwd = Report.read b cwd) ∧
      ∀ {σ : Type} [Store σ] (s : σ),
        (∀ plan, Store.check plan a s = Store.check plan b s) ∧
          ∀ cwd, Store.snapshot a cwd s = Store.snapshot b cwd s := by
  intro a b
  have h : (Report.presented a).Perm (Report.presented b) := by decide +kernel
  exact ⟨h, indistinguishable_of_perm_presented h⟩

end LintRatchet
