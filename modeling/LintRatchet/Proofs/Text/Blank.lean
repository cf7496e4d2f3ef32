import LintRatchet.Text.Blank
import Mathlib.Data.List.TakeWhile

/-!
# Texts without blank ends

What `trim` gives has no blank end (`trimmed_trim`), and a text without one is
left alone (`trim_eq_self`).  So one pass removes all blank ends.  One more blank
character at the end makes no difference (`trim_append_blank`).
-/

namespace LintRatchet.Text

/-- The text neither starts nor ends with a blank character. -/
def Trimmed (cs : List Char) : Prop :=
  (∀ c ∈ cs.head?, isBlank c = false) ∧ (∀ c ∈ cs.getLast?, isBlank c = false)

theorem all_iff_trimmed {cs : List Char} :
    (cs.head?.all (!isBlank ·) ∧ cs.getLast?.all (!isBlank ·)) ↔ Trimmed cs := by
  simp [Trimmed, Option.all_eq_true]

/-- A text is trimmed if the tests of its two ends say so. -/
instance (cs : List Char) : Decidable (Trimmed cs) := decidable_of_decidable_of_iff all_iff_trimmed

/-- Nothing is dropped from a text that does not start with a blank character. -/
theorem dropWhile_isBlank_eq_self {cs : List Char} (h : ∀ c ∈ cs.head?, isBlank c = false) :
    cs.dropWhile isBlank = cs := by
  refine List.dropWhile_eq_self_iff.mpr fun hl => Bool.eq_false_iff.mp (h _ ?_)
  rw [List.head?_eq_getElem?, Option.mem_def, List.getElem?_eq_getElem hl]

theorem not_isBlank_of_head?_dropWhile {cs : List Char} {c : Char}
    (hc : (cs.dropWhile isBlank).head? = some c) : isBlank c = false := by
  have hfirst := List.head?_dropWhile_not isBlank cs
  rwa [hc] at hfirst

theorem trim_eq_self {cs : List Char} (h : Trimmed cs) : trim cs = cs := by
  have hend : ∀ c ∈ cs.reverse.head?, isBlank c = false := by
    simpa only [List.head?_reverse] using h.2
  rw [trim, trimStart, dropWhile_isBlank_eq_self h.1, trimEnd, dropWhile_isBlank_eq_self hend,
    List.reverse_reverse]

theorem trim_prefix_trimStart (cs : List Char) : trim cs <+: trimStart cs := by
  rw [← List.reverse_suffix, trim, trimEnd, List.reverse_reverse]
  exact List.dropWhile_suffix _

/-- No blank end is left after one pass. -/
theorem trimmed_trim (cs : List Char) : Trimmed (trim cs) := by
  constructor
  · intro c hc
    obtain ⟨after, hafter⟩ := trim_prefix_trimStart cs
    have hstart : (trimStart cs).head? = some c := by
      rw [← hafter, List.head?_append, hc, Option.some_or]
    exact not_isBlank_of_head?_dropWhile hstart
  · intro c hc
    rw [trim, trimEnd, List.getLast?_reverse] at hc
    exact not_isBlank_of_head?_dropWhile hc

/-- A blank character at the end makes no difference. -/
theorem trim_append_blank (cs : List Char) {c : Char} (hc : isBlank c = true) :
    trim (cs ++ [c]) = trim cs := by
  unfold trim trimStart
  rw [List.dropWhile_append]
  split
  · next hall => simp [trimEnd, hc, List.isEmpty_iff.mp hall]
  · simp [trimEnd, hc]

/-- Trimming only cuts at the two ends. -/
theorem trim_infix (cs : List Char) : trim cs <:+: cs :=
  (trim_prefix_trimStart cs).isInfix.trans (List.dropWhile_suffix _).isInfix

end LintRatchet.Text
