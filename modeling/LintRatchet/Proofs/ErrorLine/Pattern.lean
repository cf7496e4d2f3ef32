import LintRatchet.Proofs.ErrorLine
import LintRatchet.Text.Numeric
import Mathlib.Data.List.Basic

/-!
# The pattern of annotation lines

Annotation lines are those that match a pattern, in which `\d` is a decimal digit
of any script and a dot is any character but a line feed:

    ^::error title=([^,]+),file=([^,]+),line=(\d+)(?:[,:].*)?::(.*)$

A `Match` is what the parts of the pattern take, and it is `Allowed` where each
part may take that.  A text may be matched in several ways.  The one that is
`Found` is the greatest: each part, from the first to the last, takes as much as
the parts after it leave room for, and the group takes part if it can.

The reader knows nothing of this.  It never goes back and only looks at ASCII
digits.  But what comes before the group can be taken in one way only, and the
greatest match is the one whose message follows the last `::`
(`Match.Allowed.found_iff`).  So the reader finds a match where there is one, and
gives the finding that the match found stands for (`parse?_of_found`,
`parse?_of_no_match`).
-/

namespace LintRatchet.ErrorLine

/-! ## Matches -/

/-- What the parts of the pattern take. -/
@[ext]
structure Match where
  rule : List Char
  file : List Char
  digits : List Char
  /-- What the group takes, if it takes part. -/
  group : Option (List Char)
  message : List Char

namespace Match

/-- What stands before the colons: what the group takes, or nothing. -/
def front (m : Match) : List Char := m.group.getD []

/-- What follows the digits. -/
def rest (m : Match) : List Char := m.front ++ ':' :: ':' :: m.message

/-- The text that is matched. -/
def text (m : Match) : List Char :=
  "::error title=".toList ++ (m.rule ++ (",file=".toList ++ (m.file ++
    (",line=".toList ++ (m.digits ++ m.rest)))))

/-- Each part takes what it may take. -/
structure Allowed (m : Match) : Prop where
  rule_ne : m.rule ≠ []
  rule_comma : ',' ∉ m.rule
  file_ne : m.file ≠ []
  file_comma : ',' ∉ m.file
  digits_ne : m.digits ≠ []
  digits : ∀ c ∈ m.digits, Text.isDecimalDigit c = true
  group : ∀ g ∈ m.group, ∃ c cs, g = c :: cs ∧ (c = ',' ∨ c = ':') ∧ '\n' ∉ cs
  message : '\n' ∉ m.message

/-- How much each part takes, in the order of the pattern.  A group that takes part takes more than
one that does not. -/
def lengths (m : Match) : List Nat :=
  [m.rule.length, m.file.length, m.digits.length, m.front.length, m.message.length]

/-- The match takes more than another one in the first part in which they differ. -/
def Exceeds (m n : Match) : Prop := List.Lex (· < ·) n.lengths m.lengths

/-- The match that is found in a text: no other one exceeds it. -/
structure Found (m : Match) (text : List Char) : Prop where
  allowed : m.Allowed
  text_eq : m.text = text
  greatest : ∀ n : Match, n.Allowed → n.text = text → ¬n.Exceeds m

/-- The finding that a match stands for, if its digits write a line number.  Those of other scripts
than ASCII write none. -/
def finding? (m : Match) (cwd : String) : Option Finding :=
  if m.digits.all Char.isDigit then
    (lineNumber? m.digits).map fun n => {
      rule := String.ofList m.rule
      file := String.ofList (SourcePath.normalizeChars m.file cwd.toList)
      line := n
      message := String.ofList (Text.trim m.message) }
  else none

/-! ## One way up to the digits -/

variable {m n : Match} {taken message : List Char}

/-- The group starts with a comma or a colon, and holds no line feed. -/
theorem Allowed.front (h : m.Allowed) (hne : m.front ≠ []) :
    (m.front.head? = some ',' ∨ m.front.head? = some ':') ∧ '\n' ∉ m.front := by
  unfold Match.front at hne ⊢
  cases hg : m.group with
  | none =>
    rw [hg] at hne
    exact absurd rfl hne
  | some g =>
    obtain ⟨c, cs, rfl, hc, hline⟩ := h.group g hg
    rcases hc with rfl | rfl
    · exact ⟨.inl rfl, by simpa using hline⟩
    · exact ⟨.inr rfl, by simpa using hline⟩

theorem Allowed.rest_head (h : m.Allowed) :
    m.rest.head? = some ',' ∨ m.rest.head? = some ':' := by
  by_cases hne : m.front = []
  · rw [rest, hne]
    exact .inr rfl
  · rw [rest, List.head?_append_of_ne_nil _ hne]
    exact (h.front hne).1

/-- A message has no line feed, and neither has what stands before it. -/
theorem Allowed.rest_newline (h : m.Allowed) : '\n' ∉ m.rest := by
  by_cases hne : m.front = []
  · simpa [rest, hne] using h.message
  · simpa [rest] using ⟨(h.front hne).2, h.message⟩

/-- The digits are all that there are, because neither a comma nor a colon is one. -/
theorem Allowed.span_digits (h : m.Allowed) :
    (m.digits ++ m.rest).takeWhile Text.isDecimalDigit = m.digits ∧
      (m.digits ++ m.rest).dropWhile Text.isDecimalDigit = m.rest := by
  refine span_append h.digits ?_
  intro c hc
  rcases h.rest_head with hr | hr
  · rw [hr] at hc
    cases hc
    decide
  · rw [hr] at hc
    cases hc
    decide

/-- Two matches of a text differ at most in what they take of the rest. -/
theorem Allowed.agree (hm : m.Allowed) (hn : n.Allowed) (he : m.text = n.text) :
    m.rule = n.rule ∧ m.file = n.file ∧ m.digits = n.digits ∧ m.rest = n.rest := by
  obtain ⟨hrule, hfile, htail⟩ := fields_inj hm.rule_comma hm.file_comma hn.rule_comma
    hn.file_comma (List.append_cancel_left he)
  have hdigits := congrArg (List.takeWhile Text.isDecimalDigit) htail
  have hrest := congrArg (List.dropWhile Text.isDecimalDigit) htail
  rw [hm.span_digits.1, hn.span_digits.1] at hdigits
  rw [hm.span_digits.2, hn.span_digits.2] at hrest
  exact ⟨hrule, hfile, hdigits, hrest⟩

/-- Of two matches of a text the one with more before the colons exceeds the other. -/
theorem Allowed.exceeds_iff (hm : m.Allowed) (hn : n.Allowed) (he : m.text = n.text) :
    m.Exceeds n ↔ n.front.length < m.front.length := by
  obtain ⟨hrule, hfile, hdigits, hrest⟩ := hm.agree hn he
  have hlength := congrArg List.length hrest
  simp only [rest, List.length_append, List.length_cons] at hlength
  simp only [Exceeds, lengths, hrule, hfile, hdigits, List.cons_lex_cons_iff, Nat.lt_irrefl,
    false_or, true_and, List.not_lex_nil, and_false, or_false]
  omega

/-! ## The match that is found -/

/-- What the group takes where this stands before the colons. -/
def groupFor : List Char → Option (List Char)
  | [] => none
  | c :: cs => some (c :: cs)

theorem groupFor_getD (taken : List Char) : (groupFor taken).getD [] = taken := by
  cases taken <;> rfl

theorem Allowed.groupFor_front (h : m.Allowed) : groupFor m.front = m.group := by
  unfold Match.front
  cases hg : m.group with
  | none => rfl
  | some g =>
    obtain ⟨c, cs, rfl, -⟩ := h.group g hg
    rfl

/-- What follows the digits may be divided at any two colons. -/
theorem allowed_at_colons {rest : List Char} (he : rest = taken ++ ':' :: ':' :: message)
    (hhead : rest.head? = some ',' ∨ rest.head? = some ':') (hline : '\n' ∉ rest) :
    (∀ g ∈ groupFor taken, ∃ c cs, g = c :: cs ∧ (c = ',' ∨ c = ':') ∧ '\n' ∉ cs) ∧
      '\n' ∉ message := by
  subst he
  simp only [List.mem_append, List.mem_cons, not_or] at hline
  refine ⟨fun g hg => ?_, hline.2.2.2⟩
  cases taken with
  | nil => cases hg
  | cons c cs =>
    cases hg
    exact ⟨c, cs, rfl, by simpa using hhead, fun hmem => hline.1 (List.mem_cons_of_mem _ hmem)⟩

/-- The match that takes the rest in another way. -/
def divided (m : Match) (taken message : List Char) : Match :=
  { m with group := groupFor taken, message }

theorem divided_front (m : Match) (taken message : List Char) :
    (m.divided taken message).front = taken := groupFor_getD taken

theorem divided_rest (m : Match) (taken message : List Char) :
    (m.divided taken message).rest = taken ++ ':' :: ':' :: message := by
  rw [rest, divided_front]
  rfl

theorem Allowed.divided (h : m.Allowed) (he : m.rest = taken ++ ':' :: ':' :: message) :
    (m.divided taken message).Allowed ∧ (m.divided taken message).text = m.text := by
  obtain ⟨hgroup, hmessage⟩ := allowed_at_colons he h.rest_head h.rest_newline
  refine ⟨⟨h.rule_ne, h.rule_comma, h.file_ne, h.file_comma, h.digits_ne, h.digits, hgroup,
    hmessage⟩, ?_⟩
  unfold Match.text
  rw [divided_rest, ← he]
  rfl

/-- A match is found when its colons are the last ones. -/
theorem Allowed.found_iff (h : m.Allowed) :
    m.Found m.text ↔ FollowsLastColons m.rest m.message := by
  constructor
  · intro hfound
    refine ⟨m.front, rfl, fun taken message he => ?_⟩
    obtain ⟨hallowed, htext⟩ := h.divided he
    have hnot := hfound.greatest _ hallowed htext
    rw [hallowed.exceeds_iff h htext, divided_front] at hnot
    exact Nat.le_of_not_lt hnot
  · rintro ⟨front, he, hlast⟩
    refine ⟨h, rfl, fun n hn htext => ?_⟩
    have hfront : front = m.front := List.append_cancel_right he.symm
    obtain ⟨-, -, -, hrest⟩ := hn.agree h htext
    rw [hn.exceeds_iff h htext, ← hfront]
    exact Nat.not_lt_of_le (hlast n.front n.message hrest.symm)

/-- A text that is matched has a match that is found. -/
theorem Allowed.exists_found (h : m.Allowed) : ∃ n : Match, n.Found m.text := by
  obtain ⟨message, hm⟩ := exists_followsLastColons_iff.mpr colons_infix
  obtain ⟨taken, he, hlast⟩ := hm
  obtain ⟨hallowed, htext⟩ := h.divided he
  refine ⟨m.divided taken message, ?_⟩
  rw [← htext, hallowed.found_iff, divided_rest]
  exact ⟨taken, rfl, he ▸ hlast⟩

/-- Only one match is found in a text. -/
theorem Found.unique {text : List Char} (hm : m.Found text) (hn : n.Found text) : m = n := by
  have htext : m.text = n.text := hm.text_eq.trans hn.text_eq.symm
  obtain ⟨hrule, hfile, hdigits, hrest⟩ := hm.allowed.agree hn.allowed htext
  have hnot := hn.greatest m hm.allowed hm.text_eq
  have hnot' := hm.greatest n hn.allowed hn.text_eq
  rw [hm.allowed.exceeds_iff hn.allowed htext] at hnot
  rw [hn.allowed.exceeds_iff hm.allowed htext.symm] at hnot'
  obtain ⟨hfront, hafter⟩ := List.append_inj hrest (by omega)
  have hmessage : m.message = n.message := by simpa using hafter
  have hgroup : m.group = n.group := by
    rw [← hm.allowed.groupFor_front, ← hn.allowed.groupFor_front, hfront]
  exact Match.ext hrule hfile hdigits hgroup hmessage

/-! ## The reader finds the match -/

/-- The annotation that a match takes apart. -/
def apart (m : Match) : Annotation :=
  ⟨String.ofList m.rule, String.ofList m.file, String.ofList m.digits, String.ofList m.rest⟩

theorem apart_text (m : Match) : m.apart.text.toList = m.text := by
  have htext := m.apart.text_toList
  unfold Match.text
  simpa only [apart, String.toList_ofList] using htext

/-- A match whose digits write a line number is a well-formed annotation. -/
theorem Allowed.wellFormed (h : m.Allowed) (hascii : m.digits.all Char.isDigit = true) {n : UInt32}
    (hn : lineNumber? m.digits = some n) : m.apart.WellFormed := by
  rw [lineNumber?_eq_some_iff, decimal_eq_ofDigits] at hn
  constructor <;>
    simp only [apart, Annotation.number, String.toList_ofList, ne_eq,
      String.ofList_eq_empty_iff]
  · exact h.rule_ne
  · exact h.rule_comma
  · exact h.file_ne
  · exact h.file_comma
  · exact h.digits_ne
  · exact List.all_eq_true.mp hascii
  · exact hn.2.1
  · exact hn.2.2.1
  · exact h.rest_newline
  · exact h.rest_head
  · exact colons_infix

theorem isDecimalDigit_of_isDigit {c : Char} (h : c.isDigit = true) :
    Text.isDecimalDigit c = true := by
  obtain ⟨hfirst, hlast⟩ := Char.isDigit_iff_toNat.mp h
  refine List.any_eq_true.mpr ⟨(0x30, 0x39), List.mem_cons_self .., ?_⟩
  exact Bool.and_eq_true_iff.mpr ⟨decide_eq_true hfirst, decide_eq_true hlast⟩

/-- The pattern matches the text of a well-formed annotation. -/
theorem exists_of_wellFormed {a : Annotation} (h : a.WellFormed) :
    ∃ m : Match, m.Allowed ∧ m.text = a.text.toList ∧ m.digits = a.digits.toList := by
  obtain ⟨taken, message, hrest⟩ := h.rest_colons
  have he : a.rest.toList = taken ++ ':' :: ':' :: message := by
    rw [← hrest]
    simp
  obtain ⟨hgroup, hmessage⟩ := allowed_at_colons he h.rest_head h.rest_newline
  refine ⟨⟨a.rule.toList, a.file.toList, a.digits.toList, groupFor taken, message⟩,
    ⟨by simpa using h.rule_ne, h.rule_comma, by simpa using h.file_ne, h.file_comma,
      by simpa using h.digits_ne, fun c hc => isDecimalDigit_of_isDigit (h.digits_ascii c hc),
      hgroup, hmessage⟩, ?_, rfl⟩
  unfold Match.text rest front
  rw [groupFor_getD, ← he]
  exact a.text_toList.symm

end Match

/-! ## The finding of a match -/

variable {line cwd : String} {m : Match}

/-- The annotation of the match that is found in a line reports what the match stands for. -/
theorem Match.Found.reports (h : m.Found line.toList) {f : Finding}
    (hf : m.finding? cwd = some f) : m.apart.WellFormed ∧ m.apart.Reports cwd f := by
  unfold Match.finding? at hf
  split at hf
  · next hascii =>
    obtain ⟨n, hn, rfl⟩ := Option.map_eq_some_iff.mp hf
    have hlast : FollowsLastColons m.rest m.message :=
      h.allowed.found_iff.mp (h.text_eq ▸ h)
    obtain ⟨-, -, -, hvalue⟩ := lineNumber?_eq_some_iff.mp hn
    refine ⟨h.allowed.wellFormed hascii hn, rfl, ?_, ?_, m.message, ?_, rfl⟩
    · rw [Match.apart, SourcePath.normalize, String.toList_ofList]
    · rw [hvalue, decimal_eq_ofDigits, Annotation.number, Match.apart, String.toList_ofList]
    · rw [Match.apart, String.toList_ofList]
      exact hlast
  · cases hf

/-- A line that is matched gives the finding that the match found in it stands for, if any. -/
theorem parse?_of_found (h : m.Found line.toList) : parse? line cwd = m.finding? cwd := by
  cases hf : m.finding? cwd with
  | some f =>
    obtain ⟨ha, hreports⟩ := h.reports hf
    have htext : m.apart.text = line :=
      String.toList_injective (m.apart_text.trans h.text_eq)
    exact Annotation.parse?_eq_some_iff.mpr ⟨_, ha, htext, hreports⟩
  | none =>
    refine Option.eq_none_iff_forall_ne_some.mpr fun f hread => ?_
    -- The annotation that was read has the digits of the match, so they write a line number.
    obtain ⟨a, ha, rfl⟩ := Annotation.exists_of_parse? hread
    obtain ⟨n, hn, htext, hdigits⟩ := Match.exists_of_wellFormed ha
    obtain ⟨-, -, hagree, -⟩ := h.allowed.agree hn (h.text_eq.trans htext.symm)
    rw [hdigits] at hagree
    rw [Match.finding?, hagree, if_pos (List.all_eq_true.mpr ha.digits_ascii),
      ha.lineNumber?_digits] at hf
    cases hf

/-- The number three in Arabic digits is matched, but it is no line number. -/
example : Match.finding? ⟨['r'], ['f'], ['٣'], none, ['m']⟩ "/" = none ∧
    Text.isDecimalDigit '٣' = true := by
  decide

/-- A line that is not matched gives nothing. -/
theorem parse?_of_no_match (h : ∀ m : Match, m.Allowed → m.text ≠ line.toList) :
    parse? line cwd = none := by
  refine Option.eq_none_iff_forall_ne_some.mpr fun f hf => ?_
  obtain ⟨a, ha, rfl⟩ := Annotation.exists_of_parse? hf
  obtain ⟨m, hm, htext, -⟩ := Match.exists_of_wellFormed ha
  exact h m hm htext

/-- What is read of a line is what the match found in it stands for. -/
theorem parse?_eq_some_iff_found {f : Finding} :
    parse? line cwd = some f ↔ ∃ m : Match, m.Found line.toList ∧ m.finding? cwd = some f := by
  constructor
  · intro hf
    obtain ⟨a, ha, rfl⟩ := Annotation.exists_of_parse? hf
    obtain ⟨m, hm, htext, -⟩ := Match.exists_of_wellFormed ha
    obtain ⟨n, hn⟩ := hm.exists_found
    rw [htext] at hn
    exact ⟨n, hn, (parse?_of_found hn).symm.trans hf⟩
  · rintro ⟨m, hm, hf⟩
    exact (parse?_of_found hm).trans hf

end LintRatchet.ErrorLine
