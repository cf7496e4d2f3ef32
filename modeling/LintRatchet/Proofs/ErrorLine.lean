import LintRatchet.ErrorLine
import LintRatchet.Proofs.Text.Blank
import Mathlib.Data.List.Induction
import Mathlib.Data.List.TakeWhile
import Mathlib.Data.Nat.Digits.Defs

/-!
# The form of an annotation line

An `Annotation` is an annotation line taken apart: the rule, the file, the
digits of the line number, and the rest.  `parse?_grammar` says that exactly the
texts of well-formed annotations are read, that a line is the text of at most
one of them, and what its finding is.

The reader works from left to right and never goes back.  So each of its steps
has a lemma that says which texts it accepts and how it divides them, and the
division is the only one possible because what a piece may contain never
overlaps with what comes after it.

A carriage return at the end goes to the rest, where the message is trimmed.  So
a line with one is read as the line without it (`Annotation.parse?_push_return`).
-/

namespace LintRatchet.ErrorLine

/-! ## Dividing a text -/

/-- The longest beginning of a text with some kind of characters. -/
theorem span_append {p : Char → Bool} {v r : List Char} (hv : ∀ c ∈ v, p c = true)
    (hr : ∀ c ∈ r.head?, p c = false) :
    (v ++ r).takeWhile p = v ∧ (v ++ r).dropWhile p = r := by
  rw [List.takeWhile_append_of_pos hv, List.dropWhile_append_of_pos hv]
  cases r with
  | nil => simp
  | cons c r =>
    have hc : p c = false := hr c rfl
    simp [hc]

theorem afterLiteral?_eq_some_iff {literal text rest : List Char} :
    afterLiteral? literal text = some rest ↔ text = literal ++ rest := by
  unfold afterLiteral?
  split
  · next h =>
    obtain ⟨r, rfl⟩ := List.isPrefixOf_iff_prefix.mp h
    simp [eq_comm]
  · next h =>
    simp only [reduceCtorEq, false_iff]
    rintro rfl
    exact h (List.isPrefixOf_iff_prefix.mpr ⟨rest, rfl⟩)

theorem not_comma {v : List Char} : (∀ c ∈ v, (c != ',') = true) ↔ ',' ∉ v := by
  constructor
  · intro h hmem
    exact absurd (h ',' hmem) (by decide)
  · intro h c hc
    exact bne_iff_ne.mpr fun he => h (he ▸ hc)

/-- A field ends at the first comma. -/
theorem field?_append {v r : List Char} (hv : v ≠ []) (hcomma : ',' ∉ v)
    (hr : r.head? = some ',') : field? (v ++ r) = some (v, r) := by
  obtain ⟨htake, hdrop⟩ := span_append (not_comma.mpr hcomma) (r := r) (by simp [hr])
  rw [field?, htake, hdrop]
  cases v with
  | nil => exact absurd rfl hv
  | cons c v => rfl

theorem field?_eq_some {text v r : List Char} (h : field? text = some (v, r)) :
    text = v ++ r ∧ v ≠ [] ∧ ',' ∉ v := by
  unfold field? at h
  split at h
  · cases h
  · next hne =>
    cases h
    refine ⟨(List.takeWhile_append_dropWhile).symm, hne, ?_⟩
    exact not_comma.mp fun c hc => List.mem_takeWhile_imp (p := (· != ',')) hc

/-- A comma ends what stands before it in one way only. -/
theorem append_comma_inj {v r v' r' : List Char} (hv : ',' ∉ v) (hr : r.head? = some ',')
    (hv' : ',' ∉ v') (hr' : r'.head? = some ',') (he : v ++ r = v' ++ r') : v = v' ∧ r = r' := by
  obtain ⟨htake, hdrop⟩ := span_append (not_comma.mpr hv) (r := r) (by simp [hr])
  obtain ⟨htake', hdrop'⟩ := span_append (not_comma.mpr hv') (r := r') (by simp [hr'])
  rw [he, htake'] at htake
  rw [he, hdrop'] at hdrop
  exact ⟨htake.symm, hdrop.symm⟩

/-- The two fields of a line can be told apart in one way only. -/
theorem fields_inj {rule file tail rule' file' tail' : List Char} (hrule : ',' ∉ rule)
    (hfile : ',' ∉ file) (hrule' : ',' ∉ rule') (hfile' : ',' ∉ file')
    (he : rule ++ (",file=".toList ++ (file ++ (",line=".toList ++ tail))) =
      rule' ++ (",file=".toList ++ (file' ++ (",line=".toList ++ tail')))) :
    rule = rule' ∧ file = file' ∧ tail = tail' := by
  obtain ⟨hr, he⟩ := append_comma_inj hrule rfl hrule' rfl he
  obtain ⟨hf, he⟩ := append_comma_inj hfile rfl hfile' rfl (List.append_cancel_left he)
  exact ⟨hr, hf, List.append_cancel_left he⟩

/-! ## Numbers -/

/-- The value of digits is that of the decimal numeral that they write. -/
theorem decimal_eq_ofDigits (digits : List Char) :
    decimal digits = Nat.ofDigits 10 (digits.reverse.map fun c => c.toNat - '0'.toNat) := by
  induction digits using List.reverseRecOn with
  | nil => rfl
  | append_singleton digits c ih =>
    rw [decimal, List.foldl_append, ← decimal, ih]
    simp [Nat.ofDigits_cons, Nat.add_comm]

theorem isDigit_of_mem_toString {n : Nat} {c : Char} (h : c ∈ (toString n).toList) :
    c.isDigit = true := by
  rw [Nat.toString_eq_repr, Nat.toList_repr] at h
  exact Nat.isDigit_of_mem_toDigits (by decide) (by decide) h

theorem toString_ne_empty (n : Nat) : toString n ≠ "" := by
  intro h
  have hlist := congrArg String.toList h
  rw [Nat.toString_eq_repr, Nat.toList_repr] at hlist
  exact Nat.toDigits_ne_nil hlist

theorem decimal_toString (n : Nat) : decimal (toString n).toList = n := by
  rw [Nat.toString_eq_repr, Nat.toList_repr]
  exact Nat.ofDigitChars_ten_toDigits

/-- A line number is what at least one digit writes, from one up to `2 ^ 32 - 1`. -/
theorem lineNumber?_eq_some_iff {digits : List Char} {n : UInt32} :
    lineNumber? digits = some n ↔
      digits ≠ [] ∧ 1 ≤ decimal digits ∧ decimal digits < 2 ^ 32 ∧ n.toNat = decimal digits := by
  have hsize : UInt32.size = 2 ^ 32 := rfl
  unfold lineNumber?
  simp only [Bool.and_eq_true, decide_eq_true_eq, hsize]
  split
  · next h =>
    obtain ⟨⟨hne, hpos⟩, hlt⟩ := h
    have hvalue : (UInt32.ofNat (decimal digits)).toNat = decimal digits :=
      UInt32.toNat_ofNat_of_lt' hlt
    constructor
    · intro he
      cases he
      exact ⟨hne, hpos, hlt, hvalue⟩
    · rintro ⟨-, -, -, hn⟩
      rw [← hn, UInt32.ofNat_toNat]
  · next h =>
    constructor
    · intro he
      cases he
    · rintro ⟨hne, hpos, hlt, -⟩
      exact absurd ⟨⟨hne, hpos⟩, hlt⟩ h

/-! ## The message -/

/-- A message follows the last `::` of a text.  Occurrences may overlap. -/
def FollowsLastColons (text message : List Char) : Prop :=
  ∃ front, text = front ++ ':' :: ':' :: message ∧
    ∀ front' message', text = front' ++ ':' :: ':' :: message' → front'.length ≤ front.length

/-- Only one text follows the last `::`. -/
theorem FollowsLastColons.unique {text m m' : List Char} (h : FollowsLastColons text m)
    (h' : FollowsLastColons text m') : m = m' := by
  obtain ⟨front, he, hlast⟩ := h
  obtain ⟨front', he', hlast'⟩ := h'
  have hlength : front.length = front'.length :=
    Nat.le_antisymm (hlast' front m he) (hlast front' m' he')
  rw [he] at he'
  obtain ⟨-, hcons⟩ := List.append_inj he' hlength
  exact (List.cons.inj (List.cons.inj hcons).2).2

theorem FollowsLastColons.cons {text message : List Char} (h : FollowsLastColons text message)
    (c : Char) : FollowsLastColons (c :: text) message := by
  obtain ⟨front, rfl, hlast⟩ := h
  refine ⟨c :: front, rfl, ?_⟩
  intro front' message' he
  cases front' with
  | nil => exact Nat.zero_le _
  | cons c' front' =>
    obtain ⟨-, he⟩ := List.cons.inj he
    exact Nat.succ_le_succ (hlast front' message' he)

/-- A character that is no colon can be added to the message. -/
theorem FollowsLastColons.append {text message : List Char} (h : FollowsLastColons text message)
    {c : Char} (hc : c ≠ ':') : FollowsLastColons (text ++ [c]) (message ++ [c]) := by
  obtain ⟨front, rfl, hlast⟩ := h
  refine ⟨front, by simp, ?_⟩
  intro front' message' he
  rcases List.eq_nil_or_concat message' with rfl | ⟨m, d, rfl⟩
  · have hlasts := congrArg List.getLast? he
    simp only [List.getLast?_append] at hlasts
    exact absurd (by simpa using hlasts) hc
  · refine hlast front' m ?_
    rw [List.concat_eq_append, ← List.cons_append, ← List.cons_append, ← List.append_assoc] at he
    exact (List.append_inj' he rfl).1

/-- There is no `::` in what follows the last one. -/
theorem FollowsLastColons.not_infix {text message : List Char}
    (h : FollowsLastColons text message) : ¬[':', ':'] <:+: message := by
  obtain ⟨front, rfl, hlast⟩ := h
  rintro ⟨before, after, rfl⟩
  have hle := hlast (front ++ ':' :: ':' :: before) after (by simp)
  simp only [List.length_append, List.length_cons] at hle
  omega

theorem colons_infix {front message : List Char} :
    [':', ':'] <:+: front ++ ':' :: ':' :: message :=
  ⟨front, message, by simp⟩

theorem followsLastColons_of_not_infix {message : List Char}
    (h : ¬[':', ':'] <:+: ':' :: message) : FollowsLastColons (':' :: ':' :: message) message := by
  refine ⟨[], rfl, ?_⟩
  intro front' message' he
  cases front' with
  | nil => exact Nat.le_refl _
  | cons c' front' =>
    obtain ⟨-, he⟩ := List.cons.inj he
    exact absurd (he ▸ colons_infix) h

theorem afterLastColons?_eq_none {c : Char} {cs : List Char} (hcs : afterLastColons? cs = none)
    (h : ∀ message, c = ':' → cs ≠ ':' :: message) : afterLastColons? (c :: cs) = none := by
  unfold afterLastColons?
  rw [hcs]
  dsimp only
  split
  · next message => exact absurd rfl (h message rfl)
  · rfl

/-- What is found is what follows the last `::`, and nothing is found only where there is none. -/
theorem afterLastColons?_spec (text : List Char) :
    match afterLastColons? text with
    | some message => FollowsLastColons text message
    | none => ¬[':', ':'] <:+: text := by
  induction text with
  | nil => exact fun h => absurd (List.infix_nil.mp h) (by simp)
  | cons c cs ih =>
    cases hcs : afterLastColons? cs with
    | some message =>
      rw [hcs] at ih
      have hstep : afterLastColons? (c :: cs) = some message := by
        unfold afterLastColons?
        rw [hcs]
      rw [hstep]
      exact ih.cons c
    | none =>
      rw [hcs] at ih
      by_cases hcolons : ∃ message, c = ':' ∧ cs = ':' :: message
      · obtain ⟨message, rfl, rfl⟩ := hcolons
        have hstep : afterLastColons? (':' :: ':' :: message) = some message := by
          unfold afterLastColons?
          rw [hcs]
          rfl
        rw [hstep]
        exact followsLastColons_of_not_infix ih
      · rw [afterLastColons?_eq_none hcs fun message hc he => hcolons ⟨message, hc, he⟩]
        intro hinfix
        rcases List.infix_cons_iff.mp hinfix with ⟨message, he⟩ | hinfix
        · obtain ⟨hc, he⟩ := List.cons.inj he
          exact hcolons ⟨message, hc.symm, he.symm⟩
        · exact ih hinfix

theorem afterLastColons?_eq_some_iff {text message : List Char} :
    afterLastColons? text = some message ↔ FollowsLastColons text message := by
  have hspec := afterLastColons?_spec text
  constructor
  · intro h
    rw [h] at hspec
    exact hspec
  · intro h
    cases hm : afterLastColons? text with
    | some m =>
      rw [hm] at hspec
      rw [h.unique hspec]
    | none =>
      rw [hm] at hspec
      obtain ⟨front, rfl, -⟩ := h
      exact absurd colons_infix hspec

/-- A text with `::` in it has a last one. -/
theorem exists_followsLastColons_iff {text : List Char} :
    (∃ message, FollowsLastColons text message) ↔ [':', ':'] <:+: text := by
  have hspec := afterLastColons?_spec text
  constructor
  · rintro ⟨message, front, rfl, -⟩
    exact colons_infix
  · intro h
    cases hm : afterLastColons? text with
    | some m =>
      rw [hm] at hspec
      exact ⟨m, hspec⟩
    | none =>
      rw [hm] at hspec
      exact absurd h hspec

/-- The message is the trimmed text after the last `::`. -/
theorem message?_eq_some_iff {rest message : List Char} :
    message? rest = some message ↔
      (rest.head? = some ',' ∨ rest.head? = some ':') ∧ '\n' ∉ rest ∧
        ∃ m, FollowsLastColons rest m ∧ message = Text.trim m := by
  have hguard : ((decide (rest.head? = some ',') || decide (rest.head? = some ':')) &&
      !rest.contains '\n') = true ↔
      (rest.head? = some ',' ∨ rest.head? = some ':') ∧ '\n' ∉ rest := by
    simp
  unfold message?
  by_cases h : (rest.head? = some ',' ∨ rest.head? = some ':') ∧ '\n' ∉ rest
  · rw [if_pos (hguard.mpr h), Option.map_eq_some_iff]
    constructor
    · rintro ⟨m, hm, rfl⟩
      exact ⟨h.1, h.2, m, afterLastColons?_eq_some_iff.mp hm, rfl⟩
    · rintro ⟨-, -, m, hm, rfl⟩
      exact ⟨m, afterLastColons?_eq_some_iff.mpr hm, rfl⟩
  · rw [if_neg fun hg => h (hguard.mp hg)]
    constructor
    · intro hnone
      cases hnone
    · rintro ⟨hhead, hline, -⟩
      exact absurd ⟨hhead, hline⟩ h

/-! ## Annotations -/

/-- An annotation line taken apart. -/
@[ext]
structure Annotation where
  rule : String
  file : String
  /-- The line number as it is written. -/
  digits : String
  /-- What follows the line number. -/
  rest : String

namespace Annotation

/-- The line of an annotation. -/
def text (a : Annotation) : String :=
  "::error title=" ++ a.rule ++ ",file=" ++ a.file ++ ",line=" ++ a.digits ++ a.rest

/-- The value of the digits. -/
def number (a : Annotation) : Nat :=
  Nat.ofDigits 10 (a.digits.toList.reverse.map fun c => c.toNat - '0'.toNat)

/-- What the parts of an annotation must be like. -/
structure WellFormed (a : Annotation) : Prop where
  rule_ne : a.rule ≠ ""
  rule_comma : ',' ∉ a.rule.toList
  file_ne : a.file ≠ ""
  file_comma : ',' ∉ a.file.toList
  digits_ne : a.digits ≠ ""
  digits_ascii : ∀ c ∈ a.digits.toList, c.isDigit = true
  number_pos : 1 ≤ a.number
  number_lt : a.number < 2 ^ 32
  rest_newline : '\n' ∉ a.rest.toList
  rest_head : a.rest.toList.head? = some ',' ∨ a.rest.toList.head? = some ':'
  rest_colons : "::".toList <:+: a.rest.toList

/-- The finding that an annotation reports from a directory. -/
structure Reports (a : Annotation) (cwd : String) (f : Finding) : Prop where
  rule : f.rule = a.rule
  file : f.file = SourcePath.normalize a.file cwd
  line : f.line.toNat = a.number
  message : ∃ m, FollowsLastColons a.rest.toList m ∧ f.message = String.ofList (Text.trim m)

theorem text_toList (a : Annotation) : a.text.toList =
    "::error title=".toList ++ (a.rule.toList ++ (",file=".toList ++ (a.file.toList ++
      (",line=".toList ++ (a.digits.toList ++ a.rest.toList))))) := by
  unfold text
  simp only [String.toList_append]
  simp only [List.append_assoc]

namespace WellFormed

variable {a b : Annotation}

theorem span_digits (h : a.WellFormed) :
    (a.digits.toList ++ a.rest.toList).takeWhile Char.isDigit = a.digits.toList ∧
      (a.digits.toList ++ a.rest.toList).dropWhile Char.isDigit = a.rest.toList := by
  refine span_append h.digits_ascii ?_
  intro c hc
  rcases h.rest_head with hr | hr
  · rw [hr] at hc
    cases hc
    decide
  · rw [hr] at hc
    cases hc
    decide

theorem field?_rule (h : a.WellFormed) (r : List Char) :
    field? (a.rule.toList ++ (",file=".toList ++ r)) =
      some (a.rule.toList, ",file=".toList ++ r) :=
  field?_append (by simpa using h.rule_ne) h.rule_comma rfl

theorem field?_file (h : a.WellFormed) (r : List Char) :
    field? (a.file.toList ++ (",line=".toList ++ r)) =
      some (a.file.toList, ",line=".toList ++ r) :=
  field?_append (by simpa using h.file_ne) h.file_comma rfl

/-- The digits write a line number. -/
theorem lineNumber?_digits (h : a.WellFormed) :
    lineNumber? a.digits.toList = some (UInt32.ofNat a.number) := by
  rw [lineNumber?_eq_some_iff, decimal_eq_ofDigits]
  exact ⟨by simpa using h.digits_ne, h.number_pos, h.number_lt,
    UInt32.toNat_ofNat_of_lt' h.number_lt⟩

/-- The text of a well-formed annotation is read, and gives what it reports. -/
theorem parse?_text (h : a.WellFormed) (cwd : String) :
    ∃ f, parse? a.text cwd = some f ∧ a.Reports cwd f := by
  obtain ⟨hdigits, hrest⟩ := h.span_digits
  obtain ⟨m, hm⟩ := exists_followsLastColons_iff.mpr h.rest_colons
  have hnumber := h.lineNumber?_digits
  have hmessage : message? a.rest.toList = some (Text.trim m) :=
    message?_eq_some_iff.mpr ⟨h.rest_head, h.rest_newline, m, hm, rfl⟩
  refine ⟨⟨a.rule, SourcePath.normalize a.file cwd, UInt32.ofNat a.number,
    String.ofList (Text.trim m)⟩, ?_, ⟨rfl, rfl, UInt32.toNat_ofNat_of_lt' h.number_lt, m, hm, rfl⟩⟩
  rw [parse?, parseChars?, text_toList]
  simp only [afterLiteral?_eq_some_iff.mpr rfl, h.field?_rule, h.field?_file, hdigits, hrest,
    hnumber, hmessage, Option.bind_eq_bind, Option.bind_some]
  simp only [SourcePath.normalize, String.ofList_toList]
  rfl

/-- A text is that of one well-formed annotation at most. -/
theorem eq_of_text_eq (ha : a.WellFormed) (hb : b.WellFormed) (he : a.text = b.text) : a = b := by
  have hlist := congrArg String.toList he
  rw [text_toList, text_toList] at hlist
  obtain ⟨hrule, hfile, htail⟩ := fields_inj ha.rule_comma ha.file_comma hb.rule_comma hb.file_comma
    (List.append_cancel_left hlist)
  have hdigits := congrArg (List.takeWhile Char.isDigit) htail
  have hrest := congrArg (List.dropWhile Char.isDigit) htail
  rw [ha.span_digits.1, hb.span_digits.1] at hdigits
  rw [ha.span_digits.2, hb.span_digits.2] at hrest
  exact Annotation.ext (String.toList_injective hrule) (String.toList_injective hfile)
    (String.toList_injective hdigits) (String.toList_injective hrest)

end WellFormed

/-- What is read is the text of a well-formed annotation. -/
theorem exists_of_parse? {line cwd : String} {f : Finding} (h : parse? line cwd = some f) :
    ∃ a : Annotation, a.WellFormed ∧ a.text = line := by
  simp only [parse?, parseChars?, Option.bind_eq_bind, Option.bind_eq_some_iff] at h
  obtain ⟨afterTitle, htitle, ⟨rule, afterRule⟩, hrule, fileOn, hfileOn, ⟨file, afterFile⟩, hfile,
    lineOn, hlineOn, n, hn, m, hm, -⟩ := h
  obtain ⟨rfl, hruleNe, hruleComma⟩ := field?_eq_some hrule
  obtain ⟨rfl, hfileNe, hfileComma⟩ := field?_eq_some hfile
  rw [afterLiteral?_eq_some_iff] at htitle hfileOn hlineOn
  dsimp only at hfileOn hlineOn
  rw [lineNumber?_eq_some_iff, decimal_eq_ofDigits] at hn
  obtain ⟨hdigitsNe, hpos, hlt, -⟩ := hn
  obtain ⟨hhead, hline, _, hcolons, -⟩ := message?_eq_some_iff.mp hm
  have hdivide := List.takeWhile_append_dropWhile (p := Char.isDigit) (l := lineOn)
  refine ⟨⟨String.ofList rule, String.ofList file, String.ofList (lineOn.takeWhile Char.isDigit),
    String.ofList (lineOn.dropWhile Char.isDigit)⟩, ?_, ?_⟩
  · constructor <;> simp only [number, String.toList_ofList, ne_eq, String.ofList_eq_empty_iff]
    · exact hruleNe
    · exact hruleComma
    · exact hfileNe
    · exact hfileComma
    · exact hdigitsNe
    · exact fun c hc => List.mem_takeWhile_imp hc
    · exact hpos
    · exact hlt
    · exact hline
    · exact hhead
    · exact exists_followsLastColons_iff.mp ⟨_, hcolons⟩
  · refine String.toList_injective ?_
    rw [text_toList, htitle, hfileOn, hlineOn]
    simp only [String.toList_ofList, hdivide]

/-- An annotation reports one finding from a directory. -/
theorem Reports.unique {a : Annotation} {cwd : String} {f g : Finding} (hf : a.Reports cwd f)
    (hg : a.Reports cwd g) : f = g := by
  obtain ⟨m, hm, hfm⟩ := hf.message
  obtain ⟨m', hm', hgm⟩ := hg.message
  have hline : f.line = g.line := UInt32.toNat_inj.mp (hf.line.trans hg.line.symm)
  have hmessage : f.message = g.message := by rw [hfm, hgm, hm.unique hm']
  cases f
  cases g
  simp only [Finding.mk.injEq]
  exact ⟨hf.rule.trans hg.rule.symm, hf.file.trans hg.file.symm, hline, hmessage⟩

/-- The finding of a line is the one that its annotation reports. -/
theorem parse?_eq_some_iff {line cwd : String} {f : Finding} :
    parse? line cwd = some f ↔
      ∃ a : Annotation, a.WellFormed ∧ a.text = line ∧ a.Reports cwd f := by
  constructor
  · intro h
    obtain ⟨a, ha, rfl⟩ := exists_of_parse? h
    obtain ⟨g, hg, hreports⟩ := ha.parse?_text cwd
    rw [hg] at h
    cases h
    exact ⟨a, ha, rfl, hreports⟩
  · rintro ⟨a, ha, rfl, hf⟩
    obtain ⟨g, hg, hreports⟩ := ha.parse?_text cwd
    rw [hg, hreports.unique hf]

/-! ## A carriage return at the end -/

/-- The annotation whose line has one more character. -/
def push (a : Annotation) (c : Char) : Annotation := { a with rest := a.rest.push c }

theorem push_text (a : Annotation) (c : Char) : (a.push c).text = a.text.push c := by
  refine String.toList_injective ?_
  rw [text_toList, String.toList_push, text_toList]
  simp only [push, String.toList_push, List.append_assoc]

theorem wellFormed_push_return {a : Annotation} : (a.push '\r').WellFormed ↔ a.WellFormed := by
  have hrest : (a.push '\r').rest.toList = a.rest.toList ++ ['\r'] := String.toList_push _
  constructor
  · intro h
    have hline := h.rest_newline
    have hhead := h.rest_head
    have hcolons := h.rest_colons
    rw [hrest] at hline hhead hcolons
    refine ⟨h.rule_ne, h.rule_comma, h.file_ne, h.file_comma, h.digits_ne, h.digits_ascii,
      h.number_pos, h.number_lt, fun hn => hline (List.mem_append_left _ hn), ?_, ?_⟩
    · cases hr : a.rest.toList with
      | nil => simp [hr] at hhead
      | cons c cs => simpa [hr] using hhead
    · rcases List.infix_concat_iff.mp hcolons with ⟨front, he⟩ | hinfix
      · have hlasts := congrArg List.getLast? he
        simp at hlasts
      · exact hinfix
  · intro h
    refine ⟨h.rule_ne, h.rule_comma, h.file_ne, h.file_comma, h.digits_ne, h.digits_ascii,
      h.number_pos, h.number_lt, ?_, ?_, ?_⟩
    · rw [hrest]
      simpa using h.rest_newline
    · rw [hrest]
      rcases h.rest_head with hr | hr <;> simp [hr]
    · rw [hrest]
      exact h.rest_colons.trans (List.prefix_append ..).isInfix

theorem Reports.push_return {a : Annotation} {cwd : String} {f : Finding} (h : a.Reports cwd f) :
    (a.push '\r').Reports cwd f := by
  obtain ⟨m, hm, hmessage⟩ := h.message
  refine ⟨h.rule, h.file, h.line, m ++ ['\r'], ?_, ?_⟩
  · rw [push, String.toList_push]
    exact hm.append (by decide)
  · rw [hmessage, Text.trim_append_blank m (by decide)]

/-- The rest of an annotation is not empty, so the last character of a line is one of the rest. -/
theorem WellFormed.exists_push {a : Annotation} (h : a.WellFormed) : ∃ b c, a = push b c := by
  rcases List.eq_nil_or_concat a.rest.toList with hnil | ⟨r, c, hr⟩
  · have hhead := h.rest_head
    simp [hnil] at hhead
  · refine ⟨{ a with rest := String.ofList r }, c, ?_⟩
    have hrest : a.rest = (String.ofList r).push c := by
      refine String.toList_injective ?_
      rw [hr, String.toList_push, String.toList_ofList, List.concat_eq_append]
    rw [push, ← hrest]

/-- Whether and how a line is read does not depend on a carriage return at its end. -/
theorem parse?_push_return (line cwd : String) :
    parse? (line.push '\r') cwd = parse? line cwd := by
  refine Option.ext fun f => ?_
  rw [parse?_eq_some_iff, parse?_eq_some_iff]
  constructor
  · rintro ⟨a, ha, htext, hf⟩
    obtain ⟨b, c, rfl⟩ := ha.exists_push
    have hlist := congrArg String.toList htext
    rw [push_text, String.toList_push, String.toList_push] at hlist
    obtain ⟨hline, hc⟩ := List.append_inj' hlist rfl
    cases hc
    have hb := wellFormed_push_return.mp ha
    obtain ⟨g, -, hg⟩ := hb.parse?_text cwd
    rw [hf.unique hg.push_return]
    exact ⟨b, hb, String.toList_injective hline, hg⟩
  · rintro ⟨a, ha, rfl, hf⟩
    exact ⟨a.push '\r', wellFormed_push_return.mpr ha, a.push_text '\r', hf.push_return⟩

end Annotation

/-- Exactly the texts of well-formed annotations are read.  A line is the text of one at most, and
its finding is the one that the annotation reports. -/
theorem parse?_grammar (line cwd : String) :
    ((parse? line cwd).isSome = true ↔ ∃ a : Annotation, a.WellFormed ∧ a.text = line) ∧
      (∀ a b : Annotation, a.WellFormed ∧ a.text = line → b.WellFormed ∧ b.text = line → a = b) ∧
      ∀ a : Annotation, a.WellFormed ∧ a.text = line →
        ∃ f, parse? line cwd = some f ∧ a.Reports cwd f := by
  refine ⟨⟨?_, ?_⟩, ?_, ?_⟩
  · intro h
    obtain ⟨f, hf⟩ := Option.isSome_iff_exists.mp h
    exact Annotation.exists_of_parse? hf
  · rintro ⟨a, ha, rfl⟩
    obtain ⟨f, hf, -⟩ := ha.parse?_text cwd
    rw [hf]
    rfl
  · rintro a b ⟨ha, rfl⟩ ⟨hb, he⟩
    exact ha.eq_of_text_eq hb he.symm
  · rintro a ⟨ha, rfl⟩
    exact ha.parse?_text cwd

example : parse? "::error title=rule,file=./a.js,line=007,col=1::first:::last " "/work" =
    some ⟨"rule", "a.js", 7, "last"⟩ := by
  decide +kernel

end LintRatchet.ErrorLine
