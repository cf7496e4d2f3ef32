import LintRatchet.Proofs.Json.Reading
import LintRatchet.Text.Split
import Mathlib.Data.List.Forall2

/-!
# The grammar of JSON texts

What RFC 8259 calls a JSON text, as relations on characters.  They do not
mention any reader.

`Spelling piece cs` says that the piece stands for the characters `cs` between
quotes.  Each character may be spelled in several ways, and one beyond `FFFF` by
a pair of surrogates.  `StringBody` asks only for the form, so it has room for
surrogates that stand alone.

`IsValue` is a value of any kind, nested as deep as it likes.  An array is
written as items with commas between them, and an object as members.  What is
blank around them is kept in `ItemText` and `MemberText`.

`StringText`, `ListText` and `RecordText` are the texts that stand for one
value.  Those of a record may have members that it knows nothing of.
-/

namespace LintRatchet.Json

/-! ## Quoted text -/

/-- Four hexadecimal digits and their value. -/
inductive Hex4 : List Char → Nat → Prop
  | mk {a b c d : Char} {x y z w : Nat} :
      hexValue? a = some x → hexValue? b = some y → hexValue? c = some z → hexValue? d = some w →
      Hex4 [a, b, c, d] (((x * 16 + y) * 16 + z) * 16 + w)

/-- A piece of quoted text and the characters that it stands for. -/
inductive Spelling : List Char → List Char → Prop
  | nil : Spelling [] []
  /-- The character itself. -/
  | plain {c : Char} {piece cs : List Char} :
      c ≠ '"' → c ≠ '\\' → 0x20 ≤ c.toNat → Spelling piece cs → Spelling (c :: piece) (c :: cs)
  /-- A backslash and a letter. -/
  | letter {letter c : Char} {piece cs : List Char} :
      escaped? letter = some c → Spelling piece cs → Spelling ('\\' :: letter :: piece) (c :: cs)
  /-- The number of the character. -/
  | number {ds piece cs : List Char} {n : Nat} :
      Hex4 ds n → ¬(0xD800 ≤ n ∧ n ≤ 0xDFFF) → Spelling piece cs →
      Spelling ('\\' :: 'u' :: (ds ++ piece)) (Char.ofNat n :: cs)
  /-- A leading and a trailing surrogate. -/
  | pair {ds ds' piece cs : List Char} {high low : Nat} :
      Hex4 ds high → 0xD800 ≤ high ∧ high ≤ 0xDBFF → Hex4 ds' low → 0xDC00 ≤ low ∧ low ≤ 0xDFFF →
      Spelling piece cs →
      Spelling ('\\' :: 'u' :: (ds ++ '\\' :: 'u' :: (ds' ++ piece)))
        (Char.ofNat (0x10000 + (high - 0xD800) * 0x400 + (low - 0xDC00)) :: cs)

/-- Characters that need no escape stand for themselves. -/
theorem spelling_self {cs : List Char}
    (h : (cs.all fun c => c ≠ '"' && c ≠ '\\' && 0x20 ≤ c.toNat) = true) : Spelling cs cs := by
  induction cs with
  | nil => exact .nil
  | cons c cs ih =>
    simp only [List.all_cons, Bool.and_eq_true, decide_eq_true_eq] at h
    obtain ⟨⟨⟨hq, hb⟩, hc⟩, hrest⟩ := h
    exact .plain hq hb hc (ih hrest)

/-- What may stand between quotes. -/
inductive StringBody : List Char → Prop
  | nil : StringBody []
  | plain {c : Char} {cs : List Char} :
      c ≠ '"' → c ≠ '\\' → 0x20 ≤ c.toNat → StringBody cs → StringBody (c :: cs)
  | letter {letter : Char} {cs : List Char} :
      (escaped? letter).isSome = true → StringBody cs → StringBody ('\\' :: letter :: cs)
  | number {ds cs : List Char} {n : Nat} :
      Hex4 ds n → StringBody cs → StringBody ('\\' :: 'u' :: (ds ++ cs))

/-! ## Numbers -/

/-- One or more digits. -/
structure Digits (cs : List Char) : Prop where
  nonempty : cs ≠ []
  digits : ∀ c ∈ cs, c.isDigit = true

/-- The digits before the point.  A zero stands alone. -/
inductive IsWhole : List Char → Prop
  | zero : IsWhole ['0']
  | digits {cs : List Char} : Digits cs → cs.head? ≠ some '0' → IsWhole cs

/-- A point and the digits after it, or nothing. -/
inductive IsFraction : List Char → Prop
  | absent : IsFraction []
  | digits {cs : List Char} : Digits cs → IsFraction ('.' :: cs)

/-- The exponent with its sign, or nothing. -/
inductive IsExponent : List Char → Prop
  | absent : IsExponent []
  | digits {e : Char} {sign cs : List Char} :
      e = 'e' ∨ e = 'E' → sign = [] ∨ sign = ['+'] ∨ sign = ['-'] → Digits cs →
      IsExponent (e :: (sign ++ cs))

/-- A number with all its parts. -/
inductive IsNumber : List Char → Prop
  | mk {sign whole fraction exponent : List Char} :
      sign = [] ∨ sign = ['-'] → IsWhole whole → IsFraction fraction → IsExponent exponent →
      IsNumber (sign ++ (whole ++ (fraction ++ exponent)))

/-! ## Values -/

/-- A value among others in an array, with what is blank around it. -/
structure ItemText where
  before : List Char
  value : List Char
  after : List Char
  blank_before : Blank before
  blank_after : Blank after

/-- An item with what is blank around it. -/
def ItemText.text (i : ItemText) : List Char := i.before ++ (i.value ++ i.after)

/-- A member of an object, with what is blank in it and around it.  The name is what stands between
its quotes. -/
structure MemberText where
  before : List Char
  name : List Char
  beforeColon : List Char
  afterColon : List Char
  value : List Char
  after : List Char
  blank_before : Blank before
  blank_beforeColon : Blank beforeColon
  blank_afterColon : Blank afterColon
  blank_after : Blank after

/-- A member from right after the opening quote of its name to the end of its value. -/
def MemberText.core (m : MemberText) : List Char :=
  m.name ++ '"' :: (m.beforeColon ++ ':' :: (m.afterColon ++ m.value))

/-- A member with what is blank around it. -/
def MemberText.text (m : MemberText) : List Char := m.before ++ '"' :: (m.core ++ m.after)

/-- The items of an array, up to the closing bracket. -/
def itemsText (items : List ItemText) : List Char :=
  Text.join ',' (items.map ItemText.text) ++ [']']

/-- The members of an object, up to the closing bracket. -/
def membersText (members : List MemberText) : List Char :=
  Text.join ',' (members.map MemberText.text) ++ ['\x7d']

/-- A value of any kind. -/
inductive IsValue : List Char → Prop
  | null : IsValue ['n', 'u', 'l', 'l']
  | true : IsValue ['t', 'r', 'u', 'e']
  | false : IsValue ['f', 'a', 'l', 's', 'e']
  | string {cs : List Char} : StringBody cs → IsValue ('"' :: (cs ++ ['"']))
  | number {cs : List Char} : IsNumber cs → IsValue cs
  | emptyArray {gap : List Char} : Blank gap → IsValue ('[' :: (gap ++ [']']))
  | array {items : List ItemText} :
      items ≠ [] → (∀ i ∈ items, IsValue i.value) → IsValue ('[' :: itemsText items)
  | emptyObject {gap : List Char} : Blank gap → IsValue ('\x7b' :: (gap ++ ['\x7d']))
  | object {members : List MemberText} :
      members ≠ [] → (∀ m ∈ members, StringBody m.name) → (∀ m ∈ members, IsValue m.value) →
      IsValue ('\x7b' :: membersText members)

/-! ## Values of one kind -/

/-- A text, between quotes. -/
inductive StringText (s : String) : List Char → Prop
  | mk {piece : List Char} : Spelling piece s.toList → StringText s ('"' :: (piece ++ ['"']))

/-- An array whose items are texts of the given values, in this order. -/
inductive ListText {α : Type} (itemText : α → List Char → Prop) : List α → List Char → Prop
  | empty {gap : List Char} : Blank gap → ListText itemText [] ('[' :: (gap ++ [']']))
  | items {items : List ItemText} {as : List α} :
      items ≠ [] → List.Forall₂ (fun a (i : ItemText) => itemText a i.value) as items →
      ListText itemText as ('[' :: itemsText items)

/-- A field of a record: its name and which texts stand for its value. -/
structure FieldText where
  name : String
  text : List Char → Prop

/-- An object that has each of the fields once, in whatever order, and any other members among
them. -/
inductive RecordText (fields : List FieldText) : List Char → Prop
  | mk {members : List (String × MemberText)} :
      (∀ m ∈ members, Spelling m.2.name m.1.toList) →
      (∀ f ∈ fields, ∃ m, (members.filter fun m => m.1 = f.name) = [m] ∧ f.text m.2.value) →
      (∀ m ∈ members, m.1 ∉ fields.map FieldText.name → IsValue m.2.value) →
      RecordText fields ('\x7b' :: membersText (members.map Prod.snd))

/-! ## Reading by the grammar -/

theorem Hex4.readHex {ds : List Char} {n : Nat} (h : Hex4 ds n) (rest : List Char) :
    readHex (ds ++ rest) = .ok (n, rest) := by
  obtain ⟨ha, hb, hc, hd⟩ := h
  simp only [List.cons_append, List.nil_append, Json.readHex, ha, hb, hc, hd]

/-- An escape by a letter is read as the character that the letter stands for. -/
theorem readEscape_letter {letter c : Char} (h : escaped? letter = some c) (rest : List Char) :
    readEscape (letter :: rest) = .ok (c, rest) := by
  unfold readEscape
  split
  · next heq => cases heq
  · next heq =>
    cases heq
    have hu : escaped? 'u' = none := by decide
    rw [hu] at h
    cases h
  · next heq =>
    cases heq
    rw [h]

/-- An escape by a number is read as the character of that number. -/
theorem Hex4.readEscape {ds : List Char} {n : Nat} (h : Hex4 ds n)
    (hn : ¬(0xD800 ≤ n ∧ n ≤ 0xDFFF)) (rest : List Char) :
    readEscape ('u' :: (ds ++ rest)) = .ok (Char.ofNat n, rest) := by
  simp only [Json.readEscape, h.readHex, bind, Except.bind]
  rw [if_neg (by simp; omega), if_neg (by simp; omega)]
  rfl

/-- A leading and a trailing surrogate are read as one character. -/
theorem Hex4.readEscape_pair {ds ds' : List Char} {high low : Nat} (h : Hex4 ds high)
    (hhigh : 0xD800 ≤ high ∧ high ≤ 0xDBFF) (h' : Hex4 ds' low)
    (hlow : 0xDC00 ≤ low ∧ low ≤ 0xDFFF) (rest : List Char) :
    Json.readEscape ('u' :: (ds ++ '\\' :: 'u' :: (ds' ++ rest))) =
      .ok (Char.ofNat (0x10000 + (high - 0xD800) * 0x400 + (low - 0xDC00)), rest) := by
  simp only [Json.readEscape, h.readHex, bind, Except.bind]
  rw [if_neg (by simp; omega), if_pos (by simpa using hhigh)]
  simp only [readTrailing, h'.readHex, bind, Except.bind]
  rw [if_pos (by simpa using hlow)]
  rfl

/-- What is spelled is read. -/
theorem Spelling.spells {piece cs : List Char} (h : Spelling piece cs) : Spells piece cs := by
  induction h with
  | nil => exact spells_nil
  | plain hq hb hc _ ih => exact (spells_plain hq hb hc).append ih
  | @letter letter c piece cs hletter _ ih =>
    have hchar : Spells ['\\', letter] [c] := spells_escape (readEscape_letter hletter)
    exact hchar.append ih
  | @number ds piece cs n hds hn _ ih =>
    have hchar : Spells ('\\' :: 'u' :: ds) [Char.ofNat n] := spells_escape (hds.readEscape hn)
    exact hchar.append ih
  | @pair ds ds' piece cs high low hds hhigh hds' hlow _ ih =>
    have hchar : Spells ('\\' :: 'u' :: (ds ++ '\\' :: 'u' :: ds')) _ :=
      spells_escape fun rest => by
        simpa only [List.cons_append, List.append_assoc] using
          hds.readEscape_pair hhigh hds' hlow rest
    simpa only [List.cons_append, List.append_assoc, List.nil_append] using hchar.append ih

theorem skipQuoted_plain {c : Char} (hq : c ≠ '"') (hb : c ≠ '\\') (hc : 0x20 ≤ c.toNat)
    (rest : List Char) : skipQuoted (c :: rest) = skipQuoted rest := by
  rw [skipQuoted, if_neg hq, if_neg hb, if_neg (by omega)]

theorem skipQuoted_escape {cs rest : List Char} (h : skipEscape cs = .ok rest) :
    skipQuoted ('\\' :: cs) = skipQuoted rest := by
  rw [skipQuoted, if_neg (by decide), if_pos rfl]
  split
  · next heq =>
    rw [h] at heq
    cases heq
    rfl
  · next heq =>
    rw [h] at heq
    cases heq

/-- An escape by a letter is passed over. -/
theorem skipEscape_letter {letter : Char} (h : (escaped? letter).isSome = true)
    (rest : List Char) : skipEscape (letter :: rest) = .ok rest := by
  unfold skipEscape
  split
  · next heq => cases heq
  · next heq =>
    cases heq
    exact absurd h (by decide)
  · next heq =>
    cases heq
    rw [if_pos h]

/-- What may stand between quotes is passed over, with the closing quote. -/
theorem StringBody.skipQuoted {cs : List Char} (h : StringBody cs) (rest : List Char) :
    skipQuoted (cs ++ '"' :: rest) = .ok rest := by
  induction h with
  | nil => rw [List.nil_append, Json.skipQuoted, if_pos rfl]
  | plain hq hb hc _ ih => rw [List.cons_append, skipQuoted_plain hq hb hc, ih]
  | letter hletter _ ih =>
    rw [List.cons_append, List.cons_append, skipQuoted_escape (skipEscape_letter hletter _), ih]
  | @number ds cs n hds _ ih =>
    have hskip : skipEscape ('u' :: (ds ++ (cs ++ '"' :: rest))) = .ok (cs ++ '"' :: rest) := by
      simp only [skipEscape, hds.readHex, bind, Except.bind, pure, Except.pure]
    rw [List.cons_append, List.cons_append, List.append_assoc, skipQuoted_escape hskip, ih]

/-! ## Reading numbers by the grammar -/

variable {rest : List Char}

/-- The digits before the point are read to their end. -/
theorem IsWhole.readWhole {whole : List Char} (h : IsWhole whole) (hr : NoDigit rest)
    (p : Problem) : readWhole p (whole ++ rest) = .ok (whole, rest) := by
  cases h with
  | zero =>
    have hdigits : ∀ c ∈ ['0'], c.isDigit = true := fun c hc => List.mem_singleton.mp hc ▸ rfl
    have hread := readDigits_append p (List.cons_ne_nil '0' []) hdigits hr
    simp only [Json.readWhole, hread, bind, Except.bind]
    rfl
  | digits hds hzero =>
    have hread := readDigits_append p hds.nonempty hds.digits hr
    simp only [Json.readWhole, hread, bind, Except.bind]
    rw [if_neg (by simp [hzero])]
    rfl

theorem IsFraction.readFraction {fraction : List Char} (h : IsFraction fraction)
    (hr : NoDigit rest) (hpoint : rest.head? ≠ some '.') (p : Problem) :
    ∃ ds, readFraction p (fraction ++ rest) = .ok (ds, rest) := by
  cases h with
  | absent =>
    refine ⟨[], ?_⟩
    rw [List.nil_append]
    unfold Json.readFraction
    split
    · exact absurd rfl hpoint
    · rfl
  | @digits ds hds => exact ⟨ds, readDigits_append p hds.nonempty hds.digits hr⟩

/-- An exponent is read to its end, with a sign or without one. -/
theorem IsExponent.readExponent {exponent : List Char} (h : IsExponent exponent) (hr : Ends rest)
    (p : Problem) : ∃ n, readExponent p (exponent ++ rest) = .ok (n, rest) := by
  cases h with
  | absent => exact ⟨none, readExponent_of_ends p hr⟩
  | @digits e sign ds he hsign hds =>
    have hread := readDigits_append p hds.nonempty hds.digits hr.noDigit
    obtain ⟨d, ds, rfl⟩ := List.exists_cons_of_ne_nil hds.nonempty
    have hdigit := hds.digits d (List.mem_cons_self ..)
    have hunsigned : ∀ {c : Char} {cs : List Char}, c.isDigit = false →
        d :: ds ++ rest ≠ c :: cs := by
      rintro c cs hc ⟨⟩
      rw [hdigit] at hc
      cases hc
    have hmark : (decide (e = 'e') || decide (e = 'E')) = true := by simpa using he
    rw [List.cons_append, List.append_assoc]
    unfold Json.readExponent
    simp only [hmark, if_true]
    rcases hsign with rfl | rfl | rfl
    · rw [List.nil_append]
      split
      · next heq => exact absurd heq (hunsigned (by decide))
      · next heq => exact absurd heq (hunsigned (by decide))
      · simp only [hread, bind, Except.bind]
        exact ⟨_, rfl⟩
    · simp only [List.singleton_append, hread, bind, Except.bind]
      exact ⟨_, rfl⟩
    · simp only [List.singleton_append, hread, bind, Except.bind]
      exact ⟨_, rfl⟩

/-! What comes after the digits of a number is none of them. -/

theorem IsExponent.head {exponent : List Char} (h : IsExponent exponent) (hr : Ends rest) :
    NoDigit (exponent ++ rest) ∧ (exponent ++ rest).head? ≠ some '.' := by
  cases h with
  | absent =>
    refine ⟨hr.noDigit, fun hpoint => ?_⟩
    have hends := hr '.' hpoint
    cases hends
  | digits he =>
    rcases he with rfl | rfl <;>
    · refine ⟨?_, nofun⟩
      rintro c ⟨⟩
      rfl

/-- A fraction starts with its point, and without one there is what follows. -/
theorem IsFraction.noDigit {fraction : List Char} (h : IsFraction fraction) (hr : NoDigit rest) :
    NoDigit (fraction ++ rest) := by
  cases h with
  | absent => exact hr
  | digits _ =>
    rintro c ⟨⟩
    rfl

theorem IsWhole.exists_digit {whole : List Char} (h : IsWhole whole) :
    ∃ d ds, whole = d :: ds ∧ d.isDigit = true := by
  cases h with
  | zero => exact ⟨'0', [], rfl, rfl⟩
  | digits hds _ =>
    obtain ⟨d, ds, rfl⟩ := List.exists_cons_of_ne_nil hds.nonempty
    exact ⟨d, ds, rfl, hds.digits d (List.mem_cons_self ..)⟩

/-- A number is read to its end. -/
theorem IsNumber.scanNumeral {cs : List Char} (h : IsNumber cs) (hr : Ends rest) (p : Problem) :
    ∃ n, scanNumeral p (cs ++ rest) = .ok (n, rest) := by
  obtain @⟨sign, whole, fraction, exponent, hsign, hwhole, hfraction, hexponent⟩ := h
  obtain ⟨hafter, hpoint⟩ := hexponent.head hr
  have hreadWhole := hwhole.readWhole (hfraction.noDigit hafter) p
  obtain ⟨ds, hreadFraction⟩ := hfraction.readFraction hafter hpoint p
  obtain ⟨n, hreadExponent⟩ := hexponent.readExponent hr p
  obtain ⟨d, rest', rfl, hdigit⟩ := hwhole.exists_digit
  simp only [List.append_assoc]
  unfold Json.scanNumeral
  split
  next negative after hm =>
    have hunsigned : after = d :: rest' ++ (fraction ++ (exponent ++ rest)) := by
      rcases hsign with rfl | rfl
      · split at hm
        · next heq =>
          cases heq
          cases hdigit
        · cases hm
          rfl
      · cases hm
        rfl
    subst hunsigned
    simp only [hreadWhole, hreadFraction, hreadExponent, bind, Except.bind]
    exact ⟨_, rfl⟩

end LintRatchet.Json
