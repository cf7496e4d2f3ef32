import LintRatchet.Json.Record

/-!
# Texts that a reader takes

`Reads r text a` says that the reader `r` takes the text off the front and makes
`a` of it.  Blank text may stand before it, and anything may follow that does
not go on with a number.  A number has no closing mark, so it is the only kind
of value that needs this.

`Spells piece cs` says the same of a piece of quoted text: it stands for the
characters `cs`, whatever was read before it and whatever follows.  So the
pieces of a text can be looked at one by one.

How a text comes about does not matter here.  A layout may write it, or somebody
by hand.
-/

namespace LintRatchet.Json

variable {α σ : Type}

/-! ## Blank text and what follows a value -/

/-- Text that may stand between tokens. -/
def Blank (gap : List Char) : Prop := ∀ c ∈ gap, isGap c = true

/-- The character would go on with a number. -/
def continuesNumber (c : Char) : Bool := c.isDigit || c = '.' || c = 'e' || c = 'E'

/-- The text does not go on with a number. -/
def Ends (rest : List Char) : Prop := ∀ c ∈ rest.head?, continuesNumber c = false

/-- The text starts with a character that is neither blank nor the end of an array. -/
def Starts (text : List Char) : Prop := ∃ c cs, text = c :: cs ∧ isGap c = false ∧ c ≠ ']'

theorem blank_nil : Blank [] := fun _ h => absurd h (List.not_mem_nil)

theorem blank_cons {c : Char} {gap : List Char} (hc : isGap c = true) (hg : Blank gap) :
    Blank (c :: gap) :=
  List.forall_mem_cons.mpr ⟨hc, hg⟩

theorem ends_nil : Ends [] := fun _ h => absurd h (by simp)

theorem ends_cons {c : Char} {cs : List Char} (h : continuesNumber c = false) : Ends (c :: cs) := by
  intro d hd
  obtain rfl : c = d := by simpa using hd
  exact h

theorem not_continuesNumber_of_isGap {c : Char} (h : isGap c = true) :
    continuesNumber c = false := by
  simp only [isGap, Bool.or_eq_true, decide_eq_true_eq] at h
  rcases h with ((rfl | rfl) | rfl) | rfl <;> decide

/-- Blank text does not go on with a number. -/
theorem Blank.ends_append {gap rest : List Char} (hg : Blank gap) (hr : Ends rest) :
    Ends (gap ++ rest) := by
  cases gap with
  | nil => exact hr
  | cons c gap => exact ends_cons (not_continuesNumber_of_isGap (hg c (List.mem_cons_self ..)))

/-- Blank text in front is passed over. -/
theorem skipGap_append {gap : List Char} (h : Blank gap) (cs : List Char) :
    skipGap (gap ++ cs) = skipGap cs := by
  induction gap with
  | nil => rfl
  | cons c gap ih =>
    have hc : isGap c = true := h c (List.mem_cons_self ..)
    have hgap : Blank gap := fun d hd => h d (List.mem_cons_of_mem _ hd)
    rw [List.cons_append, skipGap, List.dropWhile_cons_of_pos hc]
    exact ih hgap

theorem skipGap_cons {c : Char} (h : isGap c = false) (cs : List Char) :
    skipGap (c :: cs) = c :: cs :=
  List.dropWhile_cons_of_neg (by rw [h]; exact Bool.false_ne_true)

/-- Blank text before a token is passed over, up to the token. -/
theorem skipGap_blank_cons {gap : List Char} (hg : Blank gap) {c : Char} (hc : isGap c = false)
    (cs : List Char) : skipGap (gap ++ c :: cs) = c :: cs := by
  rw [skipGap_append hg, skipGap_cons hc]

/-! ## What it means to be read -/

/-- The reader takes the text off the front and makes `a` of it. -/
structure Reads (r : Reader α) (text : List Char) (a : α) : Prop where
  starts : Starts text
  read : ∀ gap rest, Blank gap → Ends rest → r (gap ++ (text ++ rest)) = .ok (a, rest)

/-- The whole text is the value, up to blank text around it. -/
theorem Reads.readAll {r : Reader α} {text gap gap' : List Char} {a : α} (h : Reads r text a)
    (hg : Blank gap) (hg' : Blank gap') :
    readAll r (String.ofList (gap ++ (text ++ gap'))) = .ok a := by
  have hend : Ends gap' := by simpa using hg'.ends_append ends_nil
  have hskip : skipGap gap' = [] := by simpa [skipGap] using skipGap_append hg' []
  rw [Json.readAll, String.toList_ofList, h.read gap gap' hg hend]
  simp [bind, Except.bind, hskip, pure, Except.pure]

/-! ## Quoted text -/

/-- Between quotes the piece stands for the given characters. -/
def Spells (piece cs : List Char) : Prop :=
  ∀ taken rest, readChars taken (piece ++ rest) = readChars (cs.reverse ++ taken) rest

/-- A character that needs no escape stands for itself. -/
theorem readChars_plain {c : Char} (hq : c ≠ '"') (hb : c ≠ '\\') (hc : 0x20 ≤ c.toNat)
    (taken rest : List Char) : readChars taken (c :: rest) = readChars (c :: taken) rest := by
  rw [readChars, if_neg hq, if_neg hb, if_neg (by omega)]

/-- An escape stands for the character that it is read as. -/
theorem readChars_escape {c : Char} {cs rest : List Char} (h : readEscape cs = .ok (c, rest))
    (taken : List Char) : readChars taken ('\\' :: cs) = readChars (c :: taken) rest := by
  rw [readChars, if_neg (by decide), if_pos rfl]
  split
  · next heq =>
    rw [h] at heq
    injection heq with heq
    injection heq with hc hr
    rw [hc, hr]
  · next heq =>
    rw [h] at heq
    cases heq

theorem spells_nil : Spells [] [] := fun _ _ => rfl

/-- Two pieces of quoted text stand for their characters one after the other. -/
theorem Spells.append {piece piece' cs cs' : List Char} (h : Spells piece cs)
    (h' : Spells piece' cs') : Spells (piece ++ piece') (cs ++ cs') := by
  intro taken rest
  rw [List.append_assoc, h, h', List.reverse_append, List.append_assoc]

theorem spells_plain {c : Char} (hq : c ≠ '"') (hb : c ≠ '\\') (hc : 0x20 ≤ c.toNat) :
    Spells [c] [c] :=
  fun taken rest => readChars_plain hq hb hc taken rest

/-- An escape stands for the character that it is read as, whatever follows. -/
theorem spells_escape {c : Char} {letters : List Char}
    (h : ∀ rest, readEscape (letters ++ rest) = .ok (c, rest)) : Spells ('\\' :: letters) [c] :=
  fun taken rest => readChars_escape (h rest) taken

/-- What spells a text is read as that text, up to the closing quote. -/
theorem Spells.readQuoted {piece : List Char} {s : String} (h : Spells piece s.toList)
    (rest : List Char) : readQuoted (piece ++ '"' :: rest) = .ok (s, rest) := by
  have hstop : readChars (s.toList.reverse ++ []) ('"' :: rest) = .ok (s.toList, rest) := by
    rw [readChars, if_pos rfl, List.append_nil, List.reverse_reverse]
  rw [Json.readQuoted, h [] ('"' :: rest), hstop]
  simp [bind, Except.bind, pure, Except.pure]

theorem Spells.readText {piece : List Char} {s : String} (h : Spells piece s.toList) :
    Reads readText ('"' :: (piece ++ ['"'])) s where
  starts := ⟨'"', _, rfl, by decide, by decide⟩
  read gap rest hg _ := by
    rw [List.cons_append, List.append_assoc, Json.readText, skipGap_blank_cons hg (by decide)]
    exact h.readQuoted rest

/-! ## Numbers -/

theorem isDigit_of_mem_digits {n : Nat} {c : Char} (h : c ∈ Nat.toDigits 10 n) :
    c.isDigit = true :=
  Nat.isDigit_of_mem_toDigits (by decide) (by decide) h

/-- A number is written without a zero in front, unless it is zero. -/
theorem head_digits_ne_zero {n : Nat} (h : n ≠ 0) : (Nat.toDigits 10 n).head? ≠ some '0' := by
  induction n using Nat.strongRecOn with
  | _ n ih =>
    rw [Nat.toDigits_eq_if (by decide)]
    split
    · next hlt =>
      intro heq
      have hv := congrArg (fun c => c.toNat - 48) (Option.some.inj heq)
      simp only [Nat.toNat_digitChar_sub_48_of_lt_ten hlt] at hv
      exact h hv
    · next hge =>
      have hq : n / 10 ≠ 0 := by omega
      have hrec := ih (n / 10) (by omega) hq
      cases hd : Nat.toDigits 10 (n / 10) with
      | nil => exact absurd hd Nat.toDigits_ne_nil
      | cons d ds =>
        rw [hd] at hrec
        exact hrec

/-- The value of the digits of a number is that number. -/
theorem digitsValue_digits (n : Nat) : digitsValue (Nat.toDigits 10 n) = n := by
  have h := Nat.ofDigitChars_ten_toDigits (n := n)
  rwa [Nat.ofDigitChars_eq_foldl] at h

/-- The text does not start with a digit. -/
def NoDigit (rest : List Char) : Prop := ∀ c ∈ rest.head?, c.isDigit = false

theorem Ends.noDigit {rest : List Char} (h : Ends rest) : NoDigit rest := by
  intro c hc
  have hends := h c hc
  simp only [continuesNumber, Bool.or_eq_false_iff] at hends
  exact hends.1.1.1

/-- Digits are read to the end of them. -/
theorem readDigits_append (p : Problem) {ds rest : List Char} (hne : ds ≠ [])
    (hd : ∀ c ∈ ds, c.isDigit = true) (hr : NoDigit rest) :
    readDigits p (ds ++ rest) = .ok (ds, rest) := by
  have hstop : rest.takeWhile Char.isDigit = [] ∧ rest.dropWhile Char.isDigit = rest := by
    cases rest with
    | nil => exact ⟨rfl, rfl⟩
    | cons c cs => simp [hr c rfl]
  obtain ⟨d, ds, rfl⟩ := List.exists_cons_of_ne_nil hne
  have hread : readDigits p (d :: ds ++ rest) =
      .ok ((d :: ds ++ rest).takeWhile Char.isDigit, (d :: ds ++ rest).dropWhile Char.isDigit) :=
    if_pos (hd d (List.mem_cons_self ..))
  rw [hread, List.takeWhile_append_of_pos hd, List.dropWhile_append_of_pos hd, hstop.1, hstop.2,
    List.append_nil]

/-- The digits of a number are read to their end, and no zero stands in front. -/
theorem readWhole_digits (p : Problem) (n : Nat) {rest : List Char} (hr : Ends rest) :
    readWhole p (Nat.toDigits 10 n ++ rest) = .ok (Nat.toDigits 10 n, rest) := by
  have hfirst : ¬((Nat.toDigits 10 n).head? = some '0' ∧ (Nat.toDigits 10 n).length ≠ 1) := by
    rintro ⟨hz, hl⟩
    by_cases hn : n = 0
    · subst hn
      exact hl rfl
    · exact head_digits_ne_zero hn hz
  have hread := readDigits_append p Nat.toDigits_ne_nil (fun _ => isDigit_of_mem_digits (n := n))
    hr.noDigit
  simp only [readWhole, hread, bind, Except.bind]
  rw [if_neg (by simpa using hfirst)]
  rfl

theorem readFraction_of_ends (p : Problem) {rest : List Char} (hr : Ends rest) :
    readFraction p rest = .ok ([], rest) := by
  unfold readFraction
  split
  · exact absurd (hr '.' rfl) (by decide)
  · rfl

theorem readExponent_of_ends (p : Problem) {rest : List Char} (hr : Ends rest) :
    readExponent p rest = .ok (none, rest) := by
  cases rest with
  | nil => rfl
  | cons c cs =>
    have hc := hr c rfl
    simp only [continuesNumber, Bool.or_eq_false_iff, decide_eq_false_iff_not] at hc
    simp [readExponent, hc.1.2, hc.2]

/-- A number in digits is taken with its digits, and nothing more. -/
theorem scanNumeral_digits (p : Problem) (n : Nat) {rest : List Char} (hr : Ends rest) :
    scanNumeral p (Nat.toDigits 10 n ++ rest) = .ok (.ofNat n, rest) := by
  have hsign : ∀ cs, Nat.toDigits 10 n ++ rest ≠ '-' :: cs := by
    intro cs heq
    cases hd : Nat.toDigits 10 n with
    | nil => exact Nat.toDigits_ne_nil hd
    | cons d ds =>
      have hdig : d.isDigit = true := isDigit_of_mem_digits (n := n) (by rw [hd]; simp)
      rw [hd, List.cons_append] at heq
      obtain ⟨rfl, -⟩ := List.cons.inj heq
      exact absurd hdig (by decide)
  unfold scanNumeral
  split
  next negative cs hm =>
    split at hm
    · next heq => exact absurd heq (hsign _)
    · obtain ⟨rfl, rfl⟩ := Prod.mk.inj hm
      simp only [readWhole_digits p n hr, bind, Except.bind, readFraction_of_ends p hr,
        readExponent_of_ends p hr]
      rfl

/-- A number below `2 ^ 64` that is written in digits only is not rounded. -/
theorem readNumeral_count (n : UInt32) {rest : List Char} (hr : Ends rest) :
    readNumeral (Nat.toDigits 10 n.toNat ++ rest) = .ok (.ofNat n.toNat, rest) := by
  have hlt : n.toNat < Nat.pow 2 64 := Nat.lt_of_lt_of_le n.toNat_lt_size (by decide)
  have hfinite : (Numeral.ofNat n.toNat).isFinite = true := by
    simp [Numeral.isFinite, Numeral.isWord, Numeral.isPlain, Numeral.ofNat, digitsValue_digits,
      hlt]
  simp only [readNumeral, scanNumeral_digits .truncated n.toNat hr, bind, Except.bind, hfinite,
    if_true, pure, Except.pure]

/-- A count is taken back from its digits. -/
theorem toUInt32?_ofNat (n : UInt32) : (Numeral.ofNat n.toNat).toUInt32? = some n := by
  have hlt : n.toNat < UInt32.size := n.toNat_lt_size
  simp [Numeral.toUInt32?, Numeral.ofNat, Numeral.isPlain, digitsValue_digits, hlt]

/-- What a number starts with. -/
theorem exists_digit (n : Nat) : ∃ d ds, Nat.toDigits 10 n = d :: ds ∧ d.isDigit = true ∧
    isGap d = false := by
  cases hd : Nat.toDigits 10 n with
  | nil => exact absurd hd Nat.toDigits_ne_nil
  | cons d ds =>
    have hdig : d.isDigit = true := isDigit_of_mem_digits (n := n) (by rw [hd]; simp)
    refine ⟨d, ds, rfl, hdig, ?_⟩
    rw [Bool.eq_false_iff]
    intro hgap
    have := not_continuesNumber_of_isGap hgap
    simp [continuesNumber, hdig] at this

theorem starts_digits (n : Nat) : Starts (Nat.toDigits 10 n) := by
  obtain ⟨d, ds, heq, hdig, hgap⟩ := exists_digit n
  refine ⟨d, ds, heq, hgap, ?_⟩
  rintro rfl
  exact absurd hdig (by decide)

/-- A count in digits. -/
theorem reads_count (n : UInt32) : Reads readCount (Nat.toDigits 10 n.toNat) n where
  starts := starts_digits n.toNat
  read gap rest hg hr := by
    obtain ⟨d, ds, heq, hdig, hgap⟩ := exists_digit n.toNat
    have hread := readNumeral_count n hr
    rw [heq, List.cons_append] at hread ⊢
    rw [readCount, skipGap_blank_cons hg hgap]
    simp only [hdig, Bool.or_true, if_true, hread, bind, Except.bind, toUInt32?_ofNat, pure,
      Except.pure]

end LintRatchet.Json
