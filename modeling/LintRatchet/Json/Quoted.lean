import LintRatchet.Json.Reader

/-!
# Reading quoted text

A quoted text ends at the first quote that is not escaped.  It holds no bare
control character.  An escape is a backslash and a letter, or `\u` and four
hexadecimal digits.  A character beyond `FFFF` takes two such escapes, a
leading and a trailing surrogate.  A surrogate that stands alone is no
character, so a text with one is malformed where it is read.  `skipQuoted`
passes over a text whose content does not matter and accepts any four digits.
-/

namespace LintRatchet.Json

/-! ## Escapes -/

/-- The value of a hexadecimal digit. -/
def hexValue? (c : Char) : Option Nat :=
  if '0' ≤ c && c ≤ '9' then some (c.toNat - 0x30)
  else if 'a' ≤ c && c ≤ 'f' then some (c.toNat - 0x61 + 10)
  else if 'A' ≤ c && c ≤ 'F' then some (c.toNat - 0x41 + 10)
  else none

/-- What is wrong with a text that does not start with four hexadecimal digits: it ends too early
when it holds fewer than four bytes. -/
def badHex (cs : List Char) : Problem :=
  if ((cs.take 4).foldl (fun n c => n + c.utf8Size) 0) < 4 then .truncated else .malformed

/-- Reads four hexadecimal digits. -/
def readHex (cs : List Char) : Except Problem (Nat × List Char) :=
  match cs with
  | a :: b :: c :: d :: rest =>
    match hexValue? a, hexValue? b, hexValue? c, hexValue? d with
    | some a, some b, some c, some d => .ok (((a * 16 + b) * 16 + c) * 16 + d, rest)
    | _, _, _, _ => .error (badHex cs)
  | _ => .error (badHex cs)

/-- The character that a letter after a backslash stands for. -/
def escaped? (c : Char) : Option Char :=
  if c = '"' || c = '\\' || c = '/' then some c
  else if c = 'b' then some '\x08'
  else if c = 'f' then some '\x0c'
  else if c = 'n' then some '\n'
  else if c = 'r' then some '\r'
  else if c = 't' then some '\t'
  else none

/-- Reads the trailing surrogate that must follow a leading one. -/
def readTrailing (high : Nat) (cs : List Char) : Except Problem (Char × List Char) :=
  match cs with
  | [] => .error .truncated
  | ['\\'] => .error .truncated
  | '\\' :: 'u' :: cs => do
    let (low, cs) ← readHex cs
    if 0xDC00 ≤ low && low ≤ 0xDFFF then
      return (Char.ofNat (0x10000 + (high - 0xD800) * 0x400 + (low - 0xDC00)), cs)
    else .error .malformed
  | _ => .error .malformed

/-- Reads the character of an escape, after the backslash. -/
def readEscape : List Char → Except Problem (Char × List Char)
  | [] => .error .truncated
  | 'u' :: cs => do
    let (n, cs) ← readHex cs
    if 0xDC00 ≤ n && n ≤ 0xDFFF then .error .malformed
    else if 0xD800 ≤ n && n ≤ 0xDBFF then readTrailing n cs
    else return (Char.ofNat n, cs)
  | c :: cs =>
    match escaped? c with
    | some c => .ok (c, cs)
    | none => .error .malformed

/-- Passes over an escape, after the backslash. -/
def skipEscape : List Char → Except Problem (List Char)
  | [] => .error .truncated
  | 'u' :: cs => do
    let (_, cs) ← readHex cs
    return cs
  | c :: cs => if (escaped? c).isSome then .ok cs else .error .malformed

/-! ## An escape shortens the text -/

theorem readHex_length {cs rest : List Char} {n : Nat} (h : readHex cs = .ok (n, rest)) :
    rest.length < cs.length := by
  unfold readHex at h
  split at h
  · split at h
    · simp only [Except.ok.injEq, Prod.mk.injEq] at h
      obtain ⟨-, rfl⟩ := h
      simp only [List.length_cons]
      omega
    · exact absurd h (by simp)
  · exact absurd h (by simp)

theorem readTrailing_length {high : Nat} {cs rest : List Char} {c : Char}
    (h : readTrailing high cs = .ok (c, rest)) : rest.length < cs.length := by
  unfold readTrailing at h
  split at h
  · exact absurd h (by simp)
  · exact absurd h (by simp)
  · next cs' =>
    cases hx : readHex cs' with
    | error p => simp [hx, bind, Except.bind] at h
    | ok r =>
      have : r.2.length < cs'.length := readHex_length hx
      simp only [hx, bind, Except.bind] at h
      split at h
      · simp only [pure, Except.pure, Except.ok.injEq, Prod.mk.injEq] at h
        obtain ⟨-, rfl⟩ := h
        simp only [List.length_cons]
        omega
      · exact absurd h (by simp)
  · exact absurd h (by simp)

theorem readEscape_length {cs rest : List Char} {c : Char}
    (h : readEscape cs = .ok (c, rest)) : rest.length < cs.length := by
  unfold readEscape at h
  split at h
  · exact absurd h (by simp)
  · next cs' =>
    cases hx : readHex cs' with
    | error p => simp [hx, bind, Except.bind] at h
    | ok r =>
      have hl : r.2.length < cs'.length := readHex_length hx
      simp only [hx, bind, Except.bind] at h
      split at h
      · exact absurd h (by simp)
      · split at h
        · have := readTrailing_length h
          simp only [List.length_cons]
          omega
        · simp only [pure, Except.pure, Except.ok.injEq, Prod.mk.injEq] at h
          obtain ⟨-, rfl⟩ := h
          simp only [List.length_cons]
          omega
  · split at h
    · simp only [Except.ok.injEq, Prod.mk.injEq] at h
      obtain ⟨-, rfl⟩ := h
      simp
    · exact absurd h (by simp)

theorem skipEscape_length {cs rest : List Char} (h : skipEscape cs = .ok rest) :
    rest.length < cs.length := by
  unfold skipEscape at h
  split at h
  · exact absurd h (by simp)
  · next cs' =>
    cases hx : readHex cs' with
    | error p => simp [hx, bind, Except.bind] at h
    | ok r =>
      have : r.2.length < cs'.length := readHex_length hx
      simp only [hx, bind, Except.bind, pure, Except.pure, Except.ok.injEq] at h
      subst h
      simp only [List.length_cons]
      omega
  · split at h
    · simp only [Except.ok.injEq] at h
      subst h
      simp
    · exact absurd h (by simp)

/-! ## Quoted text -/

/-- Reads the characters up to the closing quote, which it passes over.  `taken` holds the
characters read so far, the last one first. -/
def readChars (taken : List Char) (cs : List Char) : Except Problem (List Char × List Char) :=
  match cs with
  | [] => .error .truncated
  | c :: rest =>
    if c = '"' then .ok (taken.reverse, rest)
    else if c = '\\' then
      match _h : readEscape rest with
      | .ok (c, rest) => readChars (c :: taken) rest
      | .error p => .error p
    else if c.toNat < 0x20 then .error .malformed
    else readChars (c :: taken) rest
termination_by cs.length
decreasing_by
  · have := readEscape_length _h
    simp only [List.length_cons]
    omega
  · simp

/-- Reads a text after its opening quote. -/
def readQuoted : Reader String := fun cs => do
  let (chars, cs) ← readChars [] cs
  return (String.ofList chars, cs)

/-- Passes over a text after its opening quote. -/
def skipQuoted (cs : List Char) : Except Problem (List Char) :=
  match cs with
  | [] => .error .truncated
  | c :: rest =>
    if c = '"' then .ok rest
    else if c = '\\' then
      match _h : skipEscape rest with
      | .ok rest => skipQuoted rest
      | .error p => .error p
    else if c.toNat < 0x20 then .error .malformed
    else skipQuoted rest
termination_by cs.length
decreasing_by
  · have := skipEscape_length _h
    simp only [List.length_cons]
    omega
  · simp

end LintRatchet.Json
