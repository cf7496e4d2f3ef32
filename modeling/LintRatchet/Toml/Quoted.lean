import LintRatchet.Json.Quoted
import LintRatchet.Toml.Lexical

/-!
# Quoted texts

There are four kinds.  A *basic* text stands between double quotes and has
escapes, a *literal* one stands between single quotes and has none.  Each of
them may stand between three quotes instead of one and then runs over several
lines.  A line feed right after the opening quotes does not count, and a
carriage return before a line feed never does.  Up to two quotes may stand before
the three closing ones.
-/

namespace LintRatchet.Toml

/-- The character with a code point, unless it is a surrogate or too large. -/
def scalar? (n : Nat) : Option Char := if n.isValidChar then some (Char.ofNat n) else none

/-- The value of hexadecimal digits. -/
def hexValue? (cs : List Char) : Option Nat := do
  let digits ← cs.mapM Json.hexValue?
  return digits.foldl (fun n d => n * 16 + d) 0

/-- Reads the hexadecimal digits of an escape. -/
def readCodePoint (count : Nat) : Reader Char := fun cs => do
  if (cs.take count).length ≠ count then none
  else
    let c ← scalar? (← hexValue? (cs.take count))
    return (c, cs.drop count)

/-- Reads an escape after the backslash. -/
def readEscape : Reader Char
  | [] => none
  | c :: cs =>
    if c = 'b' then some ('\x08', cs)
    else if c = 'f' then some ('\x0c', cs)
    else if c = 'n' then some ('\n', cs)
    else if c = 'r' then some ('\r', cs)
    else if c = 't' then some ('\t', cs)
    else if c = '"' || c = '\\' then some (c, cs)
    else if c = 'u' then readCodePoint 4 cs
    else if c = 'U' then readCodePoint 8 cs
    else none

/-- Reads a basic text after its opening quote.  `taken` holds the characters read so far, the last
one first. -/
def readBasic : (turns taken : List Char) → Reader String
  | [], _, _ => none
  | _, _, [] => none
  | _ :: turns, taken, c :: cs =>
    if c = '"' then some (String.ofList taken.reverse, cs)
    else if c = '\\' then do
      let (e, cs) ← readEscape cs
      readBasic turns (e :: taken) cs
    else if isPrintable c then readBasic turns (c :: taken) cs
    else none

/-- Reads a literal text after its opening quote. -/
def readLiteral (cs : List Char) : Option (String × List Char) :=
  let isInner := fun c => isPrintable c && c ≠ '\''
  match cs.dropWhile isInner with
  | '\'' :: rest => some (String.ofList (cs.takeWhile isInner), rest)
  | _ => none

/-- A text without the line end that it starts with. -/
def dropNewline (cs : List Char) : List Char := (newline? cs).getD cs

/-- Passes over a line end that is escaped, and the blanks and line ends around it. -/
def escapedNewline? (cs : List Char) : Option (List Char) := do
  let cs ← newline? (skipBlanks cs)
  let isVoid := fun c => isBlank c || c = '\n'
  let rec skip : List Char → List Char
    | '\r' :: '\n' :: cs => skip cs
    | c :: cs => if isVoid c then skip cs else c :: cs
    | [] => []
  return skip cs

/-- Reads a text over several lines, after its opening quotes. -/
def readLong (quote : Char) (escapes : Bool) : (turns taken : List Char) → Reader String
  | [], _, _ => none
  | _, _, [] => none
  | _ :: turns, taken, c :: cs =>
    if c = quote then
      let count := ((c :: cs).takeWhile (· = quote)).length
      if count < 3 then
        readLong quote escapes turns (List.replicate count quote ++ taken) ((c :: cs).drop count)
      else
        let inner := min (count - 3) 2
        some (String.ofList (List.replicate inner quote ++ taken).reverse,
          (c :: cs).drop (inner + 3))
    else if escapes && c = '\\' then
      match escapedNewline? cs with
      | some cs => readLong quote escapes turns taken cs
      | none => do
        let (e, cs) ← readEscape cs
        readLong quote escapes turns (e :: taken) cs
    else
      match newline? (c :: cs) with
      | some cs => readLong quote escapes turns ('\n' :: taken) cs
      | none => if isPrintable c then readLong quote escapes turns (c :: taken) cs else none

/-- Reads a quoted text on one line. -/
def readShortText : Reader String
  | '"' :: cs => readBasic cs [] cs
  | '\'' :: cs => readLiteral cs
  | _ => none

/-- Reads a quoted text, which goes over lines between three quotes. -/
def readText : Reader String
  | '"' :: '"' :: '"' :: cs => readLong '"' true cs [] (dropNewline cs)
  | '\'' :: '\'' :: '\'' :: cs => readLong '\'' false cs [] (dropNewline cs)
  | cs => readShortText cs

end LintRatchet.Toml
