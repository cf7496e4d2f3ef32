import LintRatchet.Finding
import LintRatchet.SourcePath
import LintRatchet.Text.Blank

/-!
# Error lines

A linter reports a finding as one *annotation line*:

    ::error title=RULE,file=FILE,line=LINE REST

where `RULE` and `FILE` hold no comma and are not empty, and `LINE` is a number
in ASCII digits.  `REST` starts with a comma or a colon, holds no line feed and
contains `::`.  What follows its last `::` is the message, and what comes before
it is ignored.  The format has no escapes.

`parse?` reads such a line and `render` writes one.  Everything that does not
have this form is no annotation and is passed over.  The pattern that stands
behind the form could be matched in several ways, but it leaves no choice to one
who reads from left to right and looks for the last `::`.
-/

namespace LintRatchet.ErrorLine

/-! ## Pieces of a line -/

/-- The beginning of every line that carries an error. -/
def marker : List Char := "::error".toList

/-- What is left of a text after a fixed beginning. -/
def afterLiteral? (literal text : List Char) : Option (List Char) :=
  if literal.isPrefixOf text then some (text.drop literal.length) else none

/-- A field that is not empty and ends before the next comma, and what is left. -/
def field? (text : List Char) : Option (List Char × List Char) :=
  match text.takeWhile (· != ',') with
  | [] => none
  | value => some (value, text.dropWhile (· != ','))

/-- The value of decimal digits. -/
def decimal (digits : List Char) : Nat :=
  digits.foldl (fun n c => 10 * n + (c.toNat - '0'.toNat)) 0

/-- The line number that digits stand for: at least one of them, and between 1 and `2 ^ 32 - 1`. -/
def lineNumber? (digits : List Char) : Option UInt32 :=
  let n := decimal digits
  if digits ≠ [] && 1 ≤ n && n < UInt32.size then some (UInt32.ofNat n) else none

/-- What follows the last `::` of a text. -/
def afterLastColons? : List Char → Option (List Char)
  | [] => none
  | c :: cs =>
    match afterLastColons? cs with
    | some message => some message
    | none =>
      match c, cs with
      | ':', ':' :: message => some message
      | _, _ => none

/-- The message of what follows the line number, trimmed. -/
def message? (rest : List Char) : Option (List Char) :=
  if (rest.head? = some ',' || rest.head? = some ':') && !rest.contains '\n' then
    (afterLastColons? rest).map Text.trim
  else none

/-! ## Reading and writing a line -/

/-- The finding of an annotation line reported from the directory `cwd`. -/
def parseChars? (line cwd : List Char) : Option Finding := do
  let text ← afterLiteral? "::error title=".toList line
  let (rule, text) ← field? text
  let text ← afterLiteral? ",file=".toList text
  let (file, text) ← field? text
  let text ← afterLiteral? ",line=".toList text
  let number ← lineNumber? (text.takeWhile Char.isDigit)
  let message ← message? (text.dropWhile Char.isDigit)
  return {
    rule := String.ofList rule
    file := String.ofList (SourcePath.normalizeChars file cwd)
    line := number
    message := String.ofList message }

/-- The finding of an annotation line reported from the directory `cwd`. -/
def parse? (line cwd : String) : Option Finding := parseChars? line.toList cwd.toList

/-- The annotation line of a finding, with an end line and columns as linters write them. -/
def render (f : Finding) : String :=
  "::error title=" ++ f.rule ++ ",file=" ++ f.file ++ ",line=" ++ toString f.line.toNat ++
    ",endLine=" ++ toString f.line.toNat ++ ",col=1,endColumn=2::" ++ f.message

end LintRatchet.ErrorLine
