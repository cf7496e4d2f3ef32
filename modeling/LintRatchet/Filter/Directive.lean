import LintRatchet.Journal
import LintRatchet.Pattern.Reader
import LintRatchet.Text.Cut
import LintRatchet.Text.Split

/-!
# Directives

A directive has a level, or is off, and may say of which events it speaks: those
of the parts of the program whose target starts with a name, and those that have
a field of some name.  One that asks for a span or for the value of a field
speaks only of the inside of spans, which this program does not have.

A directive is written as a target, then in brackets the name of a span and in
braces a field, then `=` and a level, and each of these may be left out.  A word
alone is a level if it is the name of one, and else a target.  A level is a name
in any case or a number from `0` for off to `5`.  The value of a field is a
number or a pattern.

Blank characters around a directive do not count when its parts are found.  But
the parts are then cut out of the whole word at the positions found, so blank
characters before a directive shift all parts, and those after it belong to the
last part.
-/

namespace LintRatchet

open LintRatchet.Text

/-- What is shown of some events. -/
structure Directive where
  /-- What the target of the part starts with. -/
  target : String
  /-- The name of a field that the event has. -/
  field : Option String := none
  /-- The least important level that is shown.  `none` when nothing is. -/
  level : Option Level
  /-- It speaks only of the inside of spans. -/
  inSpan : Bool := false
deriving DecidableEq, Repr

namespace Directive

/-! ## Levels -/

/-- The levels by name. -/
def levelNames : List (String × Option Level) :=
  [("off", none), ("error", some .error), ("warn", some .warning), ("info", some .info),
    ("debug", some .debug), ("trace", some .trace)]

/-- The level that a word names. -/
def level? (word : List Char) : Option (Option Level) :=
  let digits := if word.head? = some '+' then word.drop 1 else word
  if !digits.isEmpty && digits.all Char.isDigit then
    (levelNames[digits.foldl (fun n c => 10 * n + (c.toNat - '0'.toNat)) 0]?).map Prod.snd
  else levelNames.lookup (String.ofList (word.map Char.toLower))

/-- The level after `=`.  Without one everything is shown. -/
def givenLevel? (word : List Char) : Option (Option Level) :=
  if word.isEmpty then some (some .trace) else level? word

/-! ## Values of fields -/

/-- The text is an exponent, or empty. -/
def isExponent : List Char → Bool
  | [] => true
  | c :: cs =>
    let digits := match cs with
      | '+' :: cs => cs
      | '-' :: cs => cs
      | cs => cs
    (c = 'e' || c = 'E') && !digits.isEmpty && digits.all Char.isDigit

/-- The text is a decimal number: digits with or without a point among them, and an exponent. -/
def isUnsignedNumber (cs : List Char) : Bool :=
  let whole := cs.takeWhile Char.isDigit
  match cs.dropWhile Char.isDigit with
  | '.' :: cs =>
    !(whole ++ cs.takeWhile Char.isDigit).isEmpty && isExponent (cs.dropWhile Char.isDigit)
  | cs => !whole.isEmpty && isExponent cs

/-- The text is a number.  The infinite ones and those that are none have names in any case. -/
def isNumber (cs : List Char) : Bool :=
  let cs := match cs with
    | '+' :: cs => cs
    | '-' :: cs => cs
    | cs => cs
  ["inf", "infinity", "nan"].contains (String.ofList (cs.map Char.toLower)) || isUnsignedNumber cs

/-- The text may be the value of a field. -/
def isValue (cs : List Char) : Bool := isNumber cs || Pattern.isPattern cs

/-! ## Reading -/

/-- A character that a directive may start with, besides the bracket. -/
def isStart (c : Char) : Bool := ['-', ':', '_'].contains c || isAlphanumeric c

/-- The part of a word from a position to its end. -/
def lastPart? (word : List Char) (first : Nat) : Option (List Char) := dropBytes? first word

/-- The level at the end of a word, where `rest` begins at a position. -/
def trailingLevel? (word : List Char) (position : Nat) : (rest : List Char) → Option (Option Level)
  | [] => some (some .trace)
  | '=' :: _ => (lastPart? word (position + 1)).bind givenLevel?
  | _ => none

/-- A directive that has a field, by the text between its braces. -/
def withField? (d : Directive) (text : List Char) : Option Directive :=
  match split '=' text with
  | name :: value :: _ =>
    if isValue value then some { d with field := some (String.ofList name), inSpan := true }
    else none
  | _ => if text.isEmpty then none else some { d with field := some (String.ofList text) }

/-- The directive with brackets after its target, whose inside begins at a position. -/
def bracketed? (word : List Char) (target : String) (position : Nat) (inside : List Char) :
    Option Directive := do
  let isName := fun c => c ≠ ']' && c ≠ '\x7b'
  let nameEnd := position + byteLength (inside.takeWhile isName)
  let name ← cut? word position nameEnd
  match inside.dropWhile isName with
  | [] => none
  | ']' :: rest =>
    return { target, level := ← trailingLevel? word (nameEnd + 1) rest, inSpan := true }
  | _ :: rest =>
    let fieldEnd := nameEnd + 1 + byteLength (rest.takeWhile (· ≠ '\x7d'))
    match rest.dropWhile (· ≠ '\x7d') with
    | _ :: ']' :: rest =>
      let level ← trailingLevel? word (fieldEnd + 2) rest
      withField? { target, level, inSpan := !name.isEmpty } (← cut? word (nameEnd + 1) fieldEnd)
    | _ => none

/-- The directive that a word is. -/
def ofWord? (word : List Char) : Option Directive := do
  let body := trim word
  if body.head?.all fun c => !isStart c && c ≠ '[' then none
  let isTarget := fun c => c ≠ '=' && c ≠ '['
  let targetEnd := byteLength (body.takeWhile isTarget)
  match body.dropWhile isTarget with
  | [] =>
    match level? word with
    | some level => return { target := "", level }
    | none => return { target := String.ofList word, level := some .trace }
  | '[' :: inside =>
    bracketed? word (String.ofList (← takeBytes? targetEnd word)) (targetEnd + 1) inside
  | rest =>
    let target := String.ofList (← takeBytes? targetEnd word)
    return { target, level := ← trailingLevel? word targetEnd rest }

/-! ## Speaking of events -/

/-- The directive speaks of the events of a part. -/
def speaksOf (d : Directive) (s : Source) : Bool :=
  !d.inSpan && d.field.all Event.fields.contains && d.target.toList.isPrefixOf s.target.toList

/-- The other directive is at least as special: its target is longer, or as long and it asks for a
field if this one does. -/
def yieldsTo (d other : Directive) : Bool :=
  d.target.utf8ByteSize < other.target.utf8ByteSize ||
    (d.target.utf8ByteSize = other.target.utf8ByteSize &&
      (d.field.isNone || other.field.isSome))

end Directive

end LintRatchet
