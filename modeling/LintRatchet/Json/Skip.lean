import LintRatchet.Json.Collection

/-!
# Passing over a value

A value whose content does not matter is only checked for its form.  It may
nest as deep as the text is long, its numbers may be of any size, and its texts
may hold surrogates that stand alone.
-/

namespace LintRatchet.Json

/-- A reader whose value does not matter. -/
def passing (skip : List Char → Except Problem (List Char)) : Reader Unit := fun cs => do
  let cs ← skip cs
  return ((), cs)

/-- Passes over a value that nests at most as deep as there are characters in `depth`. -/
def skipNested : (depth : List Char) → List Char → Except Problem (List Char)
  | [], _ => .error .truncated
  | _ :: depth, cs =>
    match skipGap cs with
    | [] => .error .truncated
    | c :: cs =>
      if c = 'n' then readLetters ['u', 'l', 'l'] cs
      else if c = 't' then readLetters ['r', 'u', 'e'] cs
      else if c = 'f' then readLetters ['a', 'l', 's', 'e'] cs
      else if c = '"' then skipQuoted cs
      else if c = '-' || c.isDigit then do
        let (_, cs) ← scanNumeral .malformed (c :: cs)
        return cs
      else if c = '[' then do
        let (_, cs) ← readArrayRest (passing (skipNested depth)) cs
        return cs
      else if c = '\x7b' then do
        let member : Unit → Reader Unit := fun _ => passing fun cs => do
          let cs ← skipQuoted cs
          let cs ← readColon cs
          skipNested depth cs
        let (_, cs) ← readObjectRest member () cs
        return cs
      else .error .malformed

/-- Passes over a value of any depth. -/
def skipValue (cs : List Char) : Except Problem (List Char) := skipNested (' ' :: cs) cs

end LintRatchet.Json
