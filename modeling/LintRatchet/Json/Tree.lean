import LintRatchet.Json.Collection

/-!
# Reading a whole value

A value that is looked at later is read as a `Value`.  Arrays and objects may
nest only so deep: a bracket beyond the limit makes the text malformed.
-/

namespace LintRatchet.Json

/-- Reads a value in which brackets nest at most `room` deep. -/
def readValue : Nat → Reader Value
  | room, cs =>
    match skipGap cs with
    | [] => .error .truncated
    | c :: cs =>
      if c = 'n' then do
        let cs ← readLetters ['u', 'l', 'l'] cs
        return (.null, cs)
      else if c = 't' then do
        let cs ← readLetters ['r', 'u', 'e'] cs
        return (.bool true, cs)
      else if c = 'f' then do
        let cs ← readLetters ['a', 'l', 's', 'e'] cs
        return (.bool false, cs)
      else if c = '"' then do
        let (s, cs) ← readQuoted cs
        return (.text s, cs)
      else if c = '-' || c.isDigit then do
        let (n, cs) ← readNumeral (c :: cs)
        return (.number n, cs)
      else if c = '[' then
        match room with
        | 0 => .error .malformed
        | room + 1 => do
          let (items, cs) ← readArrayRest (readValue room) cs
          return (.array items, cs)
      else if c = '\x7b' then
        match room with
        | 0 => .error .malformed
        | room + 1 => do
          let member : List (String × Value) → Reader (List (String × Value)) := fun ms cs => do
            let (name, cs) ← readQuoted cs
            let cs ← readColon cs
            let (v, cs) ← readValue room cs
            return ((name, v) :: ms, cs)
          let (ms, cs) ← readObjectRest member [] cs
          return (.object ms.reverse, cs)
      else .error .malformed

end LintRatchet.Json
