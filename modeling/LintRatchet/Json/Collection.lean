import LintRatchet.Json.Quoted

/-!
# Reading arrays and objects

The items of an array and the members of an object are read one after the
other by a reader for one of them.  A comma stands between two of them and
never before the closing bracket.

The loops count their turns along the text itself.  Each turn takes at least one
character, so the turns do not run out before the text does.
-/

namespace LintRatchet.Json

/-! ## Arrays -/

/-- Reads items separated by commas, up to the closing bracket.  The text starts with an item. -/
def readItems {α : Type} (item : Reader α) : (turns : List Char) → Reader (List α)
  | [], _ => .error .truncated
  | _ :: turns, cs => do
    let (a, cs) ← item cs
    match skipGap cs with
    | [] => .error .truncated
    | c :: cs =>
      if c = ']' then return ([a], cs)
      else if c = ',' then
        match skipGap cs with
        | [] => .error .truncated
        | c :: cs =>
          if c = ']' then .error .malformed
          else do
            let (as, cs) ← readItems item turns (c :: cs)
            return (a :: as, cs)
      else .error .malformed

/-- Reads the items of an array after its opening bracket. -/
def readArrayRest {α : Type} (item : Reader α) : Reader (List α) := fun cs =>
  match skipGap cs with
  | [] => .error .truncated
  | c :: cs => if c = ']' then .ok ([], cs) else readItems item (c :: cs) (c :: cs)

/-! ## Objects -/

/-- Reads the colon of a member and the blank text around it. -/
def readColon (cs : List Char) : Except Problem (List Char) :=
  match skipGap cs with
  | [] => .error .truncated
  | c :: cs => if c = ':' then .ok cs else .error .malformed

/-- Reads members separated by commas, up to the closing bracket.  The text starts right after the
opening quote of a name, and the reader of a member goes on from there. -/
def readMembers {σ : Type} (member : σ → Reader σ) : (turns : List Char) → σ → Reader σ
  | [], _, _ => .error .truncated
  | _ :: turns, s, cs => do
    let (s, cs) ← member s cs
    match skipGap cs with
    | [] => .error .truncated
    | c :: cs =>
      if c = '\x7d' then return (s, cs)
      else if c = ',' then
        match skipGap cs with
        | [] => .error .truncated
        | c :: cs => if c = '"' then readMembers member turns s cs else .error .malformed
      else .error .malformed

/-- Reads the members of an object after its opening bracket. -/
def readObjectRest {σ : Type} (member : σ → Reader σ) (s : σ) : Reader σ := fun cs =>
  match skipGap cs with
  | [] => .error .truncated
  | c :: cs =>
    if c = '\x7d' then .ok (s, cs)
    else if c = '"' then readMembers member cs s cs
    else .error .malformed

end LintRatchet.Json
