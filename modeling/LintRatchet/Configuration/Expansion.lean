import LintRatchet.Journal

/-!
# References to environment variables

A text may refer to variables by `${NAME}` or `${NAME:-DEFAULT}`.  A name is a
letter or `_`, followed by letters, digits and `_`, all of them ASCII.  A
default is any text without a closing brace.

`pieces` cuts a text into references and the characters between them, from left
to right.  `expand` puts in the place of each reference the value of the
variable, or else its default.  What it puts in is not looked at again, and what
is no complete reference is left as it is.
-/

namespace LintRatchet.Expansion

/-- A reference to a variable. -/
structure Reference where
  name : List Char
  /-- What stands for a variable that is not set. -/
  fallback : Option (List Char)
deriving DecidableEq, Repr

/-- A part of a text. -/
inductive Piece where
  | char (c : Char)
  | reference (r : Reference)
deriving DecidableEq, Repr

/-- A character that may stand in a name. -/
def isNameChar (c : Char) : Bool := c.isAlphanum || c = '_'

/-- A character that a name may start with. -/
def isNameStart (c : Char) : Bool := c.isAlpha || c = '_'

/-- Reads the end of a reference, after its name. -/
def closing? (name : List Char) : List Char → Option (Reference × List Char)
  | '\x7d' :: rest => some (⟨name, none⟩, rest)
  | ':' :: '-' :: rest =>
    match rest.dropWhile (· ≠ '\x7d') with
    | _ :: after => some (⟨name, some (rest.takeWhile (· ≠ '\x7d'))⟩, after)
    | [] => none
  | _ => none

/-- Reads the reference that a text starts with. -/
def reference? : List Char → Option (Reference × List Char)
  | '$' :: '\x7b' :: c :: rest =>
    if isNameStart c then
      closing? (c :: rest.takeWhile isNameChar) (rest.dropWhile isNameChar)
    else none
  | _ => none

theorem closing?_length {name cs rest : List Char} {r : Reference}
    (h : closing? name cs = some (r, rest)) : rest.length < cs.length := by
  unfold closing? at h
  split at h
  · simp only [Option.some.injEq, Prod.mk.injEq] at h
    rw [← h.2]
    simp
  · next tail =>
    split at h
    · next c after hd =>
      simp only [Option.some.injEq, Prod.mk.injEq] at h
      have hl := (List.dropWhile_suffix (l := tail) (· ≠ '\x7d')).length_le
      rw [hd] at hl
      rw [← h.2]
      simp only [List.length_cons] at hl ⊢
      omega
    · exact absurd h (by simp)
  · exact absurd h (by simp)

theorem reference?_length {cs rest : List Char} {r : Reference}
    (h : reference? cs = some (r, rest)) : rest.length < cs.length := by
  unfold reference? at h
  split at h
  · next c tail =>
    split at h
    · have h1 := closing?_length h
      have h2 := (List.dropWhile_suffix (l := tail) isNameChar).length_le
      simp only [List.length_cons]
      omega
    · exact absurd h (by simp)
  · exact absurd h (by simp)

/-- The references of a text and the characters between them. -/
def pieces (cs : List Char) : List Piece :=
  match _h : reference? cs with
  | some (r, rest) => .reference r :: pieces rest
  | none =>
    match cs with
    | [] => []
    | c :: rest => .char c :: pieces rest
termination_by cs.length
decreasing_by
  · exact reference?_length _h
  · simp

/-- A variable without a value that has no default. -/
structure Unset where
  name : String
deriving DecidableEq, Repr

/-- What is said of such a variable. -/
def Unset.message (u : Unset) : String :=
  "Environment variable '" ++ u.name ++ "' is not set and no default provided"

/-- The values of variables. -/
abbrev Variables := String → Option String

/-- What stands for a reference. -/
def Reference.resolve (r : Reference) (environment : Variables) : Except Unset (List Char) :=
  match environment (String.ofList r.name), r.fallback with
  | some value, _ => .ok value.toList
  | none, some fallback => .ok fallback
  | none, none => .error ⟨String.ofList r.name⟩

/-- The text of some pieces. -/
def assemble (environment : Variables) : List Piece → Except Unset (List Char)
  | [] => .ok []
  | .char c :: ps => do return c :: (← assemble environment ps)
  | .reference r :: ps => do
    let value ← r.resolve environment
    return value ++ (← assemble environment ps)

/-- A text with the values of variables in the place of references. -/
def expand (environment : Variables) (text : String) : Except Unset String := do
  return String.ofList (← assemble environment (pieces text.toList))

/-! ## The journal -/

/-- What is recorded of a reference that can be resolved. -/
def Reference.note? (r : Reference) (environment : Variables) : Option Event :=
  let name := String.ofList r.name
  match environment name, r.fallback with
  | some _, _ =>
    some ⟨.debug, .configuration, "Expanded env var $\x7b" ++ name ++ "\x7d"⟩
  | none, some fallback =>
    some ⟨.debug, .configuration, "Env var $\x7b" ++ name ++ "\x7d not set, using default: " ++
      String.ofList fallback⟩
  | none, none => none

/-- What is recorded of some pieces, up to the first that cannot be resolved. -/
def notes (environment : Variables) : List Piece → List Event
  | [] => []
  | .char _ :: ps => notes environment ps
  | .reference r :: ps =>
    match r.note? environment with
    | some e => e :: notes environment ps
    | none => []

/-- What `expand` records. -/
def journal (environment : Variables) (text : String) : List Event :=
  notes environment (pieces text.toList)

end LintRatchet.Expansion
