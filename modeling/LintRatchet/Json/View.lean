import LintRatchet.Json.Value

/-!
# Looking into a value

Where a document has been read as a whole `Value`, these functions take out of
it what the readers take off a text.  They agree with the readers on what a
count, a name or a list is, with one difference: a name that stands as the one
member of an object may also have an empty object as its value.
-/

namespace LintRatchet.Json.Value

/-- The value as a text. -/
def asText? : Value → Option String
  | .text s => some s
  | _ => none

/-- The value as a count. -/
def asCount? : Value → Option UInt32
  | .number n => n.toUInt32?
  | _ => none

/-- The value as a list of values of one kind. -/
def asList? {α : Type} (item : Value → Option α) : Value → Option (List α)
  | .array vs => vs.mapM item
  | _ => none

/-- The value, or nothing for `null`. -/
def asOption? {α : Type} (value : Value → Option α) : Value → Option (Option α)
  | .null => some none
  | v => (value v).map some

/-- The value as the name of a constant. -/
def asName? {α : Type} (named : List (String × α)) : Value → Option α
  | .text s => named.lookup s
  | .object [(s, .null)] => named.lookup s
  | .object [(s, .object [])] => named.lookup s
  | _ => none

/-- The values of the members with a name. -/
def allNamed (members : List (String × Value)) (name : String) : List Value :=
  (members.filter fun m => m.1 == name).map Prod.snd

/-- The value of a member that stands exactly once. -/
def field? {α : Type} (members : List (String × Value)) (name : String)
    (value : Value → Option α) : Option α :=
  match allNamed members name with
  | [v] => value v
  | _ => none

/-- The value of a member that stands at most once, or a default. -/
def fieldOr? {α : Type} (members : List (String × Value)) (name : String) (default : α)
    (value : Value → Option α) : Option α :=
  match allNamed members name with
  | [] => some default
  | [v] => value v
  | _ => none

end LintRatchet.Json.Value
