import LintRatchet.Toml.Value

/-!
# Tables from statements

The statements of a text are put together one after the other.  A header opens
the table that the following pairs belong to.  A table has one header at most,
and tables on the way to it are implied.  A dotted key makes the tables on its
way, and other dotted keys may add to them, but no header may open them again.
No key is given twice.
-/

namespace LintRatchet.Toml

/-- A line of a text. -/
inductive Statement where
  /-- `key = value` -/
  | pair (key : List String) (value : Value)
  /-- `[key]` -/
  | header (key : List String)
  /-- `[[key]]` -/
  | element (key : List String)
deriving Repr

/-- The members with another value for a key. -/
def setMember (key : String) (value : Value) (ms : Members) : Members :=
  ms.map fun m => if m.1 = key then (key, value) else m

/-- Adds a value under a dotted key to a table of the given origin.  `inside` says that a part of
the key has been followed already. -/
def addDotted (origin : Origin) (inside : Bool) : List String → Value → Members → Option Members
  | [], _, _ => none
  | [key], v, ms =>
    if (origin == .dotted) == inside && (ms.lookup key).isNone then some (ms ++ [(key, v)])
    else none
  | key :: keys, v, ms =>
    match ms.lookup key with
    | none => do
      let sub ← addDotted .dotted true keys v []
      return ms ++ [(key, .table .dotted sub)]
    | some (.table .dotted sub) => do
      let sub ← addDotted .dotted true keys v sub
      return setMember key (.table .dotted sub) ms
    | some (.table .implied sub) => do
      let sub ← addDotted .implied true keys v sub
      return setMember key (.table .implied sub) ms
    | some _ => none

/-- Adds a value under a key to a table. -/
def addPair (origin : Origin) (key : List String) (v : Value) (ms : Members) : Option Members :=
  addDotted origin false key v ms

/-- Changes the table that a key leads to.  Tables on the way that are missing are implied. -/
def inTable (change : Members → Option Members) : List String → Members → Option Members
  | [], ms => change ms
  | key :: keys, ms =>
    match ms.lookup key with
    | none => do
      let sub ← inTable change keys []
      return ms ++ [(key, .table .implied sub)]
    | some (.table .inline _) => none
    | some (.table origin sub) => do
      let sub ← inTable change keys sub
      return setMember key (.table origin sub) ms
    | some (.series earlier last) => do
      let last ← inTable change keys last
      return setMember key (.series earlier last) ms
    | some _ => none

/-- Opens a table by its header. -/
def openTable (key : String) (ms : Members) : Option Members :=
  match ms.lookup key with
  | none => some (ms ++ [(key, .table .header [])])
  | some (.table .implied sub) => some (setMember key (.table .header sub) ms)
  | some _ => none

/-- Opens a further table of a series. -/
def openElement (key : String) (ms : Members) : Option Members :=
  match ms.lookup key with
  | none => some (ms ++ [(key, .series [] [])])
  | some (.series earlier last) => some (setMember key (.series (earlier ++ [last]) []) ms)
  | some _ => none

/-- A text that has been read so far: the top table, and the way to the open one. -/
structure Draft where
  top : Members
  current : List String

/-- The draft with one more statement. -/
def Draft.add (d : Draft) : Statement → Option Draft
  | .pair key v => do
    return { d with top := ← inTable (addPair .header key v) d.current d.top }
  | .header key => do
    return ⟨← inTable (openTable (key.getLast?.getD "")) key.dropLast d.top, key⟩
  | .element key => do
    return ⟨← inTable (openElement (key.getLast?.getD "")) key.dropLast d.top, key⟩

/-- The top table that statements make, one after the other. -/
def assemble (statements : List Statement) : Option Members := do
  let d ← statements.foldlM Draft.add ⟨[], []⟩
  return d.top

end LintRatchet.Toml
