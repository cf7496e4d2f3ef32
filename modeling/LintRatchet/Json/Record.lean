import LintRatchet.Json.Skip

/-!
# Reading records

A record is read as an object or as an array of its fields in order.  Its
*slots* say which fields there are.  A slot reads the value of its field into a
*draft*, which collects what has been read so far, and `finish` makes the record
of a draft in which nothing needed is missing.

In an object a field may stand once.  Other members are passed over, and a
*closed* record refuses them.  In an array fields may be missing at the end, but
nothing may follow the last one.
-/

namespace LintRatchet.Json

/-! ## Values of one kind -/

/-- What is wrong with a text where a value of another kind was expected: it is that other value,
or no value at all. -/
def unexpected (cs : List Char) : Problem :=
  let after (result : Except Problem (List Char)) : Problem :=
    match result with
    | .ok _ => .mismatch
    | .error p => p
  match cs with
  | [] => .truncated
  | c :: rest =>
    if c = 'n' then after (readLetters ['u', 'l', 'l'] rest)
    else if c = 't' then after (readLetters ['r', 'u', 'e'] rest)
    else if c = 'f' then after (readLetters ['a', 'l', 's', 'e'] rest)
    else if c = '"' then after ((readQuoted rest).map Prod.snd)
    else if c = '-' || c.isDigit then after ((readNumeral cs).map Prod.snd)
    else if c = '[' || c = '\x7b' then .mismatch
    else .malformed

/-- Reads a text. -/
def readText : Reader String := fun cs =>
  match skipGap cs with
  | [] => .error .truncated
  | c :: cs => if c = '"' then readQuoted cs else .error (unexpected (c :: cs))

/-- Reads a count: a natural number below `2 ^ 32` in digits only. -/
def readCount : Reader UInt32 := fun cs =>
  match skipGap cs with
  | [] => .error .truncated
  | c :: cs =>
    if c = '-' || c.isDigit then do
      let (n, cs) ← readNumeral (c :: cs)
      match n.toUInt32? with
      | some n => return (n, cs)
      | none => .error .mismatch
    else .error (unexpected (c :: cs))

/-- Reads a truth value. -/
def readBool : Reader Bool := fun cs =>
  match skipGap cs with
  | [] => .error .truncated
  | c :: cs =>
    if c = 't' then do
      let cs ← readLetters ['r', 'u', 'e'] cs
      return (true, cs)
    else if c = 'f' then do
      let cs ← readLetters ['a', 'l', 's', 'e'] cs
      return (false, cs)
    else .error (unexpected (c :: cs))

/-- Reads a value or `null`. -/
def readOption {α : Type} (value : Reader α) : Reader (Option α) := fun cs =>
  match skipGap cs with
  | [] => .error .truncated
  | c :: cs =>
    if c = 'n' then do
      let cs ← readLetters ['u', 'l', 'l'] cs
      return (none, cs)
    else do
      let (a, cs) ← value (c :: cs)
      return (some a, cs)

/-- Reads an array of items. -/
def readArray {α : Type} (item : Reader α) : Reader (List α) := fun cs =>
  match skipGap cs with
  | [] => .error .truncated
  | c :: cs => if c = '[' then readArrayRest item cs else .error (unexpected (c :: cs))

/-- Passes over `null`. -/
def readNull (cs : List Char) : Except Problem (List Char) :=
  match skipGap cs with
  | [] => .error .truncated
  | c :: cs => if c = 'n' then readLetters ['u', 'l', 'l'] cs else .error (unexpected (c :: cs))

/-- Reads the name of a constant, or an object with that name as its one member and `null` as the
value. -/
def readName {α : Type} (named : List (String × α)) : Reader α := fun cs => do
  let find (name : String) : Except Problem α :=
    match named.lookup name with
    | some a => .ok a
    | none => .error .mismatch
  match skipGap cs with
  | [] => .error .truncated
  | c :: cs =>
    if c = '"' then do
      let (name, cs) ← readQuoted cs
      return (← find name, cs)
    else if c = '\x7b' then
      match skipGap cs with
      | [] => .error .truncated
      | c :: cs =>
        if c = '"' then do
          let (name, cs) ← readQuoted cs
          let a ← find name
          let cs ← readColon cs
          let cs ← readNull cs
          match skipGap cs with
          | [] => .error .truncated
          | c :: cs => if c = '\x7d' then return (a, cs) else .error .malformed
        else .error .malformed
    else .error .malformed

/-! ## Slots -/

/-- A field of a record and how its value gets into a draft. -/
structure Slot (σ : Type) where
  name : String
  /-- The draft already has a value for it. -/
  filled : σ → Bool
  /-- Reads the value into a draft. -/
  read : σ → Reader σ

/-- A slot for a field that a draft holds as an option. -/
def slot {σ α : Type} (name : String) (value : Reader α) (get : σ → Option α)
    (set : σ → α → σ) : Slot σ where
  name
  filled s := (get s).isSome
  read s cs := do
    let (a, cs) ← value cs
    return (set s a, cs)

/-- Reads a member whose name is the one of a slot. -/
def Slot.readMember {σ : Type} (f : Slot σ) (s : σ) : Reader σ := fun cs =>
  if f.filled s then .error .mismatch
  else do
    let cs ← readColon cs
    f.read s cs

/-- Reads a member of a record, after the opening quote of its name. -/
def readRecordMember {σ : Type} (slots : List (Slot σ)) (closed : Bool) (s : σ) : Reader σ :=
  fun cs => do
    let (name, cs) ← readQuoted cs
    match slots.find? fun f => f.name == name with
    | some f => f.readMember s cs
    | none =>
      if closed then .error .mismatch
      else do
        let cs ← readColon cs
        let cs ← skipValue cs
        return (s, cs)

/-- Reads the fields of a record in order, up to the closing bracket. -/
def readFields {σ : Type} : List (Slot σ) → (first : Bool) → σ → Reader σ
  | [], _, s, cs =>
    match skipGap cs with
    | [] => .error .truncated
    | c :: cs => if c = ']' then .ok (s, cs) else .error .malformed
  | f :: fs, first, s, cs =>
    match skipGap cs with
    | [] => .error .truncated
    | c :: cs =>
      if c = ']' then .ok (s, cs)
      else if first then do
        let (s, cs) ← f.read s (c :: cs)
        readFields fs false s cs
      else if c = ',' then
        match skipGap cs with
        | [] => .error .truncated
        | c :: cs =>
          if c = ']' then .error .malformed
          else do
            let (s, cs) ← f.read s (c :: cs)
            readFields fs false s cs
      else .error .malformed

/-- Reads a record, as an array of its fields in order or as an object. -/
def readRecord {σ α : Type} (slots : List (Slot σ)) (closed : Bool) (empty : σ)
    (finish : σ → Option α) : Reader α := fun cs => do
  let made (s : σ) : Except Problem α :=
    match finish s with
    | some a => .ok a
    | none => .error .mismatch
  match skipGap cs with
  | [] => .error .truncated
  | c :: cs =>
    if c = '[' then do
      let (s, cs) ← readFields slots true empty cs
      return (← made s, cs)
    else if c = '\x7b' then do
      let (s, cs) ← readObjectRest (readRecordMember slots closed) empty cs
      return (← made s, cs)
    else .error (unexpected (c :: cs))

/-- Reads a text that holds one value and nothing else. -/
def readAll {α : Type} (value : Reader α) (text : String) : Except Problem α := do
  let (a, cs) ← value text.toList
  if skipGap cs = [] then return a else .error .malformed

end LintRatchet.Json
