import LintRatchet.Toml.Bare
import LintRatchet.Toml.Quoted
import LintRatchet.Toml.Table

/-!
# Reading TOML

A text is a list of statements, one on a line: a table header, the header of a
further table of a series, or a key with a value.  Statements are read first and
put together afterwards.

Brackets nest at most seventy-nine deep, and a dotted key has at most as many
parts.  Loops count their turns along the text itself, and each turn takes at
least one character.
-/

namespace LintRatchet.Toml

/-- How deep brackets may nest, and how many parts a key may have. -/
def maxDepth : Nat := 79

/-! ## Keys -/

/-- A character of a key without quotes. -/
def isKeyChar (c : Char) : Bool := c.isAlphanum || c = '-' || c = '_'

/-- Reads a part of a key and the blanks around it. -/
def readKeyPart : Reader String := fun cs =>
  match skipBlanks cs with
  | [] => none
  | c :: cs =>
    if c = '"' || c = '\'' then do
      let (part, cs) ← readShortText (c :: cs)
      return (part, skipBlanks cs)
    else if isKeyChar c then
      some (String.ofList (c :: cs.takeWhile isKeyChar), skipBlanks (cs.dropWhile isKeyChar))
    else none

/-- Reads a key, whose parts are separated by points. -/
def readKeyParts : (turns : List Char) → Reader (List String)
  | [], _ => none
  | _ :: turns, cs => do
    let (part, cs) ← readKeyPart cs
    match cs with
    | '.' :: cs => do
      let (parts, cs) ← readKeyParts turns cs
      return (part :: parts, cs)
    | cs => return ([part], cs)

/-- Reads a key of no more parts than are allowed. -/
def readKey : Reader (List String) := fun cs => do
  let (parts, cs) ← readKeyParts cs cs
  if parts.length ≤ maxDepth then return (parts, cs) else none

/-! ## Values -/

/-- A text without the character that it has to start with. -/
def expect (c : Char) : List Char → Option (List Char)
  | d :: cs => if d = c then some cs else none
  | [] => none

/-- Reads the items of an array, up to the closing bracket.  A comma may stand before it. -/
def readItems (item : Reader Value) : (turns : List Char) → Reader (List Value)
  | [], _ => none
  | _ :: turns, cs =>
    match skipGap false cs with
    | ']' :: cs => some ([], cs)
    | cs => do
      let (v, cs) ← item cs
      match skipGap false cs with
      | ']' :: cs => return ([v], cs)
      | ',' :: cs => do
        let (vs, cs) ← readItems item turns cs
        return (v :: vs, cs)
      | _ => none

/-- Reads a key and its value, as far as the end of the value. -/
def readPair (value : Reader Value) : Reader (List String × Value) := fun cs => do
  let (key, cs) ← readKey cs
  let cs ← expect '=' cs
  let (v, cs) ← value (skipBlanks cs)
  return ((key, v), cs)

/-- Reads the pairs of an inline table, up to the closing bracket. -/
def readPairs (value : Reader Value) : (turns : List Char) → Members → Reader Members
  | [], _, _ => none
  | _ :: turns, ms, cs => do
    let ((key, v), cs) ← readPair value cs
    let ms ← addPair .inline key v ms
    match skipBlanks cs with
    | '\x7d' :: cs => return (ms, cs)
    | ',' :: cs => readPairs value turns ms cs
    | _ => none

/-- Reads a value in which brackets nest at most `room` deep. -/
def readValue (room : Nat) : Reader Value := fun cs =>
  match cs with
  | [] => none
  | c :: rest =>
    if c = '"' || c = '\'' then do
      let (s, cs) ← readText cs
      return (.text s, cs)
    else if c = '[' then
      match room with
      | 0 => none
      | room + 1 => do
        let (vs, cs) ← readItems (readValue room) rest rest
        return (.array vs, cs)
    else if c = '\x7b' then
      match room with
      | 0 => none
      | room + 1 =>
        match skipBlanks rest with
        | '\x7d' :: cs => some (.table .inline [], cs)
        | rest => do
          let (ms, cs) ← readPairs (readValue room) rest [] rest
          return (.table .inline ms, cs)
    else readBare cs

/-! ## Statements -/

/-- Reads the key of a header, its closing brackets and the end of its line. -/
def readHeader (closing : List Char → Option (List Char)) : Reader (List String) := fun cs => do
  let (key, cs) ← readKey cs
  let cs ← closing cs
  let cs ← lineEnd? cs
  return (key, cs)

/-- Reads a statement and the end of its line. -/
def readStatement : Reader Statement
  | '[' :: '[' :: cs => do
    let (key, cs) ← readHeader (fun cs => expect ']' cs >>= expect ']') cs
    return (.element key, cs)
  | '[' :: cs => do
    let (key, cs) ← readHeader (expect ']') cs
    return (.header key, cs)
  | cs => do
    let ((key, v), cs) ← readPair (readValue maxDepth) cs
    let cs ← lineEnd? cs
    return (.pair key v, cs)

/-- Reads the statements of a text, between which lines may be blank. -/
def readStatements : (turns : List Char) → List Char → Option (List Statement)
  | [], cs => if skipBlanks cs = [] then some [] else none
  | _ :: turns, cs =>
    match skipBlanks cs with
    | [] => some []
    | '#' :: _ => do readStatements turns (← lineEnd? cs)
    | c :: rest =>
      match newline? (c :: rest) with
      | some cs => readStatements turns cs
      | none => do
        let (s, cs) ← readStatement (c :: rest)
        return s :: (← readStatements turns cs)

/-- A text without the mark of its byte order. -/
def dropMark : List Char → List Char
  | '\uFEFF' :: cs => cs
  | cs => cs

/-- The top table of a text. -/
def parse? (text : String) : Option Members := do
  let cs := dropMark text.toList
  assemble (← readStatements cs cs)

end LintRatchet.Toml
