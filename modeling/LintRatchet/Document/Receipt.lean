import LintRatchet.Document.Evaluation
import LintRatchet.Json.Tree
import LintRatchet.Json.View
import LintRatchet.Receipt

/-!
# Receipts and summaries as documents

The members of a receipt's evaluation stand among its own.  So a receipt is
always an object.  While it is read, its own members are read as they come, and
all others are kept as values, from which the evaluation is taken at the end.
Because they are kept they are checked in full, and brackets in them nest at
most one hundred and twenty-six deep.
-/

namespace LintRatchet

open LintRatchet.Json

/-! ## Values as findings and evaluations -/

/-- The finding that a value is, as an object or as an array of its fields in order. -/
def Finding.ofValue? : Value → Option Finding
  | .object ms => do
    return ⟨← Value.field? ms "rule" Value.asText?, ← Value.field? ms "file" Value.asText?,
      ← Value.field? ms "line" Value.asCount?, ← Value.field? ms "message" Value.asText?⟩
  | .array [rule, file, line, message] => do
    return ⟨← rule.asText?, ← file.asText?, ← line.asCount?, ← message.asText?⟩
  | _ => none

/-- The evaluation whose members stand among others. -/
def Evaluation.ofMembers? (ms : List (String × Value)) : Option Evaluation := do
  return {
    verdict := ← Value.field? ms "status" (Value.asName? Verdict.named)
    outcome := ← Value.field? ms "outcome" (Value.asName? Outcome.named)
    action := ← Value.field? ms "action" (Value.asName? BaselineAction.named)
    currentCount := ← Value.field? ms "current_count" Value.asCount?
    baselineCount := ← Value.fieldOr? ms "baseline_count" none (Value.asOption? Value.asCount?)
    fixedCount := ← Value.field? ms "fixed_count" Value.asCount?
    absorbedCount := ← Value.fieldOr? ms "absorbed_count" 0 Value.asCount?
    newFindings := ← Value.fieldOr? ms "new_findings" [] (Value.asList? Finding.ofValue?) }

/-! ## Tools -/

namespace Tool

/-- The document of a tool. -/
def toValue (t : Tool) : Value := .object [("name", .text t.name), ("version", .text t.version)]

/-- What has been read of a tool. -/
structure Draft where
  name : Option String := none
  version : Option String := none

/-- The fields of a tool. -/
def slots : List (Slot Draft) := [
  slot "name" readText (·.name) (fun d a => { d with name := some a }),
  slot "version" readText (·.version) (fun d a => { d with version := some a })]

/-- The tool of a draft that has all fields. -/
def Draft.finish (d : Draft) : Option Tool := do
  return ⟨← d.name, ← d.version⟩

/-- Reads a tool. -/
def read : Reader Tool := readRecord slots false {} Draft.finish

end Tool

/-! ## Receipts -/

namespace Receipt

/-- The document of a receipt. -/
def toValue (r : Receipt) : Value :=
  .object ([("schema", .text r.schema), ("tool", r.tool.toValue),
    ("biome_version", .text r.linterVersion)] ++ r.evaluation.toMembers ++
    [("applied", .bool r.applied)])

/-- What has been read of a receipt. -/
structure Draft where
  schema : Option String := none
  tool : Option Tool := none
  linterVersion : Option String := none
  applied : Option Bool := none
  /-- The other members, the last one first. -/
  others : List (String × Value) := []

/-- The fields of a receipt itself. -/
def slots : List (Slot Draft) := [
  slot "schema" readText (·.schema) (fun d a => { d with schema := some a }),
  slot "tool" Tool.read (·.tool) (fun d a => { d with tool := some a }),
  slot "biome_version" readText (·.linterVersion) (fun d a => { d with linterVersion := some a }),
  slot "applied" readBool (·.applied) (fun d a => { d with applied := some a })]

/-- How deep brackets may nest in a member that is kept. -/
def room : Nat := 126

/-- Reads a member of a receipt, after the opening quote of its name. -/
def readMember (d : Draft) : Reader Draft := fun cs => do
  let (name, cs) ← readQuoted cs
  match slots.find? fun f => f.name == name with
  | some f => f.readMember d cs
  | none => do
    let cs ← readColon cs
    let (v, cs) ← readValue room cs
    return ({ d with others := (name, v) :: d.others }, cs)

/-- The receipt of a draft that has all fields and an evaluation among its other members. -/
def Draft.finish (d : Draft) : Option Receipt := do
  return {
    schema := ← d.schema
    tool := ← d.tool
    linterVersion := ← d.linterVersion
    evaluation := ← Evaluation.ofMembers? d.others.reverse
    applied := ← d.applied }

/-- Reads a receipt, which is always an object. -/
def read : Reader Receipt := fun cs =>
  match skipGap cs with
  | [] => .error .truncated
  | c :: cs =>
    if c = '\x7b' then do
      let (d, cs) ← readObjectRest readMember {} cs
      match d.finish with
      | some r => return (r, cs)
      | none => .error .mismatch
    else .error (unexpected (c :: cs))

/-- The receipt that a text holds. -/
def decode (text : String) : Except Problem Receipt := readAll read text

end Receipt

/-! ## Summaries -/

namespace Summary

/-- The document of a summary. -/
def toValue (s : Summary) : Value :=
  .object ([("path", .text s.path), ("exists", .bool s.present)] ++
    Value.member? "biome_version" Value.text s.linterVersion ++
    [("fingerprints", .count s.fingerprints), ("findings", .count s.findings)])

/-- What has been read of a summary. -/
structure Draft where
  path : Option String := none
  present : Option Bool := none
  linterVersion : Option (Option String) := none
  fingerprints : Option UInt32 := none
  findings : Option UInt32 := none

/-- The fields of a summary. -/
def slots : List (Slot Draft) := [
  slot "path" readText (·.path) (fun d a => { d with path := some a }),
  slot "exists" readBool (·.present) (fun d a => { d with present := some a }),
  slot "biome_version" (readOption readText) (·.linterVersion)
    (fun d a => { d with linterVersion := some a }),
  slot "fingerprints" readCount (·.fingerprints) (fun d a => { d with fingerprints := some a }),
  slot "findings" readCount (·.findings) (fun d a => { d with findings := some a })]

/-- The summary of a draft that lacks at most the version. -/
def Draft.finish (d : Draft) : Option Summary := do
  return ⟨← d.path, ← d.present, d.linterVersion.getD none, ← d.fingerprints, ← d.findings⟩

/-- Reads a summary. -/
def read : Reader Summary := readRecord slots false {} Draft.finish

/-- The summary that a text holds. -/
def decode (text : String) : Except Problem Summary := readAll read text

end Summary

end LintRatchet
