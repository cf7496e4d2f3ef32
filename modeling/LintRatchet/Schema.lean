import LintRatchet.Evaluation
import LintRatchet.Json.View
import LintRatchet.Json.Rounded

/-!
# Schemas

A schema says which values are documents of a kind.  It looks at a value that
has been read already, and it is more lenient than reading the document: a count
may be any whole number, and it may be written with a fraction of zero.  A
member that no schema mentions is allowed everywhere.

`Schema.baseline` and `Schema.receipt` are the schemas of the two documents that
the tool leaves behind.
-/

namespace LintRatchet

open LintRatchet.Json

/-- Tells the values that belong to a document from those that do not. -/
abbrev Schema := Value → Bool

namespace Schema

/-! ## Parts -/

/-- Any text. -/
def text : Schema
  | .text _ => true
  | _ => false

/-- Any truth value. -/
def bool : Schema
  | .bool _ => true
  | _ => false

/-- A whole number that is not negative. -/
def count : Schema
  | .number n => n.isWhole && n.isNonNegative
  | _ => false

/-- One of some texts. -/
def oneOf (names : List String) : Schema
  | .text s => names.contains s
  | _ => false

/-- What another schema accepts, or `null`. -/
def nullable (s : Schema) : Schema
  | .null => true
  | v => s v

/-- A list of what another schema accepts. -/
def list (s : Schema) : Schema
  | .array vs => vs.all s
  | _ => false

/-- A member of an object. -/
structure Field where
  name : String
  required : Bool
  schema : Schema

/-- A member that must be there. -/
def required (name : String) (schema : Schema) : Field := ⟨name, true, schema⟩

/-- A member that may be left out. -/
def optional (name : String) (schema : Schema) : Field := ⟨name, false, schema⟩

/-- Whether the members of an object satisfy what is asked of one of them. -/
def Field.accepts (f : Field) (members : List (String × Value)) : Bool :=
  match Value.allNamed members f.name with
  | [] => !f.required
  | [v] => f.schema v
  | _ => false

/-- An object with the given members and any others. -/
def record (fields : List Field) : Schema
  | .object members => fields.all (Field.accepts · members)
  | _ => false

/-! ## Documents -/

/-- A finding, with any line number that is a count. -/
def finding : Schema := record [
  required "rule" text,
  required "file" text,
  required "line" count,
  required "message" text]

/-- A baseline.  Neither the order of its entries nor their repeats matter. -/
def baseline : Schema := record [
  required "biomeVersion" text,
  required "fingerprints" (list text),
  required "errors" (list finding)]

/-- The tool that wrote a receipt. -/
def tool : Schema := record [
  required "name" text,
  required "version" text]

/-- A receipt, with the members of its evaluation among its own. -/
def receipt : Schema := record [
  required "schema" text,
  required "tool" tool,
  required "biome_version" text,
  required "status" (oneOf (Verdict.named.map Prod.fst)),
  required "outcome" (oneOf (Outcome.named.map Prod.fst)),
  required "action" (oneOf (BaselineAction.named.map Prod.fst)),
  required "current_count" count,
  optional "baseline_count" (nullable count),
  required "fixed_count" count,
  optional "absorbed_count" count,
  optional "new_findings" (list finding),
  required "applied" bool]

end Schema

end LintRatchet
