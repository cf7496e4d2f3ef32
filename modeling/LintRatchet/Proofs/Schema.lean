import LintRatchet.Proofs.Document.HandEdited
import LintRatchet.Proofs.Schema.Agreement

/-!
# Documents and their schemas

What is written for a baseline or a receipt satisfies the schema of that
document.  For baselines the converse holds as well: whatever the schema accepts
is decoded from each of its texts.

Reading is stricter than the schema in two ways and more lenient in one.  A
count has to be written in digits only, and it has to fit in thirty-two bits.
But a record may stand as an array of its fields.  So the converse is about
values whose numbers are counts and in which no array stands for a record.  The
other members of the value may be anything, to any depth.

Main statement: `schema_agrees`.
-/

namespace LintRatchet

open LintRatchet.Json

variable {v : Value}

/-! ## What is written -/

namespace Schema

variable {ms : List (String × Value)} {f : Field}

/-- A record accepts an object when each of its fields does. -/
theorem record_object {fields : List Field} :
    record fields (.object ms) = true ↔ ∀ f ∈ fields, f.accepts ms = true := List.all_eq_true

theorem Field.accepts_one (v : Value) (h : Value.allNamed ms f.name = [v])
    (hv : f.schema v = true) : f.accepts ms = true := by
  rw [accepts, h]
  exact hv

/-- A member that may be left out is accepted when it is there. -/
theorem Field.accepts_toList {α : Type} (encode : α → Value) (o : Option α)
    (h : Value.allNamed ms f.name = (o.map encode).toList) (hf : f.required = false)
    (hv : ∀ a, f.schema (encode a) = true) : f.accepts ms = true := by
  rw [accepts, h]
  cases o with
  | none => simp [hf]
  | some a => exact hv a

/-- A list accepts what is written for its items. -/
theorem list_array {α : Type} {s : Schema} {encode : α → Value} (as : List α)
    (h : ∀ a, s (encode a) = true) : list s (.array (as.map encode)) = true := by
  simp [list, h]

theorem finding_toValue (f : Finding) : finding f.toValue = true := by
  simp only [finding, Finding.toValue, record_object, List.forall_mem_cons]
  exact ⟨Field.accepts_one _ rfl rfl, Field.accepts_one _ rfl rfl, Field.accepts_one _ rfl rfl,
    Field.accepts_one _ rfl rfl, List.forall_mem_nil _⟩

/-- The document of a baseline is one by the schema. -/
theorem baseline_toValue (b : Baseline) : baseline b.toValue = true := by
  simp only [baseline, Baseline.toValue, record_object, List.forall_mem_cons]
  exact ⟨Field.accepts_one _ rfl rfl,
    Field.accepts_one _ rfl (list_array b.fingerprints fun _ => rfl),
    Field.accepts_one _ rfl (list_array b.errors finding_toValue), List.forall_mem_nil _⟩

theorem tool_toValue (t : Tool) : tool t.toValue = true := by
  simp only [tool, Tool.toValue, record_object, List.forall_mem_cons]
  exact ⟨Field.accepts_one _ rfl rfl, Field.accepts_one _ rfl rfl, List.forall_mem_nil _⟩

/-- A name that stands for a constant is one of the names. -/
theorem oneOf_name {α : Type} {named : List (String × α)} {name : String} {a : α}
    (h : named.lookup name = some a) : oneOf (named.map Prod.fst) (.text name) = true := by
  obtain ⟨before, after, rfl, -⟩ := List.lookup_eq_some_iff.mp h
  simp [oneOf]

/-- The document of a receipt is one by the schema, with the members that it leaves out. -/
theorem receipt_toValue (r : Receipt) : receipt r.toValue = true := by
  have hcounts : ∀ n, nullable count (.count n) = true := fun _ => rfl
  have hlisted : ∀ fs, list finding (Evaluation.listed fs) = true :=
    fun fs => list_array fs finding_toValue
  simp only [receipt, Receipt.toValue, record_object, List.forall_mem_cons,
    Evaluation.toMembers_eq]
  exact ⟨Field.accepts_one (.text r.schema) (by simp [required]) rfl,
    Field.accepts_one (r.tool.toValue) (by simp [required]) (tool_toValue r.tool),
    Field.accepts_one (.text r.linterVersion) (by simp [required]) rfl,
    Field.accepts_one (.text r.evaluation.verdict.name) (by simp [required])
      (oneOf_name r.evaluation.verdict.lookup_name),
    Field.accepts_one (.text r.evaluation.outcome.name) (by simp [required])
      (oneOf_name r.evaluation.outcome.lookup_name),
    Field.accepts_one (.text r.evaluation.action.name) (by simp [required])
      (oneOf_name r.evaluation.action.lookup_name),
    Field.accepts_one (.count r.evaluation.currentCount) (by simp [required]) rfl,
    Field.accepts_toList Value.count r.evaluation.baselineCount (by simp [optional]) rfl hcounts,
    Field.accepts_one (.count r.evaluation.fixedCount) (by simp [required]) rfl,
    Field.accepts_toList Value.count r.evaluation.absorbed? (by simp [optional]) rfl fun _ => rfl,
    Field.accepts_toList Evaluation.listed r.evaluation.new? (by simp [optional]) rfl hlisted,
    Field.accepts_one (.bool r.applied) (by simp [required]) rfl, List.forall_mem_nil _⟩

end Schema

theorem Receipt.fits_toValue (r : Receipt) : r.toValue.Fits 3 := by
  refine .object fun m hm => ?_
  simp only [List.mem_append, List.mem_cons, List.not_mem_nil, or_false] at hm
  rcases hm with ((rfl | rfl | rfl) | hm) | rfl
  · exact .text _
  · refine .object fun m hm => ?_
    simp only [List.mem_cons, List.not_mem_nil, or_false] at hm
    rcases hm with rfl | rfl
    · exact .text _
    · exact .text _
  · exact .text _
  · exact (Evaluation.mem_toMembers hm 0).2
  · exact .bool _

/-! ## What is read -/

theorem Finding.mirrors : MirrorsFields
    [Schema.required "rule" Schema.text, Schema.required "file" Schema.text,
      Schema.required "line" Schema.count, Schema.required "message" Schema.text]
    Finding.slots {} Finding.Draft.finish where
  names := rfl
  nodup := by decide
  required := by decide
  vacant := by decide
  complete := by rintro ⟨_ | _, _ | _, _ | _, _ | _⟩ <;> rfl

/-- A finding that is an object is accepted where it is read. -/
theorem Finding.agrees (hv : ∀ vs, v ≠ .array vs) : Schema.finding.Agrees Finding.read v := by
  refine Finding.mirrors.agrees hv fun ms _ m _ f hf _ => ?_
  simp only [List.mem_cons, List.not_mem_nil, or_false] at hf
  rcases hf with rfl | rfl | rfl | rfl
  · exact ⟨_, slotAgrees_slot rfl (agrees_text m.2) (by simp [slots, slot, Schema.required])⟩
  · exact ⟨_, slotAgrees_slot rfl (agrees_text m.2) (by simp [slots, slot, Schema.required])⟩
  · exact ⟨_, slotAgrees_slot rfl (agrees_count m.2) (by simp [slots, slot, Schema.required])⟩
  · exact ⟨_, slotAgrees_slot rfl (agrees_text m.2) (by simp [slots, slot, Schema.required])⟩

/-- No array stands where a baseline has a record: neither for the baseline nor for one of its
findings. -/
structure Json.Value.RecordsAreObjects (v : Value) : Prop where
  itself : ∀ vs, v ≠ .array vs
  errors : ∀ {ms vs}, v = .object ms → ("errors", .array vs) ∈ ms → ∀ w ∈ vs, ∀ ws, w ≠ .array ws

theorem Baseline.mirrors : MirrorsFields
    [Schema.required "biomeVersion" Schema.text,
      Schema.required "fingerprints" (Schema.list Schema.text),
      Schema.required "errors" (Schema.list Schema.finding)]
    Baseline.slots {} Baseline.Draft.finish where
  names := rfl
  nodup := by decide
  required := by simp [Schema.required]
  vacant := by decide
  complete := by rintro ⟨_ | _, _ | _, _ | _⟩ <;> rfl

/-- A baseline is accepted where it is read, unless an array stands for a record. -/
theorem Baseline.agrees (hv : v.RecordsAreObjects) : Schema.baseline.Agrees Baseline.read v := by
  refine Baseline.mirrors.agrees hv.itself fun ms hms m hm f hf hname => ?_
  simp only [List.mem_cons, List.not_mem_nil, or_false] at hf
  rcases hf with rfl | rfl | rfl
  · exact ⟨_, slotAgrees_slot rfl (agrees_text m.2) (by simp [slots, slot, Schema.required])⟩
  · have hlist := agrees_list (v := m.2) fun vs _ w _ => agrees_text w
    exact ⟨_, slotAgrees_slot rfl hlist (by simp [slots, slot, Schema.required])⟩
  · have hlist := agrees_list (v := m.2) fun vs hvs w hw => by
      obtain ⟨name, v⟩ := m
      obtain rfl : v = .array vs := hvs
      obtain rfl : name = "errors" := hname
      exact Finding.agrees (hv.errors hms hm w hw)
    exact ⟨_, slotAgrees_slot rfl hlist (by simp [slots, slot, Schema.required])⟩

/-! ## The schemas agree with what is written and read -/

/-- The numbers of the value are counts, however deep it nests.  A count is below `2 ^ 32` and
written in digits only, so numbers written as `3.0`, `3e0` or `-0` are no counts. -/
def Json.Value.CountsOnly (v : Value) : Prop := ∃ room, v.Fits room

/-- The printed form of each document is a text of a value that its schema accepts.  And among the
values with counts for numbers and objects for records, the schema of a baseline accepts those that
are decoded, from whichever text and with blank text around it. -/
theorem schema_agrees :
    (∀ b : Baseline, Schema.baseline b.toValue = true ∧ b.toValue.Printed) ∧
    (∀ r : Receipt, Schema.receipt r.toValue = true ∧ r.toValue.Printed) ∧
    ∀ v : Value, v.CountsOnly → v.RecordsAreObjects →
      v.Printed ∧ ∀ {gap text gap'}, Blank gap → ValueText v text → Blank gap' →
        (Schema.baseline v = true ↔
          ∃ b, Baseline.decode (String.ofList (gap ++ (text ++ gap'))) = .ok b) := by
  refine ⟨fun b => ⟨Schema.baseline_toValue b, b.fits_toValue.printed⟩,
    fun r => ⟨Schema.receipt_toValue r, r.fits_toValue.printed⟩, ?_⟩
  rintro v ⟨room, hfits⟩ hrecords
  exact ⟨hfits.printed, fun hg ht hg' => (Baseline.agrees hrecords).readAll_iff hg ht hg'⟩

/-- A baseline with one finding and with a member that no schema mentions. -/
def extended (finding : List (String × Value)) : Value := .object [
  ("tool", .array [.array [], .array [.count 4294967295]]),
  ("errors", .array [.object finding]),
  ("fingerprints", .array []),
  ("biomeVersion", .text "1.9")]

theorem countsOnly_extended {finding : List (String × Value)} (h : ∀ m ∈ finding, m.2.Fits 1) :
    (extended finding).CountsOnly := by
  have htool : (Value.array [.array [], .array [.count 4294967295]]).Fits 3 := by
    refine .array (List.forall_mem_cons.mpr ⟨.array (List.forall_mem_nil _), List.forall_mem_singleton.mpr ?_⟩)
    exact .array (List.forall_mem_singleton.mpr (.count _))
  have herrors : (Value.array [.object finding]).Fits 3 :=
    .array (List.forall_mem_singleton.mpr (.object h))
  refine ⟨4, .object ?_⟩
  simp only [List.forall_mem_cons]
  exact ⟨htool, herrors, .array (List.forall_mem_nil _), .text _, List.forall_mem_nil _⟩

theorem recordsAreObjects_extended (finding : List (String × Value)) :
    (extended finding).RecordsAreObjects where
  itself := nofun
  errors {ms vs} hms hmem w hw ws := by
    cases hms
    obtain rfl : vs = [.object finding] := by simpa using hmem
    obtain rfl := List.mem_singleton.mp hw
    exact nofun

/-- A finding may have another member, which may hold an array.  But its line is not a text. -/
theorem schema_agrees_extended :
    let own : List (String × Value) :=
      [("rule", .text "no-var"), ("note", .array [.null]), ("file", .text "a.js"),
        ("message", .text "old")]
    let v := extended (("line", .count 3) :: own)
    let w := extended (("line", .text "3") :: own)
    (v.CountsOnly ∧ v.RecordsAreObjects ∧
      ∃ b, Baseline.decode (String.ofList (['\n'] ++ (v.pretty.toList ++ ['\n']))) = .ok b) ∧
    (w.CountsOnly ∧ w.RecordsAreObjects ∧
      ¬∃ b, Baseline.decode (String.ofList ([] ++ (w.compact.toList ++ []))) = .ok b) := by
  intro own v w
  have hown : ∀ m ∈ own, m.2.Fits 1 := by
    simp only [own, List.forall_mem_cons]
    exact ⟨.text _, .array (List.forall_mem_singleton.mpr .null), .text _, .text _,
      List.forall_mem_nil _⟩
  have hv : v.CountsOnly := countsOnly_extended (List.forall_mem_cons.mpr ⟨.count _, hown⟩)
  have hw : w.CountsOnly := countsOnly_extended (List.forall_mem_cons.mpr ⟨.text _, hown⟩)
  have hrecords := recordsAreObjects_extended (("line", .count 3) :: own)
  have hrecords' := recordsAreObjects_extended (("line", .text "3") :: own)
  have hline : Blank ['\n'] := blank_cons rfl blank_nil
  obtain ⟨hprinted, hiff⟩ := schema_agrees.2.2 v hv hrecords
  obtain ⟨hprinted', hiff'⟩ := schema_agrees.2.2 w hw hrecords'
  refine ⟨⟨hv, hrecords, (hiff hline hprinted.pretty hline).mp (by decide)⟩, hw, hrecords', ?_⟩
  rw [← hiff' blank_nil hprinted'.compact blank_nil]
  decide

end LintRatchet
