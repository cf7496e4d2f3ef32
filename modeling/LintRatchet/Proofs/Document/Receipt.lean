import LintRatchet.Document.Receipt
import LintRatchet.Proofs.Document.Baseline
import LintRatchet.Proofs.Json.Tree

/-!
# Receipts and summaries read back

An evaluation has three members that may be left out.  `Evaluation.toMembers_eq`
writes each of them as the value that is there or not, so that one lemma about
members that may be left out serves them all.

A receipt is read in two ways at once.  Its own members fill its slots, and the
members of its evaluation are kept as values (`Receipt.fills_kept`).  What is
kept is the list of members as it was written, and the evaluation is recovered
from it (`Evaluation.ofMembers?_toMembers`).
-/

namespace LintRatchet

open LintRatchet.Json

variable {l : Layout}

/-! ## Constants -/

theorem getD_map_some {α : Type} (o : Option α) : (o.map some).getD none = o := by
  cases o <;> rfl

/-- A verdict is found by its name. -/
theorem Verdict.lookup_name (v : Verdict) : Verdict.named.lookup v.name = some v := by
  cases v <;> rfl

theorem Outcome.lookup_name (o : Outcome) : Outcome.named.lookup o.name = some o := by
  cases o <;> rfl

theorem BaselineAction.lookup_name (a : BaselineAction) :
    BaselineAction.named.lookup a.name = some a := by
  cases a <;> rfl

/-! ## Evaluations -/

namespace Evaluation

/-- The number of absorbed findings, unless there are none. -/
def absorbed? (e : Evaluation) : Option UInt32 :=
  if e.absorbedCount = 0 then none else some e.absorbedCount

/-- The new findings, unless there are none. -/
def new? (e : Evaluation) : Option (List Finding) :=
  if e.newFindings = [] then none else some e.newFindings

/-- A count of absorbed findings that is left out was zero. -/
theorem getD_absorbed? (e : Evaluation) : e.absorbed?.getD 0 = e.absorbedCount := by
  unfold absorbed?
  split
  · next h => exact h.symm
  · rfl

theorem getD_new? (e : Evaluation) : e.new?.getD [] = e.newFindings := by
  unfold new?
  split
  · next h => exact h.symm
  · rfl

/-- The value of a list of findings. -/
def listed (fs : List Finding) : Value := .array (fs.map Finding.toValue)

/-- The members of an evaluation, with those that may be left out written as options. -/
theorem toMembers_eq (e : Evaluation) : e.toMembers =
    [("status", .text e.verdict.name), ("outcome", .text e.outcome.name),
      ("action", .text e.action.name), ("current_count", .count e.currentCount)] ++
    Value.member? "baseline_count" Value.count e.baselineCount ++
    [("fixed_count", .count e.fixedCount)] ++
    Value.member? "absorbed_count" Value.count e.absorbed? ++
    Value.member? "new_findings" listed e.new? := by
  unfold toMembers absorbed? new?
  split <;> split <;> rfl

/-- The draft that the members of an evaluation make. -/
def drafted (e : Evaluation) : Draft where
  verdict := some e.verdict
  outcome := some e.outcome
  action := some e.action
  currentCount := some e.currentCount
  baselineCount := e.baselineCount.map some
  fixedCount := some e.fixedCount
  absorbedCount := e.absorbed?
  newFindings := e.new?

/-- An evaluation comes out of the draft that holds all that is written of it. -/
theorem finish_drafted (e : Evaluation) : e.drafted.finish = some e := by
  simp only [drafted, Draft.finish, bind, Option.bind, pure, getD_absorbed?, getD_new?,
    getD_map_some]

/-- The members of an evaluation fill its draft, one after the other. -/
theorem fills_toMembers (hl : l.IsBlank) (e : Evaluation) :
    Fills l (readRecordMember slots false) {} e.toMembers e.drafted := by
  have hfirst : Fills l (readRecordMember slots false) {}
      [("status", .text e.verdict.name), ("outcome", .text e.outcome.name),
        ("action", .text e.action.name), ("current_count", .count e.currentCount)]
      { e.drafted with
        baselineCount := none, fixedCount := none, absorbedCount := none, newFindings := none } :=
    .cons (takes_slot hl rfl rfl (written_name e.verdict.lookup_name))
      (.cons (takes_slot hl rfl rfl (written_name e.outcome.lookup_name))
        (.cons (takes_slot hl rfl rfl (written_name e.action.lookup_name))
          (.cons (takes_slot hl rfl rfl (written_count e.currentCount)) .nil)))
  have hbaseline : Fills l (readRecordMember slots false)
      { e.drafted with
        baselineCount := none, fixedCount := none, absorbedCount := none, newFindings := none }
      (Value.member? "baseline_count" Value.count e.baselineCount)
      { e.drafted with fixedCount := none, absorbedCount := none, newFindings := none } :=
    fills_member? (fun n => takes_slot hl rfl rfl (written_option_count n)) (by
      rw [drafted]
      cases e.baselineCount <;> rfl)
  have hfixed : Fills l (readRecordMember slots false)
      { e.drafted with fixedCount := none, absorbedCount := none, newFindings := none }
      [("fixed_count", .count e.fixedCount)]
      { e.drafted with absorbedCount := none, newFindings := none } :=
    .cons (takes_slot hl rfl rfl (written_count e.fixedCount)) .nil
  have habsorbed : Fills l (readRecordMember slots false)
      { e.drafted with absorbedCount := none, newFindings := none }
      (Value.member? "absorbed_count" Value.count e.absorbed?)
      { e.drafted with newFindings := none } :=
    fills_member? (fun n => takes_slot hl rfl rfl (written_count n)) (by
      rw [drafted]
      cases e.absorbed? <;> rfl)
  have hnew : Fills l (readRecordMember slots false) { e.drafted with newFindings := none }
      (Value.member? "new_findings" listed e.new?) e.drafted :=
    fills_member? (fun fs => takes_slot hl rfl rfl (Finding.written_list hl fs)) (by
      rw [drafted]
      cases e.new? <;> rfl)
  rw [toMembers_eq]
  exact (((hfirst.append hbaseline).append hfixed).append habsorbed).append hnew

/-- An evaluation is read back from the value that is written for it. -/
theorem written (hl : l.IsBlank) (e : Evaluation) : Written l Evaluation.read e.toValue e :=
  written_record hl (fills_toMembers hl e) e.finish_drafted

end Evaluation

/-! ## Looking into values -/

namespace Json.Value

theorem asCount?_count (n : UInt32) : asCount? (.count n) = some n := toUInt32?_ofNat n

/-- A text is the constant that it names. -/
theorem asName?_text {α : Type} {named : List (String × α)} {name : String} {a : α}
    (h : named.lookup name = some a) : asName? named (.text name) = some a := h

@[simp] theorem allNamed_nil (name : String) : allNamed [] name = [] := rfl

@[simp] theorem allNamed_cons (name : String) (v : Value) (ms : List (String × Value))
    (name' : String) : allNamed ((name, v) :: ms) name' =
      if name = name' then v :: allNamed ms name' else allNamed ms name' := by
  by_cases h : name = name' <;> simp [allNamed, h]

/-- The members of a name in two lists are those of the first and then those of the second. -/
@[simp] theorem allNamed_append (ms ms' : List (String × Value)) (name : String) :
    allNamed (ms ++ ms') name = allNamed ms name ++ allNamed ms' name := by
  simp [allNamed]

@[simp] theorem allNamed_member? {α : Type} (name : String) (encode : α → Value) (o : Option α)
    (name' : String) : allNamed (member? name encode o) name' =
      if name = name' then (o.map encode).toList else [] := by
  cases o with
  | none => simp [member?, allNamed]
  | some a => by_cases h : name = name' <;> simp [member?, allNamed, h]

/-- A field that stands once is the value of its member. -/
theorem field?_eq {α : Type} {ms : List (String × Value)} {name : String} {v : Value}
    {value : Value → Option α} {a : α} (h : allNamed ms name = [v]) (hv : value v = some a) :
    field? ms name value = some a := by
  rw [field?, h]
  exact hv

/-- A member that may be left out stands for the default when it is. -/
theorem fieldOr?_eq {α β : Type} {ms : List (String × Value)} {name : String} {encode : β → Value}
    {o : Option β} {value : Value → Option α} {put : β → α}
    (h : allNamed ms name = (o.map encode).toList) (hv : ∀ b, value (encode b) = some (put b))
    (default : α) : fieldOr? ms name default value = some ((o.map put).getD default) := by
  rw [fieldOr?, h]
  cases o with
  | none => rfl
  | some b => exact hv b

end Json.Value

/-- A finding is taken back from its own document. -/
theorem Finding.ofValue?_toValue (f : Finding) : Finding.ofValue? f.toValue = some f := by
  simp [Finding.toValue, Finding.ofValue?, Value.field?, Value.asText?, Value.asCount?_count]

namespace Evaluation

theorem asList?_listed (fs : List Finding) :
    Value.asList? Finding.ofValue? (listed fs) = some fs := by
  induction fs with
  | nil => rfl
  | cons f fs ih =>
    simp only [listed, Value.asList?, List.map_cons, List.mapM_cons, Finding.ofValue?_toValue]
      at ih ⊢
    rw [ih]
    rfl

/-- The members of an evaluation hold the evaluation, field by field. -/
theorem ofMembers?_toMembers (e : Evaluation) : ofMembers? e.toMembers = some e := by
  have hstatus : Value.allNamed e.toMembers "status" = [.text e.verdict.name] := by
    simp [toMembers_eq]
  have houtcome : Value.allNamed e.toMembers "outcome" = [.text e.outcome.name] := by
    simp [toMembers_eq]
  have haction : Value.allNamed e.toMembers "action" = [.text e.action.name] := by
    simp [toMembers_eq]
  have hcurrent : Value.allNamed e.toMembers "current_count" = [.count e.currentCount] := by
    simp [toMembers_eq]
  have hbaseline : Value.allNamed e.toMembers "baseline_count" =
      (e.baselineCount.map Value.count).toList := by
    simp [toMembers_eq]
  have hfixed : Value.allNamed e.toMembers "fixed_count" = [.count e.fixedCount] := by
    simp [toMembers_eq]
  have habsorbed : Value.allNamed e.toMembers "absorbed_count" =
      (e.absorbed?.map Value.count).toList := by
    simp [toMembers_eq]
  have hnew : Value.allNamed e.toMembers "new_findings" = (e.new?.map listed).toList := by
    simp [toMembers_eq]
  have hcounts : ∀ n, Value.asOption? Value.asCount? (.count n) = some (some n) :=
    fun n => congrArg (Option.map some) (Value.asCount?_count n)
  rw [ofMembers?, Value.field?_eq hstatus (Value.asName?_text e.verdict.lookup_name),
    Value.field?_eq houtcome (Value.asName?_text e.outcome.lookup_name),
    Value.field?_eq haction (Value.asName?_text e.action.lookup_name),
    Value.field?_eq hcurrent (Value.asCount?_count _),
    Value.fieldOr?_eq hbaseline hcounts, Value.field?_eq hfixed (Value.asCount?_count _),
    Value.fieldOr?_eq habsorbed Value.asCount?_count, Value.fieldOr?_eq hnew asList?_listed]
  simp only [bind, Option.bind, pure, Option.map_id', getD_map_some, getD_absorbed?, getD_new?]

theorem fits_listed (room : Nat) (fs : List Finding) : (listed fs).Fits (room + 2) := by
  refine .array fun v hv => ?_
  obtain ⟨f, -, rfl⟩ := List.mem_map.mp hv
  refine .object fun m hm => ?_
  simp only [List.mem_cons, List.not_mem_nil, or_false] at hm
  rcases hm with rfl | rfl | rfl | rfl
  · exact .text f.rule
  · exact .text f.file
  · exact .count f.line
  · exact .text f.message

/-- The names of the members of an evaluation. -/
def names : List String := slots.map Slot.name

/-- Each member of an evaluation has one of its names, and its value does not nest deep. -/
theorem mem_toMembers {e : Evaluation} {m : String × Value} (hm : m ∈ e.toMembers) (room : Nat) :
    m.1 ∈ names ∧ m.2.Fits (room + 2) := by
  have hgiven : ∀ {name : String} {v : Value}, name ∈ names → v.Fits (room + 2) →
      m = (name, v) → m.1 ∈ names ∧ m.2.Fits (room + 2) := by
    rintro name v hname hfits rfl
    exact ⟨hname, hfits⟩
  have hoptional : ∀ {α : Type} {name : String} {encode : α → Value} {o : Option α},
      name ∈ names → (∀ a, (encode a).Fits (room + 2)) → m ∈ Value.member? name encode o →
        m.1 ∈ names ∧ m.2.Fits (room + 2) := by
    intro α name encode o hname hfits hm
    cases o with
    | none => cases hm
    | some a => exact hgiven hname (hfits a) (List.mem_singleton.mp hm)
  rw [toMembers_eq] at hm
  simp only [List.mem_append, List.mem_cons, List.not_mem_nil, or_false] at hm
  rcases hm with ((((hm | hm | hm | hm) | hm) | hm) | hm) | hm
  · exact hgiven (by decide) (.text _) hm
  · exact hgiven (by decide) (.text _) hm
  · exact hgiven (by decide) (.text _) hm
  · exact hgiven (by decide) (.count _) hm
  · exact hoptional (by decide) (fun n => .count n) hm
  · exact hgiven (by decide) (.count _) hm
  · exact hoptional (by decide) (fun n => .count n) hm
  · exact hoptional (by decide) (fits_listed room) hm

end Evaluation

/-! ## Receipts -/

theorem Tool.written (hl : l.IsBlank) (t : Tool) : Written l Tool.read t.toValue t := by
  have hfills : Fills l (readRecordMember Tool.slots false) {}
      [("name", .text t.name), ("version", .text t.version)] ⟨some t.name, some t.version⟩ :=
    .cons (takes_slot hl rfl rfl (written_text t.name))
      (.cons (takes_slot hl rfl rfl (written_text t.version)) .nil)
  exact written_record hl hfills rfl

namespace Receipt

/-- A member of the receipt itself fills its slot. -/
theorem takes_own (hl : l.IsBlank) {α : Type} {name : String} {value : Reader α}
    {get : Draft → Option α} {set : Draft → α → Draft} {d : Draft} {v : Value} {a : α}
    (hf : slots.find? (fun f => f.name == name) = some (slot name value get set))
    (hd : get d = none) (hv : Written l value v a) : Takes l readMember d name v (set d a) := by
  have htakes : Takes l (readRecordMember slots false) d name v (set d a) :=
    takes_slot hl hf hd hv
  intro depth rest hr
  have hread := htakes depth rest hr
  have hquoted := (spells_flatMap_escape name.toList).readQuoted
    (':' :: (l.afterColon ++ (v.write l depth ++ rest)))
  simp only [writeMember, List.append_assoc, List.cons_append, readRecordMember, hquoted, bind,
    Except.bind, hf] at hread
  simp only [writeMember, List.append_assoc, List.cons_append, readMember, hquoted, bind,
    Except.bind, hf, hread]

/-- Any other member is kept. -/
theorem takes_other (hl : l.IsBlank) {name : String} {v : Value}
    (hf : slots.find? (fun f => f.name == name) = none) (hv : v.Fits room) (d : Draft) :
    Takes l readMember d name v { d with others := (name, v) :: d.others } := by
  intro depth rest hr
  have hkept := takes_kept hl (hv.written hl) d.others name depth rest hr
  have hquoted := (spells_flatMap_escape name.toList).readQuoted
    (':' :: (l.afterColon ++ (v.write l depth ++ rest)))
  have hcolon := readColon_blank blank_nil (l.afterColon ++ (v.write l depth ++ rest))
  have hread := (hv.written hl depth).read l.afterColon rest hl.afterColon hr
  rw [List.nil_append] at hcolon
  simp only [writeMember, List.append_assoc, List.cons_append, readMember, hquoted, bind,
    Except.bind, hf, hcolon, hread, pure, Except.pure]

/-- Members of other names are kept, the last one first. -/
theorem fills_others (hl : l.IsBlank) {ms : List (String × Value)}
    (h : ∀ m ∈ ms, slots.find? (fun f => f.name == m.1) = none ∧ m.2.Fits room) (d : Draft) :
    Fills l readMember d ms { d with others := ms.reverse ++ d.others } := by
  induction ms generalizing d with
  | nil => exact .nil
  | cons m ms ih =>
    obtain ⟨name, v⟩ := m
    obtain ⟨hname, hfits⟩ := h _ (List.mem_cons_self ..)
    have hrest := ih (fun m hm => h m (List.mem_cons_of_mem _ hm))
      { d with others := (name, v) :: d.others }
    rw [List.reverse_cons, List.append_assoc]
    exact .cons (takes_other hl hname hfits d) hrest

/-- The members of the evaluation are none of the receipt's own. -/
theorem find?_eq_none : ∀ name ∈ Evaluation.names, slots.find? (fun f => f.name == name) = none := by
  decide

/-- A receipt is read back from the value that is written for it. -/
theorem written (hl : l.IsBlank) (r : Receipt) : Written l Receipt.read r.toValue r := by
  have hown : Fills l readMember {}
      [("schema", .text r.schema), ("tool", r.tool.toValue),
        ("biome_version", .text r.linterVersion)]
      ⟨some r.schema, some r.tool, some r.linterVersion, none, []⟩ :=
    .cons (takes_own hl rfl rfl (written_text r.schema))
      (.cons (takes_own hl rfl rfl (Tool.written hl r.tool))
        (.cons (takes_own hl rfl rfl (written_text r.linterVersion)) .nil))
  have hevaluation : Fills l readMember
      ⟨some r.schema, some r.tool, some r.linterVersion, none, []⟩ r.evaluation.toMembers
      ⟨some r.schema, some r.tool, some r.linterVersion, none,
        r.evaluation.toMembers.reverse ++ []⟩ :=
    fills_others hl (fun m hm => by
      obtain ⟨hname, hfits⟩ := Evaluation.mem_toMembers hm 124
      exact ⟨find?_eq_none _ hname, hfits⟩) _
  have happlied : Fills l readMember
      ⟨some r.schema, some r.tool, some r.linterVersion, none,
        r.evaluation.toMembers.reverse ++ []⟩ [("applied", .bool r.applied)]
      ⟨some r.schema, some r.tool, some r.linterVersion, some r.applied,
        r.evaluation.toMembers.reverse ++ []⟩ :=
    .cons (takes_own hl rfl rfl (written_bool r.applied)) .nil
  intro depth
  obtain ⟨text, htext, hrest⟩ := ((hown.append hevaluation).append happlied).objectRest hl depth
  rw [toValue, htext]
  refine ⟨⟨'\x7b', text, rfl, by decide, by decide⟩, fun gap rest hg _ => ?_⟩
  have hobject := hrest.readObjectRest rest
  rw [List.cons_append, Receipt.read, skipGap_blank_cons hg (by decide)]
  simp only [if_true, hobject, bind, Except.bind, Draft.finish, Option.bind, List.append_nil,
    List.reverse_reverse, Evaluation.ofMembers?_toMembers, pure, Except.pure]

end Receipt

/-! ## Summaries -/

theorem Summary.written (hl : l.IsBlank) (s : Summary) : Written l Summary.read s.toValue s := by
  have hfirst : Fills l (readRecordMember Summary.slots false) {}
      [("path", .text s.path), ("exists", .bool s.present)]
      ⟨some s.path, some s.present, none, none, none⟩ :=
    .cons (takes_slot hl rfl rfl (written_text s.path))
      (.cons (takes_slot hl rfl rfl (written_bool s.present)) .nil)
  have hversion : Fills l (readRecordMember Summary.slots false)
      ⟨some s.path, some s.present, none, none, none⟩
      (Value.member? "biome_version" Value.text s.linterVersion)
      ⟨some s.path, some s.present, s.linterVersion.map some, none, none⟩ :=
    fills_member? (fun v => takes_slot hl rfl rfl (written_option_text v)) (by
      cases s.linterVersion <;> rfl)
  have hcounts : Fills l (readRecordMember Summary.slots false)
      ⟨some s.path, some s.present, s.linterVersion.map some, none, none⟩
      [("fingerprints", .count s.fingerprints), ("findings", .count s.findings)]
      ⟨some s.path, some s.present, s.linterVersion.map some, some s.fingerprints,
        some s.findings⟩ :=
    .cons (takes_slot hl rfl rfl (written_count s.fingerprints))
      (.cons (takes_slot hl rfl rfl (written_count s.findings)) .nil)
  refine written_record hl ((hfirst.append hversion).append hcounts) ?_
  simp only [Summary.Draft.finish, bind, Option.bind, pure, getD_map_some]

end LintRatchet
