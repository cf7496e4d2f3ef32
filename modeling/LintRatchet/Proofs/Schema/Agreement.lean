import LintRatchet.Proofs.Document.Receipt
import LintRatchet.Proofs.Json.Denoting
import LintRatchet.Proofs.Json.Refusing
import LintRatchet.Schema
import Mathlib.Data.List.Nodup

/-!
# Schemas and readers

A schema looks at a value, and a reader at a text.  `Agrees s r v` says that the
two come to the same conclusion about `v`: the reader takes every text of `v`
when the schema accepts it, and otherwise it refuses every one of them.

Agreement on an array follows from agreement on its items.  For an object, the
slots of the reader have to mirror the fields of the schema (`MirrorsFields`).  Then
the members are followed one by one, and after each of them the draft has the
fields that were named so far (`HasFields`).
-/

namespace LintRatchet

open LintRatchet.Json

variable {α σ : Type} {v : Value} {text : List Char}

/-- The reader takes the texts of the value if the schema accepts it, and refuses them if not. -/
def Schema.Agrees (s : Schema) (r : Reader α) (v : Value) : Prop :=
  ∀ text, ValueText v text →
    (s v = true ∧ ∃ a, Reads r text a) ∨ (s v = false ∧ Refuses r text)

/-- So the schema says which texts hold a document. -/
theorem Schema.Agrees.readAll_iff {s : Schema} {r : Reader α} (h : s.Agrees r v)
    {gap gap' : List Char} (hg : Blank gap) (ht : ValueText v text) (hg' : Blank gap') :
    s v = true ↔ ∃ a, readAll r (String.ofList (gap ++ (text ++ gap'))) = .ok a := by
  rcases h _ ht with ⟨hs, a, hread⟩ | ⟨hs, hrefuses⟩
  · exact iff_of_true hs ⟨a, hread.readAll hg hg'⟩
  · refine iff_of_false (by simp [hs]) ?_
    rintro ⟨a, ha⟩
    exact hrefuses.not_readAll hg hg' a ha

/-! ## Values of another kind -/

/-- A text of a value starts with a character that tells its kind. -/
theorem Json.ValueText.head (h : ValueText v text) :
    ∃ c cs, text = c :: cs ∧ v.Opens c ∧ isGap c = Bool.false ∧ c ≠ ']' := by
  obtain ⟨c, cs, rfl, hopens⟩ := h.opens
  obtain ⟨d, ds, heq, hgap, hclose⟩ := h.starts
  obtain ⟨rfl, rfl⟩ := List.cons.inj heq
  exact ⟨c, cs, rfl, hopens, hgap, hclose⟩

/-- A value of another kind is not read as a text. -/
theorem Json.ValueText.refuses_text (h : ValueText v text) (hv : ¬v.Opens '"') :
    Refuses readText text := by
  obtain ⟨c, cs, rfl, hopens, hgap, hclose⟩ := h.head
  exact readText_refuses hgap hclose (by rintro rfl; exact hv hopens)

theorem Json.ValueText.refuses_count (h : ValueText v text) (hminus : ¬v.Opens '-')
    (hv : ∀ c, v.Opens c → c.isDigit = Bool.false) : Refuses readCount text := by
  obtain ⟨c, cs, rfl, hopens, hgap, hclose⟩ := h.head
  exact readCount_refuses hgap hclose (by rintro rfl; exact hminus hopens) (hv c hopens)

theorem Json.ValueText.refuses_array {item : Reader α} (h : ValueText v text)
    (hv : ¬v.Opens '[') : Refuses (readArray item) text := by
  obtain ⟨c, cs, rfl, hopens, hgap, hclose⟩ := h.head
  exact readArray_refuses hgap hclose (by rintro rfl; exact hv hopens)

theorem Json.ValueText.refuses_record {slots : List (Slot σ)} {closed : Bool} {empty : σ}
    {finish : σ → Option α} (h : ValueText v text) (harray : ¬v.Opens '[')
    (hobject : ¬v.Opens '\x7b') : Refuses (readRecord slots closed empty finish) text := by
  obtain ⟨c, cs, rfl, hopens, hgap, hclose⟩ := h.head
  exact readRecord_refuses hgap hclose (by rintro rfl; exact harray hopens)
    (by rintro rfl; exact hobject hopens)

/-! ## Texts, counts and arrays -/

theorem agrees_text (v : Value) : Schema.text.Agrees readText v := by
  intro text ht
  cases v with
  | text s =>
    cases ht with
    | text h => exact .inl ⟨rfl, s, h.readText⟩
  | bool b => exact .inr ⟨rfl, ht.refuses_text (by cases b <;> nofun)⟩
  | null | number _ | array _ | object _ =>
    exact .inr ⟨rfl, ht.refuses_text (by simp [Value.Opens])⟩

/-- A count is accepted where it is read. -/
theorem agrees_count (v : Value) : Schema.count.Agrees readCount v := by
  intro text ht
  cases v with
  | number n =>
    cases ht with
    | count n => exact .inl ⟨rfl, n, reads_count n⟩
  | bool b =>
    exact .inr ⟨rfl, ht.refuses_count (by cases b <;> nofun) (by cases b <;> rintro c rfl <;> rfl)⟩
  | null | text _ | array _ | object _ =>
    exact .inr ⟨rfl, ht.refuses_count nofun (by rintro c rfl; rfl)⟩

/-- The items are all taken, or they are taken up to one that is refused. -/
theorem items_agree {s : Schema} {item : Reader α} {items : List (Value × ItemText)}
    (h : ∀ i ∈ items, s.Agrees item i.1) (ht : ∀ i ∈ items, ValueText i.1 i.2.value) :
    ((items.map Prod.fst).all s = true ∧
      ∃ as, List.Forall₂ (fun (i : ItemText) a => Reads item i.value a) (items.map Prod.snd) as) ∨
    ((items.map Prod.fst).all s = false ∧ ItemsRefused item (items.map Prod.snd)) := by
  induction items with
  | nil => exact .inl ⟨rfl, [], .nil⟩
  | cons i items ih =>
    obtain ⟨hi, h⟩ := List.forall_mem_cons.mp h
    obtain ⟨hit, ht⟩ := List.forall_mem_cons.mp ht
    rcases hi _ hit with ⟨hs, a, hread⟩ | ⟨hs, hrefuses⟩
    · rcases ih h ht with ⟨hall, as, hreads⟩ | ⟨hall, hrefused⟩
      · exact .inl ⟨by simpa [hs] using hall, a :: as, .cons hread hreads⟩
      · exact .inr ⟨by simpa [hs] using hall, .later hread hrefused⟩
    · exact .inr ⟨by simp [hs], .here hrefuses⟩

theorem agrees_array {s : Schema} {item : Reader α} {vs : List Value}
    (h : ∀ w ∈ vs, s.Agrees item w) : (Schema.list s).Agrees (readArray item) (.array vs) := by
  intro text ht
  cases ht with
  | emptyArray hgap => exact .inl ⟨rfl, [], (ArrayRest.empty hgap).readArray⟩
  | @array items hne hitems =>
    have hagree := items_agree (fun i hi => h i.1 (List.mem_map_of_mem hi)) hitems
    rcases hagree with ⟨hall, as, hreads⟩ | ⟨hall, hrefused⟩
    · exact .inl ⟨hall, as, (arrayRest_of_items (by simpa using hne) hreads).readArray⟩
    · exact .inr ⟨hall, hrefused.readArray⟩

/-- A list is accepted where its items are, and read where they are. -/
theorem agrees_list {s : Schema} {item : Reader α}
    (h : ∀ vs, v = .array vs → ∀ w ∈ vs, s.Agrees item w) :
    (Schema.list s).Agrees (readArray item) v := by
  cases v with
  | array vs => exact agrees_array (h vs rfl)
  | bool b => exact fun _ ht => .inr ⟨rfl, ht.refuses_array (by cases b <;> nofun)⟩
  | null | number _ | text _ | object _ =>
    exact fun _ ht => .inr ⟨rfl, ht.refuses_array (by simp [Value.Opens])⟩

/-! ## Fields and slots -/

/-- The draft has the fields with these names and no others. -/
def HasFields (slots : List (Slot σ)) (s : σ) (seen : List String) : Prop :=
  ∀ f ∈ slots, f.filled s = true ↔ f.name ∈ seen

/-- A slot agrees with the schema of the field on a value.  A draft that takes the value has that
field and those that it had. -/
structure SlotAgrees (slots : List (Slot σ)) (f : Schema.Field) (v : Value) (slot : Slot σ) :
    Prop where
  find : (slots.find? fun g => g.name == f.name) = some slot
  agrees : ∀ {s text}, ValueText v text →
    (f.schema v = true ∧ ∃ s', Reads (slot.read s) text s' ∧
      ∀ g ∈ slots, g.filled s' = true ↔ g.name = f.name ∨ g.filled s = true) ∨
    (f.schema v = false ∧ Refuses (slot.read s) text)

theorem slotAgrees_slot {slots : List (Slot σ)} {f : Schema.Field} {value : Reader α}
    {get : σ → Option α} {set : σ → α → σ}
    (hfind : (slots.find? fun g => g.name == f.name) = some (slot f.name value get set))
    (h : f.schema.Agrees value v)
    (hset : ∀ s a, ∀ g ∈ slots, g.filled (set s a) = true ↔ g.name = f.name ∨ g.filled s = true) :
    SlotAgrees slots f v (slot f.name value get set) where
  find := hfind
  agrees {s text} ht := by
    rcases h _ ht with ⟨hs, a, hread⟩ | ⟨hs, hrefuses⟩
    · refine .inl ⟨hs, set s a, ⟨hread.starts, fun gap rest hg hr => ?_⟩, hset s a⟩
      simp only [slot, hread.read gap rest hg hr, bind, Except.bind, pure, Except.pure]
    · refine .inr ⟨hs, hrefuses.starts, fun gap rest hg hr => ?_⟩
      obtain ⟨p, hp⟩ := hrefuses.refuse gap rest hg hr
      exact ⟨p, by simp only [slot, hp, bind, Except.bind]⟩

/-- The slots of a reader are the fields of a schema, and none of them may be left out. -/
structure MirrorsFields (fields : List Schema.Field) (slots : List (Slot σ)) (empty : σ)
    (finish : σ → Option α) : Prop where
  names : slots.map Slot.name = fields.map Schema.Field.name
  nodup : (fields.map Schema.Field.name).Nodup
  required : ∀ f ∈ fields, f.required = true
  vacant : ∀ f ∈ slots, f.filled empty = false
  complete : ∀ s, (finish s).isSome = slots.all fun f => f.filled s

theorem Json.Value.allNamed_eq_nil_iff {ms : List (String × Value)} {name : String} :
    allNamed ms name = [] ↔ name ∉ ms.map Prod.fst := by
  induction ms with
  | nil => simp
  | cons m ms ih =>
    obtain ⟨name', v⟩ := m
    by_cases hname : name' = name
    · simp [hname]
    · simp [hname, ih, Ne.symm hname]

/-- The members have the field at most once, with a value that its schema accepts, and not at all
when it was there before. -/
def Schema.Field.Permits (f : Schema.Field) (seen : List String) (ms : List (String × Value)) :
    Prop :=
  Value.allNamed ms f.name = [] ∨
    (f.name ∉ seen ∧ ∃ v, Value.allNamed ms f.name = [v] ∧ f.schema v = true)

namespace Schema.Field

variable {f : Schema.Field} {m : String × Value} {ms : List (String × Value)} {seen : List String}

/-- What a field permits is asked of one member at a time. -/
theorem permits_cons : f.Permits seen (m :: ms) ↔
    (f.name = m.1 → f.name ∉ seen ∧ f.schema m.2 = true) ∧ f.Permits (m.1 :: seen) ms := by
  obtain ⟨name, v⟩ := m
  by_cases hname : name = f.name
  · subst hname
    simp only [Permits, Value.allNamed_cons, if_true, List.cons_ne_nil, false_or, List.cons.injEq,
      List.mem_cons, true_or, not_true_eq_false, false_and, or_false, forall_const, and_assoc]
    constructor
    · rintro ⟨hseen, w, rfl, hnil, hschema⟩
      exact ⟨hseen, hschema, hnil⟩
    · rintro ⟨hseen, hschema, hnil⟩
      exact ⟨hseen, v, rfl, hnil, hschema⟩
  · simp [Permits, hname, Ne.symm hname]

/-- The members satisfy a required field when it is permitted and there. -/
theorem accepts_iff (hf : f.required = true) :
    f.accepts ms = true ↔ f.Permits [] ms ∧ f.name ∈ ms.map Prod.fst := by
  have hthere : f.name ∈ ms.map Prod.fst ↔ Value.allNamed ms f.name ≠ [] := by
    rw [Ne, Value.allNamed_eq_nil_iff, not_not]
  rw [hthere, accepts, Permits]
  cases h : Value.allNamed ms f.name with
  | nil => simp [hf]
  | cons v vs =>
    cases vs with
    | nil => simp
    | cons w vs => simp

end Schema.Field

/-! ## Records -/

namespace MirrorsFields

variable {fields : List Schema.Field} {slots : List (Slot σ)} {empty s : σ}
  {finish : σ → Option α} {seen : List String}

theorem find?_eq_none (h : MirrorsFields fields slots empty finish) {name : String}
    (hname : ∀ f ∈ fields, f.name ≠ name) : (slots.find? fun g => g.name == name) = none := by
  refine List.find?_eq_none.mpr fun g hg => ?_
  have hmem : g.name ∈ fields.map Schema.Field.name := h.names ▸ List.mem_map_of_mem hg
  obtain ⟨f, hf, hfg⟩ := List.mem_map.mp hmem
  simpa [← hfg] using hname f hf

/-- A draft is complete when it has all fields of the schema. -/
theorem isSome_finish (h : MirrorsFields fields slots empty finish) (hs : HasFields slots s seen) :
    (finish s).isSome = true ↔ ∀ f ∈ fields, f.name ∈ seen := by
  have hslots : (∀ g ∈ slots, g.name ∈ seen) ↔ ∀ name ∈ slots.map Slot.name, name ∈ seen := by
    simp
  have hfields : (∀ f ∈ fields, f.name ∈ seen) ↔
      ∀ name ∈ fields.map Schema.Field.name, name ∈ seen := by
    simp
  rw [hfields, ← h.names, ← hslots, h.complete, List.all_eq_true]
  exact forall₂_congr fun g hg => hs g hg

/-- One member: it is taken when each field of its name allows that, and then the draft has it. -/
theorem member (h : MirrorsFields fields slots empty finish) (hs : HasFields slots s seen)
    {m : (String × Value) × MemberText} (hname : Spelling m.2.name m.1.1.toList)
    (ht : ValueText m.1.2 m.2.value)
    (hagrees : ∀ f ∈ fields, m.1.1 = f.name → ∃ slot, SlotAgrees slots f m.1.2 slot) :
    ((∀ f ∈ fields, f.name = m.1.1 → f.name ∉ seen ∧ f.schema m.1.2 = true) ∧
      ∃ s', MemberReads (readRecordMember slots false) s m.2.core s' ∧
        HasFields slots s' (m.1.1 :: seen)) ∨
    ((∃ f ∈ fields, f.name = m.1.1 ∧ (f.name ∈ seen ∨ f.schema m.1.2 = false)) ∧
      MemberRefuses (readRecordMember slots false) s m.2.core) := by
  by_cases hfield : ∃ f ∈ fields, f.name = m.1.1
  · obtain ⟨f, hf, hfname⟩ := hfield
    obtain ⟨slot, hslot⟩ := hagrees f hf hfname.symm
    have hmem : slot ∈ slots := List.mem_of_find?_eq_some hslot.find
    have hslotname : slot.name = f.name := by simpa using List.find?_some hslot.find
    have hfilled : slot.filled s = true ↔ f.name ∈ seen := hslotname ▸ hs slot hmem
    rw [← hfname] at hname ⊢
    -- A field that was there before is refused whatever its value is.
    by_cases hseen : f.name ∈ seen
    · exact .inr ⟨⟨f, hf, rfl, .inl hseen⟩,
        memberRefuses_filled hname hslot.find (hfilled.mpr hseen)⟩
    have hvacant : slot.filled s = false := by
      rw [← Bool.not_eq_true, hfilled]
      exact hseen
    rcases hslot.agrees (s := s) ht with ⟨hschema, s', hread, hs'⟩ | ⟨hschema, hrefuses⟩
    · refine .inl ⟨fun g hg hgname => ?_, s', ?_, fun g hg => ?_⟩
      · obtain rfl := List.inj_on_of_nodup_map h.nodup hg hf hgname
        exact ⟨hseen, hschema⟩
      · exact (SlotReads.mk hvacant hread).memberReads false hslot.find hname.spells
          m.2.blank_beforeColon m.2.blank_afterColon
      · rw [hs' g hg, hs g hg, List.mem_cons]
    · exact .inr ⟨⟨f, hf, rfl, .inr hschema⟩,
        memberRefuses_value hname hslot.find hvacant hrefuses⟩
  · -- Any other member is passed over, and the draft stays as it is.
    push Not at hfield
    have hfind := h.find?_eq_none hfield
    refine .inl ⟨fun f hf hfname => absurd hfname (hfield f hf), s,
      memberReads_other s hname hfind ht.isValue, fun g hg => ?_⟩
    have hne : g.name ≠ m.1.1 := by simpa using List.find?_eq_none.mp hfind g hg
    rw [hs g hg, List.mem_cons, or_iff_right hne]

/-- All members: they are taken when the fields permit them, and the draft has what is among
them. -/
theorem members (h : MirrorsFields fields slots empty finish) (hs : HasFields slots s seen)
    {ms : List ((String × Value) × MemberText)} (hnames : ∀ m ∈ ms, Spelling m.2.name m.1.1.toList)
    (hts : ∀ m ∈ ms, ValueText m.1.2 m.2.value)
    (hagrees : ∀ m ∈ ms, ∀ f ∈ fields, m.1.1 = f.name → ∃ slot, SlotAgrees slots f m.1.2 slot) :
    ((∀ f ∈ fields, f.Permits seen (ms.map Prod.fst)) ∧
      ∃ s', MembersRead (readRecordMember slots false) s (ms.map Prod.snd) s' ∧
        HasFields slots s' ((ms.map (·.1.1)).reverse ++ seen)) ∨
    ((∃ f ∈ fields, ¬f.Permits seen (ms.map Prod.fst)) ∧
      MembersRefused (readRecordMember slots false) s (ms.map Prod.snd)) := by
  induction ms generalizing s seen with
  | nil => exact .inl ⟨fun _ _ => .inl rfl, s, .nil, hs⟩
  | cons m ms ih =>
    obtain ⟨hname, hnames⟩ := List.forall_mem_cons.mp hnames
    obtain ⟨ht, hts⟩ := List.forall_mem_cons.mp hts
    obtain ⟨hagree, hagrees⟩ := List.forall_mem_cons.mp hagrees
    simp only [List.map_cons, Schema.Field.permits_cons]
    rcases h.member hs hname ht hagree with
      ⟨hfields, s', hread, hs'⟩ | ⟨⟨f, hf, hfname, hno⟩, hrefuses⟩
    · rcases ih hs' hnames hts hagrees with
        ⟨hpermits, s'', hreads, hs''⟩ | ⟨⟨f, hf, hno⟩, hrefused⟩
      · refine .inl ⟨fun f hf => ⟨hfields f hf, hpermits f hf⟩, s'', .cons hread hreads, ?_⟩
        simpa using hs''
      · exact .inr ⟨⟨f, hf, fun hpermits => hno hpermits.2⟩, .later hread hrefused⟩
    · refine .inr ⟨⟨f, hf, fun hpermits => ?_⟩, .here hrefuses⟩
      obtain ⟨hseen, hschema⟩ := hpermits.1 hfname
      rcases hno with hno | hno
      · exact hseen hno
      · rw [hschema] at hno
        cases hno

theorem hasFields_empty (h : MirrorsFields fields slots empty finish) :
    HasFields slots empty [] := by
  intro f hf
  rw [h.vacant f hf]
  exact iff_of_false Bool.false_ne_true List.not_mem_nil

theorem accepts_iff (h : MirrorsFields fields slots empty finish) {ms : List (String × Value)} :
    Schema.record fields (.object ms) = true ↔
      (∀ f ∈ fields, f.Permits [] ms) ∧ ∀ f ∈ fields, f.name ∈ ms.map Prod.fst := by
  rw [Schema.record, List.all_eq_true, ← forall₂_and]
  exact forall₂_congr fun f hf => Schema.Field.accepts_iff (h.required f hf)

/-- When all members are taken, what is left to say is whether a field is missing. -/
theorem agrees_rest (h : MirrorsFields fields slots empty finish) {ms : List (String × Value)}
    {rest : List Char} (hrest : ObjectRest (readRecordMember slots false) empty rest s)
    (hs : HasFields slots s (ms.map Prod.fst)) (hpermits : ∀ f ∈ fields, f.Permits [] ms) :
    (Schema.record fields (.object ms) = true ∧
      ∃ a, Reads (readRecord slots false empty finish) ('\x7b' :: rest) a) ∨
    (Schema.record fields (.object ms) = false ∧
      Refuses (readRecord slots false empty finish) ('\x7b' :: rest)) := by
  have hfinish : (finish s).isSome = true ↔ Schema.record fields (.object ms) = true := by
    rw [h.isSome_finish hs, h.accepts_iff, and_iff_right hpermits]
  cases hf : finish s with
  | some a => exact .inl ⟨hfinish.mp (by rw [hf]; rfl), a, hrest.readRecord hf⟩
  | none =>
    refine .inr ⟨?_, hrest.readRecord_refuses hf⟩
    rw [← Bool.not_eq_true, ← hfinish, hf]
    exact Bool.false_ne_true

/-- A record agrees on an object when its slots agree on the members. -/
theorem agrees_object (h : MirrorsFields fields slots empty finish) {ms : List (String × Value)}
    (hagrees : ∀ m ∈ ms, ∀ f ∈ fields, m.1 = f.name → ∃ slot, SlotAgrees slots f m.2 slot) :
    (Schema.record fields).Agrees (readRecord slots false empty finish) (.object ms) := by
  intro text ht
  cases ht with
  | emptyObject hgap => exact h.agrees_rest (.empty hgap) h.hasFields_empty fun _ _ => .inl rfl
  | @object members hne hnames hts =>
    have hagree : ∀ m ∈ members, ∀ f ∈ fields, m.1.1 = f.name →
        ∃ slot, SlotAgrees slots f m.1.2 slot :=
      fun m hm => hagrees m.1 (List.mem_map_of_mem hm)
    rcases h.members h.hasFields_empty hnames hts hagree with
      ⟨hpermits, s, hread, hs⟩ | ⟨⟨f, hf, hno⟩, hrefused⟩
    · refine h.agrees_rest (objectRest_of_members (by simpa using hne) hread) (fun f hf => ?_)
        hpermits
      rw [hs f hf]
      simp
    · refine .inr ⟨?_, hrefused.readRecord⟩
      rw [← Bool.not_eq_true, h.accepts_iff]
      exact fun haccepts => hno (haccepts.1 f hf)

/-- So it does on every value but an array. -/
theorem agrees (h : MirrorsFields fields slots empty finish) (harray : ∀ vs, v ≠ .array vs)
    (hagrees : ∀ ms, v = .object ms → ∀ m ∈ ms, ∀ f ∈ fields, m.1 = f.name →
      ∃ slot, SlotAgrees slots f m.2 slot) :
    (Schema.record fields).Agrees (readRecord slots false empty finish) v := by
  cases v with
  | array vs => exact absurd rfl (harray vs)
  | object ms => exact h.agrees_object (hagrees ms rfl)
  | bool b =>
    exact fun _ ht => .inr ⟨rfl, ht.refuses_record (by cases b <;> nofun) (by cases b <;> nofun)⟩
  | null | number _ | text _ =>
    exact fun _ ht => .inr ⟨rfl, ht.refuses_record (by simp [Value.Opens]) (by simp [Value.Opens])⟩

end MirrorsFields

end LintRatchet
