import LintRatchet.Proofs.Json.Skipping

/-!
# Records from members in any order

A record collects its fields in a draft.  After some members the draft has the
fields that are named among them, and nothing else matters: neither their order
nor what stands between them.  `Gathers` says that of a draft that is given by
the names met so far.

Main statement: a record is read from every text that has its fields once and
any other members among them (`RecordText.readRecord`).
-/

namespace LintRatchet.Json

variable {α σ : Type}

/-! ## Values of one kind -/

/-- A text is read from each of its spellings. -/
theorem StringText.readText {s : String} {text : List Char} (h : StringText s text) :
    Reads readText text s := by
  obtain ⟨hspelling⟩ := h
  exact hspelling.spells.readText

/-- A list is read when its items are. -/
theorem ListText.readArray {item : Reader α} {itemText : α → List Char → Prop} {as : List α}
    {text : List Char} (h : ListText itemText as text)
    (hitem : ∀ {a text}, itemText a text → Reads item text a) : Reads (readArray item) text as := by
  cases h with
  | empty hgap => exact (ArrayRest.empty hgap).readArray
  | @items items as hne hitems =>
    have hread : List.Forall₂ (fun (i : ItemText) a => Reads item i.value a) items as :=
      (hitems.imp fun _ _ h => hitem h).flip
    exact (arrayRest_of_items hne hread).readArray

/-! ## Members -/

/-- What is no field of the record is passed over. -/
theorem memberReads_other {slots : List (Slot σ)} {m : MemberText} {name : String} (s : σ)
    (hname : Spelling m.name name.toList) (hfind : (slots.find? fun f => f.name == name) = none)
    (hvalue : IsValue m.value) : MemberReads (readRecordMember slots false) s m.core s := by
  intro rest hr
  have hquoted := hname.spells.readQuoted
    (m.beforeColon ++ ':' :: (m.afterColon ++ (m.value ++ rest)))
  have hcolon := readColon_blank m.blank_beforeColon (m.afterColon ++ (m.value ++ rest))
  have hskip := hvalue.skipValue m.blank_afterColon hr
  simp only [readRecordMember, MemberText.core, List.append_assoc, List.cons_append, hquoted,
    hfind, hcolon, hskip, bind, Except.bind, Bool.false_eq_true, if_false, pure, Except.pure]

/-- The draft has the fields that are named in a list. -/
structure Gathers (slots : List (Slot σ)) (fields : List FieldText) (draft : List String → σ) :
    Prop where
  /-- The text of a field that was not there before puts it into the draft. -/
  field : ∀ f ∈ fields, ∀ {seen text}, f.name ∉ seen → f.text text →
    ∃ slot, (slots.find? fun s => s.name == f.name) = some slot ∧
      SlotReads slot (draft seen) text (draft (f.name :: seen))
  /-- No slot is for another member. -/
  other : ∀ {name}, name ∉ fields.map FieldText.name → ∀ seen,
    (slots.find? fun s => s.name == name) = none ∧ draft (name :: seen) = draft seen

/-- The slot of a field takes its text into a draft that does not have it. -/
theorem exists_slotReads {slots : List (Slot σ)} {name : String} {value : Reader α}
    {get : σ → Option α} {set : σ → α → σ} {s s' : σ} {text : List Char} {a : α}
    (hfind : (slots.find? fun f => f.name == name) = some (slot name value get set))
    (hget : get s = none) (hread : Reads value text a) (hset : set s a = s') :
    ∃ f, (slots.find? fun f => f.name == name) = some f ∧ SlotReads f s text s' := by
  subst hset
  exact ⟨_, hfind, slotReads_slot hget hread⟩

/-- A field has been seen, or it is still to come once. -/
def Awaits (seen : List String) (members : List (String × MemberText)) (f : FieldText) : Prop :=
  (f.name ∈ seen ∧ (members.filter fun m => m.1 = f.name) = []) ∨
    (f.name ∉ seen ∧ ∃ m, (members.filter fun m => m.1 = f.name) = [m] ∧ f.text m.2.value)

variable {seen : List String} {m : String × MemberText} {members : List (String × MemberText)}
  {f : FieldText}

theorem Awaits.head (h : Awaits seen (m :: members) f) (hname : m.1 = f.name) :
    f.name ∉ seen ∧ f.text m.2.value := by
  have hfilter := List.filter_cons_of_pos (p := fun m => decide (m.1 = f.name)) (l := members)
    (decide_eq_true hname)
  rcases h with ⟨-, hnil⟩ | ⟨hseen, n, hn, htext⟩
  · rw [hfilter] at hnil
    cases hnil
  · rw [hfilter] at hn
    obtain ⟨rfl, -⟩ := List.cons.inj hn
    exact ⟨hseen, htext⟩

theorem Awaits.tail (h : Awaits seen (m :: members) f) : Awaits (m.1 :: seen) members f := by
  by_cases hname : m.1 = f.name
  · have hfilter := List.filter_cons_of_pos (p := fun m => decide (m.1 = f.name)) (l := members)
      (decide_eq_true hname)
    refine .inl ⟨hname ▸ List.mem_cons_self .., ?_⟩
    rcases h with ⟨-, hnil⟩ | ⟨-, n, hn, -⟩
    · rw [hfilter] at hnil
      cases hnil
    · rw [hfilter] at hn
      exact (List.cons.inj hn).2
  · have hfilter := List.filter_cons_of_neg (p := fun m => decide (m.1 = f.name)) (l := members)
      (by simpa using hname)
    have hseen : f.name ∈ m.1 :: seen ↔ f.name ∈ seen := by
      rw [List.mem_cons, or_iff_right (Ne.symm hname)]
    rw [Awaits, hseen, ← hfilter]
    exact h

/-- A member gets into the draft when it is a field, and is passed over when it is none. -/
theorem Gathers.memberReads {slots : List (Slot σ)} {fields : List FieldText}
    {draft : List String → σ} (h : Gathers slots fields draft)
    (hname : Spelling m.2.name m.1.toList) (hfields : ∀ f ∈ fields, Awaits seen (m :: members) f)
    (hother : m.1 ∉ fields.map FieldText.name → IsValue m.2.value) :
    MemberReads (readRecordMember slots false) (draft seen) m.2.core (draft (m.1 :: seen)) := by
  by_cases hfield : m.1 ∈ fields.map FieldText.name
  · obtain ⟨f, hf, hfname⟩ := List.mem_map.mp hfield
    obtain ⟨hseen, htext⟩ := (hfields f hf).head hfname.symm
    obtain ⟨slot, hfind, hslot⟩ := h.field f hf hseen htext
    rw [← hfname] at hname ⊢
    exact hslot.memberReads false hfind hname.spells m.2.blank_beforeColon m.2.blank_afterColon
  · obtain ⟨hfind, hdraft⟩ := h.other hfield seen
    rw [hdraft]
    exact memberReads_other (draft seen) hname hfind (hother hfield)

/-- The members of a record are read in whatever order they come. -/
theorem Gathers.membersRead {slots : List (Slot σ)} {fields : List FieldText}
    {draft : List String → σ} (h : Gathers slots fields draft)
    (hnames : ∀ m ∈ members, Spelling m.2.name m.1.toList)
    (hfields : ∀ f ∈ fields, Awaits seen members f)
    (hothers : ∀ m ∈ members, m.1 ∉ fields.map FieldText.name → IsValue m.2.value) :
    ∃ seen', MembersRead (readRecordMember slots false) (draft seen) (members.map Prod.snd)
      (draft seen') ∧ ∀ f ∈ fields, f.name ∈ seen' := by
  induction members generalizing seen with
  | nil =>
    refine ⟨seen, .nil, fun f hf => ?_⟩
    rcases hfields f hf with ⟨hseen, -⟩ | ⟨-, m, hm, -⟩
    · exact hseen
    · cases hm
  | cons m members ih =>
    obtain ⟨hname, hnames⟩ := List.forall_mem_cons.mp hnames
    obtain ⟨hother, hothers⟩ := List.forall_mem_cons.mp hothers
    obtain ⟨seen', hread, hall⟩ := ih hnames (fun f hf => (hfields f hf).tail) hothers
    exact ⟨seen', .cons (h.memberReads hname hfields hother) hread, hall⟩

/-- A record is read when the draft with all its fields is that of the record. -/
theorem RecordText.readRecord {slots : List (Slot σ)} {fields : List FieldText}
    {draft : List String → σ} {finish : σ → Option α} {text : List Char} {a : α}
    (h : RecordText fields text) (hgathers : Gathers slots fields draft) (hne : fields ≠ [])
    (hfinish : ∀ seen, (∀ f ∈ fields, f.name ∈ seen) → finish (draft seen) = some a) :
    Reads (readRecord slots false (draft []) finish) text a := by
  obtain @⟨members, hnames, hfields, hothers⟩ := h
  have hawaits : ∀ f ∈ fields, Awaits [] members f := fun f hf =>
    .inr ⟨List.not_mem_nil, hfields f hf⟩
  obtain ⟨seen, hread, hall⟩ := hgathers.membersRead hnames hawaits hothers
  obtain ⟨f, hf⟩ := List.exists_mem_of_ne_nil _ hne
  have hmembers : members.map Prod.snd ≠ [] := by
    obtain ⟨m, hm, -⟩ := hfields f hf
    rintro hnil
    rw [List.map_eq_nil_iff.mp hnil] at hm
    cases hm
  exact (objectRest_of_members hmembers hread).readRecord (hfinish seen hall)

end LintRatchet.Json
