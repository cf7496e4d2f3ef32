import LintRatchet.Proofs.Json.Reading

/-!
# Texts of arrays and records

An array is read when its items are, and a record when its members are.  The
relations `Items` and `Members` list the pieces of such a text in the order in
which the loops meet them, so each proof is an induction on the relation.

The loops count their turns along the text.  Each turn takes at least one
character, so a text as long as the turns is read to its end.

A record collects its members in a draft.  `Members` follows the draft from
member to member, and `SlotReads` says what one slot does to it.
-/

namespace LintRatchet.Json

variable {α σ : Type}

/-! ## Arrays -/

/-- The text of items up to the closing bracket, and what they are read as.  It starts with an
item. -/
inductive Items (item : Reader α) : List Char → List α → Prop where
  | last {text gap : List Char} {a : α} :
      Reads item text a → Blank gap → Items item (text ++ (gap ++ [']'])) [a]
  | next {text gap gap' rest : List Char} {a : α} {as : List α} :
      Reads item text a → Blank gap → Blank gap' → Items item rest as →
      Items item (text ++ (gap ++ ',' :: (gap' ++ rest))) (a :: as)

/-- An array that is not empty does not start like an end. -/
theorem Items.starts {item : Reader α} {text : List Char} {as : List α} (h : Items item text as) :
    Starts text := by
  cases h with
  | last hr _ =>
    obtain ⟨c, cs, rfl, hc⟩ := hr.starts
    exact ⟨c, _, rfl, hc⟩
  | next hr _ _ _ =>
    obtain ⟨c, cs, rfl, hc⟩ := hr.starts
    exact ⟨c, _, rfl, hc⟩

/-- Items are read to the end of their array, as long as the turns last. -/
theorem Items.readItems {item : Reader α} {text : List Char} {as : List α}
    (h : Items item text as) : ∀ (turns rest : List Char), text.length ≤ turns.length →
      readItems item turns (text ++ rest) = .ok (as, rest) := by
  induction h with
  | @last text gap a hr hg =>
    intro turns rest hl
    obtain ⟨c, cs, rfl, -⟩ := hr.starts
    cases turns with
    | nil => simp at hl
    | cons t turns =>
      have hread := hr.read [] (gap ++ ']' :: rest) blank_nil (hg.ends_append (ends_cons (by decide)))
      rw [List.nil_append] at hread
      simp only [List.append_assoc, List.singleton_append, Json.readItems, hread, bind, Except.bind,
        skipGap_blank_cons hg (c := ']') (by decide), if_true]
      rfl
  | @next text gap gap' more a as hr hg hg' hmore ih =>
    intro turns rest hl
    obtain ⟨c, cs, rfl, -⟩ := hr.starts
    cases turns with
    | nil => simp at hl
    | cons t turns =>
      have hread := hr.read [] (gap ++ ',' :: (gap' ++ (more ++ rest))) blank_nil
        (hg.ends_append (ends_cons (by decide)))
      rw [List.nil_append] at hread
      have hrec := ih turns rest (by
        simp only [List.length_append, List.length_cons] at hl
        omega)
      obtain ⟨d, ds, rfl, hd, hclose⟩ := hmore.starts
      rw [List.cons_append] at hrec
      simp only [List.append_assoc, List.cons_append] at hread ⊢
      simp only [Json.readItems, hread, bind, Except.bind,
        skipGap_blank_cons hg (c := ',') (by decide), skipGap_blank_cons hg' hd, hrec, hclose,
        if_true, if_false, Char.reduceEq]
      rfl

/-- The text of an array after its opening bracket. -/
inductive ArrayRest (item : Reader α) : List Char → List α → Prop where
  | empty {gap : List Char} : Blank gap → ArrayRest item (gap ++ [']']) []
  | items {gap text : List Char} {as : List α} :
      Blank gap → Items item text as → ArrayRest item (gap ++ text) as

/-- What follows an opening bracket is read to the end of the array. -/
theorem ArrayRest.readArrayRest {item : Reader α} {text : List Char} {as : List α}
    (h : ArrayRest item text as) (rest : List Char) :
    readArrayRest item (text ++ rest) = .ok (as, rest) := by
  cases h with
  | empty hg =>
    rw [List.append_assoc, List.singleton_append, Json.readArrayRest,
      skipGap_blank_cons hg (by decide)]
    simp only [if_true]
  | @items gap text as hg hitems =>
    have hread := hitems.readItems (text ++ rest) rest (by simp)
    obtain ⟨c, cs, rfl, hc, hclose⟩ := hitems.starts
    rw [List.cons_append] at hread
    rw [List.append_assoc, List.cons_append, Json.readArrayRest, skipGap_blank_cons hg hc]
    simp only [hclose, if_false, hread]

theorem ArrayRest.readArray {item : Reader α} {text : List Char} {as : List α}
    (h : ArrayRest item text as) : Reads (readArray item) ('[' :: text) as where
  starts := ⟨'[', text, rfl, by decide, by decide⟩
  read gap rest hg _ := by
    rw [List.cons_append, Json.readArray, skipGap_blank_cons hg (by decide)]
    simp only [if_true, h.readArrayRest rest]

/-! ## Objects -/

/-- The reader of a member takes a text that starts after the opening quote of the name, and makes
one draft of another. -/
def MemberReads (member : σ → Reader σ) (s : σ) (text : List Char) (s' : σ) : Prop :=
  ∀ rest, Ends rest → member s (text ++ rest) = .ok (s', rest)

/-- The text of members up to the closing bracket, and the draft that they make of a draft.  It
starts after the opening quote of a name. -/
inductive Members (member : σ → Reader σ) : σ → List Char → σ → Prop where
  | last {s s' : σ} {text gap : List Char} :
      MemberReads member s text s' → Blank gap → Members member s (text ++ (gap ++ ['\x7d'])) s'
  | next {s s' s'' : σ} {text gap gap' rest : List Char} :
      MemberReads member s text s' → Blank gap → Blank gap' → Members member s' rest s'' →
      Members member s (text ++ (gap ++ ',' :: (gap' ++ '"' :: rest))) s''

/-- Members are read to the end of their object, as long as the turns last. -/
theorem Members.readMembers {member : σ → Reader σ} {s s' : σ} {text : List Char}
    (h : Members member s text s') : ∀ (turns rest : List Char), text.length ≤ turns.length →
      readMembers member turns s (text ++ rest) = .ok (s', rest) := by
  induction h with
  | @last s s' text gap hm hg =>
    intro turns rest hl
    cases turns with
    | nil => simp at hl
    | cons t turns =>
      have hread := hm (gap ++ '\x7d' :: rest) (hg.ends_append (ends_cons (by decide)))
      simp only [List.append_assoc, List.singleton_append, Json.readMembers, hread, bind,
        Except.bind, skipGap_blank_cons hg (c := '\x7d') (by decide), if_true]
      rfl
  | @next s s' s'' text gap gap' more hm hg hg' _ ih =>
    intro turns rest hl
    cases turns with
    | nil => simp at hl
    | cons t turns =>
      have hread := hm (gap ++ ',' :: (gap' ++ '"' :: (more ++ rest)))
        (hg.ends_append (ends_cons (by decide)))
      have hrec := ih turns rest (by
        simp only [List.length_append, List.length_cons] at hl
        omega)
      simp only [List.append_assoc, List.cons_append, Json.readMembers, hread, bind, Except.bind,
        skipGap_blank_cons hg (c := ',') (by decide), skipGap_blank_cons hg' (c := '"') (by decide),
        hrec, if_true, if_false, Char.reduceEq]

/-- The text of an object after its opening bracket, and the draft that it makes of a draft. -/
inductive ObjectRest (member : σ → Reader σ) : σ → List Char → σ → Prop where
  | empty {s : σ} {gap : List Char} : Blank gap → ObjectRest member s (gap ++ ['\x7d']) s
  | members {s s' : σ} {gap text : List Char} :
      Blank gap → Members member s text s' → ObjectRest member s (gap ++ '"' :: text) s'

theorem ObjectRest.readObjectRest {member : σ → Reader σ} {s s' : σ} {text : List Char}
    (h : ObjectRest member s text s') (rest : List Char) :
    readObjectRest member s (text ++ rest) = .ok (s', rest) := by
  cases h with
  | empty hg =>
    rw [List.append_assoc, List.singleton_append, Json.readObjectRest,
      skipGap_blank_cons hg (by decide)]
    simp only [if_true]
  | @members _ gap text hg hms =>
    have hread := hms.readMembers (text ++ rest) rest (by simp)
    rw [List.append_assoc, List.cons_append, Json.readObjectRest, skipGap_blank_cons hg (by decide)]
    simp only [hread, if_true, if_false, Char.reduceEq]

/-! ## Records -/

theorem readColon_blank {gap : List Char} (h : Blank gap) (cs : List Char) :
    readColon (gap ++ ':' :: cs) = .ok cs := by
  rw [readColon, skipGap_blank_cons h (by decide)]
  simp only [if_true]

/-- A slot takes the text of a value and puts what it reads into a draft that has no value for
it. -/
structure SlotReads (f : Slot σ) (s : σ) (text : List Char) (s' : σ) : Prop where
  vacant : f.filled s = false
  reads : Reads (f.read s) text s'

/-- A slot takes each text that its reader takes. -/
theorem slotReads_slot {name : String} {value : Reader α} {get : σ → Option α} {set : σ → α → σ}
    {s : σ} {text : List Char} {a : α} (hv : get s = none) (h : Reads value text a) :
    SlotReads (slot name value get set) s text (set s a) where
  vacant := by
    show (get s).isSome = false
    rw [hv]
    rfl
  reads := ⟨h.starts, fun gap rest hg hr => by
    simp only [slot, h.read gap rest hg hr, bind, Except.bind, pure, Except.pure]⟩

/-- A member of a record is read when its name is the one of a slot that takes its value. -/
theorem SlotReads.memberReads {slots : List (Slot σ)} {f : Slot σ} {s s' : σ} {name : String}
    {piece gap gap' text : List Char} (h : SlotReads f s text s') (closed : Bool)
    (hf : slots.find? (fun f => f.name == name) = some f) (hn : Spells piece name.toList)
    (hg : Blank gap) (hg' : Blank gap') :
    MemberReads (readRecordMember slots closed) s
      (piece ++ '"' :: (gap ++ ':' :: (gap' ++ text))) s' := by
  intro rest hr
  have hquoted := hn.readQuoted (gap ++ ':' :: (gap' ++ (text ++ rest)))
  simp only [List.append_assoc, List.cons_append, readRecordMember, hquoted, bind, Except.bind, hf,
    Slot.readMember, h.vacant, Bool.false_eq_true, if_false, readColon_blank hg,
    h.reads.read gap' rest hg' hr]

/-- A record is read from the text of an object that makes a complete draft. -/
theorem ObjectRest.readRecord {slots : List (Slot σ)} {closed : Bool} {empty s : σ}
    {finish : σ → Option α} {text : List Char} {a : α}
    (h : ObjectRest (readRecordMember slots closed) empty text s) (hf : finish s = some a) :
    Reads (readRecord slots closed empty finish) ('\x7b' :: text) a where
  starts := ⟨'\x7b', text, rfl, by decide, by decide⟩
  read gap rest hg _ := by
    have hobject := h.readObjectRest rest
    rw [List.cons_append, Json.readRecord, skipGap_blank_cons hg (by decide)]
    simp only [Char.reduceEq, if_true, if_false, hobject, bind, Except.bind, hf, pure, Except.pure]

end LintRatchet.Json
