import LintRatchet.Proofs.Json.Gathering

/-!
# Texts that a reader refuses

`Refuses r text` is the counterpart of `Reads r text a`: whatever stands before
and after the text, the reader ends with a problem.  Which problem it is does not
matter here.

An array is refused when its items are read up to one that is refused
(`ItemsRefused`), and a record when its members are (`MembersRefused`).  A record
is refused as well when all of its members are taken and something is missing in
the end.
-/

namespace LintRatchet.Json

variable {α σ : Type}

/-- The reader ends with a problem on the text. -/
structure Refuses (r : Reader α) (text : List Char) : Prop where
  starts : Starts text
  refuse : ∀ gap rest, Blank gap → Ends rest → ∃ p, r (gap ++ (text ++ rest)) = .error p

/-- What a reader refuses is not read, whatever is blank around it. -/
theorem Refuses.not_readAll {r : Reader α} {text gap gap' : List Char} (h : Refuses r text)
    (hg : Blank gap) (hg' : Blank gap') (a : α) :
    readAll r (String.ofList (gap ++ (text ++ gap'))) ≠ .ok a := by
  have hend : Ends gap' := by simpa using hg'.ends_append ends_nil
  obtain ⟨p, hp⟩ := h.refuse gap gap' hg hend
  rw [readAll, String.toList_ofList, hp]
  rintro ⟨⟩

/-! ## Values of another kind

Each of these readers looks at the first character only. -/

section Kinds

variable {c : Char} {cs : List Char}

/-- What does not start with a quote is no text. -/
theorem readText_refuses (hc : isGap c = false) (hclose : c ≠ ']') (hne : c ≠ '"') :
    Refuses readText (c :: cs) where
  starts := ⟨c, cs, rfl, hc, hclose⟩
  refuse gap rest hg _ := by
    rw [List.cons_append, readText, skipGap_blank_cons hg hc]
    exact ⟨_, if_neg hne⟩

/-- What starts like no number is no count. -/
theorem readCount_refuses (hc : isGap c = false) (hclose : c ≠ ']') (hminus : c ≠ '-')
    (hdigit : c.isDigit = false) : Refuses readCount (c :: cs) where
  starts := ⟨c, cs, rfl, hc, hclose⟩
  refuse gap rest hg _ := by
    rw [List.cons_append, readCount, skipGap_blank_cons hg hc]
    exact ⟨_, if_neg (by simp [hminus, hdigit])⟩

/-- What does not start with a bracket is no array. -/
theorem readArray_refuses {item : Reader α} (hc : isGap c = false) (hclose : c ≠ ']')
    (hne : c ≠ '[') : Refuses (readArray item) (c :: cs) where
  starts := ⟨c, cs, rfl, hc, hclose⟩
  refuse gap rest hg _ := by
    rw [List.cons_append, readArray, skipGap_blank_cons hg hc]
    exact ⟨_, if_neg hne⟩

/-- What starts with neither bracket nor brace is no record. -/
theorem readRecord_refuses {slots : List (Slot σ)} {closed : Bool} {empty : σ}
    {finish : σ → Option α} (hc : isGap c = false) (hclose : c ≠ ']') (harray : c ≠ '[')
    (hobject : c ≠ '\x7b') : Refuses (readRecord slots closed empty finish) (c :: cs) where
  starts := ⟨c, cs, rfl, hc, hclose⟩
  refuse gap rest hg _ := by
    rw [List.cons_append, readRecord, skipGap_blank_cons hg hc]
    exact ⟨_, (if_neg harray).trans (if_neg hobject)⟩

end Kinds

/-! ## Arrays -/

/-- Some items are read, and the next one is refused. -/
inductive ItemsRefused (item : Reader α) : List ItemText → Prop
  | here {i : ItemText} {is : List ItemText} : Refuses item i.value → ItemsRefused item (i :: is)
  | later {i : ItemText} {is : List ItemText} {a : α} :
      Reads item i.value a → ItemsRefused item is → ItemsRefused item (i :: is)

/-- What follows an item: the closing bracket, or a comma and more items. -/
def afterItem : List ItemText → List Char
  | [] => [']']
  | i :: is => ',' :: itemsText (i :: is)

theorem itemsText_cons (i : ItemText) (is : List ItemText) :
    itemsText (i :: is) = i.before ++ (i.value ++ (i.after ++ afterItem is)) := by
  cases is with
  | nil => simp [itemsText, Text.join, ItemText.text, afterItem]
  | cons j is => simp [itemsText, Text.join, ItemText.text, afterItem]

theorem afterItem_cons (i : ItemText) (is : List ItemText) :
    afterItem (i :: is) = ',' :: (i.before ++ (i.value ++ (i.after ++ afterItem is))) := by
  rw [afterItem, itemsText_cons]

theorem ItemText.ends_after (i : ItemText) (is : List ItemText) (rest : List Char) :
    Ends (i.after ++ (afterItem is ++ rest)) := by
  refine i.blank_after.ends_append ?_
  cases is with
  | nil => exact ends_cons (by decide)
  | cons j is => exact ends_cons (by decide)

theorem ItemsRefused.starts {item : Reader α} {i : ItemText} {is : List ItemText}
    (h : ItemsRefused item (i :: is)) : Starts i.value := by
  cases h with
  | here hi => exact hi.starts
  | later hi _ => exact hi.starts

/-- An array is refused at the first of its items that is. -/
theorem ItemsRefused.readItems {item : Reader α} {i : ItemText} {is : List ItemText}
    (h : ItemsRefused item (i :: is)) (turns rest : List Char) :
    ∃ p, readItems item turns (i.value ++ (i.after ++ (afterItem is ++ rest))) = .error p := by
  induction turns generalizing i is with
  | nil => exact ⟨_, rfl⟩
  | cons t turns ih =>
    cases h with
    | here hi =>
      obtain ⟨p, hp⟩ := hi.refuse [] _ blank_nil (i.ends_after is rest)
      rw [List.nil_append] at hp
      exact ⟨p, by simp only [Json.readItems, hp, bind, Except.bind]⟩
    | later hi his =>
      have hread := hi.read [] _ blank_nil (i.ends_after is rest)
      rw [List.nil_append] at hread
      cases is with
      | nil => cases his
      | cons j is =>
        obtain ⟨p, hp⟩ := ih his
        obtain ⟨c, cs, hcs, hc, hclose⟩ := his.starts
        refine ⟨p, ?_⟩
        rw [hcs, List.cons_append] at hp
        simp only [Json.readItems, hread, bind, Except.bind]
        simp only [afterItem_cons, List.cons_append, List.append_assoc, hcs,
          skipGap_blank_cons i.blank_after (c := ',') (by decide),
          skipGap_blank_cons j.blank_before hc, hclose, hp, if_true, if_false, Char.reduceEq]

theorem ItemsRefused.readArray {item : Reader α} {is : List ItemText} (h : ItemsRefused item is) :
    Refuses (readArray item) ('[' :: itemsText is) where
  starts := ⟨'[', _, rfl, by decide, by decide⟩
  refuse gap rest hg _ := by
    cases is with
    | nil => cases h
    | cons i is =>
      obtain ⟨c, cs, hcs, hc, hclose⟩ := h.starts
      have hitems := h.readItems (i.value ++ (i.after ++ (afterItem is ++ rest))) rest
      obtain ⟨p, hp⟩ := hitems
      refine ⟨p, ?_⟩
      rw [hcs, List.cons_append] at hp
      rw [List.cons_append, Json.readArray, skipGap_blank_cons hg (by decide), itemsText_cons, hcs]
      simp only [if_true, readArrayRest, List.append_assoc, List.cons_append,
        skipGap_blank_cons i.blank_before hc, hclose, if_false, hp]

/-! ## Members -/

/-- The reader of a member ends with a problem. -/
def MemberRefuses (member : σ → Reader σ) (s : σ) (text : List Char) : Prop :=
  ∀ rest, Ends rest → ∃ p, member s (text ++ rest) = .error p

/-- Some members are read, and the next one is refused. -/
inductive MembersRefused (member : σ → Reader σ) : σ → List MemberText → Prop
  | here {s : σ} {m : MemberText} {ms : List MemberText} :
      MemberRefuses member s m.core → MembersRefused member s (m :: ms)
  | later {s s' : σ} {m : MemberText} {ms : List MemberText} :
      MemberReads member s m.core s' → MembersRefused member s' ms →
      MembersRefused member s (m :: ms)

/-- What follows a member: the closing bracket, or a comma and more members. -/
def afterMember : List MemberText → List Char
  | [] => ['\x7d']
  | m :: ms => ',' :: membersText (m :: ms)

theorem membersText_cons (m : MemberText) (ms : List MemberText) :
    membersText (m :: ms) = m.before ++ '"' :: (m.core ++ (m.after ++ afterMember ms)) := by
  cases ms with
  | nil => simp [membersText, Text.join, MemberText.text, afterMember]
  | cons n ms => simp [membersText, Text.join, MemberText.text, afterMember]

theorem afterMember_cons (m : MemberText) (ms : List MemberText) :
    afterMember (m :: ms) =
      ',' :: (m.before ++ '"' :: (m.core ++ (m.after ++ afterMember ms))) := by
  rw [afterMember, membersText_cons]

theorem MemberText.ends_after (m : MemberText) (ms : List MemberText) (rest : List Char) :
    Ends (m.after ++ (afterMember ms ++ rest)) := by
  refine m.blank_after.ends_append ?_
  cases ms with
  | nil => exact ends_cons (by decide)
  | cons n ms => exact ends_cons (by decide)

/-- An object is refused at the first of its members that is. -/
theorem MembersRefused.readMembers {member : σ → Reader σ} {s : σ} {m : MemberText}
    {ms : List MemberText} (h : MembersRefused member s (m :: ms)) (turns rest : List Char) :
    ∃ p, readMembers member turns s (m.core ++ (m.after ++ (afterMember ms ++ rest))) =
      .error p := by
  induction turns generalizing s m ms with
  | nil => exact ⟨_, rfl⟩
  | cons t turns ih =>
    cases h with
    | here hm =>
      obtain ⟨p, hp⟩ := hm _ (m.ends_after ms rest)
      exact ⟨p, by simp only [Json.readMembers, hp, bind, Except.bind]⟩
    | later hm hms =>
      have hread := hm _ (m.ends_after ms rest)
      cases ms with
      | nil => cases hms
      | cons n ms =>
        obtain ⟨p, hp⟩ := ih hms
        refine ⟨p, ?_⟩
        simp only [Json.readMembers, hread, bind, Except.bind]
        simp only [afterMember_cons, List.cons_append, List.append_assoc,
          skipGap_blank_cons m.blank_after (c := ',') (by decide),
          skipGap_blank_cons n.blank_before (c := '"') (by decide), hp, if_true, if_false,
          Char.reduceEq]

theorem MembersRefused.readObjectRest {member : σ → Reader σ} {s : σ} {ms : List MemberText}
    (h : MembersRefused member s ms) (rest : List Char) :
    ∃ p, readObjectRest member s (membersText ms ++ rest) = .error p := by
  cases ms with
  | nil => cases h
  | cons m ms =>
    obtain ⟨p, hp⟩ := h.readMembers (m.core ++ (m.after ++ (afterMember ms ++ rest))) rest
    refine ⟨p, ?_⟩
    simp only [membersText_cons, List.append_assoc, List.cons_append, Json.readObjectRest,
      skipGap_blank_cons m.blank_before (c := '"') (by decide), Char.reduceEq, if_false, if_true,
      hp]

/-! ## Records -/

variable {slots : List (Slot σ)} {closed : Bool} {empty s : σ} {finish : σ → Option α}

theorem MembersRefused.readRecord {ms : List MemberText}
    (h : MembersRefused (readRecordMember slots closed) empty ms) :
    Refuses (Json.readRecord slots closed empty finish) ('\x7b' :: membersText ms) where
  starts := ⟨'\x7b', _, rfl, by decide, by decide⟩
  refuse gap rest hg _ := by
    obtain ⟨p, hp⟩ := h.readObjectRest rest
    refine ⟨p, ?_⟩
    rw [List.cons_append, Json.readRecord, skipGap_blank_cons hg (by decide)]
    simp only [Char.reduceEq, if_true, if_false, hp, bind, Except.bind]

/-- A record is refused when something is missing in the draft that its members make. -/
theorem ObjectRest.readRecord_refuses {text : List Char}
    (h : ObjectRest (readRecordMember slots closed) empty text s) (hf : finish s = none) :
    Refuses (Json.readRecord slots closed empty finish) ('\x7b' :: text) where
  starts := ⟨'\x7b', text, rfl, by decide, by decide⟩
  refuse gap rest hg _ := by
    have hobject := h.readObjectRest rest
    refine ⟨.mismatch, ?_⟩
    rw [List.cons_append, Json.readRecord, skipGap_blank_cons hg (by decide)]
    simp only [Char.reduceEq, if_true, if_false, hobject, bind, Except.bind, hf]

/-- A field is refused when the draft has it already. -/
theorem memberRefuses_filled {f : Slot σ} {m : MemberText} {name : String}
    (hname : Spelling m.name name.toList)
    (hf : slots.find? (fun f => f.name == name) = some f) (hfilled : f.filled s = true) :
    MemberRefuses (readRecordMember slots closed) s m.core := by
  intro rest _
  have hquoted := hname.spells.readQuoted
    (m.beforeColon ++ ':' :: (m.afterColon ++ (m.value ++ rest)))
  refine ⟨.mismatch, ?_⟩
  simp only [readRecordMember, MemberText.core, List.append_assoc, List.cons_append, hquoted, hf,
    Slot.readMember, hfilled, bind, Except.bind, if_true]

/-- A field is refused when its value is. -/
theorem memberRefuses_value {f : Slot σ} {m : MemberText} {name : String}
    (hname : Spelling m.name name.toList)
    (hf : slots.find? (fun f => f.name == name) = some f) (hvacant : f.filled s = false)
    (hvalue : Refuses (f.read s) m.value) :
    MemberRefuses (readRecordMember slots closed) s m.core := by
  intro rest hr
  have hquoted := hname.spells.readQuoted
    (m.beforeColon ++ ':' :: (m.afterColon ++ (m.value ++ rest)))
  have hcolon := readColon_blank m.blank_beforeColon (m.afterColon ++ (m.value ++ rest))
  obtain ⟨p, hp⟩ := hvalue.refuse m.afterColon rest m.blank_afterColon hr
  refine ⟨p, ?_⟩
  simp only [readRecordMember, MemberText.core, List.append_assoc, List.cons_append, hquoted, hf,
    Slot.readMember, hvacant, hcolon, hp, bind, Except.bind, Bool.false_eq_true, if_false]

end LintRatchet.Json
