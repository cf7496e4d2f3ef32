import LintRatchet.Proofs.Json.Collecting
import LintRatchet.Proofs.Json.Grammar

/-!
# Values that are passed over

Every value of the grammar is passed over to its end, however deep it nests and
whatever its numbers and texts are (`IsValue.skipValue`).  The depth is counted
along the text that follows, which is at least as long as the value
(`IsValue.passed`).

The texts of arrays and objects are brought into the form that the loops meet:
`arrayRest_of_items` for items that a reader takes, and `objectRest_of_members`
for members that make one draft of another.
-/

namespace LintRatchet.Json

variable {α σ : Type}

/-! ## Texts of items and members -/

/-- The items that are read one by one make an array that is read. -/
theorem exists_items {item : Reader α} {i : ItemText} {is : List ItemText} {a : α} {as : List α}
    (h : Reads item i.value a) (hs : List.Forall₂ (fun i a => Reads item i.value a) is as) :
    ∃ text, itemsText (i :: is) = i.before ++ text ∧ Items item text (a :: as) := by
  induction hs generalizing i a with
  | nil =>
    refine ⟨_, ?_, .last h i.blank_after⟩
    simp only [itemsText, List.map_cons, List.map_nil, Text.join, ItemText.text, List.append_assoc]
  | @cons j b js bs hj _ ih =>
    obtain ⟨text, htext, hitems⟩ := ih hj
    refine ⟨_, ?_, .next h i.blank_after j.blank_before hitems⟩
    rw [← htext]
    simp only [itemsText, List.map_cons, Text.join, ItemText.text, List.append_assoc,
      List.cons_append]

/-- Items that are read one by one are read as an array. -/
theorem arrayRest_of_items {item : Reader α} {is : List ItemText} {as : List α} (hne : is ≠ [])
    (h : List.Forall₂ (fun i a => Reads item i.value a) is as) :
    ArrayRest item (itemsText is) as := by
  cases h with
  | nil => exact absurd rfl hne
  | @cons i a is as hi his =>
    obtain ⟨text, htext, hitems⟩ := exists_items hi his
    rw [htext]
    exact .items i.blank_before hitems

/-- The members make one draft of another, one after the other. -/
inductive MembersRead (member : σ → Reader σ) : σ → List MemberText → σ → Prop
  | nil {s : σ} : MembersRead member s [] s
  | cons {s s' s'' : σ} {m : MemberText} {ms : List MemberText} :
      MemberReads member s m.core s' → MembersRead member s' ms s'' →
      MembersRead member s (m :: ms) s''

/-- The members that are read one by one make an object that is read. -/
theorem exists_members {member : σ → Reader σ} {s s' s'' : σ} {m : MemberText}
    {ms : List MemberText} (h : MemberReads member s m.core s')
    (hs : MembersRead member s' ms s'') :
    ∃ text, membersText (m :: ms) = m.before ++ '"' :: text ∧ Members member s text s'' := by
  induction hs generalizing s m with
  | nil =>
    refine ⟨_, ?_, .last h m.blank_after⟩
    simp only [membersText, List.map_cons, List.map_nil, Text.join, MemberText.text,
      List.append_assoc, List.cons_append]
  | @cons s' s'' s''' n ns hn _ ih =>
    obtain ⟨text, htext, hmembers⟩ := ih hn
    refine ⟨_, ?_, .next h m.blank_after n.blank_before hmembers⟩
    rw [← htext]
    simp only [membersText, List.map_cons, Text.join, MemberText.text, List.append_assoc,
      List.cons_append]

/-- Members that are read one by one are read as an object. -/
theorem objectRest_of_members {member : σ → Reader σ} {s s' : σ} {ms : List MemberText}
    (hne : ms ≠ []) (h : MembersRead member s ms s') :
    ObjectRest member s (membersText ms) s' := by
  cases h with
  | nil => exact absurd rfl hne
  | @cons _ _ _ m ms hm hms =>
    obtain ⟨text, htext, hmembers⟩ := exists_members hm hms
    rw [htext]
    exact .members m.blank_before hmembers

/-! ## Passing over a value -/

/-- The value is passed over, with blank text before it. -/
def Passed (depth text : List Char) : Prop :=
  ∀ gap rest, Blank gap → Ends rest → skipNested depth (gap ++ (text ++ rest)) = .ok rest

theorem IsNumber.exists_head {cs : List Char} (h : IsNumber cs) :
    ∃ c rest, cs = c :: rest ∧ (c = '-' ∨ c.isDigit = true) := by
  obtain ⟨hsign, hwhole, -, -⟩ := h
  obtain ⟨d, ds, rfl, hdigit⟩ := hwhole.exists_digit
  rcases hsign with rfl | rfl
  · exact ⟨d, _, rfl, .inr hdigit⟩
  · exact ⟨'-', _, rfl, .inl rfl⟩

/-- What a number starts with does not start anything else. -/
theorem ne_of_numberHead {c d : Char} (h : c = '-' ∨ c.isDigit = true) (hd : d ≠ '-')
    (hdigit : d.isDigit = false) : c ≠ d := by
  rintro rfl
  rcases h with h | h
  · exact hd h
  · rw [hdigit] at h
    cases h

theorem isGap_of_numberHead {c : Char} (h : c = '-' ∨ c.isDigit = true) : isGap c = false := by
  have hspace := ne_of_numberHead h (d := ' ') (by decide) (by decide)
  have hline := ne_of_numberHead h (d := '\n') (by decide) (by decide)
  have htab := ne_of_numberHead h (d := '\t') (by decide) (by decide)
  have hreturn := ne_of_numberHead h (d := '\r') (by decide) (by decide)
  simp [isGap, hspace, hline, htab, hreturn]

theorem IsValue.starts {text : List Char} (h : IsValue text) : Starts text := by
  cases h with
  | null | true | false | string _ | emptyArray _ | array _ _ | emptyObject _ | object _ _ _ =>
    exact ⟨_, _, rfl, by decide, by decide⟩
  | number h =>
    obtain ⟨c, rest, rfl, hc⟩ := h.exists_head
    exact ⟨c, rest, rfl, isGap_of_numberHead hc, ne_of_numberHead hc (by decide) (by decide)⟩

/-- A value that is passed over, as one that is read. -/
theorem Passed.reads {depth text : List Char} (h : Passed depth text) (hs : Starts text) :
    Reads (passing (skipNested depth)) text () where
  starts := hs
  read gap rest hg hr := by
    rw [passing, h gap rest hg hr]
    rfl

/-- Passes over a member, after the opening quote of its name. -/
def skipMember (depth : List Char) : Unit → Reader Unit := fun _ => passing fun cs => do
  let cs ← skipQuoted cs
  let cs ← readColon cs
  skipNested depth cs

/-- A member is passed over when its value is. -/
theorem Passed.member {depth : List Char} {m : MemberText} (hname : StringBody m.name)
    (h : Passed depth m.value) : MemberReads (skipMember depth) () m.core () := by
  intro rest hr
  have hquoted := hname.skipQuoted (m.beforeColon ++ ':' :: (m.afterColon ++ (m.value ++ rest)))
  have hcolon := readColon_blank m.blank_beforeColon (m.afterColon ++ (m.value ++ rest))
  have hvalue := h m.afterColon rest m.blank_afterColon hr
  simp only [skipMember, passing, MemberText.core, List.append_assoc, List.cons_append, hquoted,
    hcolon, hvalue, bind, Except.bind]
  rfl

/-- The items of an array are passed over with one level less of depth. -/
theorem passed_array {depth text : List Char} {as : List Unit}
    (h : ArrayRest (passing (skipNested depth)) text as) (t : Char) :
    Passed (t :: depth) ('[' :: text) := by
  intro gap rest hg _
  rw [List.cons_append, skipNested, skipGap_blank_cons hg (by decide)]
  simp only [Char.reduceEq, Char.reduceIsDigit, decide_false, Bool.or_false, Bool.false_eq_true,
    if_false, if_true, h.readArrayRest rest, bind, Except.bind]
  rfl

theorem passed_object {depth text : List Char} (h : ObjectRest (skipMember depth) () text ())
    (t : Char) : Passed (t :: depth) ('\x7b' :: text) := by
  intro gap rest hg _
  rw [List.cons_append, skipNested, skipGap_blank_cons hg (by decide)]
  simp only [Char.reduceEq, Char.reduceIsDigit, decide_false, Bool.or_false, Bool.false_eq_true,
    if_false, if_true]
  show (readObjectRest (skipMember depth) () (text ++ rest) >>= fun r => pure r.2) = .ok rest
  rw [h.readObjectRest rest]
  rfl

theorem IsNumber.passed {text : List Char} (h : IsNumber text) (t : Char) (depth : List Char) :
    Passed (t :: depth) text := by
  intro gap rest hg hr
  obtain ⟨n, hread⟩ := h.scanNumeral hr .malformed
  obtain ⟨c, cs, rfl, hc⟩ := h.exists_head
  have hmark : (decide (c = '-') || c.isDigit) = true := by simpa using hc
  have hother : ∀ {d : Char}, d ≠ '-' → d.isDigit = false → c ≠ d := ne_of_numberHead hc
  rw [List.cons_append] at hread
  rw [List.cons_append, skipNested, skipGap_blank_cons hg (isGap_of_numberHead hc)]
  simp only [hother (d := 'n') (by decide) (by decide), hother (d := 't') (by decide) (by decide),
    hother (d := 'f') (by decide) (by decide), hother (d := '"') (by decide) (by decide), hmark,
    if_false, if_true, hread, bind, Except.bind]
  rfl

/-! A value is longer than what is nested in it, so the depth is enough for that as well. -/

theorem length_le_join {sep : Char} {pieces : List (List Char)} {piece : List Char}
    (h : piece ∈ pieces) : piece.length ≤ (Text.join sep pieces).length := by
  induction pieces with
  | nil => cases h
  | cons first pieces ih =>
    cases pieces with
    | nil => exact Nat.le_of_eq (congrArg List.length (List.mem_singleton.mp h))
    | cons next pieces =>
      rw [Text.join_cons _ (List.cons_ne_nil _ _), List.length_append, List.length_cons]
      rcases List.mem_cons.mp h with rfl | h
      · omega
      · have := ih h
        omega

/-- An item is shorter than the array that it is in. -/
theorem length_value_lt_items {items : List ItemText} {i : ItemText} (h : i ∈ items) :
    i.value.length < (itemsText items).length := by
  have hpiece : i.text.length ≤ (Text.join ',' (items.map ItemText.text)).length :=
    length_le_join (List.mem_map_of_mem h)
  simp only [ItemText.text, List.length_append] at hpiece
  simp only [itemsText, List.length_append, List.length_singleton]
  omega

theorem length_value_lt_members {members : List MemberText} {m : MemberText} (h : m ∈ members) :
    m.value.length < (membersText members).length := by
  have hpiece : m.text.length ≤ (Text.join ',' (members.map MemberText.text)).length :=
    length_le_join (List.mem_map_of_mem h)
  simp only [MemberText.text, MemberText.core, List.length_append, List.length_cons] at hpiece
  simp only [membersText, List.length_append, List.length_singleton]
  omega

theorem passed_of_cons {text : List Char} (hne : text ≠ [])
    (h : ∀ t depth, text.length ≤ depth.length + 1 → Passed (t :: depth) text) :
    ∀ depth, text.length ≤ depth.length → Passed depth text := by
  intro depth hlength
  cases depth with
  | nil => exact absurd (List.eq_nil_of_length_eq_zero (Nat.le_zero.mp hlength)) hne
  | cons t depth => exact h t depth hlength

/-- Members are passed over when their values are. -/
theorem membersRead_of_passed {depth : List Char} {ms : List MemberText}
    (hnames : ∀ m ∈ ms, StringBody m.name) (hvalues : ∀ m ∈ ms, Passed depth m.value) :
    MembersRead (skipMember depth) () ms () := by
  induction ms with
  | nil => exact .nil
  | cons m ms ih =>
    have hm := (hvalues m (List.mem_cons_self ..)).member (hnames m (List.mem_cons_self ..))
    exact .cons hm (ih (fun n hn => hnames n (List.mem_cons_of_mem _ hn))
      fun n hn => hvalues n (List.mem_cons_of_mem _ hn))

/-- Every value is passed over, whatever there is in it. -/
theorem IsValue.passed {text : List Char} (h : IsValue text) :
    ∀ depth : List Char, text.length ≤ depth.length → Passed depth text := by
  induction h with
  | null | true | false =>
    refine passed_of_cons (List.cons_ne_nil _ _) fun t depth _ gap rest hg _ => ?_
    rw [List.cons_append, skipNested, skipGap_blank_cons hg (by decide)]
    rfl
  | string hbody =>
    refine passed_of_cons (List.cons_ne_nil _ _) fun t depth _ gap rest hg _ => ?_
    rw [List.cons_append, skipNested, skipGap_blank_cons hg (by decide), List.append_assoc]
    exact hbody.skipQuoted rest
  | number hnumber =>
    obtain ⟨c, cs, hcs, -⟩ := hnumber.exists_head
    exact passed_of_cons (hcs ▸ List.cons_ne_nil _ _) fun t depth _ => hnumber.passed t depth
  | emptyArray hgap =>
    exact passed_of_cons (List.cons_ne_nil _ _) fun t depth _ => passed_array (.empty hgap) t
  | @array items hne hvalues ih =>
    refine passed_of_cons (List.cons_ne_nil _ _) fun t depth hlength => ?_
    have hitems : ∀ i ∈ items, Reads (passing (skipNested depth)) i.value () := fun i hi => by
      have hshorter := length_value_lt_items hi
      rw [List.length_cons] at hlength
      exact (ih i hi depth (by omega)).reads (hvalues i hi).starts
    have hlist : List.Forall₂ (fun i a => Reads (passing (skipNested depth)) i.value a) items
        (items.map fun _ => ()) :=
      List.forall₂_map_right_iff.mpr (List.forall₂_same.mpr hitems)
    exact passed_array (arrayRest_of_items hne hlist) t
  | emptyObject hgap =>
    exact passed_of_cons (List.cons_ne_nil _ _) fun t depth _ => passed_object (.empty hgap) t
  | @object members hne hnames hvalues ih =>
    refine passed_of_cons (List.cons_ne_nil _ _) fun t depth hlength => ?_
    have hmembers : ∀ m ∈ members, Passed depth m.value := fun m hm => by
      have hshorter := length_value_lt_members hm
      rw [List.length_cons] at hlength
      exact ih m hm depth (by omega)
    exact passed_object (objectRest_of_members hne (membersRead_of_passed hnames hmembers)) t

/-- A value of any depth is passed over, as far as it goes. -/
theorem IsValue.skipValue {text : List Char} (h : IsValue text) {gap rest : List Char}
    (hg : Blank gap) (hr : Ends rest) : skipValue (gap ++ (text ++ rest)) = .ok rest := by
  have hlength : text.length ≤ (' ' :: (gap ++ (text ++ rest))).length := by
    simp only [List.length_cons, List.length_append]
    omega
  exact h.passed _ hlength gap rest hg hr

end LintRatchet.Json
