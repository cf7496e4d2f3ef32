import LintRatchet.Proofs.Json.Skipping
import LintRatchet.Proofs.Json.Tree

/-!
# The texts of a value

`ValueText v cs` says that the text stands for the value, in whatever layout and
spelling.  It is the grammar once more, with the value that each text stands for.
Numbers are counts in digits.

A value has a text as soon as its numbers are counts, because each layout of
blank text writes one (`Value.Fits.valueText`).  Each text of a value is one that
can be passed over (`ValueText.isValue`), and it starts with a character that
tells what kind of value it is (`ValueText.opens`).
-/

namespace LintRatchet.Json

/-! ## Texts of values -/

/-- The text stands for the value. -/
inductive ValueText : Value → List Char → Prop
  | null : ValueText .null ['n', 'u', 'l', 'l']
  | true : ValueText (.bool true) ['t', 'r', 'u', 'e']
  | false : ValueText (.bool false) ['f', 'a', 'l', 's', 'e']
  | count (n : UInt32) : ValueText (.count n) (Nat.toDigits 10 n.toNat)
  | text {s : String} {cs : List Char} : StringText s cs → ValueText (.text s) cs
  | emptyArray {gap : List Char} : Blank gap → ValueText (.array []) ('[' :: (gap ++ [']']))
  | array {items : List (Value × ItemText)} :
      items ≠ [] → (∀ i ∈ items, ValueText i.1 i.2.value) →
      ValueText (.array (items.map Prod.fst)) ('[' :: itemsText (items.map Prod.snd))
  | emptyObject {gap : List Char} :
      Blank gap → ValueText (.object []) ('\x7b' :: (gap ++ ['\x7d']))
  | object {members : List ((String × Value) × MemberText)} :
      members ≠ [] → (∀ m ∈ members, Spelling m.2.name m.1.1.toList) →
      (∀ m ∈ members, ValueText m.1.2 m.2.value) →
      ValueText (.object (members.map Prod.fst)) ('\x7b' :: membersText (members.map Prod.snd))

/-! ## What a text starts with -/

/-- A text of the value starts with the character. -/
def Value.Opens : Value → Char → Prop
  | .null, c => c = 'n'
  | .bool b, c => c = if b then 't' else 'f'
  | .number _, c => c.isDigit = true
  | .text _, c => c = '"'
  | .array _, c => c = '['
  | .object _, c => c = '\x7b'

/-- The kind of a value can be told from the first character of its text. -/
theorem ValueText.opens {v : Value} {text : List Char} (h : ValueText v text) :
    ∃ c cs, text = c :: cs ∧ v.Opens c := by
  cases h with
  | null | true | false | emptyArray _ | array _ _ | emptyObject _ | object _ _ _ =>
    exact ⟨_, _, rfl, rfl⟩
  | count n =>
    obtain ⟨d, ds, heq, hdigit, -⟩ := exists_digit n.toNat
    exact ⟨d, ds, heq, hdigit⟩
  | text h =>
    obtain ⟨-⟩ := h
    exact ⟨_, _, rfl, rfl⟩

/-! ## Texts that are passed over -/

/-- What spells a text may stand between quotes. -/
theorem Spelling.stringBody {piece cs : List Char} (h : Spelling piece cs) : StringBody piece := by
  induction h with
  | nil => exact .nil
  | plain hq hb hc _ ih => exact .plain hq hb hc ih
  | letter hletter _ ih => exact .letter (Option.isSome_of_eq_some hletter) ih
  | number hds _ _ ih => exact .number hds ih
  | pair hds _ hds' _ _ ih => exact .number hds (.number hds' ih)

/-- A natural number in digits is a number. -/
theorem isNumber_digits (n : Nat) : IsNumber (Nat.toDigits 10 n) := by
  have hwhole : IsWhole (Nat.toDigits 10 n) := by
    by_cases hn : n = 0
    · subst hn
      exact .zero
    · exact .digits ⟨Nat.toDigits_ne_nil, fun _ => isDigit_of_mem_digits⟩ (head_digits_ne_zero hn)
  simpa using IsNumber.mk (.inl rfl) hwhole .absent .absent

/-- A text that stands for a value has the form of one. -/
theorem ValueText.isValue {v : Value} {text : List Char} (h : ValueText v text) : IsValue text := by
  induction h with
  | null => exact .null
  | true => exact .true
  | false => exact .false
  | count n => exact .number (isNumber_digits n.toNat)
  | text h =>
    obtain ⟨hspelling⟩ := h
    exact .string hspelling.stringBody
  | emptyArray hgap => exact .emptyArray hgap
  | array hne _ ih =>
    refine .array (by simpa using hne) fun i hi => ?_
    obtain ⟨j, hj, rfl⟩ := List.mem_map.mp hi
    exact ih j hj
  | emptyObject hgap => exact .emptyObject hgap
  | object hne hnames _ ih =>
    refine .object (by simpa using hne) (fun m hm => ?_) fun m hm => ?_
    · obtain ⟨n, hn, rfl⟩ := List.mem_map.mp hm
      exact (hnames n hn).stringBody
    · obtain ⟨n, hn, rfl⟩ := List.mem_map.mp hm
      exact ih n hn

theorem ValueText.starts {v : Value} {text : List Char} (h : ValueText v text) : Starts text :=
  h.isValue.starts

/-! ## Texts that are written -/

/-- A text between quotes, as it is written, stands for itself. -/
theorem stringText_quoted (s : String) : StringText s (quoted s) :=
  .mk (spelling_flatMap_escape s.toList)

variable {l : Layout}

/-- The items that a layout writes, with the blank text before and after each. -/
theorem exists_itemTexts (hl : l.IsBlank) (depth inner : Nat) (v : Value) (vs : List Value) :
    ∃ items : List (Value × ItemText), items.map Prod.fst = v :: vs ∧
      (∀ i ∈ items, i.2.value = i.1.write l inner) ∧
      itemsText (items.map Prod.snd) =
        l.gap inner ++ (v.write l inner ++ (writeItems l inner vs ++ (l.gap depth ++ [']']))) := by
  induction vs generalizing v with
  | nil =>
    refine ⟨[(v, ⟨l.gap inner, v.write l inner, l.gap depth, hl.gap inner, hl.gap depth⟩)], rfl,
      ?_, ?_⟩
    · simp
    · simp [itemsText, Text.join, ItemText.text, writeItems]
  | cons w vs ih =>
    obtain ⟨items, hvalues, htexts, hitems⟩ := ih w
    refine ⟨(v, ⟨l.gap inner, v.write l inner, [], hl.gap inner, blank_nil⟩) :: items, ?_, ?_, ?_⟩
    · rw [List.map_cons, hvalues]
    · exact List.forall_mem_cons.mpr ⟨rfl, htexts⟩
    · have hne : items.map Prod.snd ≠ [] := by
        rintro hnil
        rw [List.map_eq_nil_iff.mp hnil] at hvalues
        cases hvalues
      rw [itemsText] at hitems ⊢
      rw [List.map_cons, List.map_cons, Text.join_cons _ (by simpa using hne), List.append_assoc,
        List.cons_append, hitems]
      simp [ItemText.text, writeItems]

/-- The members that a layout writes, with the blank text around each. -/
theorem exists_memberTexts (hl : l.IsBlank) (depth inner : Nat) (m : String × Value)
    (ms : List (String × Value)) :
    ∃ members : List ((String × Value) × MemberText), members.map Prod.fst = m :: ms ∧
      (∀ n ∈ members, n.2.name = n.1.1.toList.flatMap escape ∧ n.2.value = n.1.2.write l inner) ∧
      membersText (members.map Prod.snd) =
        l.gap inner ++ (quoted m.1 ++ (':' :: (l.afterColon ++ (m.2.write l inner ++
          (writeMembers l inner ms ++ (l.gap depth ++ ['\x7d'])))))) := by
  induction ms generalizing m with
  | nil =>
    refine ⟨[(m, ⟨l.gap inner, m.1.toList.flatMap escape, [], l.afterColon, m.2.write l inner,
      l.gap depth, hl.gap inner, blank_nil, hl.afterColon, hl.gap depth⟩)], rfl, ?_, ?_⟩
    · simp
    · simp [membersText, Text.join, MemberText.text, MemberText.core, writeMembers, quoted]
  | cons n ms ih =>
    obtain ⟨members, hvalues, htexts, hmembers⟩ := ih n
    refine ⟨(m, ⟨l.gap inner, m.1.toList.flatMap escape, [], l.afterColon, m.2.write l inner, [],
      hl.gap inner, blank_nil, hl.afterColon, blank_nil⟩) :: members, ?_, ?_, ?_⟩
    · rw [List.map_cons, hvalues]
    · exact List.forall_mem_cons.mpr ⟨⟨rfl, rfl⟩, htexts⟩
    · have hne : members.map Prod.snd ≠ [] := by
        rintro hnil
        rw [List.map_eq_nil_iff.mp hnil] at hvalues
        cases hvalues
      rw [membersText] at hmembers ⊢
      rw [List.map_cons, List.map_cons, Text.join_cons _ (by simpa using hne), List.append_assoc,
        List.cons_append, hmembers]
      simp [MemberText.text, MemberText.core, writeMembers, quoted]

/-- What a layout of blank text writes for a value is a text of it. -/
theorem Value.Fits.valueText (hl : l.IsBlank) {room : Nat} {v : Value} (h : v.Fits room)
    (depth : Nat) : ValueText v (v.write l depth) := by
  induction h generalizing depth with
  | null =>
    rw [Value.write]
    exact .null
  | bool b =>
    cases b with
    | true =>
      rw [Value.write]
      exact .true
    | false =>
      rw [Value.write]
      exact .false
  | count n =>
    rw [write_count]
    exact .count n
  | text s =>
    rw [Value.write]
    exact .text (stringText_quoted s)
  | @array room vs _ ih =>
    cases vs with
    | nil =>
      rw [Value.write]
      exact .emptyArray blank_nil
    | cons v vs =>
      obtain ⟨items, hvalues, htexts, hitems⟩ := exists_itemTexts hl depth (depth + 1) v vs
      rw [Value.write, ← hitems, ← hvalues]
      refine .array (by rintro rfl; cases hvalues) fun i hi => ?_
      rw [htexts i hi]
      exact ih i.1 (hvalues ▸ List.mem_map_of_mem hi) (depth + 1)
  | @object room ms _ ih =>
    cases ms with
    | nil =>
      rw [Value.write]
      exact .emptyObject blank_nil
    | cons m ms =>
      obtain ⟨members, hvalues, htexts, hmembers⟩ :=
        exists_memberTexts hl depth (depth + 1) m ms
      rw [Value.write, ← hmembers, ← hvalues]
      refine .object (by rintro rfl; cases hvalues) (fun n hn => ?_) fun n hn => ?_
      · rw [(htexts n hn).1]
        exact spelling_flatMap_escape _
      · rw [(htexts n hn).2]
        exact ih n.1 (hvalues ▸ List.mem_map_of_mem hn) (depth + 1)

/-- The printed forms of the value are texts of it. -/
structure Value.Printed (v : Value) : Prop where
  compact : ValueText v v.compact.toList
  pretty : ValueText v v.pretty.toList

theorem Value.Fits.printed {room : Nat} {v : Value} (h : v.Fits room) : v.Printed where
  compact := by
    rw [Value.compact, String.toList_ofList]
    exact h.valueText Layout.isBlank_compact 0
  pretty := by
    rw [Value.pretty, String.toList_ofList]
    exact h.valueText Layout.isBlank_pretty 0

end LintRatchet.Json
