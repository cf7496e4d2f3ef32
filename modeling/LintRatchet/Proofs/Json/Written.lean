import LintRatchet.Json.Printer
import LintRatchet.Proofs.Json.Collecting
import LintRatchet.Proofs.Json.Grammar

/-!
# Reading what was written

`Written l r v a` says that the reader `r` makes `a` of the value `v` as the
layout `l` writes it, at every depth.  The layout may be any that puts only
blank text between tokens; both layouts of the printer do.

`Fills` follows a draft over a list of members, whatever reader takes them.  A
record is read back when its members fill a complete draft.

Main statement: a document whose value is read back in this sense is read back
from the text of either layout, with a line feed at its end or without
(`readBack_of_written`).
-/

namespace LintRatchet.Json

variable {α σ : Type} {l : Layout}

/-! ## Layouts of blank text -/

/-- All text between tokens is blank. -/
structure Layout.IsBlank (l : Layout) : Prop where
  gap : ∀ depth, Blank (l.gap depth)
  afterColon : Blank l.afterColon

theorem Layout.isBlank_compact : Layout.compact.IsBlank where
  gap _ := blank_nil
  afterColon := blank_nil

/-- The layout for people puts line feeds and spaces between tokens. -/
theorem Layout.isBlank_pretty : Layout.pretty.IsBlank where
  gap depth := by
    intro c hc
    cases List.mem_cons.mp hc with
    | inl h => exact h ▸ rfl
    | inr h => exact (List.eq_of_mem_replicate h) ▸ rfl
  afterColon := by
    intro c hc
    exact (List.mem_singleton.mp hc) ▸ rfl

/-! ## Escapes -/

/-- A digit that is written is read with the value that it was written for. -/
theorem hexValue?_hexDigit {n : Nat} (h : n < 16) : hexValue? (Digest.hexDigit n) = some n := by
  have hall : ∀ m : Fin 16, hexValue? (Digest.hexDigit m) = some m.val := by decide
  exact hall ⟨n, h⟩

/-- A character below `20` has two zeros before its two digits. -/
theorem hex4_control {c : Char} (h : c.toNat < 0x20) :
    Hex4 ['0', '0', Digest.hexDigit (c.toNat / 16), Digest.hexDigit (c.toNat % 16)] c.toNat := by
  have hdigits := @Hex4.mk '0' '0' _ _ 0 0 _ _ rfl rfl
    (hexValue?_hexDigit (n := c.toNat / 16) (by omega))
    (hexValue?_hexDigit (n := c.toNat % 16) (by omega))
  have hvalue : ((0 * 16 + 0) * 16 + c.toNat / 16) * 16 + c.toNat % 16 = c.toNat := by omega
  rwa [hvalue] at hdigits

/-- A character as it is written is one of its spellings. -/
theorem spelling_escape_append (c : Char) {piece cs : List Char} (h : Spelling piece cs) :
    Spelling (escape c ++ piece) (c :: cs) := by
  fun_cases escape c
  -- a control character without a letter, a character that needs no escape, and the letters
  case case8 hc =>
    have hnumber := Spelling.number (hex4_control hc) (by omega) h
    rwa [Char.ofNat_toNat] at hnumber
  case case9 hq hb _ _ _ _ _ hc => exact .plain hq hb (by omega) h
  all_goals
    next hc =>
      subst hc
      exact .letter rfl h

theorem spelling_flatMap_escape (cs : List Char) : Spelling (cs.flatMap escape) cs := by
  induction cs with
  | nil => exact .nil
  | cons c cs ih => exact spelling_escape_append c ih

/-- Text is read back from between the quotes that it was written in. -/
theorem spells_flatMap_escape (cs : List Char) : Spells (cs.flatMap escape) cs :=
  (spelling_flatMap_escape cs).spells

/-! ## Values -/

/-- The reader makes `a` of the value as the layout writes it. -/
def Written (l : Layout) (r : Reader α) (v : Value) (a : α) : Prop :=
  ∀ depth, Reads r (v.write l depth) a

/-- A text is read back from between its quotes. -/
theorem written_text (s : String) : Written l readText (.text s) s := by
  intro depth
  rw [Value.write]
  exact (spells_flatMap_escape s.toList).readText

theorem written_count (n : UInt32) : Written l readCount (.count n) n := by
  intro depth
  rw [write_count]
  exact reads_count n

theorem written_bool (b : Bool) : Written l readBool (.bool b) b := by
  intro depth
  cases b with
  | true =>
    rw [Value.write]
    refine ⟨⟨'t', _, rfl, by decide, by decide⟩, fun gap rest hg _ => ?_⟩
    rw [List.cons_append, readBool, skipGap_blank_cons hg (by decide)]
    rfl
  | false =>
    rw [Value.write]
    refine ⟨⟨'f', _, rfl, by decide, by decide⟩, fun gap rest hg _ => ?_⟩
    rw [List.cons_append, readBool, skipGap_blank_cons hg (by decide)]
    rfl

/-- A constant is written as its name. -/
theorem written_name {named : List (String × α)} {name : String} {a : α}
    (h : named.lookup name = some a) : Written l (readName named) (.text name) a := by
  intro depth
  rw [Value.write]
  refine ⟨⟨'"', _, rfl, by decide, by decide⟩, fun gap rest hg _ => ?_⟩
  have hquoted := (spells_flatMap_escape name.toList).readQuoted rest
  rw [quoted, List.cons_append, List.append_assoc, readName, skipGap_blank_cons hg (by decide)]
  simp only [List.singleton_append, if_true, hquoted, bind, Except.bind, h, pure, Except.pure]

/-- A value is not taken for `null` unless it starts like it. -/
theorem written_option {value : Reader α} {v : Value} {a : α} (h : Written l value v a)
    (hn : ∀ depth, (v.write l depth).head? ≠ some 'n') :
    Written l (readOption value) v (some a) := by
  intro depth
  refine ⟨(h depth).starts, fun gap rest hg hr => ?_⟩
  obtain ⟨c, cs, heq, hc, -⟩ := (h depth).starts
  have hread := (h depth).read [] rest blank_nil hr
  have hne : c ≠ 'n' := by
    rintro rfl
    exact hn depth (by rw [heq]; rfl)
  rw [heq, List.nil_append, List.cons_append] at hread
  rw [heq, List.cons_append, readOption, skipGap_blank_cons hg hc]
  simp only [hne, if_false, hread, bind, Except.bind, pure, Except.pure]

theorem written_option_text (s : String) :
    Written l (readOption readText) (.text s) (some s) :=
  written_option (written_text s) fun depth => by simp [Value.write, quoted]

theorem written_option_bool (b : Bool) : Written l (readOption readBool) (.bool b) (some b) :=
  written_option (written_bool b) fun depth => by cases b <;> simp [Value.write]

theorem written_option_count (n : UInt32) :
    Written l (readOption readCount) (.count n) (some n) :=
  written_option (written_count n) fun depth => by
    obtain ⟨d, ds, heq, hdig, -⟩ := exists_digit n.toNat
    rw [write_count, heq]
    rintro ⟨⟩
    cases hdig

/-- The items that a layout writes are read back one after the other. -/
theorem items_of_written (hl : l.IsBlank) {item : Reader α} {encode : α → Value}
    (depth inner : Nat) : ∀ (as : List α) (a : α), (∀ b ∈ a :: as, Written l item (encode b) b) →
      Items item ((encode a).write l inner ++
        (writeItems l inner (as.map encode) ++ (l.gap depth ++ [']']))) (a :: as)
  | [], a, h => by
      rw [List.map_nil, writeItems, List.nil_append]
      exact .last (h a (List.mem_cons_self ..) inner) (hl.gap depth)
  | b :: as, a, h => by
      rw [List.map_cons, writeItems]
      have hrest := items_of_written hl depth inner as b fun x hx => h x (List.mem_cons_of_mem a hx)
      have hnext := Items.next (h a (List.mem_cons_self ..) inner) blank_nil (hl.gap inner) hrest
      simpa only [List.nil_append, List.cons_append, List.append_assoc] using hnext

/-- A list is read back when its items are. -/
theorem written_array (hl : l.IsBlank) {item : Reader α} {encode : α → Value} {as : List α}
    (h : ∀ a ∈ as, Written l item (encode a) a) :
    Written l (readArray item) (.array (as.map encode)) as := by
  intro depth
  cases as with
  | nil =>
    rw [List.map_nil, Value.write]
    exact (ArrayRest.empty blank_nil).readArray
  | cons a as =>
    rw [List.map_cons, Value.write]
    exact (ArrayRest.items (hl.gap (depth + 1))
      (items_of_written hl depth (depth + 1) as a h)).readArray

theorem written_texts (hl : l.IsBlank) (ss : List String) :
    Written l (readArray readText) (.texts ss) ss :=
  written_array hl fun s _ => written_text s

theorem written_option_texts (hl : l.IsBlank) (ss : List String) :
    Written l (readOption (readArray readText)) (.texts ss) (some ss) :=
  written_option (written_texts hl ss) fun depth => by
    cases ss <;> simp [Value.texts, Value.write]

/-! ## Members -/

/-- A member as it is written, after the opening quote of its name. -/
def writeMember (l : Layout) (depth : Nat) (name : String) (v : Value) : List Char :=
  name.toList.flatMap escape ++ '"' :: ':' :: (l.afterColon ++ v.write l depth)

/-- The reader of members takes a member as the layout writes it, and makes one draft of another. -/
def Takes (l : Layout) (member : σ → Reader σ) (s : σ) (name : String) (v : Value) (s' : σ) :
    Prop :=
  ∀ depth, MemberReads member s (writeMember l depth name v) s'

/-- The members in their order make one draft of another, as the layout writes them. -/
inductive Fills (l : Layout) (member : σ → Reader σ) : σ → List (String × Value) → σ → Prop where
  | nil {s : σ} : Fills l member s [] s
  | cons {s s' s'' : σ} {name : String} {v : Value} {ms : List (String × Value)} :
      Takes l member s name v s' → Fills l member s' ms s'' → Fills l member s ((name, v) :: ms) s''

/-- A draft may be filled by some members first and by the others afterwards. -/
theorem Fills.append {member : σ → Reader σ} {s s' s'' : σ} {ms ms' : List (String × Value)}
    (h : Fills l member s ms s') (h' : Fills l member s' ms' s'') :
    Fills l member s (ms ++ ms') s'' := by
  induction h with
  | nil => exact h'
  | cons htakes _ ih => exact .cons htakes (ih h')

/-- The members that a layout writes are read one after the other. -/
theorem members_of_fills (hl : l.IsBlank) {member : σ → Reader σ} (depth inner : Nat)
    {ms : List (String × Value)} {s s' : σ} {name : String} {v : Value}
    (h : Fills l member s ((name, v) :: ms) s') :
      Members member s (writeMember l inner name v ++
        (writeMembers l inner ms ++ (l.gap depth ++ ['\x7d']))) s' := by
  induction ms generalizing s name v with
  | nil =>
    cases h with
    | cons htakes hnil =>
      cases hnil
      rw [writeMembers, List.nil_append]
      exact .last (htakes inner) (hl.gap depth)
  | cons m ms ih =>
    obtain ⟨name', v'⟩ := m
    cases h with
    | cons htakes hrest =>
      have hnext := Members.next (htakes inner) blank_nil (hl.gap inner) (ih hrest)
      simpa only [writeMembers, writeMember, quoted, List.nil_append, List.cons_append,
        List.append_assoc] using hnext

/-- The text of an object makes the draft that its members make. -/
theorem Fills.objectRest (hl : l.IsBlank) {member : σ → Reader σ} {ms : List (String × Value)}
    {s s' : σ} (h : Fills l member s ms s') (depth : Nat) :
    ∃ text, (Value.object ms).write l depth = '\x7b' :: text ∧ ObjectRest member s text s' := by
  cases ms with
  | nil =>
    cases h
    exact ⟨['\x7d'], by rw [Value.write], .empty blank_nil⟩
  | cons m ms =>
    obtain ⟨name, v⟩ := m
    refine ⟨_, ?_, .members (hl.gap (depth + 1)) (members_of_fills hl depth (depth + 1) h)⟩
    simp only [Value.write, writeMember, quoted, List.nil_append, List.cons_append,
      List.append_assoc]

/-! ## Records -/

/-- A slot takes a member of its name whose value it can read. -/
theorem takes_slot (hl : l.IsBlank) {slots : List (Slot σ)} {closed : Bool} {name : String}
    {value : Reader α} {get : σ → Option α} {set : σ → α → σ} {s : σ} {v : Value} {a : α}
    (hf : slots.find? (fun f => f.name == name) = some (slot name value get set))
    (hs : get s = none) (hv : Written l value v a) :
    Takes l (readRecordMember slots closed) s name v (set s a) := by
  intro depth
  have hslot : SlotReads (slot name value get set) s (v.write l depth) (set s a) :=
    slotReads_slot hs (hv depth)
  have hmember := hslot.memberReads closed hf (spells_flatMap_escape name.toList) blank_nil
    hl.afterColon
  rwa [List.nil_append] at hmember

/-- A member that may be left out leaves the draft as it is when it is not there. -/
theorem fills_member? {member : σ → Reader σ} {name : String} {encode : α → Value} {o : Option α}
    {s s' : σ} {put : α → σ} (h : ∀ a, Takes l member s name (encode a) (put a))
    (hs : o.elim s put = s') : Fills l member s (Value.member? name encode o) s' := by
  subst hs
  cases o with
  | none => exact .nil
  | some a => exact .cons (h a) .nil

/-- A record is read back when its members fill a complete draft. -/
theorem written_record (hl : l.IsBlank) {slots : List (Slot σ)} {closed : Bool} {empty s : σ}
    {finish : σ → Option α} {ms : List (String × Value)} {a : α}
    (h : Fills l (readRecordMember slots closed) empty ms s) (hf : finish s = some a) :
    Written l (readRecord slots closed empty finish) (.object ms) a := by
  intro depth
  obtain ⟨text, htext, hrest⟩ := h.objectRest hl depth
  rw [htext]
  exact hrest.readRecord hf

/-! ## Whole texts -/

/-- A document is read back from either layout, whether a line feed follows or not. -/
structure ReadBack (decode : String → Except Problem α) (encode : α → Value) : Prop where
  compact : ∀ a, decode (encode a).compact = .ok a
  compactLine : ∀ a, decode ((encode a).compact ++ "\n") = .ok a
  pretty : ∀ a, decode (encode a).pretty = .ok a
  prettyLine : ∀ a, decode ((encode a).pretty ++ "\n") = .ok a

/-- What a layout writes for a value is read back. -/
theorem Written.readAll {r : Reader α} {v : Value} {a : α} (h : Written l r v a) :
    readAll r (String.ofList (v.write l 0)) = .ok a ∧
      readAll r (String.ofList (v.write l 0) ++ "\n") = .ok a := by
  have hend : Blank ['\n'] := fun c hc => (List.mem_singleton.mp hc) ▸ rfl
  have hplain := (h 0).readAll blank_nil blank_nil
  have hline := (h 0).readAll blank_nil hend
  rw [List.nil_append, List.append_nil] at hplain
  rw [List.nil_append, String.ofList_append] at hline
  exact ⟨hplain, hline⟩

/-- What is read back in either layout is read back from each of the four texts. -/
theorem readBack_of_written {r : Reader α} {encode : α → Value}
    (h : ∀ {l : Layout}, l.IsBlank → ∀ a, Written l r (encode a) a) :
    ReadBack (readAll r) encode where
  compact a := (h Layout.isBlank_compact a).readAll.1
  compactLine a := (h Layout.isBlank_compact a).readAll.2
  pretty a := (h Layout.isBlank_pretty a).readAll.1
  prettyLine a := (h Layout.isBlank_pretty a).readAll.2

end LintRatchet.Json
