import LintRatchet.Json.Tree
import LintRatchet.Proofs.Json.Written

/-!
# Whole values read back

A value that is kept for later is read as it was written, provided that its
brackets nest only as deep as the reader has room for.  `Fits` says that, and
that the numbers of the value are counts: the printer writes no others, and the
reader refuses numbers that cannot be rounded to finite ones.
-/

namespace LintRatchet.Json

variable {l : Layout}

/-- The brackets of a value nest at most so deep, and its numbers are counts. -/
inductive Value.Fits : Nat → Value → Prop where
  | null {room : Nat} : Fits room .null
  | bool {room : Nat} (b : Bool) : Fits room (.bool b)
  | count {room : Nat} (n : UInt32) : Fits room (.count n)
  | text {room : Nat} (s : String) : Fits room (.text s)
  | array {room : Nat} {vs : List Value} : (∀ v ∈ vs, Fits room v) → Fits (room + 1) (.array vs)
  | object {room : Nat} {ms : List (String × Value)} :
      (∀ m ∈ ms, Fits room m.2) → Fits (room + 1) (.object ms)

/-! ## Texts that start like a value of one kind -/

theorem readValue_null {room : Nat} : Reads (readValue room) ['n', 'u', 'l', 'l'] .null where
  starts := ⟨'n', _, rfl, by decide, by decide⟩
  read gap rest hg _ := by
    rw [List.cons_append, readValue, skipGap_blank_cons hg (by decide)]
    rfl

theorem readValue_bool {room : Nat} (b : Bool) : Written l (readValue room) (.bool b) (.bool b) := by
  intro depth
  cases b with
  | true =>
    rw [Value.write]
    refine ⟨⟨'t', _, rfl, by decide, by decide⟩, fun gap rest hg _ => ?_⟩
    rw [List.cons_append, readValue, skipGap_blank_cons hg (by decide)]
    rfl
  | false =>
    rw [Value.write]
    refine ⟨⟨'f', _, rfl, by decide, by decide⟩, fun gap rest hg _ => ?_⟩
    rw [List.cons_append, readValue, skipGap_blank_cons hg (by decide)]
    rfl

/-- A text is kept as it is. -/
theorem readValue_text {room : Nat} (s : String) :
    Written l (readValue room) (.text s) (.text s) := by
  intro depth
  rw [Value.write]
  refine ⟨⟨'"', _, rfl, by decide, by decide⟩, fun gap rest hg _ => ?_⟩
  have hquoted := (spells_flatMap_escape s.toList).readQuoted rest
  rw [quoted, List.cons_append, List.append_assoc, readValue, skipGap_blank_cons hg (by decide)]
  simp only [List.singleton_append, Char.reduceEq, if_false, if_true, hquoted, bind, Except.bind,
    pure, Except.pure]

theorem readValue_count {room : Nat} (n : UInt32) :
    Written l (readValue room) (.count n) (.count n) := by
  intro depth
  rw [write_count]
  refine ⟨starts_digits n.toNat, fun gap rest hg hr => ?_⟩
  obtain ⟨d, ds, heq, hdig, hgap⟩ := exists_digit n.toNat
  have hread := readNumeral_count n hr
  have hne : ∀ c, c.isDigit = false → d ≠ c := by
    rintro c hc rfl
    rw [hdig] at hc
    cases hc
  rw [heq, List.cons_append] at hread ⊢
  rw [readValue, skipGap_blank_cons hg hgap]
  simp only [hne 'n' (by decide), hne 't' (by decide), hne 'f' (by decide), hne '"' (by decide),
    hdig, Bool.or_true, if_false, if_true, hread, bind, Except.bind, pure, Except.pure, Value.count]

/-- An array is read as its items are, with one level less of room. -/
theorem readValue_array {room : Nat} {text : List Char} {vs : List Value}
    (h : Reads (readArray (readValue room)) ('[' :: text) vs) :
    Reads (readValue (room + 1)) ('[' :: text) (.array vs) where
  starts := h.starts
  read gap rest hg hr := by
    have hread := h.read gap rest hg hr
    rw [List.cons_append, readArray, skipGap_blank_cons hg (by decide)] at hread
    rw [List.cons_append, readValue, skipGap_blank_cons hg (by decide)]
    simp only [if_true] at hread
    simp only [Char.reduceEq, Char.reduceIsDigit, decide_false, Bool.or_false, Bool.false_eq_true,
      if_false, if_true, hread, bind, Except.bind, pure, Except.pure]

/-! ## Objects -/

/-- Reads a member of an object that is kept, after the opening quote of its name. -/
def readKeptMember (room : Nat) (ms : List (String × Value)) : Reader (List (String × Value)) :=
  fun cs => do
    let (name, cs) ← readQuoted cs
    let cs ← readColon cs
    let (v, cs) ← readValue room cs
    return ((name, v) :: ms, cs)

/-- A member is kept as it was written. -/
theorem takes_kept (hl : l.IsBlank) {room : Nat} {v : Value}
    (h : Written l (readValue room) v v) (ms : List (String × Value)) (name : String) :
    Takes l (readKeptMember room) ms name v ((name, v) :: ms) := by
  intro depth rest hr
  have hquoted := (spells_flatMap_escape name.toList).readQuoted
    (':' :: (l.afterColon ++ (v.write l depth ++ rest)))
  have hcolon := readColon_blank blank_nil (l.afterColon ++ (v.write l depth ++ rest))
  have hread := (h depth).read l.afterColon rest hl.afterColon hr
  rw [List.nil_append] at hcolon
  simp only [writeMember, List.append_assoc, List.cons_append, readKeptMember, hquoted, bind,
    Except.bind, hcolon, hread, pure, Except.pure]

/-- Members are kept in the opposite order, in front of those kept before. -/
theorem fills_kept (hl : l.IsBlank) {room : Nat} {ms : List (String × Value)}
    (h : ∀ m ∈ ms, Written l (readValue room) m.2 m.2) (before : List (String × Value)) :
    Fills l (readKeptMember room) before ms (ms.reverse ++ before) := by
  induction ms generalizing before with
  | nil => exact .nil
  | cons m ms ih =>
    obtain ⟨name, v⟩ := m
    rw [List.reverse_cons, List.append_assoc]
    exact .cons (takes_kept hl (h _ (List.mem_cons_self ..)) before name)
      (ih (fun m hm => h m (List.mem_cons_of_mem _ hm)) _)

/-- An object is kept with all its members, also those of the same name. -/
theorem readValue_object {room : Nat} {text : List Char} {ms : List (String × Value)}
    (h : ObjectRest (readKeptMember room) [] text ms.reverse) :
    Reads (readValue (room + 1)) ('\x7b' :: text) (.object ms) where
  starts := ⟨'\x7b', text, rfl, by decide, by decide⟩
  read gap rest hg _ := by
    have hread : readObjectRest (readKeptMember room) [] (text ++ rest) = .ok (ms.reverse, rest) :=
      h.readObjectRest rest
    rw [List.cons_append, readValue, skipGap_blank_cons hg (by decide)]
    simp only [Char.reduceEq, Char.reduceIsDigit, decide_false, Bool.or_false, Bool.false_eq_true,
      if_false, if_true]
    show (readObjectRest (readKeptMember room) [] (text ++ rest) >>= fun kept =>
      pure (.object kept.1.reverse, kept.2)) = Except.ok (Value.object ms, rest)
    rw [hread]
    simp only [bind, Except.bind, pure, Except.pure, List.reverse_reverse]

/-! ## Values of every kind -/

/-- A value that fits is kept as it was written. -/
theorem Value.Fits.written (hl : l.IsBlank) {room : Nat} {v : Value} (h : v.Fits room) :
    Written l (readValue room) v v := by
  induction h with
  | null => exact fun _ => by rw [Value.write]; exact readValue_null
  | bool b => exact readValue_bool b
  | count n => exact readValue_count n
  | text s => exact readValue_text s
  | @array room vs _ ih =>
    intro depth
    have hitems : ∀ v ∈ vs, Written l (readValue room) (id v) v := ih
    have harray := written_array hl hitems depth
    rw [List.map_id] at harray
    cases vs with
    | nil =>
      rw [Value.write] at harray ⊢
      exact readValue_array harray
    | cons v vs =>
      rw [Value.write] at harray ⊢
      exact readValue_array harray
  | @object room ms _ ih =>
    intro depth
    have hfills := fills_kept hl ih []
    rw [List.append_nil] at hfills
    obtain ⟨text, htext, hrest⟩ := hfills.objectRest hl depth
    rw [htext]
    exact readValue_object hrest

end LintRatchet.Json
