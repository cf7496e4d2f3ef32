import LintRatchet.Configuration.Expansion
import LintRatchet.Proofs.ErrorLine

/-!
# What a text expands to

A reference is written as `${NAME}` or `${NAME:-DEFAULT}`.  `Reference.text` and
`Reference.WellFormed` say that as a grammar, and reading a reference is the
inverse of writing one (`reference?_eq_some_iff`).

The references of a text can be found in two ways.  A scan goes from left to
right and looks at each position for a reference that begins there (`Scan`).  A
search looks for the leftmost reference, keeps what stands before it as it is,
and goes on behind it (`Sliced`).  Both cut a text into the same pieces.  They
never look into what has been cut off, so an unclosed `${` is a piece of text,
and a `${` in a default belongs to the default.

What a text expands to is said in terms of these pieces (`expand_scan`).
-/

namespace LintRatchet.Expansion

/-! ## The grammar of references -/

namespace Reference

/-- What is written after the name. -/
def ending (r : Reference) : List Char :=
  match r.fallback with
  | none => ['\x7d']
  | some fallback => ':' :: '-' :: fallback ++ ['\x7d']

/-- How a reference is written. -/
def text (r : Reference) : List Char := '$' :: '\x7b' :: (r.name ++ r.ending)

/-- The name is an ASCII identifier, and the default has no closing brace. -/
structure WellFormed (r : Reference) : Prop where
  name : ∃ c cs, r.name = c :: cs ∧ isNameStart c = true ∧ ∀ d ∈ cs, isNameChar d = true
  fallback : ∀ fallback, r.fallback = some fallback → '\x7d' ∉ fallback

end Reference

variable {cs rest before : List Char} {name : List Char} {r q : Reference} {ps qs : List Piece}
  {environment : Variables}

theorem not_brace {cs : List Char} :
    (∀ c ∈ cs, decide (c ≠ '\x7d') = true) ↔ '\x7d' ∉ cs := by
  constructor
  · intro h hc
    exact absurd (h _ hc) (by decide)
  · intro h c hc
    exact decide_eq_true fun he => h (he ▸ hc)

/-- After a name there is the closing brace, or a default and then the brace. -/
theorem closing?_eq_some_iff :
    closing? name cs = some (r, rest) ↔
      r.name = name ∧ (∀ fallback, r.fallback = some fallback → '\x7d' ∉ fallback) ∧
        cs = r.ending ++ rest := by
  constructor
  · intro h
    unfold closing? at h
    split at h
    · cases h
      exact ⟨rfl, nofun, rfl⟩
    · next tail =>
      split at h
      · next c after hd =>
        cases h
        have hbrace : c = '\x7d' := by
          have hfirst := List.head?_dropWhile_not (fun c => decide (c ≠ '\x7d')) tail
          rw [hd] at hfirst
          simpa using hfirst
        have htail : tail = tail.takeWhile (· ≠ '\x7d') ++ '\x7d' :: rest := by
          rw [hbrace] at hd
          rw [← hd, List.takeWhile_append_dropWhile]
        refine ⟨rfl, ?_, ?_⟩
        · rintro _ ⟨⟩
          exact not_brace.mp fun c hc => List.mem_takeWhile_imp (p := (· ≠ '\x7d')) hc
        · simpa [Reference.ending] using htail
      · cases h
    · cases h
  · rintro ⟨rfl, hfallback, rfl⟩
    rcases r with ⟨name, _ | fallback⟩
    · rfl
    · obtain ⟨htake, hdrop⟩ := ErrorLine.span_append (p := fun c => decide (c ≠ '\x7d'))
        (not_brace.mpr (hfallback fallback rfl)) (r := '\x7d' :: rest) (by simp)
      have hending : Reference.ending ⟨name, some fallback⟩ ++ rest =
          ':' :: '-' :: (fallback ++ '\x7d' :: rest) := by
        simp [Reference.ending]
      rw [hending]
      simp only [closing?, hdrop, htake]

/-- What follows the name of a reference does not belong to the name. -/
theorem head_ending (r : Reference) (rest : List Char) :
    ∀ c ∈ (r.ending ++ rest).head?, isNameChar c = false := by
  rcases r with ⟨name, _ | fallback⟩ <;>
  · rintro c ⟨⟩
    decide

/-- The reference that is read is the one that is written there. -/
theorem reference?_eq_some_iff :
    reference? cs = some (r, rest) ↔ r.WellFormed ∧ cs = r.text ++ rest := by
  constructor
  · intro h
    unfold reference? at h
    split at h
    · next c tail =>
      split at h
      · next hc =>
        obtain ⟨hname, hfallback, hrest⟩ := closing?_eq_some_iff.mp h
        refine ⟨⟨⟨c, tail.takeWhile isNameChar, hname, hc, ?_⟩, hfallback⟩, ?_⟩
        · exact fun d hd => List.mem_takeWhile_imp hd
        · rw [Reference.text, hname, List.cons_append, List.cons_append, List.append_assoc,
            ← hrest, List.cons_append, List.takeWhile_append_dropWhile]
      · cases h
    · cases h
  · rintro ⟨⟨⟨c, ds, hname, hc, hds⟩, hfallback⟩, rfl⟩
    obtain ⟨htake, hdrop⟩ := ErrorLine.span_append hds (head_ending r rest)
    have htext : r.text ++ rest = '$' :: '\x7b' :: c :: (ds ++ (r.ending ++ rest)) := by
      rw [Reference.text, hname]
      simp
    rw [htext]
    simp only [reference?, hc, if_true, htake, hdrop]
    exact closing?_eq_some_iff.mpr ⟨hname, hfallback, rfl⟩

/-! ## The pieces of a text -/

/-- A reference begins at a position of a text. -/
def ReferenceAt (cs : List Char) (n : Nat) : Prop :=
  ∃ r rest, Reference.WellFormed r ∧ cs.drop n = r.text ++ rest

/-- Goes through a text from left to right and looks at each position for a reference. -/
inductive Scan : List Char → List Piece → Prop
  | nil : Scan [] []
  | reference {r : Reference} {rest : List Char} {ps : List Piece} :
      r.WellFormed → Scan rest ps → Scan (r.text ++ rest) (.reference r :: ps)
  | char {c : Char} {cs : List Char} {ps : List Piece} :
      ¬ReferenceAt (c :: cs) 0 → Scan cs ps → Scan (c :: cs) (.char c :: ps)

/-- Cuts a text at the leftmost reference, and what follows it in the same way. -/
inductive Sliced : List Char → List Piece → Prop
  | last {cs : List Char} : (∀ n, ¬ReferenceAt cs n) → Sliced cs (cs.map .char)
  | slice {before : List Char} {r : Reference} {rest : List Char} {ps : List Piece} :
      (∀ n < before.length, ¬ReferenceAt (before ++ (r.text ++ rest)) n) → r.WellFormed →
      Sliced rest ps → Sliced (before ++ (r.text ++ rest)) (before.map .char ++ .reference r :: ps)

theorem referenceAt_zero_iff : ReferenceAt cs 0 ↔ ∃ r rest, reference? cs = some (r, rest) := by
  simp only [ReferenceAt, List.drop_zero, reference?_eq_some_iff]

theorem not_referenceAt_nil (n : Nat) : ¬ReferenceAt [] n := by
  rintro ⟨r, rest, -, h⟩
  rw [List.drop_nil] at h
  cases h

theorem pieces_of_reference? (h : reference? cs = some (r, rest)) :
    pieces cs = .reference r :: pieces rest := by
  rw [pieces]
  split
  · next h' =>
    rw [h] at h'
    cases h'
    rfl
  · next h' =>
    rw [h] at h'
    cases h'

theorem pieces_text (h : r.WellFormed) (rest : List Char) :
    pieces (r.text ++ rest) = .reference r :: pieces rest :=
  pieces_of_reference? (reference?_eq_some_iff.mpr ⟨h, rfl⟩)

theorem pieces_nil : pieces [] = [] := by
  rw [pieces]
  rfl

/-- Where no reference stands, a character is a piece by itself. -/
theorem pieces_cons {c : Char} (h : ¬ReferenceAt (c :: cs) 0) :
    pieces (c :: cs) = .char c :: pieces cs := by
  rw [pieces]
  split
  · next r rest h' => exact absurd (referenceAt_zero_iff.mpr ⟨r, rest, h'⟩) h
  · rfl

/-- The pieces of a text are those of a scan. -/
theorem scan_pieces (cs : List Char) : Scan cs (pieces cs) := by
  induction cs using pieces.induct with
  | case1 cs r rest h ih =>
    obtain ⟨hr, rfl⟩ := reference?_eq_some_iff.mp h
    rw [pieces_text hr]
    exact .reference hr ih
  | case2 h =>
    rw [pieces_nil]
    exact .nil
  | case3 c cs h ih =>
    have hnot : ¬ReferenceAt (c :: cs) 0 := by
      rw [referenceAt_zero_iff, h]
      exact nofun
    rw [pieces_cons hnot]
    exact .char hnot ih

/-- There is one way to scan a text. -/
theorem scan_iff : Scan cs qs ↔ qs = pieces cs := by
  constructor
  · intro h
    induction h with
    | nil => exact pieces_nil.symm
    | reference hr _ ih => rw [pieces_text hr, ih]
    | char hnot _ ih => rw [pieces_cons hnot, ih]
  · rintro rfl
    exact scan_pieces cs

/-- What a search keeps in front of a reference grows by a character where none begins. -/
theorem Sliced.cons {c : Char} (h : Sliced cs ps) (hnot : ¬ReferenceAt (c :: cs) 0) :
    Sliced (c :: cs) (.char c :: ps) := by
  cases h with
  | last hnone =>
    refine @Sliced.last (c :: cs) fun n => ?_
    cases n with
    | zero => exact hnot
    | succ n => exact hnone n
  | @slice before r rest ps hbefore hr hrest =>
    refine @Sliced.slice (c :: before) r rest ps (fun n hn => ?_) hr hrest
    cases n with
    | zero => exact hnot
    | succ n => exact hbefore n (Nat.lt_of_succ_lt_succ hn)

/-- The pieces of a scan are those of a search. -/
theorem Scan.sliced (h : Scan cs ps) : Sliced cs ps := by
  induction h with
  | nil => exact .last not_referenceAt_nil
  | reference hr _ ih => exact @Sliced.slice [] _ _ _ nofun hr ih
  | char hnot _ ih => exact ih.cons hnot

/-- Up to the first reference each character is a piece. -/
theorem pieces_of_clear (h : ∀ n < before.length, ¬ReferenceAt (before ++ rest) n) :
    pieces (before ++ rest) = before.map .char ++ pieces rest := by
  induction before with
  | nil => rfl
  | cons c before ih =>
    have hrest := ih fun n hn => h (n + 1) (Nat.succ_lt_succ hn)
    have hnot : ¬ReferenceAt (c :: (before ++ rest)) 0 := h 0 (Nat.succ_pos _)
    rw [List.cons_append, pieces_cons hnot, hrest, List.map_cons, List.cons_append]

/-- A search finds the same references as a scan. -/
theorem sliced_iff : Sliced cs qs ↔ qs = pieces cs := by
  constructor
  · intro h
    induction h with
    | @last cs hnone =>
      have hclear : pieces (cs ++ []) = cs.map .char ++ pieces [] := pieces_of_clear fun n _ => by
        rw [List.append_nil]
        exact hnone n
      rw [List.append_nil, pieces_nil, List.append_nil] at hclear
      exact hclear.symm
    | slice hbefore hr _ ih => rw [pieces_of_clear hbefore, pieces_text hr, ih]
  · rintro rfl
    exact (scan_pieces cs).sliced

theorem pieces_of_none (h : ∀ n, ¬ReferenceAt cs n) : pieces cs = cs.map .char :=
  (sliced_iff.mp (.last h)).symm

/-! ## What stands for the pieces -/

/-- The value of the variable, or else the default. -/
def Reference.value? (r : Reference) (environment : Variables) : Option (List Char) :=
  ((environment (String.ofList r.name)).map String.toList).or r.fallback

/-- What stands for a piece. -/
def Piece.shown (environment : Variables) : Piece → List Char
  | .char c => [c]
  | .reference r => (r.value? environment).getD []

/-- There is something that stands for a piece. -/
def Piece.Resolved (environment : Variables) : Piece → Prop
  | .char _ => True
  | .reference r => (r.value? environment).isSome = true

/-- The first reference for which nothing stands is one to the variable. -/
def FirstUnset (environment : Variables) (ps : List Piece) (u : Unset) : Prop :=
  ∃ front r back, ps = front ++ .reference r :: back ∧ (∀ p ∈ front, p.Resolved environment) ∧
    r.value? environment = none ∧ u = ⟨String.ofList r.name⟩

theorem resolve_eq (r : Reference) (environment : Variables) :
    r.resolve environment =
      match r.value? environment with
      | some value => .ok value
      | none => .error ⟨String.ofList r.name⟩ := by
  unfold Reference.resolve Reference.value?
  cases environment (String.ofList r.name) with
  | some value => rfl
  | none => cases r.fallback <;> rfl

/-- What stands for a piece comes before what the others come to. -/
theorem assemble_cons {p : Piece} (h : p.Resolved environment) (ps : List Piece) :
    assemble environment (p :: ps) =
      (assemble environment ps).map fun out => p.shown environment ++ out := by
  cases p with
  | char c =>
    rw [assemble]
    cases assemble environment ps <;> rfl
  | reference r =>
    obtain ⟨value, hvalue⟩ := Option.isSome_iff_exists.mp h
    rw [assemble, resolve_eq, Piece.shown, hvalue]
    cases assemble environment ps <;> rfl

/-- When all pieces stand for something, that is put together. -/
theorem assemble_of_resolved (h : ∀ p ∈ ps, p.Resolved environment) :
    assemble environment ps = .ok (ps.flatMap (Piece.shown environment)) := by
  induction ps with
  | nil => rfl
  | cons p ps ih =>
    rw [assemble_cons (h p List.mem_cons_self), ih fun q hq => h q (List.mem_cons_of_mem _ hq)]
    rfl

theorem assemble_of_firstUnset {u : Unset} (h : FirstUnset environment ps u) :
    assemble environment ps = .error u := by
  obtain ⟨front, r, back, rfl, hfront, hnone, rfl⟩ := h
  induction front with
  | nil =>
    rw [List.nil_append, assemble, resolve_eq, hnone]
    rfl
  | cons p front ih =>
    rw [List.cons_append, assemble_cons (hfront p List.mem_cons_self),
      ih fun q hq => hfront q (List.mem_cons_of_mem _ hq)]
    rfl

/-- Something stands for every piece, or there is a first reference for which nothing does. -/
theorem resolved_or_firstUnset (environment : Variables) (ps : List Piece) :
    (∀ p ∈ ps, p.Resolved environment) ∨ ∃ u, FirstUnset environment ps u := by
  induction ps with
  | nil => exact .inl nofun
  | cons p ps ih =>
    by_cases hp : p.Resolved environment
    · rcases ih with hall | ⟨u, front, r, back, rfl, hfront, hnone, hu⟩
      · exact .inl (List.forall_mem_cons.mpr ⟨hp, hall⟩)
      · exact .inr ⟨u, p :: front, r, back, rfl, List.forall_mem_cons.mpr ⟨hp, hfront⟩, hnone, hu⟩
    · cases p with
      | char c => exact absurd trivial hp
      | reference r =>
        exact .inr ⟨_, [], r, ps, rfl, nofun, Option.not_isSome_iff_eq_none.mp hp, rfl⟩

theorem expand_eq (environment : Variables) (text : String) :
    expand environment text = (assemble environment (pieces text.toList)).map String.ofList := by
  unfold expand
  cases assemble environment (pieces text.toList) <;> rfl

variable {text out : String} {u : Unset}

theorem expand_of_resolved (h : ∀ p ∈ pieces text.toList, p.Resolved environment) :
    expand environment text =
      .ok (String.ofList ((pieces text.toList).flatMap (Piece.shown environment))) := by
  rw [expand_eq, assemble_of_resolved h]
  rfl

theorem expand_of_firstUnset (h : FirstUnset environment (pieces text.toList) u) :
    expand environment text = .error u := by
  rw [expand_eq, assemble_of_firstUnset h]
  rfl

/-- A text expands when none of its references is without a value. -/
theorem expand_eq_ok_iff :
    expand environment text = .ok out ↔
      (∀ p ∈ pieces text.toList, p.Resolved environment) ∧
        out = String.ofList ((pieces text.toList).flatMap (Piece.shown environment)) := by
  constructor
  · intro h
    rcases resolved_or_firstUnset environment (pieces text.toList) with hall | ⟨u, hu⟩
    · rw [expand_of_resolved hall, Except.ok.injEq] at h
      exact ⟨hall, h.symm⟩
    · rw [expand_of_firstUnset hu] at h
      cases h
  · rintro ⟨hall, rfl⟩
    exact expand_of_resolved hall

theorem expand_eq_error_iff :
    expand environment text = .error u ↔ FirstUnset environment (pieces text.toList) u := by
  refine ⟨fun h => ?_, expand_of_firstUnset⟩
  rcases resolved_or_firstUnset environment (pieces text.toList) with hall | ⟨v, hv⟩
  · rw [expand_of_resolved hall] at h
    cases h
  · rw [expand_of_firstUnset hv, Except.error.injEq] at h
    rwa [← h]

/-- A text without references is left as it is. -/
theorem expand_of_none (h : ∀ n, ¬ReferenceAt text.toList n) :
    expand environment text = .ok text := by
  have hpieces := pieces_of_none h
  have hall : ∀ p ∈ pieces text.toList, p.Resolved environment := by
    rw [hpieces]
    intro p hp
    obtain ⟨c, -, rfl⟩ := List.mem_map.mp hp
    trivial
  have hshown : (pieces text.toList).flatMap (Piece.shown environment) = text.toList := by
    rw [hpieces, List.flatMap_map]
    exact List.flatMap_singleton' _
  rw [expand_of_resolved hall, hshown, String.ofList_toList]

/-- A text expands to what stands for its pieces, which are those that a scan from left to right
gives, and a search for the leftmost reference as well.  Where nothing stands for some reference,
the variable of the first such one is named.  A text without references is left as it is. -/
theorem expand_scan (environment : Variables) (text : String) : ∃ ps,
    (∀ qs, Scan text.toList qs ↔ qs = ps) ∧
    (∀ qs, Sliced text.toList qs ↔ qs = ps) ∧
    (∀ out, expand environment text = .ok out ↔
      (∀ p ∈ ps, p.Resolved environment) ∧
        out = String.ofList (ps.flatMap (Piece.shown environment))) ∧
    (∀ u, expand environment text = .error u ↔ FirstUnset environment ps u) ∧
    ((∀ n, ¬ReferenceAt text.toList n) → expand environment text = .ok text) :=
  ⟨pieces text.toList, fun _ => scan_iff, fun _ => sliced_iff, fun _ => expand_eq_ok_iff,
    fun _ => expand_eq_error_iff, expand_of_none⟩

/-- What is put in and what is not closed is not looked at. -/
example : expand (fun name => if name = "A" then some "$\x7bB\x7d" else none)
    "$$\x7bA\x7d, $\x7bC:-$\x7bD\x7d\x7d, $\x7bE" =
      .ok "$$\x7bB\x7d, $\x7bD\x7d, $\x7bE" := by
  decide +kernel

end LintRatchet.Expansion
