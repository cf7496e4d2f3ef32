import LintRatchet.Proofs.CanonicalForm

/-!
# The canonical order of findings

`Precedes` says which of two findings comes first, without a comparison
function: the first field in which they differ decides, and a text comes before
another one when its UTF-8 bytes do.

Findings are compared code point by code point.  That is the same, because a
character with a smaller number has smaller bytes, whatever follows it
(`encode_lt_encode`).  Characters of different length differ in the first byte
already.  Those of one length have their number cut into digits of six bits, the
most significant one first.

Main statement: the canonical order is a total order in which only equal
findings are level, so there is one way to arrange a list by it
(`canonical_order`).
-/

namespace LintRatchet

/-! ## Texts by their bytes -/

/-- The UTF-8 bytes of a text. -/
def utf8Bytes (s : String) : List UInt8 := s.toUTF8.data.toList

theorem utf8Bytes_eq (s : String) : utf8Bytes s = s.toList.flatMap String.utf8EncodeChar := by
  conv => lhs; rw [← String.ofList_toList (s := s)]
  rw [utf8Bytes, String.toUTF8_eq_toByteArray, String.toByteArray_ofList, List.utf8Encode,
    List.toList_data_toByteArray]

theorem ofNat_cons_lt {m n : Nat} {xs ys : List UInt8} (hn : n < 256) (hle : m ≤ n)
    (h : m = n → xs < ys) : UInt8.ofNat m :: xs < UInt8.ofNat n :: ys := by
  rw [List.cons_lt_cons_iff, UInt8.lt_iff_toNat_lt, ← UInt8.toNat_inj, UInt8.toNat_ofNat',
    UInt8.toNat_ofNat', Nat.mod_eq_of_lt hn, Nat.mod_eq_of_lt (Nat.lt_of_le_of_lt hle hn)]
  rcases Nat.lt_or_eq_of_le hle with hlt | heq
  · exact .inl hlt
  · exact .inr ⟨heq, h heq⟩

/-- A character with a smaller number has smaller bytes, whatever follows it. -/
theorem encode_lt_encode {c d : Char} (h : c < d) (xs ys : List UInt8) :
    String.utf8EncodeChar c ++ xs < String.utf8EncodeChar d ++ ys := by
  have hlt : c.val.toNat < d.val.toNat := h
  have hmax : d.val.toNat < 0x110000 := by
    rcases d.valid with hv | hv
    · exact Nat.lt_trans hv (by decide)
    · exact hv.2
  have hdigits : ∀ n : Nat, n / 4096 / 64 = n / 262144 ∧ n / 64 / 64 = n / 4096 := fun n =>
    ⟨Nat.div_div_eq_div_mul n 4096 64, Nat.div_div_eq_div_mul n 64 64⟩
  obtain ⟨hc, hc'⟩ := hdigits c.val.toNat
  obtain ⟨hd, hd'⟩ := hdigits d.val.toNat
  simp only [String.utf8EncodeChar]
  -- By the length of the first character, and then of the second, which is not shorter.
  split
  · split
    · exact ofNat_cons_lt (by omega) (by omega) (by omega)
    split
    · exact ofNat_cons_lt (by omega) (by omega) (by omega)
    split
    · exact ofNat_cons_lt (by omega) (by omega) (by omega)
    · exact ofNat_cons_lt (by omega) (by omega) (by omega)
  split
  · rw [if_neg (by omega)]
    split
    · refine ofNat_cons_lt (by omega) (by omega) fun _ => ?_
      exact ofNat_cons_lt (by omega) (by omega) (by omega)
    split
    · exact ofNat_cons_lt (by omega) (by omega) (by omega)
    · exact ofNat_cons_lt (by omega) (by omega) (by omega)
  split
  · rw [if_neg (by omega), if_neg (by omega)]
    split
    · refine ofNat_cons_lt (by omega) (by omega) fun _ => ?_
      refine ofNat_cons_lt (by omega) (by omega) fun _ => ?_
      exact ofNat_cons_lt (by omega) (by omega) (by omega)
    · exact ofNat_cons_lt (by omega) (by omega) (by omega)
  · rw [if_neg (by omega), if_neg (by omega), if_neg (by omega)]
    refine ofNat_cons_lt (by omega) (by omega) fun _ => ?_
    refine ofNat_cons_lt (by omega) (by omega) fun _ => ?_
    refine ofNat_cons_lt (by omega) (by omega) fun _ => ?_
    exact ofNat_cons_lt (by omega) (by omega) (by omega)

/-- The order of texts by characters is that of their bytes. -/
theorem flatMap_encode_lt {cs ds : List Char} (h : cs < ds) :
    cs.flatMap String.utf8EncodeChar < ds.flatMap String.utf8EncodeChar := by
  induction cs generalizing ds with
  | nil =>
    cases ds with
    | nil => exact absurd h (List.lt_irrefl [])
    | cons d ds =>
      obtain ⟨x, xs, hx⟩ := List.exists_cons_of_ne_nil (String.utf8EncodeChar_ne_nil (c := d))
      rw [List.flatMap_nil, List.flatMap_cons, hx, List.cons_append]
      exact List.nil_lt_cons x _
  | cons c cs ih =>
    cases ds with
    | nil => exact absurd h (List.not_lt_nil _)
    | cons d ds =>
      rw [List.flatMap_cons, List.flatMap_cons]
      rcases List.cons_lt_cons_iff.mp h with hlt | ⟨rfl, hrest⟩
      · exact encode_lt_encode hlt _ _
      · exact List.append_left_lt (ih hrest)

/-- Texts are in the order of their bytes. -/
theorem utf8Bytes_lt_iff {s t : String} : utf8Bytes s < utf8Bytes t ↔ s < t := by
  have hmono : ∀ {s t : String}, s < t → utf8Bytes s < utf8Bytes t := fun h => by
    rw [utf8Bytes_eq, utf8Bytes_eq]
    exact flatMap_encode_lt (String.lt_iff_toList_lt.mp h)
  refine ⟨fun h => ?_, hmono⟩
  rcases lt_trichotomy s t with hlt | rfl | hgt
  · exact hlt
  · exact absurd h (List.lt_irrefl _)
  · exact absurd h (List.lt_asymm (hmono hgt))

/-! ## Which finding comes first -/

namespace Finding

/-- The first finding comes before the second one.  The first field in which they differ decides,
and texts go by their bytes. -/
inductive Precedes (a b : Finding) : Prop
  | file : utf8Bytes a.file < utf8Bytes b.file → Precedes a b
  | line : a.file = b.file → a.line < b.line → Precedes a b
  | rule : a.file = b.file → a.line = b.line → utf8Bytes a.rule < utf8Bytes b.rule → Precedes a b
  | message : a.file = b.file → a.line = b.line → a.rule = b.rule →
      utf8Bytes a.message < utf8Bytes b.message → Precedes a b

/-- Of two findings the one comes first that precedes the other in the first field that differs. -/
theorem order_eq_lt_iff {a b : Finding} : order a b = .lt ↔ a.Precedes b := by
  simp only [order, Ordering.then_eq_lt, compare_lt_iff_lt, Std.compare_eq_lt,
    Std.LawfulEqOrd.compare_eq_iff_eq]
  constructor
  · rintro (hfile | ⟨hfile, hline | ⟨hline, hrule | ⟨hrule, hmessage⟩⟩⟩)
    · exact .file (utf8Bytes_lt_iff.mpr hfile)
    · exact .line hfile hline
    · exact .rule hfile hline (utf8Bytes_lt_iff.mpr hrule)
    · exact .message hfile hline hrule (utf8Bytes_lt_iff.mpr hmessage)
  · intro h
    cases h with
    | file hfile => exact .inl (utf8Bytes_lt_iff.mp hfile)
    | line hfile hline => exact .inr ⟨hfile, .inl hline⟩
    | rule hfile hline hrule => exact .inr ⟨hfile, .inr ⟨hline, .inl (utf8Bytes_lt_iff.mp hrule)⟩⟩
    | message hfile hline hrule hmessage =>
      exact .inr ⟨hfile, .inr ⟨hline, .inr ⟨hrule, utf8Bytes_lt_iff.mp hmessage⟩⟩⟩

/-- The canonical order is total, and only findings with the same four fields are level in it.  So
sorting brings a list into its one arrangement in order, and two lists are sorted alike exactly when
they hold the same findings equally often. -/
theorem canonical_order :
    (∀ a b : Finding, order a b = .lt ↔ a.Precedes b) ∧
    (∀ a : Finding, order a a = .eq) ∧
    (∀ a b : Finding, order b a = (order a b).swap) ∧
    (∀ a b : Finding, before a b = true → before b a = true →
      a.file = b.file ∧ a.line = b.line ∧ a.rule = b.rule ∧ a.message = b.message) ∧
    (∀ a b c : Finding, before a b = true → before b c = true → before a c = true) ∧
    (∀ a b : Finding, before a b = true ∨ before b a = true) ∧
    (∀ fs : List Finding, (sort fs).Perm fs ∧
      ((sort fs).Pairwise fun a b => before a b = true) ∧ sort (sort fs) = sort fs) ∧
    ∀ fs gs : List Finding, sort fs = sort gs ↔ fs.Perm gs := by
  refine ⟨fun a b => order_eq_lt_iff, fun a => order_eq_iff.mpr rfl,
    fun a b => Std.OrientedCmp.eq_swap, ?_, before_trans, ?_, ?_, fun fs gs => sort_eq_sort_iff⟩
  · intro a b hab hba
    rw [before_antisymm hab hba]
    exact ⟨rfl, rfl, rfl, rfl⟩
  · intro a b
    exact (Bool.or_eq_true _ _).mp (before_total a b)
  · exact fun fs => ⟨sort_perm fs, sort_pairwise fs, sort_sort fs⟩

/-- Lines go by their value, and a letter beyond the ASCII ones comes after all of these. -/
theorem canonical_order_mixed :
    let a : Finding := ⟨"no-var", "z.js", 9, "use const"⟩
    let b : Finding := ⟨"no-var", "z.js", 10, "use const"⟩
    let c : Finding := ⟨"eqeq", "ä.js", 1, "use ==="⟩
    before a b = true ∧ before b c = true ∧ before a c = true ∧
      [c, b, a, b].Perm [b, c, b, a] ∧ sort [c, b, a, b] = sort [b, c, b, a] := by
  intro a b c
  obtain ⟨-, -, -, -, htrans, -, -, hsort⟩ := canonical_order
  have hab : before a b = true := by decide
  have hbc : before b c = true := by decide
  have hperm : [c, b, a, b].Perm [b, c, b, a] := by decide
  exact ⟨hab, hbc, htrans a b c hab hbc, hperm, (hsort _ _).mpr hperm⟩

end Finding

end LintRatchet
