import LintRatchet.Fingerprint
import LintRatchet.Proofs.ErrorLine

/-!
# What the identity of a finding tells

The identity of a finding is the text `file:rule:line`, of which the fingerprint
is the hash.  No digit is a colon, so the line is found again behind the last
colon.  The file and the rule are not kept apart that well, since both may hold
colons themselves: the file `a:b` with the rule `c` has the identity of the file
`a` with the rule `b:c`.  `identity_separates_iff` says that this is all that can
happen.  Two findings of one identity are the same issue unless one of them is
the other with a part moved over a colon from its rule to its file.
-/

namespace LintRatchet

/-! ## Texts around a colon -/

section Colon

variable {front back front' back' : List Char}

/-- Two ways to put a text together around a colon differ by a part that lies between two colons. -/
theorem append_colon_eq_iff : front ++ ':' :: back = front' ++ ':' :: back' ↔
    (front = front' ∧ back = back') ∨
      (∃ moved, front' = front ++ ':' :: moved ∧ back = moved ++ ':' :: back') ∨
      ∃ moved, front = front' ++ ':' :: moved ∧ back' = moved ++ ':' :: back := by
  constructor
  · intro h
    rcases List.append_eq_append_iff.mp h with ⟨middle, rfl, hback⟩ | ⟨middle, rfl, hback⟩
    · cases middle with
      | nil => exact .inl ⟨(List.append_nil front).symm, (List.cons.inj hback).2⟩
      | cons c moved =>
        obtain ⟨rfl, hmoved⟩ := List.cons.inj hback
        exact .inr (.inl ⟨moved, rfl, hmoved⟩)
    · cases middle with
      | nil => exact .inl ⟨List.append_nil front', (List.cons.inj hback).2.symm⟩
      | cons c moved =>
        obtain ⟨rfl, hmoved⟩ := List.cons.inj hback
        exact .inr (.inr ⟨moved, rfl, hmoved⟩)
  · rintro (⟨rfl, rfl⟩ | ⟨moved, rfl, rfl⟩ | ⟨moved, rfl, rfl⟩)
    · rfl
    · simp
    · simp

/-- The last colon of a text is found again. -/
theorem append_colon_inj (hback : ':' ∉ back) (hback' : ':' ∉ back') :
    front ++ ':' :: back = front' ++ ':' :: back' ↔ front = front' ∧ back = back' := by
  rw [append_colon_eq_iff, or_iff_left]
  rintro (⟨moved, -, rfl⟩ | ⟨moved, -, rfl⟩)
  · exact hback (List.mem_append_right moved List.mem_cons_self)
  · exact hback' (List.mem_append_right moved List.mem_cons_self)

end Colon

theorem colon_not_mem_toString (n : Nat) : ':' ∉ (toString n).toList := fun h =>
  absurd (ErrorLine.isDigit_of_mem_toString h) (by decide)

/-- A line number is written in one way. -/
theorem toString_line_inj {m n : UInt32} :
    (toString m.toNat).toList = (toString n.toNat).toList ↔ m = n := by
  constructor
  · intro h
    have hvalue := congrArg ErrorLine.decimal h
    rw [ErrorLine.decimal_toString, ErrorLine.decimal_toString] at hvalue
    exact UInt32.toNat_inj.mp hvalue
  · rintro rfl
    rfl

namespace Finding

variable {a b : Finding}

/-! ## Identities -/

/-- The two findings have the same file, whatever its separators, the same rule and the same line. -/
structure SameIssue (a b : Finding) : Prop where
  file : SourcePath.withSlashes a.file = SourcePath.withSlashes b.file
  rule : a.rule = b.rule
  line : a.line = b.line

/-- The second finding is the first one with a part moved over a colon from the rule to the file. -/
def Shifted (a b : Finding) : Prop :=
  a.line = b.line ∧ ∃ moved,
    SourcePath.withSlashes b.file = SourcePath.withSlashes a.file ++ ":" ++ moved ∧
      a.rule = moved ++ ":" ++ b.rule

theorem identity_toList (f : Finding) : f.identity.toList =
    ((SourcePath.withSlashes f.file).toList ++ ':' :: f.rule.toList) ++
      ':' :: (toString f.line.toNat).toList := by
  simp [identity]

theorem shifted_iff : a.Shifted b ↔ a.line = b.line ∧ ∃ moved,
    (SourcePath.withSlashes b.file).toList =
      (SourcePath.withSlashes a.file).toList ++ ':' :: moved ∧
    a.rule.toList = moved ++ ':' :: b.rule.toList := by
  refine and_congr_right fun _ => ⟨?_, ?_⟩
  · rintro ⟨moved, hfile, hrule⟩
    refine ⟨moved.toList, ?_, ?_⟩
    · rw [hfile]
      simp
    · rw [hrule]
      simp
  · rintro ⟨moved, hfile, hrule⟩
    refine ⟨String.ofList moved, String.toList_injective ?_, String.toList_injective ?_⟩
    · rw [hfile]
      simp
    · rw [hrule]
      simp

theorem identity_eq_iff : a.identity = b.identity ↔ a.SameIssue b ∨ a.Shifted b ∨ b.Shifted a := by
  rw [← String.toList_inj, identity_toList, identity_toList,
    append_colon_inj (colon_not_mem_toString _) (colon_not_mem_toString _), append_colon_eq_iff,
    toString_line_inj, String.toList_inj, String.toList_inj, shifted_iff, shifted_iff]
  constructor
  · rintro ⟨⟨hfile, hrule⟩ | hmoved | hmoved, hline⟩
    · exact .inl ⟨hfile, hrule, hline⟩
    · exact .inr (.inl ⟨hline, hmoved⟩)
    · exact .inr (.inr ⟨hline.symm, hmoved⟩)
  · rintro (⟨hfile, hrule, hline⟩ | ⟨hline, hmoved⟩ | ⟨hline, hmoved⟩)
    · exact ⟨.inl ⟨hfile, hrule⟩, hline⟩
    · exact ⟨.inr (.inl hmoved), hline⟩
    · exact ⟨.inr (.inr hmoved), hline.symm⟩

/-- Moving a part takes at least the colon from the rule. -/
theorem Shifted.rule_ne (h : a.Shifted b) : a.rule ≠ b.rule := by
  obtain ⟨-, moved, -, hrule⟩ := shifted_iff.mp h
  intro heq
  have hlength := congrArg List.length hrule
  rw [heq, List.length_append, List.length_cons] at hlength
  omega

/-- The identity tells the file, the rule and the line of two findings unless one of them is the other
with a part moved over a colon.  Findings that are moved so have the same fingerprint. -/
theorem identity_separates_iff (a b : Finding) :
    ((a.identity = b.identity ↔ a.SameIssue b) ↔ ¬a.Shifted b ∧ ¬b.Shifted a) ∧
      (a.SameIssue b ∨ a.Shifted b ∨ b.Shifted a → a.fingerprint = b.fingerprint) := by
  constructor
  · rw [identity_eq_iff]
    constructor
    · intro h
      exact ⟨fun hs => hs.rule_ne (h.mp (.inr (.inl hs))).rule,
        fun hs => hs.rule_ne (h.mp (.inr (.inr hs))).rule.symm⟩
    · rintro ⟨hab, hba⟩
      exact ⟨fun h => h.resolve_right (not_or.mpr ⟨hab, hba⟩), .inl⟩
  · intro h
    rw [fingerprint, fingerprint, identity_eq_iff.mpr h]

/-- Two lines of one report, of which one finding takes the fingerprint of the other. -/
theorem identity_of_moved_part :
    let a : Finding := ⟨"b:c", "a", 1, "first"⟩
    let b : Finding := ⟨"c", "a:b", 1, "second"⟩
    ErrorLine.parse? "::error title=b:c,file=a,line=1::first" "/work" = some a ∧
      ErrorLine.parse? "::error title=c,file=a:b,line=1::second" "/work" = some b ∧
      a.identity = b.identity ∧ a.fingerprint = b.fingerprint ∧ ¬a.SameIssue b := by
  intro a b
  have hidentity : a.identity = b.identity := by decide +kernel
  refine ⟨by decide +kernel, by decide +kernel, hidentity, ?_, ?_⟩
  · rw [fingerprint, fingerprint, hidentity]
  · intro h
    exact absurd h.rule (by decide)

end Finding

end LintRatchet
