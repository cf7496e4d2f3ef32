import LintRatchet.Baseline
import Mathlib.Data.Finset.Card
import Mathlib.Data.String.Basic

/-!
# Canonical forms

The canonical order of findings compares all four fields, so it is a total
order in which only equal findings are level.  Sorting by it forgets the order
of a list and nothing else: `sort_eq_sort_iff` says that two lists are sorted
to the same list exactly when one is a rearrangement of the other.

`Fingerprint.ascending` brings a list of texts into strictly ascending order.
It forgets order and repetition and keeps the set: `ascending_eq_iff`.  Its
length is the number of distinct texts.

A baseline made of findings records them (`Baseline.Records`): it has the
fingerprints of the findings, ascending, and the findings in order.  That is its
canonical form, so normalizing it changes nothing.

`Baseline.SameContent` is what normalizing keeps of a baseline, and all that it
keeps: `normalize_eq_normalize_iff`.  The baselines that it leaves alone are the
canonical ones.
-/

namespace LintRatchet

/-! ## The order of findings -/

namespace Finding

/-- The canonical order as a lexicographic one, for the library's laws. -/
theorem order_eq_compareLex : order =
    compareLex (compareOn file) (compareLex (compareOn line)
      (compareLex (compareOn rule) (compareOn message))) := rfl

instance : Std.TransCmp order := by
  rw [order_eq_compareLex]
  infer_instance

/-- Only equal findings are level in the order. -/
theorem order_eq_iff {a b : Finding} : order a b = .eq ↔ a = b := by
  constructor
  · intro h
    simp only [order, Ordering.then_eq_eq, Std.LawfulEqOrd.compare_eq_iff_eq] at h
    obtain ⟨hf, hl, hr, hm⟩ := h
    cases a
    cases b
    simp only at hf hl hr hm
    rw [hf, hl, hr, hm]
  · rintro rfl
    exact Std.ReflCmp.compare_self

theorem before_trans (a b c : Finding) (hab : before a b = true) (hbc : before b c = true) :
    before a c = true :=
  Std.TransCmp.isLE_trans hab hbc

theorem before_total (a b : Finding) : (before a b || before b a) = true := by
  have hs : order b a = (order a b).swap := Std.OrientedCmp.eq_swap
  unfold before
  rw [hs]
  cases order a b <;> rfl

/-- Two findings that come before each other are one. -/
theorem before_antisymm {a b : Finding} (hab : before a b = true) (hba : before b a = true) :
    a = b :=
  order_eq_iff.mp (Std.OrientedCmp.isLE_antisymm hab hba)

/-! ## Sorting findings -/

theorem sort_perm (fs : List Finding) : (sort fs).Perm fs := List.mergeSort_perm fs before

theorem mem_sort {f : Finding} {fs : List Finding} : f ∈ sort fs ↔ f ∈ fs :=
  (sort_perm fs).mem_iff

/-- A sorted list is in canonical order. -/
theorem sort_pairwise (fs : List Finding) : (sort fs).Pairwise fun a b => before a b = true := 
  List.pairwise_mergeSort before_trans before_total fs

/-- A list in order is left alone. -/
theorem sort_of_pairwise {fs : List Finding} (h : fs.Pairwise fun a b => before a b = true) :
    sort fs = fs :=
  List.mergeSort_of_pairwise h

theorem sort_sort (fs : List Finding) : sort (sort fs) = sort fs := sort_of_pairwise (sort_pairwise fs)

/-- There is one arrangement in order. -/
theorem eq_of_perm_of_pairwise {as bs : List Finding} (h : as.Perm bs)
    (ha : as.Pairwise fun a b => before a b = true)
    (hb : bs.Pairwise fun a b => before a b = true) : as = bs :=
  h.eq_of_pairwise (fun _ _ _ _ => before_antisymm) ha hb

/-- Two lists sort to the same when one is a permutation of the other. -/
theorem sort_eq_sort_iff {as bs : List Finding} : sort as = sort bs ↔ as.Perm bs := by
  constructor
  · intro h
    exact (sort_perm as).symm.trans (h ▸ sort_perm bs)
  · intro h
    have hp : (sort as).Perm (sort bs) := (sort_perm as).trans (h.trans (sort_perm bs).symm)
    exact eq_of_perm_of_pairwise hp (sort_pairwise as) (sort_pairwise bs)

end Finding

/-! ## Ascending texts -/

namespace Fingerprint

theorem isLE_compare_iff {a b : String} : (compare a b).isLE = true ↔ a ≤ b := by
  rw [← compare_le_iff_le, Ordering.isLE_iff_ne_gt]

theorem mem_dropRepeats {p : String} : ∀ {l : List String}, p ∈ dropRepeats l ↔ p ∈ l
  | [] => Iff.rfl
  | [_] => Iff.rfl
  | a :: b :: rest => by
      have ih := mem_dropRepeats (p := p) (l := b :: rest)
      by_cases h : a = b
      · rw [dropRepeats, if_pos h, ih, h]
        simp
      · rw [dropRepeats, if_neg h, List.mem_cons, List.mem_cons, ih]

/-- In a sorted list equal texts stand side by side, so dropping repetitions leaves each once. -/
theorem dropRepeats_strict : ∀ {l : List String}, l.Pairwise (· ≤ ·) →
    (dropRepeats l).Pairwise (· < ·)
  | [], _ => List.Pairwise.nil
  | [a], _ => List.pairwise_singleton _ a
  | a :: b :: rest, h => by
      obtain ⟨ha, hrest⟩ := List.pairwise_cons.mp h
      have ih := dropRepeats_strict hrest
      by_cases hab : a = b
      · rw [dropRepeats, if_pos hab]
        exact ih
      · rw [dropRepeats, if_neg hab]
        refine List.pairwise_cons.mpr ⟨?_, ih⟩
        intro c hc
        have hab' : a < b := lt_of_le_of_ne (ha b (List.mem_cons_self ..)) hab
        cases List.mem_cons.mp (mem_dropRepeats.mp hc) with
        | inl he => exact he ▸ hab'
        | inr hc' => exact lt_of_lt_of_le hab' ((List.pairwise_cons.mp hrest).1 c hc')

/-- A strictly ascending list has no repeats to drop. -/
theorem dropRepeats_of_strict : ∀ {l : List String}, l.Pairwise (· < ·) → dropRepeats l = l
  | [], _ => rfl
  | [_], _ => rfl
  | a :: b :: rest, h => by
      obtain ⟨ha, hrest⟩ := List.pairwise_cons.mp h
      have hab : a ≠ b := (ha b (List.mem_cons_self ..)).ne
      rw [dropRepeats, if_neg hab, dropRepeats_of_strict hrest]

theorem mem_ascending {p : String} {l : List String} : p ∈ ascending l ↔ p ∈ l := by
  rw [ascending, mem_dropRepeats]
  exact (List.mergeSort_perm _ _).mem_iff

/-- The ascending form of a list is strictly ascending, so it has no repeats. -/
theorem ascending_strict (l : List String) : (ascending l).Pairwise (· < ·) := by
  apply dropRepeats_strict
  have htrans : ∀ a b c : String, (compare a b).isLE → (compare b c).isLE → (compare a c).isLE :=
    fun _ _ _ hab hbc => isLE_compare_iff.mpr
      ((isLE_compare_iff.mp hab).trans (isLE_compare_iff.mp hbc))
  have htotal : ∀ a b : String, (compare a b).isLE || (compare b a).isLE := by
    intro a b
    rw [Bool.or_eq_true, isLE_compare_iff, isLE_compare_iff]
    exact le_total a b
  exact (List.pairwise_mergeSort htrans htotal l).imp isLE_compare_iff.mp

theorem ascending_nodup (l : List String) : (ascending l).Nodup :=
  (ascending_strict l).imp fun h => h.ne

theorem ascending_of_strict {l : List String} (h : l.Pairwise (· < ·)) : ascending l = l := by
  have hs : l.mergeSort (fun a b => (compare a b).isLE) = l :=
    List.mergeSort_of_pairwise (h.imp fun hab => isLE_compare_iff.mpr hab.le)
  rw [ascending, hs, dropRepeats_of_strict h]

/-- The ascending form of a list stands for its set of texts. -/
theorem ascending_eq_iff {l m : List String} :
    ascending l = ascending m ↔ ∀ p, p ∈ l ↔ p ∈ m := by
  constructor
  · intro h p
    rw [← mem_ascending (l := l), h, mem_ascending]
  · intro h
    have hp : (ascending l).Perm (ascending m) :=
      (List.perm_ext_iff_of_nodup (ascending_nodup l) (ascending_nodup m)).mpr
        fun p => by rw [mem_ascending, mem_ascending, h]
    exact hp.eq_of_pairwise (fun _ _ _ _ hab hba => absurd hba hab.asymm)
      (ascending_strict l) (ascending_strict m)

theorem toFinset_ascending (l : List String) : (ascending l).toFinset = l.toFinset := by
  ext p
  rw [List.mem_toFinset, List.mem_toFinset, mem_ascending]

/-- The ascending form has one entry for each distinct text. -/
theorem length_ascending (l : List String) : (ascending l).length = l.toFinset.card := by
  rw [← toFinset_ascending, List.toFinset_card_of_nodup (ascending_nodup l)]

end Fingerprint

/-! ## Sets of fingerprints -/

namespace Fingerprint

/-- The fingerprints of a list are those of its findings. -/
theorem mem_set {p : String} {fs : List Finding} : p ∈ set fs ↔ ∃ f ∈ fs, f.fingerprint = p := by
  rw [set, mem_ascending, List.mem_map]

/-- The set of fingerprints forgets the order of the findings. -/
theorem set_eq_of_perm {fs gs : List Finding} (h : fs.Perm gs) : set fs = set gs := by
  refine ascending_eq_iff.mpr fun p => ?_
  exact (h.map Finding.fingerprint).mem_iff

end Fingerprint

/-! ## Baselines in canonical form -/

namespace Baseline

/-- The baseline accepts the findings and nothing else, in canonical form. -/
structure Records (b : Baseline) (fs : List Finding) (v : String) : Prop where
  version : b.linterVersion = v
  ascending : b.fingerprints.Pairwise (· < ·)
  accepts : ∀ p, p ∈ b.fingerprints ↔ ∃ f ∈ fs, f.fingerprint = p
  /-- Every finding is kept, as often as it occurs. -/
  keeps : b.errors.Perm fs
  sorted : b.errors.Pairwise fun f g => Finding.before f g = true

/-- The baseline that is made of findings records them. -/
theorem records_ofFindings (fs : List Finding) (v : String) : (ofFindings fs v).Records fs v where
  version := rfl
  ascending := Fingerprint.ascending_strict _
  accepts p := by
    rw [ofFindings, Fingerprint.set_eq_of_perm (Finding.sort_perm fs), Fingerprint.mem_set]
  keeps := Finding.sort_perm fs
  sorted := Finding.sort_pairwise fs

/-- The fingerprints are ascending, each once, and the findings are in order. -/
structure Canonical (b : Baseline) : Prop where
  ascending : b.fingerprints.Pairwise (· < ·)
  sorted : b.errors.Pairwise fun f g => Finding.before f g = true

/-- The two baselines have the same version, the same set of fingerprints, and the same findings
equally often. -/
structure SameContent (a b : Baseline) : Prop where
  version : a.linterVersion = b.linterVersion
  fingerprints : ∀ p, p ∈ a.fingerprints ↔ p ∈ b.fingerprints
  errors : a.errors.Perm b.errors

theorem canonical_normalize (b : Baseline) : b.normalize.Canonical where
  ascending := Fingerprint.ascending_strict b.fingerprints
  sorted := Finding.sort_pairwise b.errors

/-- Normalizing moves findings and drops repeated fingerprints, and nothing else. -/
theorem sameContent_normalize (b : Baseline) : b.normalize.SameContent b where
  version := rfl
  fingerprints _ := Fingerprint.mem_ascending
  errors := Finding.sort_perm b.errors

/-- What is in canonical form is left alone. -/
theorem Canonical.normalize_eq {b : Baseline} (h : b.Canonical) : b.normalize = b := by
  rw [normalize, Fingerprint.ascending_of_strict h.ascending, Finding.sort_of_pairwise h.sorted]

/-- Normalizing keeps the content and nothing else. -/
theorem normalize_eq_normalize_iff {a b : Baseline} : a.normalize = b.normalize ↔ a.SameContent b := by
  rw [normalize, normalize, Baseline.mk.injEq, Fingerprint.ascending_eq_iff,
    Finding.sort_eq_sort_iff]
  constructor
  · rintro ⟨hversion, hfingerprints, herrors⟩
    exact ⟨hversion, hfingerprints, herrors⟩
  · rintro ⟨hversion, hfingerprints, herrors⟩
    exact ⟨hversion, hfingerprints, herrors⟩

theorem Records.canonical {b : Baseline} {fs : List Finding} {v : String} (h : b.Records fs v) :
    b.Canonical :=
  ⟨h.ascending, h.sorted⟩

theorem normalize_ofFindings (fs : List Finding) (v : String) :
    (ofFindings fs v).normalize = ofFindings fs v :=
  (records_ofFindings fs v).canonical.normalize_eq

end Baseline

end LintRatchet
