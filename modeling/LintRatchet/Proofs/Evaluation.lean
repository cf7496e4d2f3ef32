import LintRatchet.Evaluation
import LintRatchet.Proofs.CanonicalForm

/-!
# The ratchet in terms of sets

An evaluation looks at the set of fingerprints of the run and at the set that
the baseline accepts.  `evaluateAgainst_eq` states its branches with these sets
and their sizes in place of the ascending lists that it works on.  `Branch` says
what holds of the two sets in each branch, and what follows about runs is read
off there.

An evaluation decides by sizes and by whether anything is new.  `evaluate_judges`
says what that comes to.  A run is unchanged exactly when the two sets are equal,
although no branch compares them: where nothing is new and the count did not
drop, the run has as many fingerprints as the baseline and all of them are in it.
-/

namespace LintRatchet

/-! ## Sets of fingerprints -/

/-- The fingerprints that a baseline accepts. -/
def Baseline.accepted (b : Baseline) : Finset String := b.fingerprints.toFinset

/-- The fingerprints of findings. -/
def fingerprintsOf (fs : List Finding) : Finset String := (fs.map Finding.fingerprint).toFinset

/-- The findings whose fingerprint is not in a set. -/
def newTo (known : Finset String) (fs : List Finding) : List Finding :=
  fs.filter fun f => f.fingerprint ∉ known

theorem mem_fingerprintsOf {p : String} {fs : List Finding} :
    p ∈ fingerprintsOf fs ↔ ∃ f ∈ fs, f.fingerprint = p := by
  rw [fingerprintsOf, List.mem_toFinset, List.mem_map]

/-- The new findings are those whose fingerprint is not known. -/
theorem mem_newTo {known : Finset String} {f : Finding} {fs : List Finding} :
    f ∈ newTo known fs ↔ f ∈ fs ∧ f.fingerprint ∉ known := by
  rw [newTo, List.mem_filter, decide_eq_true_eq]

/-- Nothing is new exactly when every fingerprint is known. -/
theorem newTo_eq_nil_iff {known : Finset String} {fs : List Finding} :
    newTo known fs = [] ↔ fingerprintsOf fs ⊆ known := by
  constructor
  · intro h p hp
    obtain ⟨f, hf, rfl⟩ := mem_fingerprintsOf.mp hp
    by_contra hn
    have hmem : f ∈ newTo known fs := mem_newTo.mpr ⟨hf, hn⟩
    rw [h] at hmem
    exact List.not_mem_nil hmem
  · intro h
    refine List.eq_nil_iff_forall_not_mem.mpr fun f hf => ?_
    obtain ⟨hfs, hn⟩ := mem_newTo.mp hf
    exact hn (h (mem_fingerprintsOf.mpr ⟨f, hfs, rfl⟩))

theorem toFinset_set (fs : List Finding) : (Fingerprint.set fs).toFinset = fingerprintsOf fs := by
  rw [Fingerprint.set, Fingerprint.toFinset_ascending, fingerprintsOf]

/-- Fingerprints are listed once each. -/
theorem length_set (fs : List Finding) :
    (Fingerprint.set fs).length = (fingerprintsOf fs).card := by
  rw [Fingerprint.set, Fingerprint.length_ascending, fingerprintsOf]

theorem fingerprintsOf_sort (fs : List Finding) :
    fingerprintsOf (Finding.sort fs) = fingerprintsOf fs := by
  ext p
  rw [mem_fingerprintsOf, mem_fingerprintsOf]
  simp only [Finding.mem_sort]

/-- A baseline made of findings accepts their fingerprints. -/
theorem accepted_ofFindings (fs : List Finding) (v : String) :
    (Baseline.ofFindings fs v).accepted = fingerprintsOf fs := by
  rw [Baseline.accepted, Baseline.ofFindings, toFinset_set, fingerprintsOf_sort]

/-- Normalizing does not change what a baseline accepts. -/
theorem accepted_normalize (b : Baseline) : b.normalize.accepted = b.accepted := by
  rw [Baseline.accepted, Baseline.normalize, Fingerprint.toFinset_ascending, Baseline.accepted]

/-! ## The branches -/

/-- An evaluation with the counts of two sets. -/
def ruling (seen known : Finset String) (verdict : Verdict) (outcome : Outcome)
    (action : BaselineAction) (absorbed : UInt32) (new : List Finding) : Evaluation where
  verdict
  outcome
  action
  currentCount := count seen.card
  baselineCount := some (count known.card)
  fixedCount := count (known \ seen).card
  absorbedCount := absorbed
  newFindings := new

/-- What is missing from a baseline is what is new to the set that it accepts. -/
theorem missingFrom_ascending (known : List String) (current : List Finding) :
    missingFrom (Fingerprint.ascending known) current = newTo known.toFinset current := by
  unfold missingFrom newTo
  congr 1
  funext f
  by_cases h : f.fingerprint ∈ known
  · simp [h, Fingerprint.mem_ascending]
  · simp [h, Fingerprint.mem_ascending]

/-- What is fixed are the accepted fingerprints that the run does not have. -/
theorem length_fixed (known : List String) (current : List Finding) :
    ((Fingerprint.ascending known).filter fun p =>
      !(Fingerprint.set current).contains p).length =
      (known.toFinset \ fingerprintsOf current).card := by
  have hnodup : ((Fingerprint.ascending known).filter fun p =>
      !(Fingerprint.set current).contains p).Nodup := (Fingerprint.ascending_nodup known).filter _
  rw [← List.toFinset_card_of_nodup hnodup]
  congr 1
  ext p
  rw [List.mem_toFinset, List.mem_filter, Fingerprint.mem_ascending, Finset.mem_sdiff,
    List.mem_toFinset, ← toFinset_set, List.mem_toFinset]
  simp

/-- The evaluation against a baseline, branch by branch. -/
theorem evaluateAgainst_eq (b : Baseline) (current : List Finding) (policy : Policy) :
    evaluateAgainst b current policy =
      if (fingerprintsOf current).card < b.accepted.card ∧
          ¬(policy.strict = true ∧ newTo b.accepted current ≠ []) then
        if policy.failOnImprovement = true then
          ruling (fingerprintsOf current) b.accepted .fail .improvementRejected .keep 0 []
        else if policy.skipBaselineUpdate = true then
          ruling (fingerprintsOf current) b.accepted .pass .ratchetSkipped .keep
            (count (newTo b.accepted current).length) []
        else
          ruling (fingerprintsOf current) b.accepted .pass .ratcheted .overwrite
            (count (newTo b.accepted current).length) []
      else if newTo b.accepted current = [] then
        ruling (fingerprintsOf current) b.accepted .pass .unchanged .keep 0 []
      else
        ruling (fingerprintsOf current) b.accepted .fail .newFindings .keep 0
          (newTo b.accepted current) := by
  unfold evaluateAgainst
  simp only [length_set, Fingerprint.length_ascending, missingFrom_ascending, length_fixed,
    Bool.and_eq_true, decide_eq_true_eq, Bool.not_eq_true', Bool.and_eq_false_iff,
    List.isEmpty_iff]
  have hguard : ((fingerprintsOf current).card < b.fingerprints.toFinset.card ∧
      (policy.strict = false ∨ (!(newTo b.fingerprints.toFinset current).isEmpty) = false)) ↔
      ((fingerprintsOf current).card < b.accepted.card ∧
        ¬(policy.strict = true ∧ newTo b.accepted current ≠ [])) := by
    rw [Baseline.accepted]
    simp [imp_iff_not_or]
  simp only [hguard]
  rfl

/-! ## The branch of an evaluation -/

/-- A size is counted up to the largest 32-bit count. -/
theorem toNat_count (n : Nat) : (count n).toNat = min n (2 ^ 32 - 1) := by
  rw [count, UInt32.toNat_ofNat_of_lt' (by simp only [UInt32.size]; omega)]
  rfl

/-- The branches of an evaluation.  `seen` are the fingerprints of the run, `known` those that the
baseline accepts, and `new` the findings of the run that it does not accept. -/
inductive Branch (policy : Policy) (seen known : Finset String) (new : List Finding) :
    Evaluation → Prop
  | unchanged :
      new = [] → seen = known →
      Branch policy seen known new (ruling seen known .pass .unchanged .keep 0 [])
  | newFindings :
      new ≠ [] → seen ≠ known → (policy.strict = true ∨ known.card ≤ seen.card) →
      Branch policy seen known new (ruling seen known .fail .newFindings .keep 0 new)
  | improvementRejected :
      seen.card < known.card → (policy.strict = true → new = []) →
      policy.failOnImprovement = true →
      Branch policy seen known new (ruling seen known .fail .improvementRejected .keep 0 [])
  | ratchetSkipped :
      seen.card < known.card → (policy.strict = true → new = []) →
      policy.failOnImprovement = false → policy.skipBaselineUpdate = true →
      Branch policy seen known new
        (ruling seen known .pass .ratchetSkipped .keep (count new.length) [])
  | ratcheted :
      seen.card < known.card → (policy.strict = true → new = []) →
      policy.failOnImprovement = false → policy.skipBaselineUpdate = false →
      Branch policy seen known new
        (ruling seen known .pass .ratcheted .overwrite (count new.length) [])

/-- Each evaluation takes one of the branches. -/
theorem branch_evaluateAgainst (b : Baseline) (current : List Finding) (policy : Policy) :
    Branch policy (fingerprintsOf current) b.accepted (newTo b.accepted current)
      (evaluateAgainst b current policy) := by
  rw [evaluateAgainst_eq]
  split
  · next hguard =>
    obtain ⟨hless, hstrict⟩ := hguard
    have hnone : policy.strict = true → newTo b.accepted current = [] := fun hs => by
      by_contra hnew
      exact hstrict ⟨hs, hnew⟩
    split
    · next hfail => exact .improvementRejected hless hnone hfail
    · next hfail =>
      split
      · next hskip => exact .ratchetSkipped hless hnone (Bool.eq_false_iff.mpr hfail) hskip
      · next hskip =>
        exact .ratcheted hless hnone (Bool.eq_false_iff.mpr hfail) (Bool.eq_false_iff.mpr hskip)
  · next hguard =>
    split
    · next hnil =>
      -- Nothing is new and the count did not drop, so nothing is gone either.
      have hcount : b.accepted.card ≤ (fingerprintsOf current).card := by
        by_contra hless
        exact hguard ⟨not_le.mp hless, fun hstrict => hstrict.2 hnil⟩
      exact .unchanged hnil (Finset.eq_of_subset_of_card_le (newTo_eq_nil_iff.mp hnil) hcount)
    · next hnew =>
      have hne : fingerprintsOf current ≠ b.accepted := fun he =>
        hnew (newTo_eq_nil_iff.mpr he.subset)
      refine .newFindings hnew hne ?_
      by_contra hnot
      rw [not_or, not_le] at hnot
      exact hguard ⟨hnot.2, fun hstrict => hnot.1 hstrict.1⟩

/-! ## What an evaluation says of the two sets -/

/-- What an evaluation says of the fingerprints of a run and of a baseline. -/
structure Evaluation.Judges (e : Evaluation) (policy : Policy) (seen known : Finset String)
    (new : List Finding) : Prop where
  unchanged_iff : e.outcome = .unchanged ↔ seen = known
  newFindings_iff : e.outcome = .newFindings ↔
    new ≠ [] ∧ (policy.strict = true ∨ known.card ≤ seen.card)
  /-- In every other case the count dropped, and the policy decides. -/
  improved : e.outcome ≠ .unchanged → e.outcome ≠ .newFindings →
    seen.card < known.card ∧ e.outcome =
      if policy.failOnImprovement = true then .improvementRejected
      else if policy.skipBaselineUpdate = true then .ratchetSkipped
      else .ratcheted
  listed : e.newFindings = if e.outcome = .newFindings then new else []
  absorbed : e.absorbedCount.toNat =
    if e.outcome = .ratchetSkipped ∨ e.outcome = .ratcheted then min new.length (2 ^ 32 - 1) else 0
  fails_iff : e.verdict = .fail ↔ e.outcome = .newFindings ∨ e.outcome = .improvementRejected
  action : e.action = if e.outcome = .ratcheted then .overwrite else .keep
  counted : e.currentCount.toNat = min seen.card (2 ^ 32 - 1) ∧
    e.baselineCount.map UInt32.toNat = some (min known.card (2 ^ 32 - 1)) ∧
    e.fixedCount.toNat = min (known \ seen).card (2 ^ 32 - 1)
  /-- What the run has and what is gone from it make up the baseline and what is new. -/
  conserved : seen.card < 2 ^ 32 → known.card < 2 ^ 32 → ∃ n, e.baselineCount = some n ∧
    e.currentCount.toNat + e.fixedCount.toNat = n.toNat + (seen \ known).card
  nothing_fixed : e.outcome = .unchanged → e.fixedCount = 0

theorem card_add_card_sdiff (seen known : Finset String) :
    seen.card + (known \ seen).card = known.card + (seen \ known).card := by
  have hseen := Finset.card_sdiff_add_card_inter seen known
  have hknown := Finset.card_sdiff_add_card_inter known seen
  rw [Finset.inter_comm] at hknown
  omega

namespace Branch

variable {policy : Policy} {seen known : Finset String} {new : List Finding} {e : Evaluation}

theorem unchanged_iff (h : Branch policy seen known new e) :
    e.outcome = .unchanged ↔ seen = known := by
  cases h with
  | unchanged _ hsame => exact iff_of_true rfl hsame
  | newFindings _ hne _ => exact iff_of_false (by simp [ruling]) hne
  | improvementRejected hless _ _ | ratchetSkipped hless _ _ _ | ratcheted hless _ _ _ =>
    refine iff_of_false (by simp [ruling]) ?_
    rintro rfl
    exact lt_irrefl _ hless

theorem newFindings_iff (h : Branch policy seen known new e) :
    e.outcome = .newFindings ↔ new ≠ [] ∧ (policy.strict = true ∨ known.card ≤ seen.card) := by
  cases h with
  | unchanged hnil _ => exact iff_of_false (by simp [ruling]) fun hn => hn.1 hnil
  | newFindings hnew _ hguard => exact iff_of_true rfl ⟨hnew, hguard⟩
  | improvementRejected hless hnone _ | ratchetSkipped hless hnone _ _
  | ratcheted hless hnone _ _ =>
    refine iff_of_false (by simp [ruling]) ?_
    rintro ⟨hnew, hstrict | hcount⟩
    · exact hnew (hnone hstrict)
    · exact absurd hless (not_lt.mpr hcount)

/-- Any other outcome is that of an improvement, and the policy decides which. -/
theorem improved (h : Branch policy seen known new e) (hu : e.outcome ≠ .unchanged)
    (hn : e.outcome ≠ .newFindings) : seen.card < known.card ∧ e.outcome =
      if policy.failOnImprovement = true then .improvementRejected
      else if policy.skipBaselineUpdate = true then .ratchetSkipped
      else .ratcheted := by
  cases h with
  | unchanged _ _ => exact absurd rfl hu
  | newFindings _ _ _ => exact absurd rfl hn
  | improvementRejected hless _ hfail => exact ⟨hless, by rw [if_pos hfail]; rfl⟩
  | ratchetSkipped hless _ hfail hskip => exact ⟨hless, by simp [ruling, hfail, hskip]⟩
  | ratcheted hless _ hfail hskip => exact ⟨hless, by simp [ruling, hfail, hskip]⟩

/-- New findings are absorbed only where the baseline moves or would move. -/
theorem absorbed (h : Branch policy seen known new e) : e.absorbedCount.toNat =
    if e.outcome = .ratchetSkipped ∨ e.outcome = .ratcheted then min new.length (2 ^ 32 - 1)
    else 0 := by
  cases h with
  | unchanged _ _ | newFindings _ _ _ | improvementRejected _ _ _ => rfl
  | ratchetSkipped _ _ _ _ | ratcheted _ _ _ _ => exact toNat_count new.length

theorem counted (h : Branch policy seen known new e) :
    e.currentCount = count seen.card ∧ e.baselineCount = some (count known.card) ∧
      e.fixedCount = count (known \ seen).card := by
  cases h with
  | unchanged _ _ | newFindings _ _ _ | improvementRejected _ _ _ | ratchetSkipped _ _ _ _
  | ratcheted _ _ _ _ => exact ⟨rfl, rfl, rfl⟩

/-- Where there is a baseline none is created. -/
theorem not_created (h : Branch policy seen known new e) :
    e.outcome ≠ .baselineCreated ∧ e.action ≠ .create := by
  cases h <;> exact ⟨nofun, nofun⟩

theorem judges (h : Branch policy seen known new e) : e.Judges policy seen known new where
  unchanged_iff := h.unchanged_iff
  newFindings_iff := h.newFindings_iff
  improved := h.improved
  listed := by cases h <;> rfl
  absorbed := h.absorbed
  fails_iff := by cases h <;> simp [ruling]
  action := by cases h <;> rfl
  counted := by
    obtain ⟨hcurrent, hbaseline, hfixed⟩ := h.counted
    rw [hcurrent, hbaseline, hfixed, Option.map_some, toNat_count, toNat_count, toNat_count]
    exact ⟨rfl, rfl, rfl⟩
  conserved hseen hknown := by
    obtain ⟨hcurrent, hbaseline, hfixed⟩ := h.counted
    have hgone : (known \ seen).card ≤ known.card := Finset.card_le_card Finset.sdiff_subset
    refine ⟨count known.card, hbaseline, ?_⟩
    rw [hcurrent, hfixed, toNat_count, toNat_count, toNat_count, Nat.min_eq_left (by omega),
      Nat.min_eq_left (by omega), Nat.min_eq_left (by omega)]
    exact card_add_card_sdiff seen known
  nothing_fixed hu := by
    obtain ⟨-, -, hfixed⟩ := h.counted
    rw [hfixed, h.unchanged_iff.mp hu, Finset.sdiff_self, Finset.card_empty]
    rfl

end Branch

/-- The evaluation against a baseline in terms of the set of fingerprints of the run, the set that
the baseline accepts, and the findings that are new to it. -/
theorem evaluate_judges (current : List Finding) (b : Baseline) (policy : Policy) :
    (evaluate current (some b) policy).Judges policy (fingerprintsOf current) b.accepted
      (newTo b.accepted current) :=
  (branch_evaluateAgainst b current policy).judges

end LintRatchet
