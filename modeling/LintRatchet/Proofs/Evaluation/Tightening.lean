import LintRatchet.Proofs.Evaluation

/-!
# What the flags of a policy can do

A policy has three flags, and turning one on only tightens it.  Two facts carry
this, each stated once for all policies: when a run fails against a baseline
(`verdict_eq_fail_iff`), and when its findings replace the baseline
(`writes_iff`).  The flags that make a run fail stand in the first without a
negation, and in the second every flag is negated.  So a policy with more flags
fails whatever the other one fails and writes only where the other one writes.

The flag that keeps the baseline as it is does not show in anything that is said
of the run.  No flag shows in the counts of the run and of the baseline, and
without a baseline the policy is not looked at.
-/

namespace LintRatchet

/-! ## Policies with more flags -/

/-- Every flag of the first policy is on in the second one too. -/
structure Policy.TightenedTo (p q : Policy) : Prop where
  failOnImprovement : p.failOnImprovement = true → q.failOnImprovement = true
  skipBaselineUpdate : p.skipBaselineUpdate = true → q.skipBaselineUpdate = true
  strict : p.strict = true → q.strict = true

namespace Policy

theorem TightenedTo.refl (p : Policy) : p.TightenedTo p := ⟨id, id, id⟩

theorem tightenedTo_failOnImprovement (p : Policy) :
    p.TightenedTo { p with failOnImprovement := true } :=
  { TightenedTo.refl p with failOnImprovement := fun _ => rfl }

theorem tightenedTo_skipBaselineUpdate (p : Policy) :
    p.TightenedTo { p with skipBaselineUpdate := true } :=
  { TightenedTo.refl p with skipBaselineUpdate := fun _ => rfl }

theorem tightenedTo_strict (p : Policy) : p.TightenedTo { p with strict := true } :=
  { TightenedTo.refl p with strict := fun _ => rfl }

end Policy

/-! ## When a run fails, and when it writes -/

namespace Branch

variable {policy : Policy} {seen known : Finset String} {new : List Finding} {e : Evaluation}

/-- A run fails when it improves on the baseline and that is rejected, or when it has something new
and does not improve, or may not. -/
theorem verdict_eq_fail_iff (h : Branch policy seen known new e) :
    e.verdict = .fail ↔ (seen.card < known.card ∧ policy.failOnImprovement = true) ∨
      (new ≠ [] ∧ (policy.strict = true ∨ known.card ≤ seen.card)) := by
  cases h with
  | unchanged hnil hsame =>
    refine iff_of_false (by simp [ruling]) ?_
    rintro (⟨hless, -⟩ | ⟨hnew, -⟩)
    · exact hless.ne (congrArg Finset.card hsame)
    · exact hnew hnil
  | newFindings hnew _ hguard => exact iff_of_true rfl (.inr ⟨hnew, hguard⟩)
  | improvementRejected hless _ hfail => exact iff_of_true rfl (.inl ⟨hless, hfail⟩)
  | ratchetSkipped hless hnone hfail _ | ratcheted hless hnone hfail _ =>
    refine iff_of_false (by simp [ruling]) ?_
    rintro (⟨-, hreject⟩ | ⟨hnew, hstrict | hcount⟩)
    · exact Bool.false_ne_true (hfail.symm.trans hreject)
    · exact hnew (hnone hstrict)
    · exact absurd hless (not_lt.mpr hcount)

/-- The findings of a run replace the baseline when the run improves on it and no flag objects. -/
theorem writes_iff (h : Branch policy seen known new e) :
    e.action.writes = true ↔ seen.card < known.card ∧ policy.failOnImprovement = false ∧
      policy.skipBaselineUpdate = false ∧ (policy.strict = true → new = []) := by
  cases h with
  | unchanged _ hsame =>
    exact iff_of_false nofun fun hall => hall.1.ne (congrArg Finset.card hsame)
  | newFindings hnew _ hguard =>
    refine iff_of_false nofun ?_
    rintro ⟨hless, -, -, hnone⟩
    rcases hguard with hstrict | hcount
    · exact hnew (hnone hstrict)
    · exact absurd hless (not_lt.mpr hcount)
  | improvementRejected _ _ hfail =>
    exact iff_of_false nofun fun hall => Bool.false_ne_true (hall.2.1.symm.trans hfail)
  | ratchetSkipped _ _ _ hskip =>
    exact iff_of_false nofun fun hall => Bool.false_ne_true (hall.2.2.1.symm.trans hskip)
  | ratcheted hless hnone hfail hskip => exact iff_of_true rfl ⟨hless, hfail, hskip, hnone⟩

end Branch

section Tightening

variable {current : List Finding} {b : Baseline} {p q : Policy}

/-- What fails still fails under a tighter policy. -/
theorem fail_of_tightenedTo (h : p.TightenedTo q)
    (hfail : (evaluateAgainst b current p).verdict = .fail) :
    (evaluateAgainst b current q).verdict = .fail := by
  rw [(branch_evaluateAgainst b current p).verdict_eq_fail_iff] at hfail
  rw [(branch_evaluateAgainst b current q).verdict_eq_fail_iff]
  rcases hfail with ⟨hless, hreject⟩ | ⟨hnew, hguard⟩
  · exact .inl ⟨hless, h.failOnImprovement hreject⟩
  · exact .inr ⟨hnew, hguard.imp_left h.strict⟩

/-- What is written under a tighter policy is written under a looser one. -/
theorem writes_of_tightenedTo (h : p.TightenedTo q)
    (hwrites : (evaluateAgainst b current q).action.writes = true) :
    (evaluateAgainst b current p).action.writes = true := by
  rw [(branch_evaluateAgainst b current q).writes_iff] at hwrites
  rw [(branch_evaluateAgainst b current p).writes_iff]
  obtain ⟨hless, hfail, hskip, hnone⟩ := hwrites
  refine ⟨hless, Bool.eq_false_iff.mpr fun hp => ?_, Bool.eq_false_iff.mpr fun hp => ?_,
    fun hp => hnone (h.strict hp)⟩
  · exact Bool.false_ne_true (hfail.symm.trans (h.failOnImprovement hp))
  · exact Bool.false_ne_true (hskip.symm.trans (h.skipBaselineUpdate hp))

end Tightening

/-! ## What the flags do not touch -/

/-- Two evaluations say the same of the run.  They may differ in what becomes of the baseline. -/
structure Evaluation.SameFindings (d e : Evaluation) : Prop where
  verdict : d.verdict = e.verdict
  currentCount : d.currentCount = e.currentCount
  baselineCount : d.baselineCount = e.baselineCount
  fixedCount : d.fixedCount = e.fixedCount
  absorbedCount : d.absorbedCount = e.absorbedCount
  newFindings : d.newFindings = e.newFindings

theorem ruling_sameFindings (seen known : Finset String) (verdict : Verdict)
    (outcome outcome' : Outcome) (action action' : BaselineAction) (absorbed : UInt32)
    (new : List Finding) :
    (ruling seen known verdict outcome action absorbed new).SameFindings
      (ruling seen known verdict outcome' action' absorbed new) :=
  ⟨rfl, rfl, rfl, rfl, rfl, rfl⟩

/-- A run that may not move the baseline is judged like one that may. -/
theorem evaluateAgainst_skipBaselineUpdate (b : Baseline) (current : List Finding)
    (policy : Policy) :
    (evaluateAgainst b current policy).SameFindings
      (evaluateAgainst b current { policy with skipBaselineUpdate := true }) := by
  rw [evaluateAgainst_eq, evaluateAgainst_eq]
  simp only [if_true]
  split
  · split
    · exact ruling_sameFindings ..
    · split
      · exact ruling_sameFindings ..
      · exact ruling_sameFindings ..
  · split
    · exact ruling_sameFindings ..
    · exact ruling_sameFindings ..

/-- Two evaluations count the same. -/
structure Evaluation.SameCounts (d e : Evaluation) : Prop where
  currentCount : d.currentCount = e.currentCount
  baselineCount : d.baselineCount = e.baselineCount
  fixedCount : d.fixedCount = e.fixedCount

/-- The counts are those of the run and the baseline, whatever the policy. -/
theorem evaluateAgainst_sameCounts (b : Baseline) (current : List Finding) (p q : Policy) :
    (evaluateAgainst b current p).SameCounts (evaluateAgainst b current q) := by
  obtain ⟨hcurrent, hbaseline, hfixed⟩ := (branch_evaluateAgainst b current p).counted
  obtain ⟨hcurrent', hbaseline', hfixed'⟩ := (branch_evaluateAgainst b current q).counted
  exact ⟨hcurrent.trans hcurrent'.symm, hbaseline.trans hbaseline'.symm,
    hfixed.trans hfixed'.symm⟩

/-! ## The flags together -/

/-- A policy with more flags fails what the other one fails and writes only where the other one
writes.  Each flag can be turned on by itself.  Not to move the baseline is a matter of the baseline
alone, no flag changes what is counted, and without a baseline the policy does not matter. -/
theorem evaluate_tightened (current : List Finding) (b : Option Baseline) :
    (∀ p q : Policy, p.TightenedTo q →
      ((evaluate current b p).verdict = .fail → (evaluate current b q).verdict = .fail) ∧
      ((evaluate current b q).action.writes = true →
        (evaluate current b p).action.writes = true)) ∧
    (∀ p : Policy, p.TightenedTo { p with strict := true } ∧
      p.TightenedTo { p with failOnImprovement := true } ∧
      p.TightenedTo { p with skipBaselineUpdate := true } ∧
      (evaluate current b p).SameFindings
        (evaluate current b { p with skipBaselineUpdate := true })) ∧
    (∀ p q : Policy, (evaluate current b p).SameCounts (evaluate current b q)) ∧
    (b = none → ∀ p q : Policy, evaluate current b p = evaluate current b q) := by
  cases b with
  | none =>
    refine ⟨fun p q _ => ⟨id, id⟩, fun p => ?_, fun p q => ⟨rfl, rfl, rfl⟩, fun _ p q => rfl⟩
    exact ⟨p.tightenedTo_strict, p.tightenedTo_failOnImprovement,
      p.tightenedTo_skipBaselineUpdate, rfl, rfl, rfl, rfl, rfl, rfl⟩
  | some b =>
    refine ⟨fun p q h => ⟨fail_of_tightenedTo h, writes_of_tightenedTo h⟩, fun p => ?_,
      evaluateAgainst_sameCounts b current, nofun⟩
    exact ⟨p.tightenedTo_strict, p.tightenedTo_failOnImprovement,
      p.tightenedTo_skipBaselineUpdate, evaluateAgainst_skipBaselineUpdate b current p⟩

/-- The count drops while a finding is new.  With no flag the run writes.  Once it is rejected it
stays so when the policy becomes strict as well, for another reason. -/
theorem evaluate_tightened_strict :
    let f : Finding := ⟨"no-var", "a.js", 1, "use const"⟩
    let b : Baseline := ⟨"1.9", ["0a", "1b"], []⟩
    let rejecting : Policy := { failOnImprovement := true }
    let both : Policy := { rejecting with strict := true }
    rejecting.TightenedTo both ∧ (evaluate [f] (some b) {}).action.writes = true ∧
      (evaluate [f] (some b) rejecting).verdict = .fail ∧
      (evaluate [f] (some b) both).verdict = .fail ∧
      (evaluate [f] (some b) both).outcome = .newFindings ∧
      evaluate [f] none rejecting = evaluate [f] none both := by
  intro f b rejecting both
  have hless : (fingerprintsOf [f]).card < b.accepted.card := by decide +kernel
  have hnew : newTo b.accepted [f] ≠ [] := by decide +kernel
  have htighter : rejecting.TightenedTo both := rejecting.tightenedTo_strict
  have hfail : (evaluate [f] (some b) rejecting).verdict = .fail :=
    (branch_evaluateAgainst b [f] rejecting).verdict_eq_fail_iff.mpr (.inl ⟨hless, rfl⟩)
  obtain ⟨htightened, -, -, -⟩ := evaluate_tightened [f] (some b)
  obtain ⟨-, -, -, hfirst⟩ := evaluate_tightened [f] none
  refine ⟨htighter, ?_, hfail, (htightened rejecting both htighter).1 hfail, ?_,
    hfirst rfl rejecting both⟩
  · exact (branch_evaluateAgainst b [f] {}).writes_iff.mpr ⟨hless, rfl, rfl, nofun⟩
  · exact (evaluate_judges [f] b both).newFindings_iff.mpr ⟨hnew, .inl rfl⟩

end LintRatchet
