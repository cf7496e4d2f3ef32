import LintRatchet.Proofs.Evaluation
import LintRatchet.Proofs.Identity

/-!
# What an evaluation depends on

An evaluation works on lists: it filters the findings of the run in their order
and with their duplicates, and it counts what is left.  All the same it depends
on little.  `evaluate_agrees` says that two evaluations agree in everything but
the number of absorbed findings as soon as the runs have the same set of
fingerprints and the baselines accept the same set.  The number of absorbed
findings is a count of findings and not of fingerprints, so for it every
fingerprint has to occur equally often.

The set of fingerprints is in turn the same for runs that report the same
issues, in whatever order, however often and in whatever words.
-/

namespace LintRatchet

variable {known : Finset String} {fs gs current current' : List Finding}

/-! ## What is new -/

theorem fingerprintsOf_eq_empty_iff : fingerprintsOf fs = ∅ ↔ fs = [] := by
  rw [fingerprintsOf, List.toFinset_eq_empty_iff, List.map_eq_nil_iff]

/-- The fingerprints of the new findings are those of the run that are not known. -/
theorem fingerprintsOf_newTo (known : Finset String) (fs : List Finding) :
    fingerprintsOf (newTo known fs) = fingerprintsOf fs \ known := by
  ext p
  rw [Finset.mem_sdiff, mem_fingerprintsOf, mem_fingerprintsOf]
  constructor
  · rintro ⟨f, hf, rfl⟩
    obtain ⟨hmem, hnew⟩ := mem_newTo.mp hf
    exact ⟨⟨f, hmem, rfl⟩, hnew⟩
  · rintro ⟨⟨f, hmem, rfl⟩, hnew⟩
    exact ⟨f, mem_newTo.mpr ⟨hmem, hnew⟩, rfl⟩

/-- How many findings are new depends on how often each fingerprint occurs. -/
theorem length_newTo_eq_of_count_eq
    (h : ∀ p, (fs.map Finding.fingerprint).count p = (gs.map Finding.fingerprint).count p)
    (known : Finset String) : (newTo known fs).length = (newTo known gs).length := by
  have hperm : (fs.map Finding.fingerprint).Perm (gs.map Finding.fingerprint) :=
    List.perm_iff_count.mpr h
  have hcount : ∀ l : List Finding, (newTo known l).length =
      (l.map Finding.fingerprint).countP fun p => decide (p ∉ known) := fun l => by
    rw [List.countP_map, newTo, ← List.countP_eq_length_filter]
    rfl
  rw [hcount, hcount, hperm.countP_eq]

/-! ## Findings that report the same issues -/

/-- Every issue that the first findings report is reported by the second ones too. -/
def Covers (fs gs : List Finding) : Prop := ∀ f ∈ fs, ∃ g ∈ gs, f.SameIssue g

theorem Finding.SameIssue.fingerprint {f g : Finding} (h : f.SameIssue g) :
    f.fingerprint = g.fingerprint := by
  rw [Finding.fingerprint, Finding.fingerprint, Finding.identity_eq_iff.mpr (.inl h)]

/-- What is covered has no fingerprint of its own. -/
theorem Covers.subset (h : Covers fs gs) : fingerprintsOf fs ⊆ fingerprintsOf gs := by
  intro p hp
  obtain ⟨f, hf, rfl⟩ := mem_fingerprintsOf.mp hp
  obtain ⟨g, hg, hsame⟩ := h f hf
  exact mem_fingerprintsOf.mpr ⟨g, hg, hsame.fingerprint.symm⟩

/-! ## Evaluations that agree -/

/-- Two evaluations say the same, up to the number of absorbed findings and up to which findings
stand for the fingerprints that are new. -/
structure Evaluation.Agrees (d e : Evaluation) : Prop where
  verdict : d.verdict = e.verdict
  outcome : d.outcome = e.outcome
  action : d.action = e.action
  currentCount : d.currentCount = e.currentCount
  baselineCount : d.baselineCount = e.baselineCount
  fixedCount : d.fixedCount = e.fixedCount
  newFindings : fingerprintsOf d.newFindings = fingerprintsOf e.newFindings

theorem ruling_agrees {seen : Finset String} {verdict : Verdict} {outcome : Outcome}
    {action : BaselineAction} (absorbed absorbed' : UInt32)
    (h : fingerprintsOf fs = fingerprintsOf gs) :
    (ruling seen known verdict outcome action absorbed fs).Agrees
      (ruling seen known verdict outcome action absorbed' gs) :=
  ⟨rfl, rfl, rfl, rfl, rfl, rfl, h⟩

theorem evaluateFirst_agrees (h : fingerprintsOf current = fingerprintsOf current') :
    (evaluateFirst current).Agrees (evaluateFirst current') := by
  have hnil : current = [] ↔ current' = [] := by
    rw [← fingerprintsOf_eq_empty_iff, h, fingerprintsOf_eq_empty_iff]
  refine ⟨?_, rfl, rfl, ?_, rfl, rfl, rfl⟩
  · simp only [evaluateFirst, hnil]
  · simp only [evaluateFirst, length_set, h]

theorem evaluateAgainst_agrees {b b' : Baseline}
    (hcurrent : fingerprintsOf current = fingerprintsOf current')
    (hbaseline : b.accepted = b'.accepted) (policy : Policy) :
    (evaluateAgainst b current policy).Agrees (evaluateAgainst b' current' policy) := by
  have hnew : fingerprintsOf (newTo b'.accepted current) =
      fingerprintsOf (newTo b'.accepted current') := by
    rw [fingerprintsOf_newTo, fingerprintsOf_newTo, hcurrent]
  have hnil : newTo b'.accepted current = [] ↔ newTo b'.accepted current' = [] := by
    rw [← fingerprintsOf_eq_empty_iff, hnew, fingerprintsOf_eq_empty_iff]
  -- Both sides now branch on the same conditions, so they are in the same branch.
  rw [evaluateAgainst_eq, evaluateAgainst_eq, hcurrent, hbaseline]
  simp only [ne_eq, hnil]
  split
  · split
    · exact ruling_agrees _ _ rfl
    · split
      · exact ruling_agrees _ _ rfl
      · exact ruling_agrees _ _ rfl
  · split
    · exact ruling_agrees _ _ rfl
    · exact ruling_agrees _ _ hnew

/-- An evaluation depends only on the fingerprints of the run and on those that the baseline
accepts. -/
theorem evaluate_agrees_of_accepted {b b' : Option Baseline}
    (hcurrent : fingerprintsOf current = fingerprintsOf current')
    (hbaseline : b.map Baseline.accepted = b'.map Baseline.accepted) (policy : Policy) :
    (evaluate current b policy).Agrees (evaluate current' b' policy) := by
  cases b with
  | none =>
    cases b' with
    | none => exact evaluateFirst_agrees hcurrent
    | some b' => cases hbaseline
  | some b =>
    cases b' with
    | none => cases hbaseline
    | some b' => exact evaluateAgainst_agrees hcurrent (Option.some.inj hbaseline) policy

/-- Where each fingerprint occurs equally often, as many findings are absorbed. -/
theorem absorbedCount_eq {b b' : Option Baseline}
    (hbaseline : b.map Baseline.accepted = b'.map Baseline.accepted)
    (hcount : ∀ p,
      (current.map Finding.fingerprint).count p = (current'.map Finding.fingerprint).count p)
    {policy : Policy} (h : (evaluate current b policy).Agrees (evaluate current' b' policy)) :
    (evaluate current b policy).absorbedCount = (evaluate current' b' policy).absorbedCount := by
  cases b with
  | none =>
    cases b' with
    | none => rfl
    | some b' => cases hbaseline
  | some b =>
    cases b' with
    | none => cases hbaseline
    | some b' =>
      have haccepted : b.accepted = b'.accepted := Option.some.inj hbaseline
      refine UInt32.toNat_inj.mp ?_
      rw [(evaluate_judges current b policy).absorbed, (evaluate_judges current' b' policy).absorbed,
        h.outcome, haccepted, length_newTo_eq_of_count_eq hcount]

/-- An evaluation depends on the set of fingerprints of the run and on the set that the baseline
accepts, and its number of absorbed findings on how often each fingerprint occurs in the run.  So
reporting the same issues in another order, in other words, with other separators or more than once
makes no difference to the rest, and neither does normalizing the baseline. -/
theorem evaluate_agrees {current current' : List Finding} {b b' : Option Baseline}
    (hcurrent : fingerprintsOf current = fingerprintsOf current')
    (hbaseline : b.map Baseline.accepted = b'.map Baseline.accepted) (policy : Policy) :
    (evaluate current b policy).Agrees (evaluate current' b' policy) ∧
      ((∀ p, (current.map Finding.fingerprint).count p =
          (current'.map Finding.fingerprint).count p) →
        (evaluate current b policy).absorbedCount = (evaluate current' b' policy).absorbedCount) ∧
      ∀ restated, Covers current restated → Covers restated current →
        (evaluate current b policy).Agrees
          (evaluate restated (b.map Baseline.normalize) policy) := by
  have hagrees := evaluate_agrees_of_accepted hcurrent hbaseline policy
  refine ⟨hagrees, fun hcount => absorbedCount_eq hbaseline hcount hagrees, ?_⟩
  intro restated hthere hback
  have hnormalized : b.map Baseline.accepted = (b.map Baseline.normalize).map Baseline.accepted := by
    rw [Option.map_map]
    exact Option.map_congr fun b _ => (accepted_normalize b).symm
  exact evaluate_agrees_of_accepted (hthere.subset.antisymm hback.subset) hnormalized policy

/-- Two findings in another order, one reworded and one with backslashes, against the same accepted
fingerprints in another order and with a repeat.  Then one of the two is reported twice. -/
theorem evaluate_agrees_reordered :
    let policy : Policy := { strict := true }
    let f : Finding := ⟨"lint/eqeq", "src/a.js", 3, "use ==="⟩
    let g : Finding := ⟨"lint/var", "src/b.js", 5, "use const"⟩
    let f' : Finding := { f with file := "src\\a.js" }
    let g' : Finding := { g with message := "prefer const" }
    let b : Baseline := ⟨"1.9", [f.fingerprint, "0a", f.fingerprint], [f]⟩
    let b' : Baseline := ⟨"2.0", ["0a", f.fingerprint], []⟩
    (fingerprintsOf [f, g] = fingerprintsOf [g', f'] ∧
      (some b).map Baseline.accepted = (some b').map Baseline.accepted ∧
      Covers [f, g] [g', f', f] ∧ Covers [g', f', f] [f, g]) ∧
    (evaluate [f, g] (some b) policy).Agrees (evaluate [g', f'] (some b') policy) ∧
    (evaluate [f, g] (some b) policy).absorbedCount =
      (evaluate [g', f'] (some b') policy).absorbedCount ∧
    (evaluate [f, g] (some b) policy).Agrees
      (evaluate [g', f', f] ((some b).map Baseline.normalize) policy) := by
  intro policy f g f' g' b b'
  have hf : f.SameIssue f' := ⟨by decide +kernel, rfl, rfl⟩
  have hg : g.SameIssue g' := ⟨rfl, rfl, rfl⟩
  have hperm : ([f, g].map Finding.fingerprint).Perm ([g', f'].map Finding.fingerprint) := by
    rw [List.map_cons, List.map_cons, List.map_cons, List.map_cons, hf.fingerprint, hg.fingerprint]
    exact .swap ..
  have hcurrent : fingerprintsOf [f, g] = fingerprintsOf [g', f'] :=
    List.toFinset_eq_of_perm _ _ hperm
  have hbaseline : (some b).map Baseline.accepted = (some b').map Baseline.accepted := by
    refine congrArg some (Finset.ext fun p => ?_)
    simp [Baseline.accepted, b, b', or_comm]
  have hthere : Covers [f, g] [g', f', f] := by
    intro h hmem
    rcases List.mem_cons.mp hmem with rfl | hmem
    · exact ⟨f', by simp, hf⟩
    · rw [List.mem_singleton.mp hmem]
      exact ⟨g', by simp, hg⟩
  have hback : Covers [g', f', f] [f, g] := by
    simp only [Covers, List.forall_mem_cons]
    exact ⟨⟨g, by simp, rfl, rfl, rfl⟩, ⟨f, by simp, hf.file.symm, rfl, rfl⟩,
      ⟨f, by simp, rfl, rfl, rfl⟩, List.forall_mem_nil _⟩
  obtain ⟨hagrees, habsorbed, hrestated⟩ := evaluate_agrees hcurrent hbaseline policy
  exact ⟨⟨hcurrent, hbaseline, hthere, hback⟩, hagrees,
    habsorbed (List.perm_iff_count.mp hperm), hrestated _ hthere hback⟩

end LintRatchet
