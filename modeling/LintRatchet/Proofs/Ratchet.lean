import LintRatchet.Proofs.Evaluation
import LintRatchet.Proofs.Store.Lawful

/-!
# The ratchet over many checks

`Checks s steps u` says that the checks `steps`, one after the other, lead from
the store `s` to the store `u`.  Every check may have its own policy and report.

A check of a store that holds a baseline takes one of five turns (`Turn`).  Only
one of them writes, and it writes a smaller set of fingerprints.  What holds of
every sequence of checks is read off the five turns and carried along the
sequence by induction.
-/

namespace LintRatchet

open Store (load evaluation)
open LawfulStore (version)

/-! ## Sequences of checks -/

/-- A check with the store before and after it. -/
structure CheckStep (σ : Type) where
  before : σ
  plan : Plan
  report : String
  run : CheckRun
  after : σ

namespace CheckStep

variable {σ : Type}

/-- What the check came to. -/
def ruled (x : CheckStep σ) : Evaluation := x.run.receipt.evaluation

/-- The fingerprints of the findings. -/
def seen (x : CheckStep σ) : Finset String := fingerprintsOf x.run.findings

/-- The receipt says that the baseline was written. -/
def applied (x : CheckStep σ) : Bool := x.run.receipt.applied

end CheckStep

variable {σ : Type} [Store σ]

/-- Successful checks that lead from one store to another. -/
inductive Checks : σ → List (CheckStep σ) → σ → Prop
  | done {s : σ} : Checks s [] s
  | step {s t u : σ} {plan : Plan} {report : String} {run : CheckRun} {steps : List (CheckStep σ)} :
      (Store.check plan report s).ends = (.ok run, t) → Checks t steps u →
      Checks s (⟨s, plan, report, run, t⟩ :: steps) u

/-- The fingerprints that the baseline of a store accepts. -/
def accepted (s : σ) : Finset String := ((load s).baseline.map Baseline.accepted).getD ∅

theorem accepted_of_load {s : σ} {b : Baseline} (h : (load s).baseline = some b) :
    accepted s = b.accepted := by
  rw [accepted, h]
  rfl

theorem Checks.append_iff {s u : σ} {front back : List (CheckStep σ)} :
    Checks s (front ++ back) u ↔ ∃ t, Checks s front t ∧ Checks t back u := by
  constructor
  · intro h
    induction front generalizing s with
    | nil => exact ⟨s, .done, h⟩
    | cons x front ih =>
      cases h with
      | step hcheck hrest =>
        obtain ⟨t, hfront, hback⟩ := ih hrest
        exact ⟨t, .step hcheck hfront, hback⟩
  · rintro ⟨t, hfront, hback⟩
    induction hfront with
    | done => exact hback
    | step hcheck _ ih => exact .step hcheck (ih hback)

/-- What lies between two checks of a sequence. -/
theorem Checks.between {s u : σ} {front middle back : List (CheckStep σ)} {x y : CheckStep σ}
    (h : Checks s (front ++ x :: (middle ++ y :: back)) u) : Checks x.after middle y.before := by
  obtain ⟨_, -, hx⟩ := Checks.append_iff.mp h
  cases hx with
  | step _ hrest =>
    obtain ⟨_, hmiddle, hy⟩ := Checks.append_iff.mp hrest
    cases hy with
    | step _ _ => exact hmiddle

/-! ## The turns of a check -/

variable [LawfulStore σ]

/-- What a check did to a store that holds a baseline. -/
inductive Turn (x : CheckStep σ) : Prop
  /-- The count dropped, and the findings became the baseline. -/
  | ratcheted :
      x.seen.card < (accepted x.before).card →
      (x.plan.policy.strict = true → x.seen ⊆ accepted x.before) →
      x.ruled = ruling x.seen (accepted x.before) .pass .ratcheted .overwrite
        (count (newTo (accepted x.before) x.run.findings).length) [] →
      x.applied = true →
      (load x.after).baseline = some (Baseline.ofFindings x.run.findings (version x.before)) →
      version x.after = version x.before → Turn x
  /-- The count dropped, and the baseline was to stay. -/
  | skipped :
      x.seen.card < (accepted x.before).card →
      (x.plan.policy.strict = true → x.seen ⊆ accepted x.before) →
      x.ruled = ruling x.seen (accepted x.before) .pass .ratchetSkipped .keep
        (count (newTo (accepted x.before) x.run.findings).length) [] →
      x.applied = false → x.after = x.before → Turn x
  /-- The count dropped, and the policy rejects that. -/
  | rejected :
      (x.plan.policy.strict = true → x.seen ⊆ accepted x.before) →
      x.ruled = ruling x.seen (accepted x.before) .fail .improvementRejected .keep 0 [] →
      x.applied = false → x.after = x.before → Turn x
  /-- Nothing is new, and the count did not drop. -/
  | unchanged :
      ¬x.seen.card < (accepted x.before).card → x.seen ⊆ accepted x.before →
      x.ruled = ruling x.seen (accepted x.before) .pass .unchanged .keep 0 [] →
      x.applied = false → x.after = x.before → Turn x
  /-- A finding is new. -/
  | refused :
      ¬x.seen ⊆ accepted x.before →
      x.ruled = ruling x.seen (accepted x.before) .fail .newFindings .keep 0
        (newTo (accepted x.before) x.run.findings) →
      x.applied = false → x.after = x.before → Turn x

/-- Every check of a store that holds a baseline takes one of the turns. -/
theorem turn_of_check {s t : σ} {plan : Plan} {report : String} {run : CheckRun}
    (hb : (load s).baseline.isSome) (h : (Store.check plan report s).ends = (.ok run, t)) :
    Turn ⟨s, plan, report, run, t⟩ := by
  obtain ⟨b, hb⟩ := Option.isSome_iff_exists.mp hb
  obtain ⟨rfl, hsaved⟩ := Store.check_ok h
  have hkeeps := Store.check_keeps h
  have hbranch : Branch plan.policy (fingerprintsOf (plan.findings report)) (accepted s)
      (newTo (accepted s) (plan.findings report)) (evaluation plan report s) := by
    rw [evaluation, hb, accepted_of_load hb]
    exact branch_evaluateAgainst b (plan.findings report) plan.policy
  obtain ⟨e, hruled⟩ : ∃ e, evaluation plan report s = e := ⟨_, rfl⟩
  rw [hruled] at hbranch
  cases hbranch with
  | unchanged _ hsame =>
    have hw : (evaluation plan report s).action.writes = false := by rw [hruled]; rfl
    exact .unchanged (fun hless => hless.ne (congrArg Finset.card hsame)) hsame.subset hruled hw (hkeeps hw)
  | newFindings hnew _ _ =>
    have hw : (evaluation plan report s).action.writes = false := by rw [hruled]; rfl
    exact .refused (fun hsub => hnew (newTo_eq_nil_iff.mpr hsub)) hruled hw (hkeeps hw)
  | improvementRejected _ hnone _ =>
    have hw : (evaluation plan report s).action.writes = false := by rw [hruled]; rfl
    exact .rejected (fun hs => newTo_eq_nil_iff.mp (hnone hs)) hruled hw (hkeeps hw)
  | ratchetSkipped hless hnone _ _ =>
    have hw : (evaluation plan report s).action.writes = false := by rw [hruled]; rfl
    exact .skipped hless (fun hs => newTo_eq_nil_iff.mp (hnone hs)) hruled hw (hkeeps hw)
  | ratcheted hless hnone _ _ =>
    have hw : (evaluation plan report s).action.writes = true := by rw [hruled]; rfl
    obtain ⟨hno, -⟩ | ⟨-, b', hsave⟩ := hsaved
    · rw [hw] at hno
      cases hno
    · obtain ⟨rfl, hload, hversion⟩ := LawfulStore.save_ok hsave
      exact .ratcheted hless (fun hs => newTo_eq_nil_iff.mp (hnone hs)) hruled hw hload hversion

namespace Turn

variable {x : CheckStep σ}

/-- Only one of the turns writes. -/
theorem of_applied (ht : Turn x) (h : x.applied = true) :
    x.seen.card < (accepted x.before).card ∧
      (x.plan.policy.strict = true → x.seen ⊆ accepted x.before) ∧
      (load x.after).baseline =
        some (Baseline.ofFindings x.run.findings (version x.before)) ∧
      version x.after = version x.before ∧ x.ruled.verdict = .pass := by
  cases ht with
  | ratcheted hless hknown hruled _ hload hversion =>
    exact ⟨hless, hknown, hload, hversion, congrArg Evaluation.verdict hruled⟩
  | skipped _ _ _ hno _ | rejected _ _ hno _ | unchanged _ _ _ hno _ | refused _ _ hno _ =>
    rw [h] at hno
    cases hno

theorem same_of_not_applied (ht : Turn x) (h : x.applied = false) : x.after = x.before := by
  cases ht with
  | ratcheted _ _ _ happlied _ _ =>
    rw [h] at happlied
    cases happlied
  | skipped _ _ _ _ hsame | rejected _ _ _ hsame | unchanged _ _ _ _ hsame
  | refused _ _ _ hsame => exact hsame

/-- A check that is applied leaves a baseline that accepts what it has seen. -/
theorem accepted_after (ht : Turn x) (h : x.applied = true) : accepted x.after = x.seen := by
  obtain ⟨-, -, hload, -, -⟩ := ht.of_applied h
  rw [accepted_of_load hload, accepted_ofFindings]
  rfl

/-- Each baseline that is written accepts fewer fingerprints than the one before. -/
theorem card_lt (ht : Turn x) (h : x.applied = true) :
    (accepted x.after).card < (accepted x.before).card := by
  rw [ht.accepted_after h]
  exact (ht.of_applied h).1

theorem card_le (ht : Turn x) : (accepted x.after).card ≤ (accepted x.before).card := by
  cases h : x.applied with
  | true => exact (ht.card_lt h).le
  | false => rw [ht.same_of_not_applied h]

theorem version_after (ht : Turn x) : version x.after = version x.before := by
  cases h : x.applied with
  | true => exact (ht.of_applied h).2.2.2.1
  | false => rw [ht.same_of_not_applied h]

theorem isSome_after (ht : Turn x) (hb : (load x.before).baseline.isSome) :
    (load x.after).baseline.isSome := by
  cases h : x.applied with
  | true =>
    rw [(ht.of_applied h).2.2.1]
    rfl
  | false => rwa [ht.same_of_not_applied h]

end Turn

/-- Along a sequence of checks the store goes on holding a baseline, and every check takes a turn. -/
theorem Checks.turns {s u : σ} {steps : List (CheckStep σ)} (h : Checks s steps u)
    (hb : (load s).baseline.isSome) :
    ∀ x ∈ steps, Turn x ∧ (load x.before).baseline.isSome ∧ version x.before = version s := by
  induction h with
  | done =>
    intro x hx
    cases hx
  | step hcheck _ ih =>
    have ht := turn_of_check hb hcheck
    intro x hx
    rcases List.mem_cons.mp hx with rfl | hx
    · exact ⟨ht, hb, rfl⟩
    · obtain ⟨hturn, hbefore, hversion⟩ := ih (ht.isSome_after hb) x hx
      exact ⟨hturn, hbefore, hversion.trans ht.version_after⟩

/-! ## The count -/

/-- What a check does to the count, where the store saves baselines of the version `v`. -/
structure CheckStep.Counts (v : String) (x : CheckStep σ) : Prop where
  readable : (load x.before).baseline.isSome ∧ (load x.after).baseline.isSome
  fail_keeps : x.ruled.verdict = .fail → x.after = x.before
  write_lowers : x.after ≠ x.before → (accepted x.after).card < (accepted x.before).card
  never_grows : (accepted x.after).card ≤ (accepted x.before).card
  pass_same : x.ruled.verdict = .pass → ¬x.seen.card < (accepted x.before).card →
    x.seen = accepted x.before
  applied_iff : x.applied = true ↔ x.after ≠ x.before
  applied_iff_load : x.applied = true ↔ (load x.after).baseline ≠ (load x.before).baseline
  stored : x.applied = true → (load x.after).baseline = some (Baseline.ofFindings x.run.findings v)

namespace Turn

variable {x : CheckStep σ}

theorem load_ne (ht : Turn x) (h : x.applied = true) :
    (load x.after).baseline ≠ (load x.before).baseline := by
  intro hsame
  have hlt := ht.card_lt h
  rw [accepted, hsame, ← accepted] at hlt
  exact lt_irrefl _ hlt

/-- A check that fails leaves the store as it is. -/
theorem fail_keeps (ht : Turn x) (h : x.ruled.verdict = .fail) : x.after = x.before := by
  refine ht.same_of_not_applied (Bool.eq_false_iff.mpr fun happlied => ?_)
  rw [(ht.of_applied happlied).2.2.2.2] at h
  cases h

/-- A check passes without an improvement only when it has seen what is accepted. -/
theorem pass_same (ht : Turn x) (hpass : x.ruled.verdict = .pass)
    (hcount : ¬x.seen.card < (accepted x.before).card) : x.seen = accepted x.before := by
  cases ht with
  | ratcheted hless _ _ _ _ _ | skipped hless _ _ _ _ => exact absurd hless hcount
  | unchanged _ hsub _ _ _ => exact Finset.eq_of_subset_of_card_le hsub (not_lt.mp hcount)
  | rejected _ hruled _ _ | refused _ hruled _ _ =>
    rw [hruled] at hpass
    cases hpass

theorem applied_of_ne (ht : Turn x) (hne : x.after ≠ x.before) : x.applied = true := by
  cases h : x.applied with
  | true => rfl
  | false => exact absurd (ht.same_of_not_applied h) hne

theorem counts (ht : Turn x) (hb : (load x.before).baseline.isSome) :
    x.Counts (version x.before) where
  readable := ⟨hb, ht.isSome_after hb⟩
  fail_keeps := ht.fail_keeps
  write_lowers hne := ht.card_lt (ht.applied_of_ne hne)
  never_grows := ht.card_le
  pass_same := ht.pass_same
  applied_iff := by
    constructor
    · intro h hsame
      exact ht.load_ne h (by rw [hsame])
    · exact ht.applied_of_ne
  applied_iff_load := by
    constructor
    · exact ht.load_ne
    · intro hne
      exact ht.applied_of_ne fun hsame => hne (by rw [hsame])
  stored h := (ht.of_applied h).2.2.1

end Turn

/-- Every write uses up at least one accepted fingerprint. -/
theorem Checks.writes_add_card_le {s u : σ} {steps : List (CheckStep σ)} (h : Checks s steps u)
    (hb : (load s).baseline.isSome) :
    (steps.filter CheckStep.applied).length + (accepted u).card ≤ (accepted s).card := by
  induction h with
  | done => simp
  | @step s t u plan report run steps hcheck _ ih =>
    have ht := turn_of_check hb hcheck
    have hrest := ih (ht.isSome_after hb)
    cases h : run.receipt.applied with
    | true =>
      have hlt : (accepted t).card < (accepted s).card := ht.card_lt h
      rw [List.filter_cons_of_pos (by exact h), List.length_cons]
      omega
    | false =>
      have hle : (accepted t).card ≤ (accepted s).card := ht.card_le
      rw [List.filter_cons_of_neg (by exact Bool.eq_false_iff.mp h)]
      omega

/-- Along checks of a store that holds a baseline the number of accepted fingerprints never grows,
and every write lowers it. -/
theorem count_ratchet {s u : σ} {steps : List (CheckStep σ)} {b : Baseline}
    (h : Checks s steps u) (hb : (load s).baseline = some b) :
    (∀ x ∈ steps, x.Counts (version s)) ∧
      (steps.filter CheckStep.applied).length + (accepted u).card ≤ b.accepted.card := by
  have hsome : (load s).baseline.isSome := by rw [hb]; rfl
  constructor
  · intro x hx
    obtain ⟨ht, hbefore, hversion⟩ := h.turns hsome x hx
    rw [← hversion]
    exact ht.counts hbefore
  · rw [← accepted_of_load hb]
    exact h.writes_add_card_le hsome

/-- A repair is first passed over and then recorded, and a new finding is refused. -/
theorem count_ratchet_repaired_then_new :
    let skipping : Plan := ⟨{ skipBaselineUpdate := true }, "/work", "1.9"⟩
    let plan : Plan := ⟨{}, "/work", "1.9"⟩
    let new := "::error title=rule,file=a.js,line=1::message\n"
    let b : Baseline := ⟨"1.8", ["repaired"], []⟩
    let s : MemoryStore := { held := some b }
    let t : MemoryStore := { held := some (Baseline.ofFindings [] unknownVersion), writes := 1 }
    let steps : List (CheckStep MemoryStore) := [
      ⟨s, skipping, "", skipping.run "" (evaluation skipping "" s) "<memory>", s⟩,
      ⟨s, plan, "", plan.run "" (evaluation plan "" s) "<memory>", t⟩,
      ⟨t, plan, new, plan.run new (evaluation plan new t) "<memory>", t⟩]
    (Checks s steps t ∧ (load s).baseline = some b) ∧ (∀ x ∈ steps, x.Counts unknownVersion) ∧
      (steps.filter CheckStep.applied).length + (accepted t).card ≤ b.accepted.card := by
  intro skipping plan new b s t steps
  have h : Checks s steps t :=
    .step (by decide +kernel) (.step (by decide +kernel) (.step (by decide +kernel) .done))
  exact ⟨⟨h, rfl⟩, count_ratchet h rfl⟩

/-! ## Strict policies -/

/-- What a check under a strict policy does to the set of accepted fingerprints. -/
structure CheckStep.Guards (x : CheckStep σ) : Prop where
  readable : (load x.before).baseline.isSome ∧ (load x.after).baseline.isSome
  shrinks : accepted x.after ⊆ accepted x.before
  pass_known : x.ruled.verdict = .pass → x.seen ⊆ accepted x.before
  absorbs_nothing : x.ruled.absorbedCount = 0

/-- The check fails because of the findings with a fingerprint, and leaves the store as it is. -/
structure CheckStep.Refuses (p : String) (x : CheckStep σ) : Prop where
  fails : x.ruled.verdict = .fail
  outcome : x.ruled.outcome = .newFindings
  listed : ∀ f ∈ x.run.findings, f.fingerprint = p → f ∈ x.ruled.newFindings
  keeps : x.after = x.before

namespace Turn

variable {x : CheckStep σ}

theorem accepted_subset (ht : Turn x) (hs : x.plan.policy.strict = true) :
    accepted x.after ⊆ accepted x.before := by
  cases h : x.applied with
  | true =>
    rw [ht.accepted_after h]
    exact (ht.of_applied h).2.1 hs
  | false => rw [ht.same_of_not_applied h]

/-- Under the strict policy a check passes only with what is accepted, and nothing is added to that. -/
theorem guards (ht : Turn x) (hb : (load x.before).baseline.isSome)
    (hs : x.plan.policy.strict = true) : x.Guards where
  readable := ⟨hb, ht.isSome_after hb⟩
  shrinks := ht.accepted_subset hs
  pass_known hpass := by
    cases ht with
    | ratcheted _ hknown _ _ _ _ | skipped _ hknown _ _ _ => exact hknown hs
    | unchanged _ hsub _ _ _ => exact hsub
    | rejected _ hruled _ _ | refused _ hruled _ _ =>
      rw [hruled] at hpass
      cases hpass
  absorbs_nothing := by
    cases ht with
    | ratcheted _ hknown hruled _ _ _ | skipped _ hknown hruled _ _ =>
      rw [hruled, ruling, newTo_eq_nil_iff.mpr (hknown hs)]
      rfl
    | unchanged _ _ hruled _ _ | rejected _ hruled _ _ | refused _ hruled _ _ => rw [hruled, ruling]

/-- Under a strict policy a finding that is not accepted makes the check fail. -/
theorem refuses {p : String} (ht : Turn x) (hs : x.plan.policy.strict = true)
    (hp : p ∉ accepted x.before) (hseen : p ∈ x.seen) : x.Refuses p := by
  cases ht with
  | ratcheted _ hknown _ _ _ _ | skipped _ hknown _ _ _ | rejected hknown _ _ _ =>
    exact absurd (hknown hs hseen) hp
  | unchanged _ hsub _ _ _ => exact absurd (hsub hseen) hp
  | refused _ hruled _ hsame =>
    refine ⟨congrArg Evaluation.verdict hruled, congrArg Evaluation.outcome hruled, ?_, hsame⟩
    rintro f hf rfl
    rw [hruled]
    exact mem_newTo.mpr ⟨hf, hp⟩

end Turn

/-- Through a run under the strict policy the accepted fingerprints only become fewer. -/
theorem Checks.accepted_subset {s u : σ} {steps : List (CheckStep σ)} (h : Checks s steps u)
    (hb : (load s).baseline.isSome) (hs : ∀ x ∈ steps, x.plan.policy.strict = true) :
    accepted u ⊆ accepted s := by
  induction h with
  | done => exact subset_rfl
  | step hcheck _ ih =>
    have ht := turn_of_check hb hcheck
    have hrest := ih (ht.isSome_after hb) fun x hx => hs x (List.mem_cons_of_mem _ hx)
    exact hrest.trans (ht.accepted_subset (hs _ List.mem_cons_self))

/-- Under strict policies nothing new is ever accepted: the accepted fingerprints only get fewer,
and whatever is not accepted after one check makes every later check fail that sees it. -/
theorem strict_ratchet {s u : σ} {steps : List (CheckStep σ)} {b : Baseline}
    (h : Checks s steps u) (hb : (load s).baseline = some b)
    (hs : ∀ x ∈ steps, x.plan.policy.strict = true) :
    (∀ x ∈ steps, x.Guards) ∧
      ∀ front x middle y back, steps = front ++ x :: (middle ++ y :: back) →
        ∀ p, p ∉ accepted x.after → p ∈ y.seen → y.Refuses p := by
  have hsome : (load s).baseline.isSome := by rw [hb]; rfl
  constructor
  · intro x hx
    obtain ⟨ht, hbefore, -⟩ := h.turns hsome x hx
    exact ht.guards hbefore (hs x hx)
  · rintro front x middle y back rfl p hp hseen
    obtain ⟨hx, hbefore, -⟩ := h.turns hsome x (by simp)
    obtain ⟨hy, -, -⟩ := h.turns hsome y (by simp)
    have hshrinks : accepted y.before ⊆ accepted x.after :=
      h.between.accepted_subset (hx.isSome_after hbefore) fun z hz => hs z (by simp [hz])
    exact hy.refuses (hs y (by simp)) (fun hmem => hp (hshrinks hmem)) hseen

/-- A repaired finding leaves the baseline under a strict policy, and then it comes back. -/
theorem strict_ratchet_repaired_and_back :
    let plan : Plan := ⟨{ strict := true }, "/work", "1.9"⟩
    let back := "::error title=rule,file=a.js,line=1::message\n"
    let p := "e1425bb9aaa56345d2ea5aad0f1b888a"
    let b : Baseline := ⟨"1.8", [p], [⟨"rule", "a.js", 1, "message"⟩]⟩
    let s : MemoryStore := { held := some b }
    let t : MemoryStore := { held := some (Baseline.ofFindings [] unknownVersion), writes := 1 }
    let x : CheckStep MemoryStore := ⟨s, plan, "", plan.run "" (evaluation plan "" s) "<memory>", t⟩
    let y : CheckStep MemoryStore :=
      ⟨t, plan, back, plan.run back (evaluation plan back t) "<memory>", t⟩
    (Checks s [x, y] t ∧ (load s).baseline = some b ∧
      ∀ z ∈ [x, y], z.plan.policy.strict = true) ∧
      (∀ z ∈ [x, y], z.Guards) ∧ p ∈ accepted s ∧ p ∉ accepted t ∧ p ∈ y.seen ∧ y.Refuses p := by
  intro plan back p b s t x y
  have h : Checks s [x, y] t := .step (by decide +kernel) (.step (by decide +kernel) .done)
  have hs : ∀ z ∈ [x, y], z.plan.policy.strict = true := by simp [x, y, plan]
  obtain ⟨hguards, hrefuses⟩ := strict_ratchet h rfl hs
  have hgone : p ∉ accepted t := by decide +kernel
  have hseen : p ∈ y.seen := by decide +kernel
  exact ⟨⟨h, rfl, hs⟩, hguards, by decide, hgone, hseen, hrefuses [] x [] y [] rfl p hgone hseen⟩

end LintRatchet
