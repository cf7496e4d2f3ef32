import LintRatchet.Procedure

/-!
# How procedures end

A procedure ends with an outcome, leaves a state behind and writes to the
journal.  `Result.ends` is the first two of these.  The lemmas follow it
through a sequence of procedures.

A procedure is `Steady` when it leaves every state as it is.  What is said with
it about the way in which it may fail goes through sequences as well.
-/

namespace LintRatchet

variable {σ τ ε ε' α β : Type}

/-- The outcome of a result and the state that is left behind. -/
def Result.ends (r : Result σ ε α) : Except ε α × σ := (r.outcome, r.state)

namespace Procedure

theorem ends_pure (a : α) (s : σ) : ((pure a : Procedure σ ε α) s).ends = (.ok a, s) := rfl

theorem ends_note (level : Level) (source : Source) (message : String) (s : σ) :
    (note level source message s : Result σ ε Unit).ends = (.ok (), s) := rfl

theorem ends_fail (e : ε) (s : σ) : (fail e s : Result σ ε α).ends = (.error e, s) := rfl

theorem ends_query (f : σ → Except ε α) (s : σ) : (query f s).ends = (f s, s) := rfl

/-- A change that fails leaves the state as it is. -/
theorem ends_change (f : σ → Except ε σ) (s : σ) :
    (change f s).ends =
      match f s with
      | .ok t => (.ok (), t)
      | .error e => (.error e, s) := by
  unfold change
  cases f s <;> rfl

/-- An attempt never fails, whatever becomes of the procedure. -/
theorem ends_attempt (p : Procedure σ ε α) (s : σ) :
    (attempt p s : Result σ ε' (Except ε α)).ends = (.ok (p s).ends.1, (p s).ends.2) := rfl

/-- Explaining changes the fault and nothing else. -/
theorem ends_explain (f : ε → ε') (p : Procedure σ ε α) (s : σ) :
    (explain f p s).ends = ((p s).ends.1.mapError f, (p s).ends.2) := by
  simp only [Result.ends, explain]
  cases (p s).outcome <;> rfl

/-- A procedure on a part ends as it does on the part alone. -/
theorem ends_within (get : τ → σ) (set : τ → σ → τ) (p : Procedure σ ε α) (t : τ) :
    (within get set p t).ends = ((p (get t)).ends.1, set t (p (get t)).ends.2) := rfl

/-- What comes second starts from the state that the first part leaves behind. -/
theorem ends_bind (p : Procedure σ ε α) (f : α → Procedure σ ε β) (s : σ) :
    ((p >>= f) s).ends =
      match (p s).ends with
      | (.ok a, t) => (f a t).ends
      | (.error e, t) => (.error e, t) := by
  rw [bind_apply]
  cases hp : p s with
  | mk outcome t first => cases outcome <;> rfl

/-- A procedure that succeeds is followed by the next one. -/
theorem ends_bind_ok {p : Procedure σ ε α} {s t : σ} {a : α} (h : (p s).ends = (.ok a, t))
    (f : α → Procedure σ ε β) : ((p >>= f) s).ends = (f a t).ends := by
  rw [ends_bind, h]

/-- A procedure that fails is the last one. -/
theorem ends_bind_error {p : Procedure σ ε α} {s t : σ} {e : ε} (h : (p s).ends = (.error e, t))
    (f : α → Procedure σ ε β) : ((p >>= f) s).ends = (.error e, t) := by
  rw [ends_bind, h]

theorem ends_map_ok {p : Procedure σ ε α} {s t : σ} {a : α} (h : (p s).ends = (.ok a, t))
    (f : α → β) : ((f <$> p) s).ends = (.ok (f a), t) :=
  ends_bind_ok h (pure ∘ f)

/-- What follows does not notice which procedure came first. -/
theorem ends_bind_congr {p q : Procedure σ ε α} {s : σ} (h : (p s).ends = (q s).ends)
    (f : α → Procedure σ ε β) : ((p >>= f) s).ends = ((q >>= f) s).ends := by
  rw [ends_bind, ends_bind, h]

/-- A value that is changed afterwards does not change the state. -/
theorem state_map (f : α → β) (p : Procedure σ ε α) (s : σ) : ((f <$> p) s).state = (p s).state := by
  show ((p >>= pure ∘ f) s).state = (p s).state
  rw [bind_apply]
  cases p s with
  | mk outcome t journal => cases outcome <;> rfl

/-! ## Procedures that leave the state alone -/

/-- Every state is left as it is, also when the procedure fails, and it fails only in some ways. -/
structure Steady (faults : ε → Prop) (p : Procedure σ ε α) : Prop where
  state : ∀ s, (p s).state = s
  fault : ∀ {s e}, (p s).outcome = .error e → faults e

variable {faults : ε → Prop} {faults' : ε' → Prop}

theorem steady_pure (a : α) : (pure a : Procedure σ ε α).Steady faults :=
  ⟨fun _ => rfl, fun h => nomatch h⟩

theorem steady_state : (state : Procedure σ ε σ).Steady faults := ⟨fun _ => rfl, fun h => nomatch h⟩

theorem steady_note (level : Level) (source : Source) (message : String) :
    (note level source message : Procedure σ ε Unit).Steady faults :=
  ⟨fun _ => rfl, fun h => nomatch h⟩

theorem steady_fail {e : ε} (h : faults e) : (fail e : Procedure σ ε α).Steady faults where
  state _ := rfl
  fault he := by
    cases he
    exact h

/-- A question leaves the state alone, and its faults are those of the answer. -/
theorem steady_query {f : σ → Except ε α} (h : ∀ s e, f s = .error e → faults e) :
    (query f).Steady faults :=
  ⟨fun _ => rfl, fun he => h _ _ he⟩

/-- What is steady is so under other names for its faults. -/
theorem Steady.explain {p : Procedure σ ε α} (h : p.Steady faults) {f : ε → ε'}
    (hf : ∀ e, faults e → faults' (f e)) : (p.explain f).Steady faults' where
  state := h.state
  fault := by
    intro s e' he
    cases hp : (p s).outcome with
    | ok a =>
      simp only [Procedure.explain, hp] at he
      cases he
    | error e =>
      simp only [Procedure.explain, hp] at he
      cases he
      exact hf e (h.fault hp)

/-- What is steady ends with the state that it started from. -/
theorem Steady.ends {p : Procedure σ ε α} (h : p.Steady faults) (s : σ) :
    (p s).ends = ((p s).outcome, s) := by
  rw [Result.ends, h.state s]

/-- Steady parts make a steady whole. -/
theorem Steady.bind {p : Procedure σ ε α} {f : α → Procedure σ ε β} (hp : p.Steady faults)
    (hf : ∀ a, (f a).Steady faults) : (p >>= f).Steady faults := by
  have hok : ∀ {s a}, (p s).outcome = .ok a → ((p >>= f) s).ends = ((f a s).outcome, s) := by
    intro s a ha
    have hfirst : (p s).ends = (.ok a, s) := by rw [hp.ends s, ha]
    rw [ends_bind_ok hfirst f, (hf a).ends s]
  have herror : ∀ {s e}, (p s).outcome = .error e → ((p >>= f) s).ends = (.error e, s) := by
    intro s e he
    have hfirst : (p s).ends = (.error e, s) := by rw [hp.ends s, he]
    exact ends_bind_error hfirst f
  refine ⟨fun s => ?_, fun {s e} he => ?_⟩
  · cases hp' : (p s).outcome with
    | error e => exact congrArg Prod.snd (herror hp')
    | ok a => exact congrArg Prod.snd (hok hp')
  · cases hp' : (p s).outcome with
    | error e' =>
      have houtcome : ((p >>= f) s).outcome = .error e' := congrArg Prod.fst (herror hp')
      rw [he] at houtcome
      cases houtcome
      exact hp.fault hp'
    | ok a =>
      have houtcome : ((p >>= f) s).outcome = (f a s).outcome := congrArg Prod.fst (hok hp')
      exact (hf a).fault (houtcome.symm.trans he)

end Procedure

end LintRatchet
