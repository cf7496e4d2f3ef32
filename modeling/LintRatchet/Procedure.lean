import LintRatchet.Journal

/-!
# Procedures

A procedure works on a state.  It ends with a value or a fault, and in both
cases it has a state that it leaves behind and a journal of what it did.  So a
procedure that fails halfway keeps what it has changed before.

Procedures form a lawful monad.
-/

namespace LintRatchet

/-- What a procedure ends with. -/
structure Result (σ ε α : Type) where
  outcome : Except ε α
  state : σ
  journal : List Event

/-- A computation on a state that keeps a journal and may fail. -/
def Procedure (σ ε α : Type) := σ → Result σ ε α

namespace Procedure

variable {σ τ ε ε' α β γ : Type}

/-- Does nothing and ends with a value. -/
protected def pure (a : α) : Procedure σ ε α := fun s => ⟨.ok a, s, []⟩

/-- Continues with the value of a procedure, unless it fails. -/
protected def bind (p : Procedure σ ε α) (f : α → Procedure σ ε β) : Procedure σ ε β := fun s =>
  match p s with
  | ⟨.ok a, s, first⟩ =>
    let r := f a s
    ⟨r.outcome, r.state, first ++ r.journal⟩
  | ⟨.error e, s, first⟩ => ⟨.error e, s, first⟩

instance : Monad (Procedure σ ε) where
  pure := Procedure.pure
  bind := Procedure.bind

/-! ## The laws -/

theorem pure_apply (a : α) (s : σ) : (pure a : Procedure σ ε α) s = ⟨.ok a, s, []⟩ := rfl

theorem bind_apply (p : Procedure σ ε α) (f : α → Procedure σ ε β) (s : σ) :
    (p >>= f) s =
      match p s with
      | ⟨.ok a, s, first⟩ => ⟨(f a s).outcome, (f a s).state, first ++ (f a s).journal⟩
      | ⟨.error e, s, first⟩ => ⟨.error e, s, first⟩ := rfl

theorem id_map (p : Procedure σ ε α) : id <$> p = p := by
  funext s
  show (p >>= fun a => pure (id a)) s = p s
  rw [bind_apply]
  rcases p s with ⟨outcome, t, first⟩
  cases outcome <;> simp [pure_apply]

theorem pure_bind (a : α) (f : α → Procedure σ ε β) : pure a >>= f = f a := by
  funext s
  simp [bind_apply, pure_apply]

theorem bind_assoc (p : Procedure σ ε α) (f : α → Procedure σ ε β) (g : β → Procedure σ ε γ) :
    p >>= f >>= g = p >>= fun a => f a >>= g := by
  funext s
  simp only [bind_apply]
  rcases p s with ⟨outcome, t, first⟩
  cases outcome with
  | error e => rfl
  | ok a =>
    dsimp only
    rcases f a t with ⟨outcome, u, second⟩
    cases outcome <;> simp

instance : LawfulMonad (Procedure σ ε) := LawfulMonad.mk' _ id_map pure_bind bind_assoc

/-! ## Steps -/

/-- Ends with the state. -/
def state : Procedure σ ε σ := fun s => ⟨.ok s, s, []⟩

/-- Ends with a fault. -/
def fail (e : ε) : Procedure σ ε α := fun s => ⟨.error e, s, []⟩

/-- Records an event. -/
def note (level : Level) (source : Source) (message : String) : Procedure σ ε Unit := fun s =>
  ⟨.ok (), s, [⟨level, source, message⟩]⟩

/-- Ends with the outcome that the state determines. -/
def query (f : σ → Except ε α) : Procedure σ ε α := fun s => ⟨f s, s, []⟩

/-- Changes the state, or fails and leaves it as it is. -/
def change (f : σ → Except ε σ) : Procedure σ ε Unit := fun s =>
  match f s with
  | .ok s => ⟨.ok (), s, []⟩
  | .error e => ⟨.error e, s, []⟩

/-- The same procedure with its faults renamed. -/
def explain (f : ε → ε') (p : Procedure σ ε α) : Procedure σ ε' α := fun s =>
  let r := p s
  ⟨match r.outcome with
    | .ok a => .ok a
    | .error e => .error (f e), r.state, r.journal⟩

/-- Goes on with the outcome of a procedure, whatever it is. -/
def attempt (p : Procedure σ ε α) : Procedure σ ε' (Except ε α) := fun s =>
  let r := p s
  ⟨.ok r.outcome, r.state, r.journal⟩

/-- A procedure on a part of a state, as one on the whole. -/
def within (get : τ → σ) (set : τ → σ → τ) (p : Procedure σ ε α) : Procedure τ ε α := fun t =>
  let r := p (get t)
  ⟨r.outcome, set t r.state, r.journal⟩

end Procedure

end LintRatchet
