import LintRatchet.Proofs.Store.Lawful

/-!
# Sessions

A session performs operations on a store, one after the other, and goes on
after one that fails.  After each step it is seen what the operation answered
and which baseline the store loads then.

Main statement: a store in memory and a store in a file that start without a
baseline show the same in every session.  Only the location differs that texts
and summaries name.  The two stores are tied by `Mirrors`, which every operation
keeps.
-/

namespace LintRatchet

open Store (load location evaluation)

/-! ## Operations and answers -/

/-- Something to be done with a store. -/
inductive Operation where
  | check (plan : Plan) (report : String)
  | snapshot (report workingDirectory : String)
  | discard
  | status
deriving DecidableEq, Repr

/-- What an operation answers. -/
inductive Answer where
  | checked (run : CheckRun)
  | saved (run : SnapshotRun)
  | discarded (existed : Bool)
  | described (summary : Summary)
deriving DecidableEq, Repr

/-- What is seen of a step of a session. -/
structure Observation where
  answer : Except StoreFault Answer
  /-- What the store loads after the step. -/
  baseline : Option Baseline

/-- The same answer of a store at another location. -/
def Answer.at (l : String) : Answer → Answer
  | checked run => checked { run with text := run.receipt.render l }
  | described summary => described { summary with path := l }
  | saved run => saved run
  | discarded existed => discarded existed

/-- The same observation of a store at another location. -/
def Observation.at (l : String) (o : Observation) : Observation :=
  { o with answer := o.answer.map (Answer.at l) }

section Sessions

variable {σ : Type} [Store σ]

/-- Performs an operation. -/
def Operation.perform : Operation → Procedure σ StoreFault Answer
  | check plan report => Answer.checked <$> Store.check plan report
  | snapshot report cwd => Answer.saved <$> Store.snapshot report cwd
  | discard => Answer.discarded <$> Store.discard
  | status => Answer.described <$> Store.status

/-- What is seen of operations that are performed one after the other. -/
def session (s : σ) : List Operation → List Observation
  | [] => []
  | op :: ops =>
    let r := op.perform s
    ⟨r.outcome, (load r.state).baseline⟩ :: session r.state ops

theorem session_cons {op : Operation} {s t : σ} {answer : Except StoreFault Answer}
    (h : (op.perform s).ends = (answer, t)) (ops : List Operation) :
    session s (op :: ops) = ⟨answer, (load t).baseline⟩ :: session t ops := by
  obtain ⟨rfl, rfl⟩ := Prod.mk.inj h
  rfl

end Sessions

/-! ## Stores that mirror each other -/

/-- The file holds what the memory holds, and both stores can be changed. -/
structure Mirrors (m : MemoryStore) (f : FileStore) : Prop where
  changeable : m.readOnly = false
  version : m.version = f.version
  held : ∀ b, m.held = some b → f.Holds b
  vacant : m.held = none → f.Vacant ∧ f.Writable

namespace Mirrors

variable {m : MemoryStore} {f : FileStore}

/-- Stores that mirror each other load the same baseline. -/
theorem load_eq (h : Mirrors m f) : (load f).baseline = (load m).baseline := by
  cases hm : m.held with
  | none => exact (congrArg Loaded.baseline (h.vacant hm).1.load).trans hm.symm
  | some b => exact (congrArg Loaded.baseline (h.held b hm).load).trans hm.symm

theorem writable (h : Mirrors m f) : f.Writable := by
  cases hm : m.held with
  | none => exact (h.vacant hm).2
  | some b => exact (h.held b hm).writable

theorem evaluation_eq (h : Mirrors m f) (plan : Plan) (report : String) :
    evaluation plan report f = evaluation plan report m := by
  rw [evaluation, h.load_eq, ← evaluation]

/-- Both stores save the same, and mirror each other afterwards. -/
theorem save (h : Mirrors m f) (fs : List Finding) : ∃ b m' f',
    (Store.save fs m).ends = (.ok b, m') ∧ (Store.save fs f).ends = (.ok b, f') ∧
      Mirrors m' f' ∧ f'.path = f.path := by
  obtain ⟨t, hsave, hholds⟩ := h.writable.save fs
  have hmemory : (Store.save fs m).ends = (.ok (Baseline.ofFindings fs m.version),
      { m with held := some (Baseline.ofFindings fs m.version), writes := m.writes + 1 }) := by
    refine (MemoryStore.ends_save fs m).trans ?_
    rw [h.changeable]
    rfl
  have hversion : Baseline.ofFindings fs m.version = Baseline.ofFindings fs f.version := by
    rw [h.version]
  rw [hversion] at hmemory
  refine ⟨_, _, _, hmemory, hsave, ?_, rfl⟩
  refine ⟨h.changeable, h.version, ?_, fun hnone => nomatch hnone⟩
  rintro b ⟨⟩
  exact hholds

theorem clear (h : Mirrors m f) : ∃ existed m' f',
    (Store.clear m).ends = (.ok existed, m') ∧ (Store.clear f).ends = (.ok existed, f') ∧
      Mirrors m' f' ∧ f'.path = f.path := by
  have hmemory : (Store.clear m).ends =
      (.ok m.held.isSome, { m with held := none, writes := m.writes + 1 }) := by
    refine (MemoryStore.ends_clear m).trans ?_
    rw [h.changeable]
    rfl
  refine ⟨m.held.isSome, { m with held := none, writes := m.writes + 1 }, ?_⟩
  cases hm : m.held with
  | none =>
    rw [hm] at hmemory
    obtain ⟨hvacant, hwritable⟩ := h.vacant hm
    refine ⟨f, hmemory, hvacant.clear, ?_, rfl⟩
    exact ⟨h.changeable, h.version, (fun _ hsome => nomatch hsome), fun _ => ⟨hvacant, hwritable⟩⟩
  | some b =>
    rw [hm] at hmemory
    obtain ⟨t, hclear, hempty⟩ := (h.held b hm).clear
    refine ⟨_, hmemory, hclear, ?_, rfl⟩
    exact ⟨h.changeable, h.version, (fun _ hsome => nomatch hsome), fun _ => hempty⟩

/-- Every operation gives the same answer on both stores, and they go on mirroring each other. -/
theorem perform (h : Mirrors m f) (op : Operation) : ∃ a m' f',
    (op.perform m).ends = (.ok (Answer.at MemoryStore.location a), m') ∧
      (op.perform f).ends = (.ok (a.at f.path), f') ∧ Mirrors m' f' ∧ f'.path = f.path := by
  cases op with
  | check plan report =>
    have hsame := h.evaluation_eq plan report
    cases hw : (evaluation plan report m).action.writes with
    | true =>
      obtain ⟨b, m', f', hm', hf', hmirrors, hpath⟩ := h.save (plan.findings report)
      have hm := Store.ends_check plan report m
      have hf := Store.ends_check plan report f
      rw [if_pos hw, hm'] at hm
      rw [hsame, if_pos hw, hf'] at hf
      refine ⟨.checked (plan.run report (evaluation plan report m) ""), m', f',
        Procedure.ends_map_ok hm _, ?_, hmirrors, hpath⟩
      rw [← hpath]
      exact Procedure.ends_map_ok hf _
    | false =>
      have hm := Store.ends_check plan report m
      have hf := Store.ends_check plan report f
      rw [hw] at hm
      rw [hsame, hw] at hf
      exact ⟨.checked (plan.run report (evaluation plan report m) ""), m, f,
        Procedure.ends_map_ok hm _, Procedure.ends_map_ok hf _, h, rfl⟩
  | snapshot report cwd =>
    obtain ⟨b, m', f', hm', hf', hmirrors, hpath⟩ := h.save (Report.read report cwd).1
    have hm := Store.ends_snapshot report cwd m
    have hf := Store.ends_snapshot report cwd f
    rw [hm'] at hm
    rw [hf', h.load_eq] at hf
    exact ⟨.saved ⟨b, (load m).baseline.isSome⟩, m', f', Procedure.ends_map_ok hm _,
      Procedure.ends_map_ok hf _, hmirrors, hpath⟩
  | discard =>
    obtain ⟨existed, m', f', hm', hf', hmirrors, hpath⟩ := h.clear
    have hm := (Store.ends_discard m).trans hm'
    have hf := (Store.ends_discard f).trans hf'
    exact ⟨.discarded existed, m', f', Procedure.ends_map_ok hm _, Procedure.ends_map_ok hf _,
      hmirrors, hpath⟩
  | status =>
    have hm := Store.ends_status m
    have hf := Store.ends_status f
    rw [h.load_eq] at hf
    exact ⟨.described (Summary.of "" (load m).baseline), m, f, Procedure.ends_map_ok hm _,
      Procedure.ends_map_ok hf _, h, rfl⟩

end Mirrors

/-! ## Sessions on both stores -/

theorem Answer.at_at (a : Answer) (k l : String) : (a.at k).at l = a.at l := by
  cases a <;> rfl

/-- Stores that mirror each other show the same in every session. -/
theorem Mirrors.session_eq {m : MemoryStore} {f : FileStore} (h : Mirrors m f)
    (ops : List Operation) :
    session f ops = (session m ops).map (Observation.at f.path) ∧
      session m ops = (session f ops).map (Observation.at MemoryStore.location) ∧
      ∀ o ∈ session m ops, ∃ a, o.answer = .ok a := by
  induction ops generalizing m f with
  | nil => exact ⟨rfl, rfl, fun _ hmem => nomatch hmem⟩
  | cons op ops ih =>
    obtain ⟨a, m', f', hm, hf, hmirrors, hpath⟩ := h.perform op
    obtain ⟨hfile, hmemory, hok⟩ := ih hmirrors
    rw [session_cons hm, session_cons hf, hmirrors.load_eq]
    refine ⟨?_, ?_, ?_⟩
    · rw [List.map_cons, ← hpath, ← hfile, hpath, Observation.at, Except.map, Answer.at_at]
    · rw [List.map_cons, ← hmemory, Observation.at, Except.map, Answer.at_at]
    · intro o ho
      rcases List.mem_cons.mp ho with rfl | ho
      · exact ⟨_, rfl⟩
      · exact hok o ho

/-- A store in memory and a store in a file at a writable path that both start without a baseline
show the same in every session, but for the location. -/
theorem session_file_eq_memory {m : MemoryStore} {f : FileStore} (hm : m.held = none)
    (hchange : m.readOnly = false) (hversion : m.version = f.version) (hf : f.Vacant)
    (hwritable : f.Writable) (ops : List Operation) :
    session f ops = (session m ops).map (Observation.at f.path) ∧
      session m ops = (session f ops).map (Observation.at MemoryStore.location) ∧
      ∀ o ∈ session m ops, ∃ a, o.answer = .ok a := by
  have hmirrors : Mirrors m f := by
    refine ⟨hchange, hversion, ?_, fun _ => ⟨hf, hwritable⟩⟩
    intro b hb
    rw [hm] at hb
    cases hb
  exact hmirrors.session_eq ops

/-- A session that starts where not even the directory of the file is there. -/
theorem session_in_missing_directory :
    let m : MemoryStore := {}
    let f : FileStore := { tree := ⟨[], []⟩, path := "/ci/baseline.json" }
    let report := "::error title=rule,file=a.js,line=1::message\n"
    let ops : List Operation := [
      .status, .check ⟨{}, "/ci", "1.9"⟩ report, .check ⟨{ strict := true }, "/ci", "1.9"⟩ "",
      .snapshot report "/ci", .discard, .discard]
    (m.held = none ∧ m.readOnly = false ∧ m.version = f.version ∧ f.Vacant ∧ f.Writable) ∧
      session f ops = (session m ops).map (Observation.at "/ci/baseline.json") ∧
      session m ops = (session f ops).map (Observation.at "<memory>") ∧
      ∀ o ∈ session m ops, ∃ a, o.answer = .ok a := by
  intro m f report ops
  have hvacant : f.Vacant := by
    unfold FileStore.Vacant
    decide +kernel
  have hwritable : f.Writable := by
    unfold FileStore.Writable
    decide +kernel
  exact ⟨⟨rfl, rfl, rfl, hvacant, hwritable⟩,
    session_file_eq_memory rfl rfl rfl hvacant hwritable ops⟩

end LintRatchet
