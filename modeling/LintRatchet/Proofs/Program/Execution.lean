import LintRatchet.Program
import LintRatchet.Proofs.Linter
import LintRatchet.Proofs.Operations

/-!
# The stages of a run

A run first finds its configuration, then gets a report if its command needs
one, and only then touches anything.  `Job.prepares_configure` and
`Job.prepares_collect` say that the first two stages leave the world as it is, in
particular when they fail, and that they do not fail as the last step of a check
may, which leaves a receipt.  What the third stage does depends on the report and
its version and not on where they come from: `Job.evaluated` and
`Job.delivered` for a check, `Job.accepted` for `init` and `update`.
-/

namespace LintRatchet

/-- The failures of leaving a receipt. -/
def Failure.ofReceipt : Failure → Bool
  | .receiptDirectory _ _ => true
  | .receiptFile _ _ => true
  | _ => false

namespace Job

/-! ## Configuration and report -/

/-- A job that leaves the world as it is, and has nothing to do with receipts. -/
abbrev Prepares {α : Type} (p : Job α) : Prop := Procedure.Steady (fun f => f.ofReceipt = false) p

open Procedure (Steady steady_pure steady_note steady_state steady_fail steady_query)

theorem prepares_readText {fault : FileProblem → Failure} (h : ∀ e, (fault e).ofReceipt = false)
    (path : String) : Prepares (readText fault path) :=
  Steady.explain (steady_query fun _ _ _ => trivial) fun e _ => h e

/-- Reading a configuration touches nothing, also when it is malformed. -/
theorem prepares_readConfiguration (environment : Expansion.Variables) (path : String) :
    Prepares (readConfiguration environment path) := by
  have hexpand : ∀ text, (expand environment text).Steady fun _ => True :=
    fun _ => ⟨fun _ => rfl, fun _ => trivial⟩
  refine Steady.bind (steady_note _ _ _) fun _ => ?_
  refine Steady.bind (prepares_readText (fun _ => rfl) path) fun text => ?_
  refine Steady.bind ((hexpand text).explain fun _ _ => rfl) fun text => ?_
  cases Configuration.ofToml? text with
  | none => exact steady_fail rfl
  | some c => exact steady_pure _

/-- The first stage touches nothing. -/
theorem prepares_configure (environment : Expansion.Variables) (named : Option String) :
    Prepares (configure environment named) := by
  cases named with
  | some path => exact prepares_readConfiguration environment path
  | none =>
    refine Steady.bind steady_state fun w => ?_
    split
    · exact prepares_readConfiguration environment defaultConfig
    · exact Steady.bind (steady_note _ _ _) fun _ => steady_pure _

theorem prepares_recorded (inv : Invocation) (path : String) : Prepares (recorded inv path) := by
  have hlength : ∀ report, Prepares (noteLength report >>= fun _ => pure report) :=
    fun _ => Steady.bind (steady_note _ _ _) fun _ => steady_pure _
  unfold recorded
  simp only
  split
  · refine Steady.bind (steady_note _ _ _) fun _ => ?_
    cases String.fromUTF8? inv.input with
    | none => exact Steady.bind (steady_fail rfl) hlength
    | some text => exact Steady.bind (steady_pure _) hlength
  · exact Steady.bind (steady_note _ _ _) fun _ =>
      Steady.bind (prepares_readText (fun _ => rfl) path) hlength

/-- The second stage touches nothing, wherever the report comes from. -/
theorem prepares_collect (inv : Invocation) (options : ReportOptions) (settings : Settings)
    (fix : Bool) : Prepares (collect inv options settings fix) := by
  unfold collect
  cases options.input with
  | some path =>
    refine Steady.bind (prepares_recorded inv path) fun report => ?_
    cases options.linterVersion with
    | some version => exact steady_pure _
    | none => exact Steady.bind (steady_note _ _ _) fun _ => steady_pure _
  | none =>
    refine Steady.bind (Steady.explain (steady_query fun _ _ _ => trivial) fun _ _ => rfl)
      fun linter => ?_
    refine Steady.bind steady_state fun w => ?_
    refine Steady.bind ((linter.steady_lint _ _ _ _).explain fun _ _ => rfl) fun report => ?_
    refine Steady.bind (steady_note _ _ _) fun _ => ?_
    cases options.linterVersion with
    | some version => exact steady_pure _
    | none => exact Steady.bind (linter.steady_probe _ _) fun _ => steady_pure _

/-! ## The commands -/

/-- Checks a report and prints what has come of it. -/
def evaluated (settings : Settings) (policy : Policy) (report version : String) : Job CheckRun := do
  let plan : Plan := {
    policy
    workingDirectory := ← workingDirectory
    linterVersion := version }
  let run ← onStore settings.baseline version (Store.check plan report)
  print run.text
  return run

/-- Leaves the receipt of a check, if there is to be one. -/
def delivered (out : Option String) (run : CheckRun) : Job Nat := do
  match out with
  | none => pure ()
  | some path =>
    writeReceipt path run.receipt
    note .info ("Wrote receipt to " ++ path)
  return run.exitCode

/-- Makes a report the baseline and says so. -/
def accepted (settings : Settings) (verb : Bool → String) (report version : String) : Job Nat := do
  let cwd ← workingDirectory
  let run ← onStore settings.baseline version (Store.snapshot report cwd)
  print (verb run.replaced ++ " " ++ settings.baseline ++ " with " ++
    toString run.baseline.errors.length ++ " finding(s) (" ++
    toString run.baseline.fingerprints.length ++ " fingerprint(s)).\n")
  return 0

/-- A check gets its report, evaluates it and then leaves a receipt. -/
theorem check_eq (inv : Invocation) (options : CheckOptions) (settings : Settings) :
    check inv options settings = (do
      note .info "Starting biomegate check"
      let r ← collect inv options.toReportOptions settings options.fix
      let run ← evaluated settings (tighten settings.policy options) r.1 r.2
      delivered options.out run) := by
  have hrun : ∀ report version : String,
      (do
        let run ← evaluated settings (tighten settings.policy options) report version
        delivered options.out run) = (do
        let cwd ← workingDirectory
        let run ← onStore settings.baseline version
          (Store.check ⟨tighten settings.policy options, cwd, version⟩ report)
        print run.text
        delivered options.out run) := by
    intro report version
    simp only [evaluated, bind_assoc, pure_bind]
  simp only [hrun]
  rfl

theorem snapshot_eq (inv : Invocation) (options : ReportOptions) (settings : Settings)
    (verb : Bool → String) :
    snapshot inv options settings verb = (do
      let r ← collect inv options settings false
      accepted settings verb r.1 r.2) := rfl

end Job

/-- Where a command gets its report.  Some commands need none. -/
def Command.report? : Command → Option ReportOptions
  | .check options => some options.toReportOptions
  | .init options => some options
  | .update options => some options
  | .clear => none
  | .status _ => none

/-- Does what a command line says once the settings are known. -/
def CommandLine.perform (c : CommandLine) (inv : Invocation) (settings : Settings) : Job Nat :=
  match c.command with
  | .check options => Job.check inv options settings
  | .init options =>
    Job.snapshot inv options settings fun replaced => if replaced then "Recreated" else "Created"
  | .update options => Job.snapshot inv options settings fun _ => "Updated"
  | .clear => Job.clear settings
  | .status format => Job.status settings format

/-- A run ends with its configuration's failure, or with what its command comes to. -/
theorem CommandLine.ends_execute (c : CommandLine) (inv : Invocation) (w : World) :
    (c.execute inv w).ends =
      match (Job.configure inv.environment c.config w).outcome with
      | .error f => (.error f, w)
      | .ok configuration => (c.perform inv (c.settings configuration) w).ends := by
  have hnote : ∀ (message : String) (w : World),
      (Job.note .debug message w : Result World Failure Unit).ends = (.ok (), w) := fun _ _ => rfl
  have hconfigure := (Job.prepares_configure inv.environment c.config).ends w
  rw [execute, Procedure.ends_bind_ok (hnote _ w), Procedure.ends_bind, hconfigure]
  cases (Job.configure inv.environment c.config w).outcome with
  | error f => rfl
  | ok configuration =>
    simp only
    exact Procedure.ends_bind_ok (hnote _ w) _

end LintRatchet
