import LintRatchet.Proofs.Program.Execution
import LintRatchet.Proofs.Store.File

/-!
# Recorded reports

`check`, `init` and `update` run the linter, or read a report that was recorded
before.  The two ways differ in what they ask of the world.  The linter's output
is read whatever it is, and its version is probed; a recorded report has to be a
text, and neither the linter nor its settings matter.

Where the linter prints a text, that text may as well have been recorded.  The
two runs end alike and leave the same files and the same output
(`run_recorded_eq_run_live`).  Only getting the report differs, and both ways
end with the report and the version to record (`Job.ends_collect_live`,
`Job.ends_collect_recorded`).
-/

namespace LintRatchet

/-! ## Command lines -/

/-- The same command with a report from elsewhere. -/
def Command.withReport (r : ReportOptions) : Command → Command
  | .check options => .check { options with toReportOptions := r }
  | .init _ => .init r
  | .update _ => .update r
  | .clear => .clear
  | .status format => .status format

/-- The linter is to mend what it can. -/
def Command.fix : Command → Bool
  | .check options => options.fix
  | _ => false

/-- The same command line with a report from elsewhere. -/
def CommandLine.withReport (c : CommandLine) (r : ReportOptions) : CommandLine :=
  { c with command := c.command.withReport r }

/-! ## Where a report is found -/

/-- The linter of some settings can be run, and what it prints is a text. -/
structure Linter.Prints (l : Linter) (programs : Programs) (files : FileTree) (s : Settings)
    (fix : Bool) (report : String) : Prop where
  command : Linter.ofCommand s.linter = .ok l
  output : ∃ r, programs.run files l.program (l.lintArguments s.paths fix) = .ok r ∧
    String.fromUTF8? r.output = some report

/-- What a path given with `--input` finds. -/
inductive Supplies (inv : Invocation) (tree : FileTree) (report : String) : String → Prop
  | input : String.fromUTF8? inv.input = some report → Supplies inv tree report "-"
  | file {path : String} : path ≠ "-" → tree.readText path = .ok report →
      Supplies inv tree report path

variable {inv live replay : Invocation} {w : World} {tree : FileTree} {c : CommandLine}
  {s : Settings} {fix : Bool} {given : Option String} {path report version : String}

namespace Job

theorem ends_noteLength (report : String) (w : World) : (noteLength report w).ends = (.ok (), w) :=
  rfl

/-- The linter's report is what it prints, and its version is the given one or the probed one. -/
theorem ends_collect_live {l : Linter} (h : l.Prints inv.programs w.tree s fix report) :
    (collect inv ⟨none, given⟩ s fix w).ends =
      (.ok (report, given.getD (l.probedVersion inv.programs w.tree)), w) := by
  obtain ⟨r, hrun, htext⟩ := h.output
  have hlinter : ((Procedure.query fun _ => Linter.ofCommand s.linter).explain .linter w :
      Result World Failure Linter).ends = (.ok l, w) := by
    rw [Procedure.ends_explain, Procedure.ends_query, h.command]
    rfl
  have hstate : (Procedure.state w : Result World Failure World).ends = (.ok w, w) := rfl
  have hlint : ((l.lint inv.programs w.tree s.paths fix).explain .linter w :
      Result World Failure String).ends = (.ok report, w) := by
    rw [Procedure.ends_explain, l.ends_lint inv.programs w.tree hrun,
      Text.decodeLossy_of_fromUTF8? htext]
    rfl
  rw [collect]
  simp only
  rw [Procedure.ends_bind_ok hlinter, Procedure.ends_bind_ok hstate, Procedure.ends_bind_ok hlint,
    Procedure.ends_bind_ok (ends_noteLength report w)]
  cases given with
  | some version => rfl
  | none => exact Procedure.ends_bind_ok (l.ends_probe inv.programs w.tree w) _

/-- A report that is supplied is got, and nothing is touched. -/
theorem ends_recorded (h : Supplies inv w.tree report path) :
    (recorded inv path w).ends = (.ok report, w) := by
  have hnote : ∀ message : String,
      (note .info message w : Result World Failure Unit).ends = (.ok (), w) := fun _ => rfl
  unfold recorded
  cases h with
  | input htext =>
    simp only [if_true, htext]
    rw [Procedure.ends_bind_ok (hnote _)]
    rfl
  | file hpath htext =>
    have hread : (readText (.reportUnreadable path) path w).ends = (.ok report, w) := by
      rw [readText, Procedure.ends_explain, Procedure.ends_query, htext]
      rfl
    simp only [if_neg hpath]
    rw [Procedure.ends_bind_ok (hnote _), Procedure.ends_bind_ok hread]
    rfl

/-- With a version given, what is got is the recorded report and that version. -/
theorem ends_collect_recorded (h : Supplies inv w.tree report path) :
    (collect inv ⟨some path, some version⟩ s fix w).ends = (.ok (report, version), w) := by
  rw [collect]
  exact Procedure.ends_bind_ok (ends_recorded h) _

end Job

/-- What a command does after it has its report does not depend on how it got it. -/
theorem CommandLine.ends_perform_withReport {r r' : ReportOptions}
    (hr : c.command.report? = some r)
    (h : (Job.collect inv r s c.command.fix w).ends =
      (Job.collect replay r' s c.command.fix w).ends) :
    (c.perform inv s w).ends = ((c.withReport r').perform replay s w).ends := by
  unfold CommandLine.perform CommandLine.withReport
  cases hc : c.command with
  | check options =>
    rw [hc] at hr h
    cases hr
    have hnote : (Job.note .info "Starting biomegate check" w :
        Result World Failure Unit).ends = (.ok (), w) := rfl
    simp only [Command.withReport]
    rw [Job.check_eq, Job.check_eq, Procedure.ends_bind_ok hnote, Procedure.ends_bind_ok hnote]
    exact Procedure.ends_bind_congr h _
  | init options =>
    rw [hc] at hr h
    cases hr
    exact Procedure.ends_bind_congr h _
  | update options =>
    rw [hc] at hr h
    cases hr
    exact Procedure.ends_bind_congr h _
  | clear =>
    rw [hc] at hr
    cases hr
  | status format =>
    rw [hc] at hr
    cases hr

/-! ## The two runs -/

/-- The two runs end with the same status or failure, and leave the same files and output. -/
structure Alike (run run' : Run) : Prop where
  outcome : run'.result.outcome = run.result.outcome
  tree : run'.result.state.tree = run.result.state.tree
  printed : run'.result.state.printed = run.result.state.printed
  exitCode : run'.exitCode = run.exitCode

theorem Alike.of_ends {run run' : Run} (h : run'.result.ends = run.result.ends) :
    Alike run run' where
  outcome := congrArg Prod.fst h
  tree := congrArg (·.2.tree) h
  printed := congrArg (·.2.printed) h
  exitCode := by
    have houtcome : run'.result.outcome = run.result.outcome := congrArg Prod.fst h
    rw [Run.exitCode, Run.exitCode, houtcome]

/-- The linter is run in the one run, and prints a text.  In the other one that text is the recorded
report, with the version that the first run records.  Both find the same configuration.  Then they
are alike. -/
theorem run_recorded_eq_run_live
    (hlive : live.commandLine = .ok c) (hgiven : c.command.report? = some ⟨none, given⟩)
    (hreplay : replay.commandLine = .ok (c.withReport ⟨some path, some version⟩))
    (hconfigure : (Job.configure replay.environment c.config { tree }).outcome =
      (Job.configure live.environment c.config { tree }).outcome)
    (hlinter : ∀ configuration,
      (Job.configure live.environment c.config { tree }).outcome = .ok configuration →
      ∃ l : Linter, l.Prints live.programs tree (c.settings configuration) c.command.fix report ∧
        version = given.getD (l.probedVersion live.programs tree))
    (hsupplies : Supplies replay tree report path) :
    ∃ run run', live.run tree = .ok run ∧ replay.run tree = .ok run' ∧ Alike run run' := by
  refine ⟨_, _, congrArg (· >>= _) hlive, congrArg (· >>= _) hreplay, .of_ends ?_⟩
  show ((c.withReport _).execute replay { tree }).ends = (c.execute live { tree }).ends
  rw [CommandLine.ends_execute, CommandLine.ends_execute]
  have hconfig : (c.withReport ⟨some path, some version⟩).config = c.config := rfl
  rw [hconfig, hconfigure]
  cases houtcome : (Job.configure live.environment c.config { tree }).outcome with
  | error f => rfl
  | ok configuration =>
    obtain ⟨l, hprints, rfl⟩ := hlinter configuration houtcome
    refine (CommandLine.ends_perform_withReport hgiven ?_).symm
    rw [Job.ends_collect_live hprints, Job.ends_collect_recorded hsupplies]

/-- A linter that finds something, ends with a status other than zero and does not know its version. -/
theorem run_recorded_eq_run_live_stdin :
    let report := "::error title=lint/a,file=b.js,line=1::c\n"
    let programs : Programs := fun _ arguments =>
      some ⟨1, if arguments.contains "--version" then ByteArray.empty else report.toUTF8⟩
    let live : Invocation := ⟨["check", "--out", "r.json"], fun _ => none, ByteArray.empty, programs⟩
    let replay : Invocation :=
      ⟨["check", "--out", "r.json", "--input", "-", "--biome-version", "unknown"], fun _ => none,
        report.toUTF8, fun _ _ => none⟩
    let tree : FileTree := ⟨[(["work"], .directory)], ["work"]⟩
    ∃ run run', live.run tree = .ok run ∧ replay.run tree = .ok run' ∧ Alike run run' := by
  intro report programs live replay tree
  have hbuiltin : (Job.configure live.environment none { tree }).outcome = .ok .builtin := by
    decide +kernel
  refine @run_recorded_eq_run_live live replay tree { command := .check { out := some "r.json" } }
    none "-" report "unknown" ?_ rfl ?_ rfl ?_ ?_
  · decide +kernel
  · decide +kernel
  · intro configuration hconfiguration
    rw [hbuiltin] at hconfiguration
    cases hconfiguration
    refine ⟨⟨"npx", ["@biomejs/biome"]⟩, ⟨rfl, _, rfl, FileStore.fromUTF8?_toUTF8 report⟩, ?_⟩
    decide +kernel
  · exact .input (FileStore.fromUTF8?_toUTF8 report)

end LintRatchet
