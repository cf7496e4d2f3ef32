import LintRatchet.Proofs.Program.Execution
import LintRatchet.Proofs.Store.Staged

/-!
# The footprint of a run

A run puts at most two files, the baseline and the receipt of a check, and
creates the directories that are missing above them.  `clear` removes the
baseline at most, and `status` does nothing (`Command.Changes`).

A run that fails has left the baseline as it was (`Confined.failed`).  This is
so because the baseline is moved in one step, after all that can fail but the
receipt.  When leaving the receipt fails, the baseline has been moved, and is
what the same check leaves without a receipt (`Confined.receipt`).

`run_confined` says so for whole runs.  It is put together from what each step
does to the tree: `MovesBaseline` for checks and snapshots of the store,
`LeavesReceipt` for the receipt.
-/

namespace LintRatchet

open FileTree (Footprint Spares)

/-! ## Operations on the store -/

/-- How an operation ends that saves a baseline or does nothing. -/
inductive FileStore.Moves {α : Type} (s : FileStore) : Except StoreFault α × FileStore → Prop
  /-- The path can be followed now, because there is a baseline. -/
  | done {a : α} {t : FileStore} {p : PathTarget} :
      Footprint s.tree t.tree [s.path] [s.path] → t.tree.target s.path = .ok p → Moves s (.ok a, t)
  | failed {fault : StoreFault} {t : FileStore} :
      Spares s.tree t.tree s.path [s.path] → Moves s (.error fault, t)

namespace FileStore

variable {s : FileStore} {b : Baseline}

/-- Saving moves the baseline in one step. -/
theorem moves_save (fs : List Finding) (s : FileStore) : s.Moves (save fs s).ends := by
  cases hends : (save fs s).ends with
  | mk outcome t =>
    cases outcome with
    | error fault => exact .failed (spares_of_save_error hends)
    | ok b =>
      obtain ⟨hfootprint, l, d, n, ht, -⟩ := footprint_of_save hends
      exact .done hfootprint ht

theorem exists_target_of_load (h : s.load.baseline = some b) :
    ∃ p, s.tree.target s.path = .ok p := by
  have hfilled : ¬s.Unfilled := by
    intro hunfilled
    rw [hunfilled.load] at h
    cases h
  obtain ⟨bytes, hread⟩ := not_forall_not.mp hfilled
  obtain ⟨l, hl, -⟩ := FileTree.bind_eq_ok_iff.mp hread
  exact FileTree.exists_target_of_locate hl

/-- Without a baseline a check writes one. -/
theorem exists_load_of_not_writes {plan : Plan} {report : String}
    (h : (Store.evaluation plan report s).action.writes = false) :
    ∃ b, s.load.baseline = some b := by
  cases hload : s.load.baseline with
  | some b => exact ⟨b, rfl⟩
  | none =>
    have hnone : (Store.load s).baseline = none := hload
    rw [Store.evaluation, hnone] at h
    cases h

/-- A check moves the baseline or leaves it alone. -/
theorem moves_check (plan : Plan) (report : String) (s : FileStore) :
    s.Moves (Store.check plan report s).ends := by
  rw [Store.ends_check]
  cases hw : (Store.evaluation plan report s).action.writes with
  | false =>
    obtain ⟨b, hb⟩ := exists_load_of_not_writes hw
    obtain ⟨p, hp⟩ := exists_target_of_load hb
    exact .done (.refl _ _ _) hp
  | true =>
    have hsave : s.Moves (Store.save (plan.findings report) s).ends :=
      moves_save (plan.findings report) s
    rw [if_pos rfl]
    generalize (Store.save (plan.findings report) s).ends = r at hsave
    cases hsave with
    | done hfootprint hp => exact .done hfootprint hp
    | failed hspares => exact .failed hspares

theorem moves_snapshot (report cwd : String) (s : FileStore) :
    s.Moves (Store.snapshot report cwd s).ends := by
  have hsave : s.Moves (Store.save (Report.read report cwd).1 s).ends :=
    moves_save (Report.read report cwd).1 s
  rw [Store.ends_snapshot]
  generalize (Store.save (Report.read report cwd).1 s).ends = r at hsave
  cases hsave with
  | done hfootprint hp => exact .done hfootprint hp
  | failed hspares => exact .failed hspares

/-- How clearing ends: it removes the file to which the path leads, or does nothing. -/
inductive Clears (s : FileStore) : Except StoreFault Bool × FileStore → Prop
  | idle {outcome : Except StoreFault Bool} : Clears s (outcome, s)
  | removed {l : Location} {bytes : ByteArray} :
      s.tree.LeadsTo s.path l → s.tree.at? l = some (.file bytes) →
      Clears s (.ok true, { s with tree := s.tree.erase l })

/-- Discarding removes one file at most. -/
theorem clears_discard (s : FileStore) : s.Clears (Store.discard s).ends := by
  rw [Store.ends_discard]
  show s.Clears (clear s).ends
  unfold clear
  cases hr : s.tree.remove s.path with
  | ok t =>
    obtain ⟨l, bytes, hl, hfile⟩ := FileTree.leadsTo_of_remove hr
    rw [hl.remove hfile] at hr
    cases hr
    exact .removed hl hfile
  | error e => cases e <;> exact .idle

end FileStore

/-! ## Jobs -/

namespace Job

variable {w : World} {path : String}

/-- How a job ends that moves the baseline at a path or does nothing. -/
inductive MovesBaseline {α : Type} (path : String) (w : World) : Except Failure α × World → Prop
  | done {a : α} {w' : World} {p : PathTarget} :
      Footprint w.tree w'.tree [path] [path] → w'.tree.target path = .ok p →
      MovesBaseline path w (.ok a, w')
  | failed {fault : StoreFault} {w' : World} :
      Spares w.tree w'.tree path [path] → MovesBaseline path w (.error (.store fault), w')

theorem ends_onStore {α : Type} (path version : String) (p : Procedure FileStore StoreFault α)
    (w : World) :
    (onStore path version p w).ends =
      ((p ⟨w.tree, path, version⟩).ends.1.mapError .store,
        { w with tree := (p ⟨w.tree, path, version⟩).ends.2.tree }) := by
  rw [onStore, Procedure.ends_explain, Procedure.ends_within]

/-- What moves the baseline of a store does so in the world. -/
theorem movesBaseline_onStore {α : Type} {version : String}
    {p : Procedure FileStore StoreFault α} (h : ∀ s : FileStore, s.Moves (p s).ends) (w : World) :
    MovesBaseline path w (onStore path version p w).ends := by
  have hmoves := h ⟨w.tree, path, version⟩
  rw [ends_onStore]
  generalize (p ⟨w.tree, path, version⟩).ends = r at hmoves
  cases hmoves with
  | done hfootprint hp => exact .done hfootprint hp
  | failed hspares => exact .failed hspares

/-- Printing does not touch the tree. -/
theorem MovesBaseline.andPrint {α β : Type} {p : Job α} (h : MovesBaseline path w (p w).ends)
    (text : α → String) (b : α → β) :
    MovesBaseline path w ((do let a ← p; print (text a); return b a : Job β) w).ends := by
  rw [Procedure.ends_bind]
  generalize (p w).ends = r at h
  cases h with
  | done hfootprint hp => exact .done hfootprint hp
  | failed hspares => exact .failed hspares

theorem movesBaseline_evaluated (s : Settings) (policy : Policy) (report version : String)
    (w : World) : MovesBaseline s.baseline w (evaluated s policy report version w).ends := by
  have hcwd : (workingDirectory w).ends =
      (.ok ("/" ++ "/".intercalate w.tree.workingDirectory), w) := rfl
  rw [evaluated, Procedure.ends_bind_ok hcwd]
  exact (movesBaseline_onStore (FileStore.moves_check _ report) w).andPrint _ _

theorem movesBaseline_accepted (s : Settings) (verb : Bool → String) (report version : String)
    (w : World) : MovesBaseline s.baseline w (accepted s verb report version w).ends := by
  have hcwd : (workingDirectory w).ends =
      (.ok ("/" ++ "/".intercalate w.tree.workingDirectory), w) := rfl
  rw [accepted, Procedure.ends_bind_ok hcwd]
  exact (movesBaseline_onStore (FileStore.moves_snapshot report _) w).andPrint _ _

/-! ## Receipts -/

/-- How a job ends that leaves a receipt at a path. -/
inductive LeavesReceipt {α : Type} (path : String) (w : World) : Except Failure α × World → Prop
  | done {a : α} {w' : World} :
      Footprint w.tree w'.tree [path] [path] → LeavesReceipt path w (.ok a, w')
  | failed {f : Failure} {w' : World} :
      f.ofReceipt = true → Footprint w.tree w'.tree [] [path] → LeavesReceipt path w (.error f, w')

theorem ends_onTree {α : Type} (fault : FileProblem → Failure)
    (p : Procedure FileTree FileProblem α) (w : World) :
    (onTree fault p w).ends =
      ((p w.tree).ends.1.mapError fault, { w with tree := (p w.tree).ends.2 }) := by
  rw [onTree, Procedure.ends_explain, Procedure.ends_within]

theorem leavesReceipt_write {w₀ : World} (h : Footprint w₀.tree w.tree [] [path])
    (bytes : ByteArray) :
    LeavesReceipt path w₀ (onTree (.receiptFile path)
      (Procedure.change (FileTree.write · path bytes)) w).ends := by
  rw [ends_onTree, Procedure.ends_change]
  cases hwrite : w.tree.write path bytes with
  | error problem => exact .failed rfl h
  | ok t =>
    obtain ⟨l, hl, hd, rfl⟩ := FileTree.leadsTo_of_write hwrite
    exact .done (h.put hl hd bytes)

/-- Directories are created unless the path says of none. -/
theorem writeReceipt_eq (path : String) (r : Receipt) :
    let leave : Job Unit := onTree (.receiptFile path)
      (Procedure.change (FileTree.write · path r.toValue.pretty.toUTF8))
    writeReceipt path r = leave ∨
      writeReceipt path r = (do
        onTree (.receiptDirectory (PathName.directory path))
          (FileTree.createDirectories (PathName.directory path))
        leave) := by
  intro leave
  unfold writeReceipt
  simp only
  split
  · exact .inl rfl
  · exact .inl rfl
  · next parent hne hparent =>
    rw [PathName.directory_of_parent? hparent hne]
    exact .inr rfl

/-- Writing a receipt puts one file, after the directories above it. -/
theorem leavesReceipt_writeReceipt (path : String) (r : Receipt) (w : World) :
    LeavesReceipt path w (writeReceipt path r w).ends := by
  rcases writeReceipt_eq path r with heq | heq
  · rw [heq]
    exact leavesReceipt_write (.refl _ _ _) _
  · have hcreated := FileTree.footprint_createDirectories path w.tree
    rw [heq, Procedure.ends_bind, ends_onTree]
    cases hr : FileTree.createDirectories (PathName.directory path) w.tree with
    | mk outcome t journal =>
      rw [hr] at hcreated
      cases outcome with
      | error problem => exact .failed rfl hcreated
      | ok _ => exact leavesReceipt_write hcreated _

theorem leavesReceipt_delivered (path : String) (run : CheckRun) (w : World) :
    LeavesReceipt path w (delivered (some path) run w).ends := by
  have hleaves := leavesReceipt_writeReceipt path run.receipt w
  unfold delivered
  simp only
  rw [Procedure.ends_bind]
  generalize (writeReceipt path run.receipt w).ends = r at hleaves
  cases hleaves with
  | done hfootprint => exact .done hfootprint
  | failed hreceipt hfootprint => exact .failed hreceipt hfootprint

/-- A check that has its report evaluates it and then leaves a receipt. -/
theorem ends_check {inv : Invocation} {options : CheckOptions} {s : Settings} {w : World}
    {report version : String}
    (h : (collect inv options.toReportOptions s options.fix w).ends =
      (.ok (report, version), w)) :
    (check inv options s w).ends =
      match (evaluated s (tighten s.policy options) report version w).ends with
      | (.ok run, w') => (delivered options.out run w').ends
      | (.error f, w') => (.error f, w') := by
  have hnote : (note .info "Starting biomegate check" w :
      Result World Failure Unit).ends = (.ok (), w) := rfl
  rw [check_eq, Procedure.ends_bind_ok hnote, Procedure.ends_bind_ok h]
  dsimp only
  rw [Procedure.ends_bind]
  cases (evaluated s (tighten s.policy options) report version w).ends with
  | mk outcome w' => cases outcome <;> rfl

/-- Without its report a check does nothing. -/
theorem ends_check_error {inv : Invocation} {options : CheckOptions} {s : Settings} {w : World}
    {f : Failure}
    (h : (collect inv options.toReportOptions s options.fix w).ends = (.error f, w)) :
    (check inv options s w).ends = (.error f, w) := by
  have hnote : (note .info "Starting biomegate check" w :
      Result World Failure Unit).ends = (.ok (), w) := rfl
  rw [check_eq, Procedure.ends_bind_ok hnote, Procedure.ends_bind_error h]

end Job

/-! ## Commands -/

/-- What a command does to a tree, with some settings, at most. -/
def Command.Changes (command : Command) (s : Settings) (t t' : FileTree) : Prop :=
  match command with
  | .check options =>
    Footprint t t' (s.baseline :: options.out.toList) (s.baseline :: options.out.toList)
  | .init _ => Footprint t t' [s.baseline] [s.baseline]
  | .update _ => Footprint t t' [s.baseline] [s.baseline]
  | .clear =>
    t' = t ∨
      ∃ l bytes, t.LeadsTo s.baseline l ∧ t.at? l = some (.file bytes) ∧ t' = t.erase l
  | .status _ => t' = t

/-- The same command line without a receipt. -/
def CommandLine.withoutReceipt (c : CommandLine) : CommandLine :=
  match c.command with
  | .check options => { c with command := .check { options with out := none } }
  | _ => c

/-- How a run that has found its settings may end. -/
structure Confined (inv : Invocation) (c : CommandLine) (s : Settings) (w : World)
    (r : Except Failure Nat × World) : Prop where
  changes : c.command.Changes s w.tree r.2.tree
  /-- When it fails before the receipt, no file has changed. -/
  failed : ∀ f, r.1 = .error f → f.ofReceipt = false →
    Spares w.tree r.2.tree s.baseline [s.baseline]
  /-- When it fails with the receipt, the files are those that the same check leaves without one. -/
  receipt : ∀ f, r.1 = .error f → f.ofReceipt = true →
    ∃ options out code w', c.command = .check options ∧ options.out = some out ∧
      (c.withoutReceipt.execute inv w).ends = (.ok code, w') ∧
      Spares w'.tree r.2.tree s.baseline [out]

section

variable {inv : Invocation} {c : CommandLine} {s : Settings} {w w' : World} {f : Failure}
  {configuration : Configuration} {r : Except Failure Nat × World}

/-- Every command may leave the tree as it is. -/
theorem Command.changes_refl (command : Command) (s : Settings) (t : FileTree) :
    command.Changes s t t := by
  cases command with
  | check options => exact .refl _ _ _
  | init options => exact .refl _ _ _
  | update options => exact .refl _ _ _
  | clear => exact .inl rfl
  | status format => rfl

/-- A command that gets a report may move the baseline. -/
theorem Command.changes_of_footprint {command : Command} {t t' : FileTree} {files : List String}
    (hcommand : command.report? ≠ none) (hfiles : files ⊆ [s.baseline])
    (h : Footprint t t' files [s.baseline]) : command.Changes s t t' := by
  cases command with
  | check options =>
    have hmem : [s.baseline] ⊆ s.baseline :: options.out.toList :=
      List.cons_subset_cons _ (List.nil_subset _)
    exact h.mono (List.Subset.trans hfiles hmem) hmem
  | init options => exact h.mono hfiles (List.Subset.refl _)
  | update options => exact h.mono hfiles (List.Subset.refl _)
  | clear => exact absurd rfl hcommand
  | status format => exact absurd rfl hcommand

/-! A run that ends well is confined when its changes are, and so is one that fails before the
receipt and spares the baseline. -/

theorem Confined.ok {code : Nat} (h : c.command.Changes s w.tree w'.tree) :
    Confined inv c s w (.ok code, w') :=
  ⟨h, fun _ he => (nomatch he), fun _ he => (nomatch he)⟩

theorem Confined.error (h : c.command.Changes s w.tree w'.tree) (hf : f.ofReceipt = false)
    (hspares : Spares w.tree w'.tree s.baseline [s.baseline]) :
    Confined inv c s w (.error f, w') where
  changes := h
  failed _ _ _ := hspares
  receipt _ he hreceipt := by
    cases he
    rw [hf] at hreceipt
    cases hreceipt

/-- A failure before anything is touched. -/
theorem Confined.untouched (hf : f.ofReceipt = false) : Confined inv c s w (.error f, w) :=
  .error (c.command.changes_refl s w.tree) hf (.refl _ _ _)

/-- A command that moves the baseline and does nothing else. -/
theorem Confined.of_movesBaseline (hcommand : c.command.report? ≠ none)
    (h : Job.MovesBaseline s.baseline w r) : Confined inv c s w r := by
  cases h with
  | done hfootprint _ =>
    exact .ok (Command.changes_of_footprint hcommand (List.Subset.refl _) hfootprint)
  | failed hspares =>
    exact .error (Command.changes_of_footprint hcommand (List.nil_subset _) hspares.footprint) rfl
      hspares

/-! ### Checks -/

variable {options : CheckOptions} {report version : String} {run : CheckRun}

/-- A check without a receipt ends with what has come of its report. -/
theorem CommandLine.ends_withoutReceipt (hc : c.command = .check options)
    (hconfigure : (Job.configure inv.environment c.config w).outcome = .ok configuration)
    (hs : c.settings configuration = s)
    (hcollect : (Job.collect inv options.toReportOptions s options.fix w).ends =
      (.ok (report, version), w))
    (hrun : (Job.evaluated s (Job.tighten s.policy options) report version w).ends = (.ok run, w')) :
    (c.withoutReceipt.execute inv w).ends = (.ok run.exitCode, w') := by
  have hcheck := @Job.ends_check inv { options with out := none } s w report version hcollect
  have hpolicy : Job.tighten s.policy { options with out := none } = Job.tighten s.policy options :=
    rfl
  rw [hpolicy, hrun, ← hs] at hcheck
  rw [CommandLine.withoutReceipt, hc]
  refine (CommandLine.ends_execute _ inv w).trans ?_
  simp only [hconfigure]
  exact hcheck

/-- The receipt comes last, so without one a check has ended before it. -/
theorem Confined.of_leavesReceipt {out : String} {code : Nat} {p : PathTarget}
    (hc : c.command = .check options) (hout : options.out = some out)
    (hplain : (c.withoutReceipt.execute inv w).ends = (.ok code, w'))
    (hfootprint : Footprint w.tree w'.tree [s.baseline] [s.baseline])
    (hp : w'.tree.target s.baseline = .ok p) (h : Job.LeavesReceipt out w' r) :
    Confined inv c s w r := by
  have hchanges : ∀ {files : List String} {t : FileTree}, files ⊆ [out] →
      Footprint w'.tree t files [out] → c.command.Changes s w.tree t := by
    intro files t hfiles hreceipt
    rw [hc, Command.Changes, hout]
    have hfirst : [s.baseline] ⊆ [s.baseline, out] := List.cons_subset_cons _ (List.nil_subset _)
    have hsecond : [out] ⊆ [s.baseline, out] := List.subset_cons_self _ _
    exact (hfootprint.mono hfirst hfirst).trans
      (hreceipt.mono (List.Subset.trans hfiles hsecond) hsecond)
  cases h with
  | done hreceipt => exact .ok (hchanges (List.Subset.refl _) hreceipt)
  | failed hf hreceipt =>
    refine ⟨hchanges (List.nil_subset _) hreceipt, fun _ he hf' => ?_, fun _ _ _ => ?_⟩
    · cases he
      rw [hf] at hf'
      cases hf'
    · exact ⟨options, out, code, w', hc, hout, hplain, hreceipt.spares hp⟩

/-- A check is confined, with a receipt or without one. -/
theorem confined_check (hc : c.command = .check options)
    (hconfigure : (Job.configure inv.environment c.config w).outcome = .ok configuration)
    (hs : c.settings configuration = s) : Confined inv c s w (Job.check inv options s w).ends := by
  have hprepares := Job.prepares_collect inv options.toReportOptions s options.fix
  have hcollect := hprepares.ends w
  cases houtcome : (Job.collect inv options.toReportOptions s options.fix w).outcome with
  | error f =>
    rw [houtcome] at hcollect
    rw [Job.ends_check_error hcollect]
    exact .untouched (hprepares.fault houtcome)
  | ok r =>
    obtain ⟨report, version⟩ := r
    rw [houtcome] at hcollect
    have hcommand : c.command.report? ≠ none := by
      rw [hc]
      exact Option.some_ne_none _
    have hmoves := Job.movesBaseline_evaluated s (Job.tighten s.policy options) report version w
    rw [Job.ends_check hcollect]
    cases hrun : (Job.evaluated s (Job.tighten s.policy options) report version w).ends with
    | mk outcome w' =>
      rw [hrun] at hmoves
      cases hmoves with
      -- Only a check that has moved the baseline gets to its receipt.
      | failed hspares => exact .of_movesBaseline hcommand (.failed hspares)
      | @done run _ p hfootprint hp =>
        cases hout : options.out with
        | none => exact .of_movesBaseline hcommand (.done hfootprint hp)
        | some out =>
          have hplain := CommandLine.ends_withoutReceipt hc hconfigure hs hcollect hrun
          exact .of_leavesReceipt hc hout hplain hfootprint hp
            (Job.leavesReceipt_delivered out run w')

/-! ### The other commands -/

theorem confined_snapshot {options : ReportOptions} {verb : Bool → String}
    (hcommand : c.command.report? ≠ none) :
    Confined inv c s w (Job.snapshot inv options s verb w).ends := by
  have hprepares := Job.prepares_collect inv options s false
  have hcollect := hprepares.ends w
  rw [Job.snapshot_eq]
  cases houtcome : (Job.collect inv options s false w).outcome with
  | error f =>
    rw [houtcome] at hcollect
    rw [Procedure.ends_bind_error hcollect]
    exact .untouched (hprepares.fault houtcome)
  | ok r =>
    rw [houtcome] at hcollect
    rw [Procedure.ends_bind_ok hcollect]
    exact .of_movesBaseline hcommand (Job.movesBaseline_accepted s verb r.1 r.2 w)

theorem confined_clear (hc : c.command = .clear) :
    Confined inv c s w (Job.clear s w).ends := by
  have hclears := FileStore.clears_discard ⟨w.tree, s.baseline, unknownVersion⟩
  rw [Job.clear, Procedure.ends_bind, Job.ends_onStore]
  generalize (Store.discard (⟨w.tree, s.baseline, unknownVersion⟩ : FileStore)).ends = r at hclears
  cases hclears with
  | @idle outcome =>
    cases outcome with
    | error fault => exact .untouched rfl
    | ok existed => cases existed <;> exact .ok (c.command.changes_refl s w.tree)
  | @removed l bytes hl hfile =>
    refine .ok ?_
    rw [hc]
    exact .inr ⟨l, bytes, hl, hfile, rfl⟩

theorem confined_status (format : SummaryFormat) :
    Confined inv c s w (Job.status s format w).ends := by
  cases format <;> exact .ok (c.command.changes_refl s w.tree)

/-- A command with the settings that were found is confined. -/
theorem confined_perform
    (hconfigure : (Job.configure inv.environment c.config w).outcome = .ok configuration) :
    Confined inv c (c.settings configuration) w
      (c.perform inv (c.settings configuration) w).ends := by
  unfold CommandLine.perform
  cases hc : c.command with
  | check options => exact confined_check hc hconfigure rfl
  | init options => exact confined_snapshot (by rw [hc]; exact Option.some_ne_none _)
  | update options => exact confined_snapshot (by rw [hc]; exact Option.some_ne_none _)
  | clear => exact confined_clear hc
  | status format => exact confined_status format

end

/-! ## Runs -/

/-- How a run of the program may end for the files. -/
inductive RunConfined (inv : Invocation) (tree : FileTree) : Except UsageProblem Run → Prop
  /-- The arguments are no command line, and nothing is run. -/
  | usage {problem : UsageProblem} : RunConfined inv tree (.error problem)
  /-- There is no configuration, and so it is not known where the baseline is. -/
  | unconfigured {c : CommandLine} {f : Failure} {run : Run} :
      inv.commandLine = .ok c → (Job.configure inv.environment c.config { tree }).outcome = .error f →
      run.result.ends = (.error f, { tree }) → RunConfined inv tree (.ok run)
  | configured {c : CommandLine} {configuration : Configuration} {run : Run} :
      inv.commandLine = .ok c →
      (Job.configure inv.environment c.config { tree }).outcome = .ok configuration →
      Confined inv c (c.settings configuration) { tree } run.result.ends →
      RunConfined inv tree (.ok run)

/-- Whatever a run starts with, it changes only what its command may change, and a run that fails has
left the baseline as it was or as the same check leaves it without a receipt. -/
theorem run_confined (inv : Invocation) (tree : FileTree) : RunConfined inv tree (inv.run tree) := by
  unfold Invocation.run
  cases hc : inv.commandLine with
  | error problem => exact .usage
  | ok c =>
    have hends := c.ends_execute inv { tree }
    cases hconfigure : (Job.configure inv.environment c.config { tree }).outcome with
    | error f =>
      rw [hconfigure] at hends
      exact .unconfigured hc hconfigure hends
    | ok configuration =>
      rw [hconfigure] at hends
      refine .configured hc hconfigure ?_
      rw [hends]
      exact confined_perform hconfigure

end LintRatchet
