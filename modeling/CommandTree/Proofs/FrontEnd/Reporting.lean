import CommandTree.Proofs.FrontEnd.Serving

/-!
# What a run reports

No cause leaves a run of the program.  Whatever the work of the run ends in (`FrontEnd.Ends`), the program
settles it: a cause becomes the exit code 1, and its fault surfaces once, in such a way that it is shown by one
report or, if it is quiet or the shell asks for completions, by nothing.  The causes that an operation answers
itself are none of these: a list leaves out what cannot be found, and completing takes words which lead nowhere
for no words to complete.

Two modes have more to them.  While the shell asks for completions nothing is reported at all.  Checking
prints a line for each problem, and the exit code says whether there was one (`FrontEnd.perform_validate`).
-/

namespace CommandTree

/-! ## What is shown is not nothing -/

theorem Console.print_ne_nil (console : Console) (styled : Styled) : console.print styled ≠ [] := by
  have hlines : lines styled ≠ [] := by
    cases styled with
    | nil => exact List.cons_ne_nil _ _
    | cons entry rest =>
      obtain ⟨g, style⟩ := entry
      rw [lines]
      split
      · exact List.cons_ne_nil _ _
      · split <;> exact List.cons_ne_nil _ _
  obtain ⟨first, more, hcons⟩ := List.exists_cons_of_ne_nil hlines
  simp [print, hcons]

theorem Report.print_ne_nil (console : Console) (report : Report) : report.print console ≠ [] := by
  intro h
  have hhead := List.flatMap_eq_nil_iff.mp h report.headLine List.mem_cons_self
  exact console.print_ne_nil _ hhead

/-- A cause is shown unless it is quiet or silence is asked for. -/
theorem Notice.shown_eq_nil_iff {notice : Notice} {cause : Cause} :
    notice.shown cause = [] ↔ cause.isQuiet = true ∨ notice.silent = some true := by
  have hsilent : notice.silent.getD false = true ↔ notice.silent = some true := by
    cases notice.silent <;> simp
  rw [shown, ← hsilent, ← Bool.or_eq_true]
  constructor
  · intro h
    by_contra hloud
    rw [if_neg hloud] at h
    exact Report.print_ne_nil _ _ h
  · exact fun hquiet => if_pos hquiet

namespace FrontEnd

variable {config : Config} {host : Host} {argv words : List Datum} {split : Split} {journal after : Journal}
  {notice : Notice} {result : Except Failure Nat} {skipped : List OptionLine.Skipped} {problems : List Node.Problem}

/-! ## Checking -/

/-- What is printed for some problems. -/
def problemLines (config : Config) (problems : List Node.Problem) : Text :=
  problems.flatMap fun problem => config.console.print (Styled.bare (problemLine problem))

/-- There is a line for each problem. -/
theorem problemLines_eq_nil_iff : problemLines config problems = [] ↔ problems = [] := by
  constructor
  · intro h
    cases problems with
    | nil => rfl
    | cons problem rest =>
      exact absurd (List.flatMap_eq_nil_iff.mp h problem List.mem_cons_self) (Console.print_ne_nil _ _)
  · rintro rfl
    rfl

/-- What checking a command does. -/
theorem perform_validate (config : Config) (host : Host) (extension : Option Datum) (node : Node) (journal : Journal) :
    (FrontEnd.perform config host .validate extension node).perform journal =
      match node.validate config host.files with
      | .error failure => (.error failure, journal)
      | .ok problems =>
        (.ok (if problems.isEmpty then 0 else 1),
          { journal with out := journal.out ++ problemLines config problems }) := by
  rw [FrontEnd.perform, Action.perform_bind, Action.perform_ofExcept]
  cases node.validate config host.files with
  | error failure => rfl
  | ok problems =>
    simp only [Action.perform_bind, perform_printLines, List.flatMap_map]
    rfl

/-- Whether checking ended with an exit code: with the lines of the problems that were found, which it counts. -/
def Checks (config : Config) (host : Host) (split : Split) (problems : List Node.Problem)
    (result : Except Failure Nat) : Prop :=
  (∃ node, Node.resolve config host.files split.tokens = .ok node ∧
    node.validate config host.files = .ok problems) ∧ result = .ok (if problems.isEmpty then 0 else 1)

/-- Checking prints the lines of all problems, or fails before it has printed anything. -/
theorem perform_dispatch_validate (config : Config) (host : Host) (hmode : split.mode = .validate) (journal : Journal) :
    ∃ problems, ((dispatch config host split).perform journal).2.out = journal.out ++ problemLines config problems ∧
      (Checks config host split problems ((dispatch config host split).perform journal).1 ∨
        problems = [] ∧ ∃ failure, ((dispatch config host split).perform journal).1 = .error failure) := by
  rw [dispatch, Action.perform_bind, Action.perform_ofExcept, hmode]
  cases hresolve : Node.resolve config host.files split.tokens with
  | error failure => exact ⟨[], (List.append_nil _).symm, .inr ⟨rfl, failure, rfl⟩⟩
  | ok node =>
    simp only [perform_validate]
    cases hvalidate : node.validate config host.files with
    | error failure => exact ⟨[], (List.append_nil _).symm, .inr ⟨rfl, failure, rfl⟩⟩
    | ok problems => exact ⟨problems, rfl, .inl ⟨⟨node, hresolve, hvalidate⟩, rfl⟩⟩

/-! ## The contract -/

theorem settle_ne_cause (result : Except Failure Nat) (cause : Cause) : settle result ≠ .error (.cause cause) := by
  cases result with
  | ok code => exact nofun
  | error failure => cases failure <;> exact nofun

/-- Nothing is reported while the shell asks for completions. -/
theorem reportOf_completions (config : Config) (result : Except Failure Nat) :
    reportOf (noticeOf config .completions) [] result = [] := by
  cases result with
  | ok code => rfl
  | error failure =>
    cases failure with
    | cause cause =>
      rw [reportOf_cause, Notice.shown_eq_nil_iff]
      exact .inr rfl
    | _ => rfl

/-- Whether a cause leaves the work on split words. -/
def Faults (config : Config) (host : Host) (split : Split) (journal : Journal) : Prop :=
  ∃ cause, ((dispatch config host split).perform { journal with skipped := [] }).1 = .error (.cause cause)

theorem err_of_completions (hconfigured : Configures host argv config words) (hsplit : Split.ofWords words = .ok split)
    (hmode : split.mode = .completions) (journal : Journal) :
    ((run host argv).perform journal).2.err = journal.err := by
  cases hdone : (dispatch config host split).perform { journal with skipped := [] } with
  | mk result after =>
    have hends := Ends.served hconfigured hsplit hdone
    rw [hmode] at hends
    rw [hends.perform_run]
    exact (congrArg _ (reportOf_completions config result)).trans (List.append_nil _)

/-- The exit code of checking says whether a problem was printed or a cause was met. -/
theorem code_of_validate (hconfigured : Configures host argv config words) (hsplit : Split.ofWords words = .ok split)
    (hmode : split.mode = .validate) (journal : Journal) :
    ∃ problems,
      ((run host argv).perform journal).2.out = journal.out ++ problemLines config problems ∧
      (problems ≠ [] → ∃ node, Node.resolve config host.files split.tokens = .ok node ∧
        node.validate config host.files = .ok problems) ∧
      ∀ code, ((run host argv).perform journal).1 = .ok code →
        (code = 0 ∨ code = 1) ∧ (code = 1 ↔ problemLines config problems ≠ [] ∨ Faults config host split journal) := by
  obtain ⟨problems, hout, hchecks⟩ := perform_dispatch_validate config host hmode { journal with skipped := [] }
  unfold Faults
  cases hdone : (dispatch config host split).perform { journal with skipped := [] } with
  | mk result after =>
    rw [hdone] at hout hchecks
    rw [(Ends.served hconfigured hsplit hdone).perform_run]
    refine ⟨problems, hout, fun hproblems => ?_, fun code hcode => ?_⟩
    · rcases hchecks with ⟨hfound, -⟩ | ⟨hnone, -⟩
      · exact hfound
      · exact absurd hnone hproblems
    · rcases hchecks with ⟨-, rfl⟩ | ⟨rfl, failure, rfl⟩
      · cases hcode
        rw [Ne, problemLines_eq_nil_iff]
        cases problems <;> simp
      · cases failure with
        | cause cause =>
          cases hcode
          exact ⟨.inr rfl, iff_of_true rfl (.inr ⟨cause, rfl⟩)⟩
        | _ => cases hcode

/-- A run of the program ends in one way, and whatever that is, no cause leaves the run.  A cause makes its exit
code 1, and its fault surfaces once and ends nothing; beside it only the skipped option lines are reported.  Nothing
is reported at all while the shell asks for completions, and the exit code of checking is 1 exactly if the line of
a problem was printed or a cause was met. -/
theorem run_contract (host : Host) (argv : List Datum) (journal : Journal) :
    let run := (FrontEnd.run host argv).perform journal
    (∃ notice result skipped after, Ends host argv journal notice result skipped after) ∧
    (∀ notice result skipped after, Ends host argv journal notice result skipped after →
      (∀ code, result = .ok code →
        run.1 = .ok code ∧ run.2.err = journal.err ++ skipped.flatMap notice.shownSkipped) ∧
      (∀ cause, result = .error (.cause cause) →
        run.1 = .ok 1 ∧
        run.2.err = journal.err ++ notice.shown cause ++ skipped.flatMap notice.shownSkipped ∧
        cause.fault.trigger notice.console notice.errorOrders = .ok ⟨notice.shown cause, .done⟩ ∧
        (notice.shown cause = [] ↔ cause.isQuiet = true ∨ notice.silent = some true)) ∧
      ∀ line ∈ skipped, (Cause.skipped line).trigger notice.console notice.warningOrders =
        .ok ⟨notice.shownSkipped line, .done⟩) ∧
    (∀ cause, run.1 ≠ .error (.cause cause)) ∧
    ∀ config words split, Configures host argv config words → Split.ofWords words = .ok split →
      (split.mode = .completions → run.2.err = journal.err) ∧
      (split.mode = .validate → ∃ problems, run.2.out = journal.out ++ problemLines config problems ∧
        (problems ≠ [] → ∃ node, Node.resolve config host.files split.tokens = .ok node ∧
          node.validate config host.files = .ok problems) ∧
        ∀ code, run.1 = .ok code →
          (code = 0 ∨ code = 1) ∧ (code = 1 ↔ problemLines config problems ≠ [] ∨ Faults config host split journal)) := by
  intro run
  refine ⟨exists_ends host argv journal, fun notice result skipped after hends => ?_, fun cause => ?_, ?_⟩
  · have hrun : run = _ := hends.perform_run
    rw [hrun]
    refine ⟨?_, ?_, fun line _ => notice.trigger_skipped line⟩
    · rintro code rfl
      exact ⟨rfl, rfl⟩
    · rintro cause rfl
      exact ⟨rfl, (List.append_assoc ..).symm, notice.trigger_cause cause, Notice.shown_eq_nil_iff⟩
  · obtain ⟨notice, result, skipped, after, hends⟩ := exists_ends host argv journal
    have hrun : run = _ := hends.perform_run
    rw [hrun]
    exact settle_ne_cause result cause
  · intro config words split hconfigured hsplit
    exact ⟨fun hmode => err_of_completions hconfigured hsplit hmode journal,
      fun hmode => code_of_validate hconfigured hsplit hmode journal⟩

end FrontEnd

end CommandTree
