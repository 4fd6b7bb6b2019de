import CommandTree.Proofs.Fault.Surfacing
import CommandTree.Proofs.Node.Invocation
import CommandTree.FrontEnd.Serve

/-!
# Serving without reporting

What is done with a command reports nothing: the list of what was reported is written to by the program alone,
after the command has run.  `Action.Silent` is this property.  It holds of all that an action is made of but
`Action.report`, and `Action.Silent.bind` carries it from there to `FrontEnd.dispatch`, one operation after the
other.

So a run of the program is described by how its work ends (`FrontEnd.Ends`), which says with what result, and
which skipped option lines are to be reported then; `FrontEnd.Ends.perform_run` says what the program makes of it.
-/

namespace CommandTree

/-! ## Silence -/

namespace Action

variable {α β : Type}

/-- Whether an action reports nothing. -/
def Silent (action : Action α) : Prop :=
  ∀ journal : Journal, (action.perform journal).2.err = journal.err

theorem silent_pure (value : α) : Silent (pure value) := fun _ => rfl

theorem silent_throw (failure : Failure) : Silent (throw failure : Action α) := fun _ => rfl

theorem silent_ofExcept (result : Except Failure α) : Silent (ofExcept result) := fun _ => rfl

theorem silent_print (console : Console) (styled : Styled) : Silent (print console styled) := fun _ => rfl

theorem silent_skip (lines : List OptionLine.Skipped) : Silent (skip lines) := fun _ => rfl

theorem silent_run (child : Child) : Silent (run child) := fun _ => rfl

/-- An action that is silent, and silent whatever it goes on with. -/
theorem Silent.bind {action : Action α} {next : α → Action β} (h : action.Silent)
    (hnext : ∀ value, (next value).Silent) : (action >>= next).Silent := by
  intro journal
  have hfirst := h journal
  rw [perform_bind]
  split
  · rename_i value after hperform
    rw [hperform] at hfirst
    rw [hnext value after, hfirst]
  · rename_i failure after hperform
    rwa [hperform] at hfirst

end Action

open CommandTree.Action

namespace ScriptFile

variable (config : Config) (host : Host) (file : ScriptFile)

theorem silent_annotations (files : FileTree) : (file.annotations files).Silent := by
  unfold annotations
  split
  · exact silent_pure _
  · exact (silent_ofExcept _).bind fun script => (silent_skip _).bind fun _ => silent_pure script

theorem silent_invoke : (file.invoke config host).Silent :=
  (file.silent_annotations host.files).bind fun _ => (silent_ofExcept _).bind fun _ => silent_run _

theorem silent_complete : (file.complete config host).Silent := by
  refine (file.silent_annotations host.files).bind fun script => (silent_ofExcept _).bind fun child? => ?_
  cases child? with
  | none => exact silent_pure 0
  | some child => exact silent_run child

end ScriptFile

namespace Node

variable (config : Config) (host : Host)

theorem silent_usage (files : FileTree) (node : Node) : (node.usage config files).Silent := by
  cases node with
  | topLevel => exact silent_pure _
  | directory names path => exact silent_pure _
  | internal command args => exact silent_pure _
  | file script =>
    exact (script.silent_annotations files).bind fun _ => (silent_ofExcept _).bind fun _ => silent_pure _

theorem silent_help (files : FileTree) (node : Node) : (node.help config files).Silent := by
  cases node with
  | topLevel => exact (silent_ofExcept _).bind fun _ => silent_pure _
  | directory names path => exact (silent_ofExcept _).bind fun _ => silent_pure _
  | internal command args => exact (silent_ofExcept _).bind fun _ => silent_pure _
  | file script =>
    exact (script.silent_annotations files).bind fun _ => (silent_ofExcept _).bind fun _ => silent_pure _

theorem silent_printNames (nodes : List Node) : (printNames config nodes).Silent := by
  induction nodes with
  | nil => exact silent_pure ()
  | cons node rest ih => exact (silent_print _ _).bind fun _ => ih

theorem silent_printChildren (node : Node) : (node.printChildren config host).Silent :=
  (silent_printNames config _).bind fun _ => silent_pure 0

theorem silent_completeInternal (args : List Datum) : (completeInternal config host args).Silent := by
  fun_induction completeInternal config host args with
  | case1 => exact silent_pure 0
  | case2 args failure hresolve hother => exact silent_throw failure
  | case3 args command rest hresolve ih => exact ih
  | case4 => exact silent_pure 0
  | case5 args node hresolve hinternal hfile => exact silent_printChildren config host node

theorem silent_complete (node : Node) : (node.complete config host).Silent := by
  cases node with
  | topLevel => exact silent_printChildren config host _
  | directory names path => exact silent_printChildren config host _
  | internal command args => exact silent_completeInternal config host args
  | file script => exact script.silent_complete config host

theorem silent_printHelp (node : Node) : (node.printHelp config host).Silent :=
  (silent_help config host.files node).bind fun _ => (silent_print _ _).bind fun _ => silent_pure 0

theorem silent_runInternal (args : List Datum) (command : Internal) : (command.run config host args).Silent := by
  cases command with
  | help => exact (silent_ofExcept _).bind fun node => silent_printHelp config host node
  | commands => exact (silent_ofExcept _).bind fun node => silent_printChildren config host node
  | completions =>
    rw [Internal.run]
    split
    · exact silent_pure 1
    · exact silent_throw _
    · exact silent_complete config host _

theorem silent_invoke (node : Node) : (node.invoke config host).Silent := by
  cases node with
  | topLevel => exact silent_printHelp config host _
  | directory names path => exact silent_printHelp config host _
  | internal command args => exact silent_runInternal config host args command
  | file script => exact script.silent_invoke config host

end Node

namespace FrontEnd

variable (config : Config) (host : Host)

theorem silent_printLines (lines : List Text) : (printLines config lines).Silent := by
  induction lines with
  | nil => exact silent_pure ()
  | cons line rest ih => exact (silent_print _ _).bind fun _ => ih

theorem silent_perform (mode : Mode) (extension : Option Datum) (node : Node) :
    (FrontEnd.perform config host mode extension node).Silent := by
  cases mode with
  | invoke => exact Node.silent_invoke config host node
  | usage =>
    exact (Node.silent_usage config host.files node).bind fun _ => (silent_print _ _).bind fun _ => silent_pure 0
  | help => exact Node.silent_printHelp config host node
  | commands =>
    exact (silent_ofExcept _).bind fun _ => (Node.silent_printNames config _).bind fun _ => silent_pure 0
  | completions => exact Node.silent_complete config host node
  | validate =>
    exact (silent_ofExcept _).bind fun _ => (silent_printLines config _).bind fun _ => silent_pure _

/-- What is done with a command reports nothing. -/
theorem silent_dispatch (split : Split) : (dispatch config host split).Silent :=
  (silent_ofExcept _).bind fun node => silent_perform config host split.mode split.extension node

/-- Lines are printed one after the other. -/
theorem perform_printLines (lines : List Text) (journal : Journal) :
    (printLines config lines).perform journal =
      (.ok (), { journal with
        out := journal.out ++ lines.flatMap fun line => config.console.print (Styled.bare line) }) := by
  induction lines generalizing journal with
  | nil => simp [printLines]
  | cons line rest ih =>
    rw [printLines, perform_bind, perform_print]
    simp [ih]

/-! ## How the work of a run ends -/

/-- How the program reports before it is configured. -/
def firstNotice : Notice :=
  ⟨.plain, signature.prog, none⟩

/-- How the program reports when it is configured and serves words in a mode. -/
def noticeOf (config : Config) (mode : Mode) : Notice :=
  ⟨config.console, config.name, some (mode = .completions)⟩

/-- Whether arguments of the program make it serve words for a configuration. -/
inductive Configures (host : Host) (argv : List Datum) (config : Config) : List Datum → Prop where
  | intro {values : Settings} (read : signature.values argv = .ok values) (noHelp : isOn values "help" = false)
      (noVersion : isOn values "version" = false) (made : configure host values = .ok config) :
      Configures host argv config (captured values "args")

/-- How the work of a run ends, before anything is reported: the notice that applies then, the result, the
skipped option lines that are to be reported, and the journal. -/
inductive Ends (host : Host) (argv : List Datum) (journal : Journal) :
    Notice → Except Failure Nat → List OptionLine.Skipped → Journal → Prop where
  | misread {failure : Failure} (refused : signature.values argv = .error failure) :
      Ends host argv journal firstNotice (.error failure) [] journal
  | helped {values : Settings} (read : signature.values argv = .ok values) (asked : isOn values "help" = true) :
      Ends host argv journal firstNotice (.ok 0) []
        { journal with out := journal.out ++ Console.plain.print signature.help }
  | versioned {values : Settings} (read : signature.values argv = .ok values) (noHelp : isOn values "help" = false)
      (asked : isOn values "version" = true) :
      Ends host argv journal firstNotice (.ok 0) []
        { journal with out := journal.out ++ Console.plain.print (Styled.bare versionLine) }
  | misconfigured {values : Settings} {failure : Failure} (read : signature.values argv = .ok values)
      (noHelp : isOn values "help" = false) (noVersion : isOn values "version" = false)
      (refused : configure host values = .error failure) :
      Ends host argv journal firstNotice (.error failure) [] journal
  | unsplit {config : Config} {words : List Datum} {failure : Failure} (configured : Configures host argv config words)
      (refused : Split.ofWords words = .error failure) :
      Ends host argv journal (noticeOf config .invoke) (.error failure) [] journal
  | served {config : Config} {words : List Datum} {split : Split} {result : Except Failure Nat} {after : Journal}
      (configured : Configures host argv config words) (splits : Split.ofWords words = .ok split)
      (done : (dispatch config host split).perform { journal with skipped := [] } = (result, after)) :
      Ends host argv journal (noticeOf config split.mode) result
        (if reportsSkipped split.mode then after.skipped else []) { after with skipped := journal.skipped }

/-- What the program makes of a result: a cause is its exit code 1. -/
def settle : Except Failure Nat → Except Failure Nat
  | .error (.cause _) => .ok 1
  | result => result

/-- What the program reports of a result, and of the option lines that were skipped. -/
def reportOf (notice : Notice) (skipped : List OptionLine.Skipped) : Except Failure Nat → Text
  | .ok _ => skipped.flatMap notice.shownSkipped
  | .error (.cause cause) => notice.shown cause ++ skipped.flatMap notice.shownSkipped
  | .error _ => []

variable {config host} {argv words : List Datum} {split : Split} {journal after : Journal} {notice : Notice}
  {result : Except Failure Nat} {skipped : List OptionLine.Skipped}

theorem exists_ends (host : Host) (argv : List Datum) (journal : Journal) :
    ∃ notice result skipped after, Ends host argv journal notice result skipped after := by
  cases hread : signature.values argv with
  | error failure => exact ⟨_, _, _, _, .misread hread⟩
  | ok values =>
    cases hhelp : isOn values "help" with
    | true => exact ⟨_, _, _, _, .helped hread hhelp⟩
    | false =>
      cases hversion : isOn values "version" with
      | true => exact ⟨_, _, _, _, .versioned hread hhelp hversion⟩
      | false =>
        cases hmade : configure host values with
        | error failure => exact ⟨_, _, _, _, .misconfigured hread hhelp hversion hmade⟩
        | ok config =>
          have hconfigured : Configures host argv config (captured values "args") := ⟨hread, hhelp, hversion, hmade⟩
          cases hsplit : Split.ofWords (captured values "args") with
          | error failure => exact ⟨_, _, _, _, .unsplit hconfigured hsplit⟩
          | ok split => exact ⟨_, _, _, _, .served hconfigured hsplit rfl⟩

theorem Ends.err_eq (h : Ends host argv journal notice result skipped after) : after.err = journal.err := by
  cases h with
  | @served config words split result after configured splits done =>
    have hsilent := silent_dispatch config host split { journal with skipped := [] }
    rw [done] at hsilent
    exact hsilent
  | _ => rfl

/-! ## What the program makes of it -/

/-- A cause that is met before there are words to serve. -/
theorem perform_reportCause (console : Console) (prog : Text) (cause : Cause) (journal : Journal) :
    (reportCause console prog cause).perform journal =
      (.ok (), { journal with err := journal.err ++ (Notice.mk console prog none).shown cause }) := by
  by_cases hquiet : cause.isQuiet = true
  · simp [reportCause, Notice.shown, hquiet]
  · simp [reportCause, Notice.shown, hquiet]

/-- A cause is shown in all modes but one. -/
theorem shown_noticeOf (config : Config) (mode : Mode) (cause : Cause) :
    (noticeOf config mode).shown cause =
      if reportsCauses mode then (Notice.mk config.console config.name none).shown cause else [] := by
  by_cases hmode : mode = .completions
  · subst hmode
    simp [reportsCauses, Notice.shown, noticeOf]
  · have hreports : reportsCauses mode = true := by cases mode <;> first | rfl | exact absurd rfl hmode
    rw [if_pos hreports]
    simp [Notice.shown, noticeOf, hmode]

theorem perform_reportSkipped (mode : Mode) (lines : List OptionLine.Skipped) (journal : Journal) :
    (if reportsSkipped mode then reportSkipped config.console config.name lines else pure () : Action Unit).perform
        journal =
      (.ok (), { journal with
        err := journal.err ++
          (if reportsSkipped mode then lines else []).flatMap (noticeOf config mode).shownSkipped }) := by
  by_cases hreports : reportsSkipped mode = true
  · rw [if_pos hreports, if_pos hreports]
    rfl
  · simp [hreports]

theorem perform_serveSplit
    (h : (dispatch config host split).perform { journal with skipped := [] } = (result, after)) :
    (serveSplit config host split).perform journal =
      (settle result, { after with
        skipped := journal.skipped
        err := after.err ++
          reportOf (noticeOf config split.mode) (if reportsSkipped split.mode then after.skipped else [])
            result }) := by
  have hattempt := Action.perform_attempt (dispatch config host split) journal
  rw [h] at hattempt
  rw [serveSplit, Action.perform_bind, hattempt]
  cases result with
  | ok code =>
    simp only [Action.perform_bind, perform_reportSkipped]
    rfl
  | error failure =>
    cases failure with
    | cause cause =>
      rw [reportOf, shown_noticeOf]
      by_cases hreports : reportsCauses split.mode = true
      · simp only [if_pos hreports, Action.perform_bind, perform_reportCause, perform_reportSkipped, List.append_assoc]
        rfl
      · simp only [if_neg hreports, Action.perform_bind, perform_reportSkipped, List.nil_append]
        rfl
    | refusal reason => simp [reportOf, settle]
    | declaration defect => simp [reportOf, settle]
    | signature defect => simp [reportOf, settle]
    | config defect => simp [reportOf, settle]
    | misuse misuse => simp [reportOf, settle]

theorem Configures.run_eq (h : Configures host argv config words) : run host argv = serve config host words := by
  obtain ⟨hread, hhelp, hversion, hmade⟩ := h
  simp only [run, hread, runValues, hhelp, hversion, hmade, Bool.false_eq_true, if_false]

theorem perform_fail (console : Console) (prog : Text) (cause : Cause) (journal : Journal) :
    (do
        reportCause console prog cause
        return 1 : Action Nat).perform journal =
      (.ok 1, { journal with err := journal.err ++ (Notice.mk console prog none).shown cause }) := by
  rw [Action.perform_bind, perform_reportCause]
  rfl

theorem reportOf_cause (notice : Notice) (cause : Cause) :
    reportOf notice [] (.error (.cause cause)) = notice.shown cause := by
  simp [reportOf]

/-- A run of the program, from how its work ends. -/
theorem Ends.perform_run (h : Ends host argv journal notice result skipped after) :
    (run host argv).perform journal =
      (settle result, { after with err := journal.err ++ reportOf notice skipped result }) := by
  rw [← h.err_eq]
  cases h with
  | @misread failure refused =>
    rw [run, refused]
    cases failure with
    | cause cause =>
      rw [reportOf_cause]
      exact perform_fail .plain signature.prog cause journal
    | _ => simp [settle, reportOf]
  | helped read asked =>
    simp only [run, read, runValues, asked, if_true, Action.perform_bind, Action.perform_print]
    simp [settle, reportOf]
  | versioned read noHelp asked =>
    simp only [run, read, runValues, noHelp, asked, Bool.false_eq_true, if_false, if_true, Action.perform_bind,
      Action.perform_print]
    simp [settle, reportOf]
  | @misconfigured values failure read noHelp noVersion refused =>
    simp only [run, read, runValues, noHelp, noVersion, refused, Bool.false_eq_true, if_false]
    cases failure with
    | cause cause =>
      rw [reportOf_cause]
      exact perform_fail .plain signature.prog cause journal
    | _ => simp [settle, reportOf]
  | @unsplit config words failure configured refused =>
    rw [configured.run_eq, serve, refused]
    cases failure with
    | cause cause =>
      have hshown : (noticeOf config .invoke).shown cause = (Notice.mk config.console config.name none).shown cause :=
        (shown_noticeOf config .invoke cause).trans (if_pos rfl)
      rw [reportOf_cause, hshown]
      exact perform_fail config.console config.name cause journal
    | _ => simp [settle, reportOf]
  | served configured splits done =>
    rw [configured.run_eq, serve, splits]
    exact perform_serveSplit done

end FrontEnd

end CommandTree
