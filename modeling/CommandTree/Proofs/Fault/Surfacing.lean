import CommandTree.Fault.Trigger
import Mathlib.Data.List.Basic

/-!
# How the program lets faults surface

Whatever is known about a fault when it is raised may be overridden when it surfaces, and what becomes of it is
read off the result.  The program orders every fault to be reported under a name and to end nothing; the
faults themselves say nothing on any of the points that are ordered (`Cause.lookup_context_eq_none`), so
that the orders stand.

`Notice.trigger_cause` states what becomes of a cause then, and `Notice.trigger_skipped` what becomes of a
skipped option line: each is shown by one report or by nothing, and the program goes on.
-/

namespace CommandTree

/-- How the program has faults surface: on a console, under a name, and whether it asks for silence. -/
structure Notice where
  console : Console
  prog : Text
  silent : Option Bool

namespace Notice

/-- What is ordered for an error. -/
def errorOrders (notice : Notice) : Fault.Context :=
  (Text.lit "shell", .datum (.bool true)) :: (Text.lit "deferred", .datum (.bool true)) ::
    (notice.silent.toList.map fun silent => (Text.lit "silent", .datum (.bool silent))) ++
    [(Text.lit "prog", .datum (.text notice.prog))]

/-- What is ordered for a warning. -/
def warningOrders (notice : Notice) : Fault.Context :=
  [(Text.lit "shell", .datum (.bool true)), (Text.lit "prog", .datum (.text notice.prog))]

/-- What is shown of a cause: one report, unless the cause is quiet or silence is asked for. -/
def shown (notice : Notice) (cause : Cause) : Text :=
  if cause.isQuiet || notice.silent.getD false then []
  else (Report.ofCause notice.prog cause).print notice.console

/-- What is shown of a skipped option line: one report. -/
def shownSkipped (notice : Notice) (line : OptionLine.Skipped) : Text :=
  (Report.ofSkipped notice.prog line).print notice.console

end Notice

/-! ## What is known about a fault when it is raised -/

/-- The names under which a context says how its fault surfaces and is reported. -/
def Fault.orderNames : List Text :=
  ["self", "console", "shell", "deferred", "silent", "prog", "styles", "colorful"]

namespace Cause

variable {key : Text}

/-- The names under which something is known about a cause. -/
def factNames : List Text :=
  ["name", "suggestions", "path", "line", "errors", "details", "position", "cause", "argument", "command",
    "signal", "input", "index", "candidates", "others"]

theorem keys_argumentContext (fault : ArgumentFault) : Assoc.keys fault.context ⊆ factNames := by
  cases fault <;> simp [Assoc.keys, ArgumentFault.context, ArgumentFault.place, factNames]

theorem keys_mishapContext (mishap : Child.Mishap) : Assoc.keys mishap.context ⊆ factNames := by
  cases mishap <;> simp [Assoc.keys, Child.Mishap.context, factNames]

theorem keys_pathDetail (path : Option Path) : Assoc.keys (pathDetail path) ⊆ factNames := by
  cases path <;> simp [Assoc.keys, pathDetail, factNames]

theorem keys_facts (cause : Cause) : Assoc.keys cause.facts ⊆ factNames := by
  cases cause with
  | unknownSubCommand segment suggestions => by_cases h : suggestions = [] <;> simp [Assoc.keys, facts, h, factNames]
  | nonExecutable segment path => simp [Assoc.keys, facts, factNames]
  | noLibexec path => exact keys_pathDetail (some path)
  | invalidUsage line problems path => simpa [Assoc.keys, facts, factNames] using keys_pathDetail path
  | invalidOption line path => simpa [Assoc.keys, facts, factNames] using keys_pathDetail path
  | undecodableLine path line => simpa [Assoc.keys, facts, factNames] using keys_pathDetail (some path)
  | unencodableValue key => simp [Assoc.keys, facts, factNames]
  | unreadable path reason => simpa [Assoc.keys, facts, factNames] using keys_pathDetail (some path)
  | mishap command mishap => simpa [Assoc.keys, facts, factNames] using keys_mishapContext mishap
  | argument prog fault => exact keys_argumentContext fault
  | invocation refusal => cases refusal <;> simp [Assoc.keys, facts, factNames]

theorem keys_context (cause : Cause) : Assoc.keys cause.fault.context ⊆ Text.lit "hint" :: factNames := by
  have hkeys : Assoc.keys cause.fault.context =
      Assoc.keys cause.facts ++ cause.hint?.toList.map fun _ => Text.lit "hint" := by
    simp [Assoc.keys, fault, Fault.context, Function.comp_def]
  rw [hkeys]
  intro name hname
  rcases List.mem_append.mp hname with hfact | hhint
  · exact List.mem_cons_of_mem _ (keys_facts cause hfact)
  · obtain ⟨hint, -, rfl⟩ := List.mem_map.mp hhint
    exact List.mem_cons_self

/-- A cause says nothing about how it surfaces. -/
theorem lookup_context_eq_none (cause : Cause) (h : key ∈ Fault.orderNames) :
    List.lookup key cause.fault.context = none := by
  have hdisjoint : ∀ name ∈ Fault.orderNames, name ∉ Text.lit "hint" :: factNames := by decide
  rw [List.lookup_eq_none_iff]
  intro entry hentry
  have hknown : entry.1 ∈ Text.lit "hint" :: factNames := keys_context cause (List.mem_map_of_mem hentry)
  exact bne_iff_ne.mpr fun heq => hdisjoint key h (heq ▸ hknown)

/-- The details and the hint in the context of a cause are those that it is reported with. -/
theorem datum?_fault (cause : Cause) :
    Report.detailsOf cause.fault = .ok (cause.details.map .text) ∧
      cause.fault.datum? "hint" = cause.hint?.map .text := by
  cases cause with
  | unknownSubCommand segment suggestions => cases suggestions <;> exact ⟨rfl, rfl⟩
  | nonExecutable segment path => exact ⟨rfl, rfl⟩
  | noLibexec path => exact ⟨rfl, rfl⟩
  | invalidUsage line problems path => cases path <;> exact ⟨rfl, rfl⟩
  | invalidOption line path => cases path <;> exact ⟨rfl, rfl⟩
  | undecodableLine path line => exact ⟨rfl, rfl⟩
  | unencodableValue key => exact ⟨rfl, rfl⟩
  | unreadable path reason => exact ⟨rfl, rfl⟩
  | mishap command mishap => cases mishap <;> exact ⟨rfl, rfl⟩
  | argument prog fault => cases fault <;> exact ⟨rfl, rfl⟩
  | invocation refusal => cases refusal <;> exact ⟨rfl, rfl⟩

end Cause

/-! ## Overriding it when the fault surfaces -/

theorem Fault.lookup_extend (fault : Fault) (more : Context) (key : Text) :
    List.lookup key (fault.extend more).context = (List.lookup key more.reverse).or (List.lookup key fault.context) :=
  Assoc.lookup_insertAll key fault.context more

theorem Cause.lookup_extend_of_mem (cause : Cause) (more : Fault.Context) {key : Text} (h : key ∈ Fault.orderNames) :
    List.lookup key (cause.fault.extend more).context = List.lookup key more.reverse := by
  rw [Fault.lookup_extend, cause.lookup_context_eq_none h, Option.or_none]

namespace Notice

variable (notice : Notice)

/-- What is known about a cause when it surfaces: what is ordered, and what it tells of itself. -/
structure Amended (cause : Cause) (amended : Fault) : Prop where
  kind : amended.kind = cause.kind
  message : amended.message = cause.message
  console : List.lookup (Text.lit "console") amended.context = none
  shell : amended.affirms "shell" false = true
  deferred : amended.affirms "deferred" false = true
  silent : amended.affirms "silent" false = notice.silent.getD false
  colorful : amended.affirms "colorful" true = true
  prog : amended.datum? "prog" = some (.text notice.prog)
  styles : amended.datum? "styles" = none
  details : Report.detailsOf amended = .ok (cause.details.map .text)
  hint : amended.datum? "hint" = cause.hint?.map .text

theorem amended_extend (cause : Cause) : notice.Amended cause (cause.fault.extend notice.errorOrders) := by
  obtain ⟨console, prog, silent⟩ := notice
  have hdetails : Report.detailsOf (cause.fault.extend (errorOrders ⟨console, prog, silent⟩)) =
      Report.detailsOf cause.fault := by
    rw [Report.detailsOf, Fault.datum?, Fault.lookup_extend]
    cases silent <;> rfl
  have hhint : (cause.fault.extend (errorOrders ⟨console, prog, silent⟩)).datum? "hint" =
      cause.fault.datum? "hint" := by
    rw [Fault.datum?, Fault.lookup_extend]
    cases silent <;> rfl
  refine ⟨rfl, rfl, ?console, ?shell, ?deferred, ?silent, ?colorful, ?prog, ?styles,
    hdetails.trans cause.datum?_fault.1, hhint.trans cause.datum?_fault.2⟩
  case console =>
    rw [cause.lookup_extend_of_mem _ (by decide)]
    cases silent <;> rfl
  case shell | deferred | silent | colorful =>
    rw [Fault.affirms, cause.lookup_extend_of_mem _ (by decide)]
    cases silent <;> rfl
  case prog | styles =>
    rw [Fault.datum?, cause.lookup_extend_of_mem _ (by decide)]
    cases silent <;> rfl

variable {notice} {cause : Cause} {amended : Fault}

theorem Amended.ofFault?_eq (h : notice.Amended cause amended) (hloud : cause.isQuiet = false) :
    Report.ofFault? amended = .ok (some (Report.ofCause notice.prog cause)) := by
  have hquiet : cause.kind.isQuiet = false := hloud
  simp [Report.ofFault?, Report.styleOf, h.kind, h.message, h.colorful, h.prog, h.styles, h.details, h.hint, hquiet,
    cause.isWarning_kind, Report.ofCause]

theorem Amended.shownOn_eq (h : notice.Amended cause amended) (hloud : cause.isQuiet = false) :
    amended.shownOn notice.console = .ok ((Report.ofCause notice.prog cause).print notice.console) := by
  simp [Fault.shownOn, h.console, h.ofFault?_eq hloud, Report.objection?, h.styles]

/-- A cause that surfaces is shown by its report or not at all, and ends nothing. -/
theorem trigger_cause (notice : Notice) (cause : Cause) :
    cause.fault.trigger notice.console notice.errorOrders = .ok ⟨notice.shown cause, .done⟩ := by
  have h := notice.amended_extend cause
  have hself : List.lookup Fault.selfName notice.errorOrders = none := by
    rw [errorOrders]
    cases notice.silent <;> rfl
  have hkind : cause.kind.isQuiet = cause.isQuiet := rfl
  rw [Fault.trigger, Fault.amend, hself]
  simp only [Option.isSome_none, Bool.false_eq_true, if_false, Fault.surface, h.shell, h.deferred, h.silent, h.kind,
    if_true, Bool.or_true, shown, hkind]
  by_cases hsilent : (cause.isQuiet || notice.silent.getD false) = true
  · rw [if_pos hsilent, if_pos hsilent]
  · rw [if_neg hsilent, if_neg hsilent]
    have hloud : cause.isQuiet = false := by
      rw [Bool.or_eq_true, not_or, Bool.not_eq_true] at hsilent
      exact hsilent.1
    rw [h.shownOn_eq hloud]
    rfl

/-- A skipped option line that surfaces is shown by its report, and ends nothing. -/
theorem trigger_skipped (notice : Notice) (line : OptionLine.Skipped) :
    (Cause.skipped line).trigger notice.console notice.warningOrders = .ok ⟨notice.shownSkipped line, .done⟩ := by
  rfl

end Notice

end CommandTree
