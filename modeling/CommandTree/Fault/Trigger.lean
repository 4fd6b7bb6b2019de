import CommandTree.Fault.Report

/-!
# Surfacing faults

What becomes of a fault when it surfaces is decided by its context.  Without `shell`, an error is raised
and a warning is passed on.  In `shell` mode the fault is reported, unless it is quiet or `silent`; then
an error ends the program with exit code 1, unless it is `deferred`.
-/

namespace CommandTree

namespace Fault

/-- How the surfacing of a fault ends. -/
inductive Ending where
  | raised (fault : Fault)
  | warned (fault : Fault)
  | exit (code : Nat)
  | done

/-- What becomes of a fault: what a console shows, and how it ends. -/
structure Surfaced where
  shown : Text
  ending : Ending

/-- What a console shows of a fault.  The context may ask for another console, but no datum is one. -/
def shownOn (console : Console) (fault : Fault) : Except Report.Objection Text :=
  if (List.lookup (Text.lit "console") fault.context).isSome then .error .notConsole
  else
    match Report.ofFault? fault with
    | .error objection => .error objection
    | .ok none => .ok []
    | .ok (some report) =>
      match Report.objection? fault report with
      | some objection => .error objection
      | none => .ok (report.print console)

/-- What becomes of a fault that surfaces. -/
def surface (console : Console) (fault : Fault) : Except Report.Objection Surfaced :=
  if fault.affirms "shell" false then
    let ending :=
      if fault.kind.isWarning || fault.affirms "deferred" false then Ending.done else .exit 1
    if fault.kind.isQuiet || fault.affirms "silent" false then .ok ⟨[], ending⟩
    else (fault.shownOn console).map fun shown => ⟨shown, ending⟩
  else if fault.kind.isWarning then .ok ⟨[], .warned fault⟩
  else .ok ⟨[], .raised fault⟩

/-- The name of the fault itself. -/
def selfName : Text := "self"

/-- The fault with more known about it; nothing can be told later under the name of the fault itself. -/
def amend (fault : Fault) (more : Context) : Except Report.Objection Fault :=
  if (List.lookup selfName more).isSome then .error .selfNamed else .ok (fault.extend more)

/-- What becomes of a fault about which more is known when it surfaces. -/
def trigger (console : Console) (fault : Fault) (more : Context) :
    Except Report.Objection Surfaced :=
  match fault.amend more with
  | .error objection => .error objection
  | .ok amended => amended.surface console

/-- The wording for a value that cannot surface because it is no fault. -/
def notFaultMessage : Text :=
  "trigger() argument must have a __trigger__ and __replace__ methods"

end Fault

end CommandTree
