import CommandTree.FrontEnd.Configure
import CommandTree.Node.Run
import CommandTree.Node.Validate

/-!
# Serving a command line

`FrontEnd.dispatch` finds the command that the words of a user name and does with it what the mode says.
`FrontEnd.serve` does so for the words as they were written, and `FrontEnd.run` for all arguments of the
program.

A cause is reported once, and the exit code is 1 then.  Nothing is reported while the shell asks for
completions.  The skipped option lines of a script are reported after the command has run, except where
they were asked for as problems.
-/

namespace CommandTree

namespace FrontEnd

/-! ## Modes -/

/-- Whether a command is listed for an extension; all are if none is given, or one that is false. -/
def hasExtension (config : Config) (extension : Option Datum) (node : Node) : Except Failure Bool :=
  match (extension.getD .none).ifTrue with
  | .none => .ok true
  | .text wanted => .ok (Path.extension? (node.name config) = some wanted)
  | _ => .error (.misuse .notExtension)

/-- The nodes that are listed for an extension. -/
def listed (config : Config) (extension : Option Datum) : List Node → Except Failure (List Node)
  | [] => .ok []
  | node :: rest =>
    match hasExtension config extension node with
    | .error failure => .error failure
    | .ok kept => (listed config extension rest).map fun nodes => if kept then node :: nodes else nodes

/-- The line of a problem: the path of the script, and the further lines of the cause in one, or its
message if there are none. -/
def problemLine (problem : Node.Problem) : Text :=
  problem.1.toText ++ ": " ++
    (match problem.2.details with
    | [] => problem.2.message
    | details => Text.join "; " details)

/-- Prints some lines. -/
def printLines (config : Config) : List Text → Action Unit
  | [] => return
  | line :: rest => do
    Action.print config.console (Styled.bare line)
    printLines config rest

/-- Does with a node what a mode says. -/
def perform (config : Config) (host : Host) (mode : Mode) (extension : Option Datum) (node : Node) :
    Action Nat :=
  match mode with
  | .invoke => node.invoke config host
  | .usage => do
    Action.print config.console (← node.usage config host.files)
    return 0
  | .help => node.printHelp config host
  | .commands => do
    Node.printNames config
      (← Action.ofExcept (listed config extension (node.children config host.files)))
    return 0
  | .completions => node.complete config host
  | .validate => do
    let problems ← Action.ofExcept (node.validate config host.files)
    printLines config (problems.map problemLine)
    return if problems.isEmpty then 0 else 1

/-- Finds the command that words name and does with it what a mode says. -/
def dispatch (config : Config) (host : Host) (split : Split) : Action Nat := do
  let node ← Action.ofExcept (Node.resolve config host.files split.tokens)
  perform config host split.mode split.extension node

/-! ## Reporting -/

/-- Reports a cause, unless it is quiet. -/
def reportCause (console : Console) (prog : Text) (cause : Cause) : Action Unit :=
  if cause.isQuiet then return
  else Action.report ((Report.ofCause prog cause).print console)

/-- Reports skipped option lines. -/
def reportSkipped (console : Console) (prog : Text) (lines : List OptionLine.Skipped) :
    Action Unit :=
  Action.report (lines.flatMap fun line => (Report.ofSkipped prog line).print console)

/-- Whether skipped option lines are reported in a mode. -/
def reportsSkipped : Mode → Bool
  | .completions | .validate => false
  | _ => true

/-- Whether causes are reported in a mode. -/
def reportsCauses : Mode → Bool
  | .completions => false
  | _ => true

/-! ## Running the program -/

/-- Does what the split words of a user ask for, and reports what goes wrong. -/
def serveSplit (config : Config) (host : Host) (split : Split) : Action Nat := do
  let (result, skipped) ← Action.attempt (dispatch config host split)
  let reported : Action Unit :=
    if reportsSkipped split.mode then reportSkipped config.console config.name skipped else return
  match result with
  | .ok code => do
    reported
    return code
  | .error (.cause cause) => do
    if reportsCauses split.mode then reportCause config.console config.name cause
    reported
    return 1
  | .error failure => throw failure

/-- Does what the words of a user ask for. -/
def serve (config : Config) (host : Host) (words : List Datum) : Action Nat :=
  match Split.ofWords words with
  | .ok split => serveSplit config host split
  | .error (.cause cause) => do
    reportCause config.console config.name cause
    return 1
  | .error failure => throw failure

/-- The words that the greedy cardinal of a key captured. -/
def captured (values : Settings) (key : Text) : List Datum :=
  match List.lookup key values with
  | some (.list words) => words
  | _ => []

/-- Runs the program with the values of its arguments. -/
def runValues (host : Host) (values : Settings) : Action Nat :=
  if isOn values "help" then do
    Action.print .plain signature.help
    return 0
  else if isOn values "version" then do
    Action.print .plain (Styled.bare versionLine)
    return 0
  else
    match configure host values with
    | .ok config => serve config host (captured values "args")
    | .error (.cause cause) => do
      reportCause .plain signature.prog cause
      return 1
    | .error failure => throw failure

/-- Runs the program; its exit code. -/
def run (host : Host) (argv : List Datum) : Action Nat :=
  match signature.values argv with
  | .ok values => runValues host values
  | .error (.cause cause) => do
    reportCause .plain signature.prog cause
    return 1
  | .error failure => throw failure

end FrontEnd

end CommandTree
