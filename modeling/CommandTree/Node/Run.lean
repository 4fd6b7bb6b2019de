import CommandTree.Annotation
import CommandTree.Node.Describe

/-!
# Running and completing nodes

A directory is run by printing its help.  A script is run as a child, with the words that are left for it
and with the values that these words give to its arguments in a variable; no child is started unless the
words can be read.

Completing prints the next words that may follow a node, one a line.  A script with a usage line is asked
for the values of one argument only: that for which the next word would be, because a required argument
is missing or an option is without its value.
-/

namespace CommandTree

/-- The words that a script is called with when it is asked for completions and has no usage line. -/
def completeSwitch : Text := "--complete"

namespace ArgumentFault

/-- The argument that the next word would be for. -/
def awaited? : ArgumentFault → Option Declaration
  | missing d | valueMissing d _ | valueEmpty d _ => some d
  | _ => none

end ArgumentFault

namespace ScriptFile

/-- The child that runs a script. -/
def child (config : Config) (host : Host) (file : ScriptFile) (args : List Datum)
    (extra : List (Text × Text)) : Child :=
  ⟨.program file.path.toText args, config.environment host.environment extra⟩

/-- The text in which a script receives the values of its arguments; empty without a usage line. -/
def arguments (config : Config) (file : ScriptFile) (script : Script) : Except Failure Text :=
  if script.hasUsage then
    match file.signature config script with
    | .error failure => .error failure
    | .ok sig => sig.line file.args
  else .ok []

/-- Runs a script. -/
def invoke (config : Config) (host : Host) (file : ScriptFile) : Action Nat := do
  let script ← file.annotations host.files
  let arguments ← Action.ofExcept (file.arguments config script)
  Action.run (file.child config host file.args [(Text.lit "args", arguments)])

/-- The argument of a script that the next word would be for. -/
def awaited? (config : Config) (file : ScriptFile) (script : Script) :
    Except Failure (Option Declaration) :=
  match file.signature config script with
  | .error failure => .error failure
  | .ok sig =>
    match sig.parseData file.args with
    | .ok _ => .ok none
    | .error .notText => .error (.misuse .notWord)
    | .error (.fault fault) => .ok fault.awaited?

/-- The child that writes the values of the argument of a key, if the script says where to find them. -/
def completer? (config : Config) (host : Host) (file : ScriptFile) (script : Script) (key : Text) :
    Option Child :=
  match script.index.get? key with
  | some .script =>
    some (file.child config host []
      [(Text.lit "complete", Text.lit "true"), (Text.lit "complete_arg", key)])
  | some (.command line) => some ⟨.shell (.text line), config.environment host.environment []⟩
  | none => none

/-- The child that completes the words of a script, if there is one. -/
def completionChild? (config : Config) (host : Host) (file : ScriptFile) (script : Script) :
    Except Failure (Option Child) :=
  if script.usage.isSome then
    (file.awaited? config script).map fun awaited =>
      awaited.bind fun d => file.completer? config host script d.key
  else if script.hasUsage then .ok none
  else if script.docs.completes then .ok (some (file.child config host [.text completeSwitch] []))
  else .ok none

/-- Completes the words of a script. -/
def complete (config : Config) (host : Host) (file : ScriptFile) : Action Nat := do
  let script ← file.annotations host.files
  match ← Action.ofExcept (file.completionChild? config host script) with
  | some child => Action.run child
  | none => return 0

end ScriptFile

namespace Node

/-- Prints the names of some nodes, one a line. -/
def printNames (config : Config) : List Node → Action Unit
  | [] => return
  | node :: rest => do
    Action.print config.console (Styled.bare (node.name config))
    printNames config rest

/-- Prints the names of the nodes to which one further word may lead. -/
def printChildren (config : Config) (host : Host) (node : Node) : Action Nat := do
  printNames config (node.children config host.files)
  return 0

/-- Completes the words of an internal command: they lead to a node, and what may follow it is printed,
unless it is a script. -/
def completeInternal (config : Config) (host : Host) (args : List Datum) : Action Nat :=
  match _h : resolve config host.files args with
  | .error (.cause _) => return 0
  | .error failure => throw failure
  | .ok (.internal _ rest) => completeInternal config host rest
  | .ok (.file _) => return 0
  | .ok node => node.printChildren config host
termination_by args.length
decreasing_by simp [eq_cons_of_resolve_internal _h]

/-- Completes the words that lead to a node. -/
def complete (config : Config) (host : Host) (node : Node) : Action Nat :=
  match node with
  | topLevel | directory _ _ => node.printChildren config host
  | internal _ args => completeInternal config host args
  | file script => script.complete config host

/-- Prints the help of a node. -/
def printHelp (config : Config) (host : Host) (node : Node) : Action Nat := do
  Action.print config.console (← node.help config host.files)
  return 0

end Node

namespace Internal

/-- Runs an internal command.  A shell calls `completions` while a line is being written, so that words
which lead nowhere are not reported. -/
def run (config : Config) (host : Host) (args : List Datum) : Internal → Action Nat
  | help => do
    let node ← Action.ofExcept (Node.resolve config host.files args)
    node.printHelp config host
  | commands => do
    let node ← Action.ofExcept (Node.resolve config host.files args)
    node.printChildren config host
  | completions =>
    match Node.resolve config host.files args with
    | .error (.cause _) => return 1
    | .error failure => throw failure
    | .ok node => node.complete config host

end Internal

namespace Node

/-- Runs a node; its exit code. -/
def invoke (config : Config) (host : Host) (node : Node) : Action Nat :=
  match node with
  | topLevel | directory _ _ => node.printHelp config host
  | internal command args => command.run config host args
  | file script => script.invoke config host

end Node

end CommandTree
