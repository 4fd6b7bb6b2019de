import CommandTree.Action
import CommandTree.Node.Resolve
import CommandTree.Signature.Help

/-!
# Describing nodes

The usage of a node is one line, its help is made of paragraphs: the usage, the summary, the description
and, for a directory or the top level, the list of its commands with a pointer to their help.  The usage
and the help of a script are those of its signature.

A list of commands survives whatever is wrong with them: a command whose summary cannot be read is
listed without one.
-/

namespace CommandTree

namespace ScriptFile

/-- The script itself, read where it has not been read yet. -/
def read (files : FileTree) (file : ScriptFile) : Except Failure Script :=
  match file.loaded with
  | some script => .ok script
  | none => Script.load files file.path

/-- The script itself; reading it skips the option lines that cannot be read. -/
def annotations (files : FileTree) (file : ScriptFile) : Action Script :=
  match file.loaded with
  | some script => return script
  | none => do
    let script ← Action.ofExcept (Script.load files file.path)
    Action.skip script.skipped
    return script

/-- The signature of a script; a usage line that cannot be read is a failure. -/
def signature (config : Config) (file : ScriptFile) (script : Script) : Except Failure Signature :=
  match script.usageCause with
  | some cause => .error (.cause cause)
  | none => script.signature (Node.prog config (.file file)) config.infer

end ScriptFile

namespace Node

/-- The script that a node is. -/
def annotations (files : FileTree) : Node → Action Script
  | file script => script.annotations files
  | _ => throw (.misuse .noScript)

/-- The node with its script read, so that it need not be read again.  A node that is no script, or one
that cannot be read, is left as it is.  The option lines that cannot be read are skipped, unless they
are asked for as problems. -/
def remember (files : FileTree) (asProblems : Bool) : Node → Action Node
  | file script => do
    match ← Action.attempt (script.annotations files) with
    | (.ok annotations, skipped) => do
      unless asProblems do Action.skip skipped
      return file { script with loaded := some annotations }
    | (.error _, _) => return file script
  | other => return other

/-! ## Styles -/

def paragraphStyle : Style := "italic #A3A3A3"
def labelStyle : Style := "bold #36C5F0"
def footerStyle : Style := "#737373"

/-! ## Usage -/

/-- What follows the command line in the usage of a directory of commands. -/
def groupArguments : Text := "[<subcommands>] [<args>]"

/-- A usage line with fixed arguments. -/
def fixedUsage (config : Config) (node : Node) (arguments : Text) : Styled :=
  (Signature.bare (node.prog config)).usage ++ Styled.bare (" " ++ arguments)

/-- The usage of a node. -/
def usage (config : Config) (files : FileTree) (node : Node) : Action Styled :=
  match node with
  | topLevel | directory _ _ => return node.fixedUsage config groupArguments
  | internal command _ => return node.fixedUsage config command.arguments
  | file script => do
    let annotations ← script.annotations files
    let sig ← Action.ofExcept (script.signature config annotations)
    return sig.usage

/-! ## Lists of commands -/

/-- What stands between the longest name in a list and the summaries. -/
def listGap : Nat := 4

/-- The column in which the summaries of a list start, counted from the names. -/
def summaryColumn (config : Config) (children : List Node) : Nat :=
  (children.map fun child => (child.name config).length).foldl max 0 + listGap

/-- The summary of a node in a list; empty if it cannot be read. -/
def listedSummary (config : Config) (files : FileTree) (node : Node) : Text :=
  match node.about config files with
  | .ok about => about.summary
  | .error _ => []

/-- The line of a node in a list. -/
def listLine (config : Config) (files : FileTree) (column : Nat) (child : Node) : Styled :=
  let label := child.name config
  match listedSummary config files child with
  | [] => Styled.bare "\n    " ++ Styled.span labelStyle label
  | summary =>
    Styled.bare "\n    " ++ Styled.span labelStyle (label.padTo column) ++ Styled.bare summary

/-- The pointer to the help of the commands in a list. -/
def listFooter (config : Config) (node : Node) : Text :=
  "Use '" ++ config.name ++ " help " ++ Text.join " " (node.names ++ [Text.lit "<command>"]) ++
    "' for information on a specific command."

/-- The list of the commands of a node and the pointer to their help; nothing if there are none. -/
def listing (config : Config) (files : FileTree) (node : Node) : List Styled :=
  match node.children config files with
  | [] => []
  | children =>
    [Styled.bare "Available subcommands:" ++
        children.flatMap (listLine config files (summaryColumn config children)),
      Styled.span footerStyle (node.listFooter config)]

/-! ## Help -/

/-- A paragraph in a style; none for an empty text. -/
def paragraph (style : Style) (text : Text) : List Styled :=
  if text = [] then [] else [Styled.span style text]

/-- The paragraphs of the help of a node that is no script. -/
def paragraphs (config : Config) (files : FileTree) (node : Node) (arguments : Text)
    (about : About) : List Styled :=
  node.fixedUsage config arguments :: paragraph "bold" about.summary ++
    paragraph paragraphStyle about.description ++ node.listing config files

/-- The help of a node. -/
def help (config : Config) (files : FileTree) (node : Node) : Action Styled :=
  let composed (arguments : Text) : Action Styled := do
    let about ← Action.ofExcept (node.about config files)
    return Styled.join (Styled.bare "\n\n") (node.paragraphs config files arguments about)
  match node with
  | topLevel | directory _ _ => composed groupArguments
  | internal command _ => composed command.arguments
  | file script => do
    let annotations ← script.annotations files
    let sig ← Action.ofExcept (script.signature config annotations)
    return sig.help

end Node

end CommandTree
