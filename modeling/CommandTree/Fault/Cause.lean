import CommandTree.Fault.Basic
import CommandTree.FrontEnd.Invocation
import CommandTree.OptionLine.Basic
import CommandTree.Signature.Fault

/-!
# Causes of faults

Whatever goes wrong while a command is found, described or run has a `Cause`, which holds all that is
known about it.  The kind of the fault, its message, its further lines and its hint are functions of the
cause, and `Cause.fault` puts them together.

`Cause.skipped` is the warning that an option line was skipped.
-/

namespace CommandTree

/-- What went wrong. -/
inductive Cause where
  /-- There is no command of this name; some resemble it. -/
  | unknownSubCommand (segment : Datum) (suggestions : List Text)
  /-- The file of this name may not be executed. -/
  | nonExecutable (segment : Text) (path : Path)
  /-- There is no directory of scripts. -/
  | noLibexec (path : Path)
  /-- A usage line cannot be read; it may belong to a script. -/
  | invalidUsage (line : Text) (problems : List Usage.Problem) (path : Option Path)
  /-- An option line cannot be read; it may belong to a script. -/
  | invalidOption (line : OptionLine.Skipped) (path : Option Path)
  /-- A line of a comment block is not UTF-8. -/
  | undecodableLine (path : Path) (line : Nat)
  /-- The value of an argument is not UTF-8. -/
  | unencodableValue (key : Datum)
  /-- A file cannot be read. -/
  | unreadable (path : Path) (reason : OsError)
  /-- A child did not come to an exit code. -/
  | mishap (command : Command) (mishap : Child.Mishap)
  /-- The words given to a command are refused. -/
  | argument (prog : Text) (fault : ArgumentFault)
  /-- The program was not called as it should be. -/
  | invocation (invocation : Invocation)
deriving DecidableEq

namespace ArgumentFault

/-- The kind of a fault of arguments. -/
def kind : ArgumentFault → Fault.Kind
  | unknownLong _ _ _ | unknownShort _ _ => .unknownSwitch
  | ambiguous _ _ _ => .ambiguousSwitch
  | duplicated _ _ => .duplicatedSwitch
  | assigned _ _ => .flagAssignment
  | valueMissing _ _ | valueEmpty _ _ => .valueRequired
  | unexpected _ _ => .unexpectedCardinal
  | notAlone _ _ => .exclusiveArgument
  | missing _ => .missingArgument

/-- A text in a context. -/
def textDetail (text : Text) : Fault.Detail := .datum (.text text)

/-- Some texts in a context. -/
def textsDetail (texts : List Text) : Fault.Detail := .datum (.list (texts.map .text))

/-- A number in a context. -/
def numberDetail (n : Nat) : Fault.Detail := .datum (.int n)

/-- The word that a fault is about, and its index. -/
def place (input : Datum) (index : Nat) : Fault.Context :=
  [("input", .datum input), ("index", numberDetail index)]

/-- What is known about a fault of arguments. -/
def context : ArgumentFault → Fault.Context
  | unknownLong input index suggestions =>
    place (.text input) index ++ [(Text.lit "suggestions", textsDetail suggestions)]
  | ambiguous input index candidates =>
    place (.text input) index ++ [(Text.lit "candidates", textsDetail candidates)]
  | unknownShort input index => place (.text input) index
  | unexpected input index => place input index
  | duplicated d index | assigned d index | valueMissing d index | valueEmpty d index =>
    place (.text d.name) index ++ [(Text.lit "argument", .declaration d)]
  | notAlone d others =>
    [(Text.lit "argument", .declaration d), (Text.lit "others", .declarations others)]
  | missing d => [(Text.lit "argument", .declaration d)]

end ArgumentFault

namespace Child.Mishap

/-- The kind of a mishap. -/
def kind : Mishap → Fault.Kind
  | interrupted | killed _ => .interrupted
  | notStarted _ => .notRun

/-- What is known about a mishap. -/
def context : Mishap → Fault.Context
  | interrupted => []
  | killed signal => [(Text.lit "signal", ArgumentFault.numberDetail signal)]
  | notStarted reason => [(Text.lit "cause", .refusal reason)]

end Child.Mishap

namespace Cause

open ArgumentFault (textDetail textsDetail numberDetail)

/-- The kind of fault that a cause gives rise to. -/
def kind : Cause → Fault.Kind
  | unknownSubCommand _ _ => .unknownSubCommand
  | nonExecutable _ _ => .nonExecutable
  | noLibexec _ => .noLibexec
  | invalidUsage _ _ _ => .invalidUsage
  | invalidOption _ _ => .invalidOption
  | undecodableLine _ _ | unencodableValue _ => .invalidUtf8
  | unreadable _ _ => .notRun
  | mishap _ m => m.kind
  | argument _ fault => fault.kind
  | invocation _ => .invalidInvocation

/-- The sentence that a cause is reported with. -/
def message : Cause → Text
  | unknownSubCommand segment _ => "no such sub command '" ++ segment.display ++ "'"
  | nonExecutable segment _ => "sub command '" ++ segment ++ "' is not executable"
  | noLibexec path => "no libexec directory at " ++ path.toText
  | invalidUsage _ _ none => "invalid usage string"
  | invalidUsage _ _ (some path) => "invalid usage string in " ++ path.toText
  | invalidOption line _ => "invalid option string " ++ line.line.quoted
  | undecodableLine path line =>
    "invalid utf-8 in comment block of " ++ path.toText ++ " (line " ++ Text.ofNat line ++ ")"
  | unencodableValue key => "argument " ++ key.quoted ++ " is not valid utf-8"
  | unreadable path reason => "cannot read " ++ path.toText ++ ": " ++ reason.describe
  | mishap command m => m.message command
  | argument _ fault => fault.message
  | invocation refusal => refusal.message

/-- The further lines that a cause is reported with: the problems of a line. -/
def details : Cause → List Text
  | invalidUsage _ problems _ => problems.map Usage.Problem.describe
  | invalidOption line _ => [line.problem.describe]
  | _ => []

/-- What a user may do about a cause. -/
def hint? : Cause → Option Text
  | unknownSubCommand _ (suggestion :: _) => some ("did you mean " ++ suggestion.quoted ++ "?")
  | argument prog fault => some (fault.hint prog)
  | invocation refusal => refusal.hint?
  | _ => none

/-- What a command is in a context: the words of a program, or a line of the shell. -/
def commandDetail : Command → Fault.Detail
  | .program path arguments => .datum (.list (.text path :: arguments))
  | .shell line => .datum line

/-- The script that a cause is about, in a context. -/
def pathDetail (path : Option Path) : Fault.Context :=
  path.toList.map fun path => (Text.lit "path", textDetail path.toText)

/-- What is known about a cause, its hint apart. -/
def facts : Cause → Fault.Context
  | unknownSubCommand segment suggestions =>
    (Text.lit "name", .datum segment) ::
      (if suggestions = [] then [] else [(Text.lit "suggestions", textsDetail suggestions)])
  | nonExecutable segment path =>
    [(Text.lit "name", textDetail segment), (Text.lit "path", textDetail path.toText)]
  | noLibexec path => pathDetail (some path)
  | invalidUsage line problems path =>
    [(Text.lit "line", textDetail line), (Text.lit "errors", .problems problems),
      (Text.lit "details", textsDetail (problems.map Usage.Problem.describe))] ++ pathDetail path
  | invalidOption line path =>
    [(Text.lit "line", textDetail line.line),
      (Text.lit "position", numberDetail line.problem.position),
      (Text.lit "details", textsDetail [line.problem.describe])] ++ pathDetail path
  | undecodableLine path line =>
    pathDetail (some path) ++
      [(Text.lit "line", numberDetail line), (Text.lit "cause", .undecodable)]
  | unencodableValue key =>
    [(Text.lit "argument", .datum key), (Text.lit "cause", .unencodable)]
  | unreadable path reason => pathDetail (some path) ++ [(Text.lit "cause", .refusal reason)]
  | mishap command m => (Text.lit "command", commandDetail command) :: m.context
  | argument _ fault => fault.context
  | invocation (.notAbsolute path) => [(Text.lit "path", textDetail path)]
  | invocation _ => []

/-- The fault that a cause gives rise to. -/
def fault (cause : Cause) : Fault :=
  .of cause.kind cause.message
    (cause.facts ++ cause.hint?.toList.map fun hint => (Text.lit "hint", textDetail hint))

/-- Whether a cause is left unreported. -/
def isQuiet (cause : Cause) : Bool :=
  cause.kind.isQuiet

/-- A cause is always an error. -/
theorem isWarning_kind (cause : Cause) : cause.kind.isWarning = false := by
  cases cause with
  | mishap command m => cases m <;> rfl
  | argument prog fault => cases fault <;> rfl
  | _ => rfl

/-- The warning that an option line was skipped. -/
def skipped (line : OptionLine.Skipped) : Fault :=
  .of .skippedOption ("skipped option line " ++ line.line.quoted)
    [(Text.lit "line", textDetail line.line), (Text.lit "error", .fault (invalidOption line none).fault),
      (Text.lit "details", textsDetail [line.problem.describe])]

end Cause

end CommandTree
