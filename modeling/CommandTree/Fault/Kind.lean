import CommandTree.Text.Basic

/-!
# Kinds of faults

Every fault is an error or a warning of a kind.  The kinds have names and, the two general ones apart,
codes; the codes of one area share their first three digits:

* 111: finding a command,
* 112: reading what a script says about itself,
* 113: running scripts and completing arguments,
* 114: the arguments of a command,
* 115: the arguments of the program itself,
* 122: warnings.

A quiet fault is not reported: the exit code speaks for it.
-/

namespace CommandTree

namespace Fault

/-- The kinds of faults; `error` and `warning` are the general ones. -/
inductive Kind where
  | error
  | unknownSubCommand
  | nonExecutable
  | noLibexec
  | invalidUsage
  | invalidOption
  | invalidUtf8
  | interrupted
  | notRun
  | noCompletions
  | unknownSwitch
  | ambiguousSwitch
  | duplicatedSwitch
  | flagAssignment
  | valueRequired
  | unexpectedCardinal
  | exclusiveArgument
  | missingArgument
  | invalidInvocation
  | warning
  | skippedOption
deriving DecidableEq

namespace Kind

/-- All kinds, the errors before the warnings. -/
def all : List Kind :=
  [error, unknownSubCommand, nonExecutable, noLibexec, invalidUsage, invalidOption, invalidUtf8,
    interrupted, notRun, noCompletions, unknownSwitch, ambiguousSwitch, duplicatedSwitch,
    flagAssignment, valueRequired, unexpectedCardinal, exclusiveArgument, missingArgument,
    invalidInvocation, warning, skippedOption]

theorem mem_all (kind : Kind) : kind ∈ all := by
  cases kind <;> decide

/-- The name of a kind. -/
def name : Kind → Text
  | error => "CommandException"
  | unknownSubCommand => "UnknownSubCommandError"
  | nonExecutable => "NonExecutableError"
  | noLibexec => "NoLibexecDirError"
  | invalidUsage => "InvalidUsageStringError"
  | invalidOption => "InvalidOptionStringError"
  | invalidUtf8 => "InvalidUTF8Error"
  | interrupted => "SubCommandInterruptedError"
  | notRun => "SubCommandIoError"
  | noCompletions => "NoCompletionsError"
  | unknownSwitch => "UnknownSwitchError"
  | ambiguousSwitch => "AmbiguousSwitchError"
  | duplicatedSwitch => "DuplicatedSwitchError"
  | flagAssignment => "FlagAssignmentError"
  | valueRequired => "OptionValueRequiredError"
  | unexpectedCardinal => "UnexpectedCardinalError"
  | exclusiveArgument => "ExclusiveArgumentError"
  | missingArgument => "MissingArgumentError"
  | invalidInvocation => "InvalidInvocationError"
  | warning => "CommandWarning"
  | skippedOption => "SkippedOptionWarning"

/-- The kind of a name. -/
def ofName? (name : Text) : Option Kind :=
  all.find? fun kind => kind.name = name

/-- The code of a kind and the name of the code; the general kinds have none. -/
def code? : Kind → Option (Text × Nat)
  | error | warning => none
  | unknownSubCommand => some ("UNKNOWN_SUBCOMMAND", 11101)
  | nonExecutable => some ("NON_EXECUTABLE", 11102)
  | noLibexec => some ("NO_LIBEXEC_DIR", 11103)
  | invalidUsage => some ("INVALID_USAGE_STRING", 11201)
  | invalidOption => some ("INVALID_OPTION_STRING", 11202)
  | invalidUtf8 => some ("INVALID_UTF8", 11203)
  | interrupted => some ("SUBCOMMAND_INTERRUPTED", 11301)
  | notRun => some ("SUBCOMMAND_IO_ERROR", 11302)
  | noCompletions => some ("NO_COMPLETIONS", 11303)
  | unknownSwitch => some ("UNKNOWN_SWITCH", 11401)
  | ambiguousSwitch => some ("AMBIGUOUS_SWITCH", 11402)
  | duplicatedSwitch => some ("DUPLICATED_SWITCH", 11403)
  | flagAssignment => some ("FLAG_ASSIGNMENT", 11404)
  | valueRequired => some ("OPTION_VALUE_REQUIRED", 11405)
  | unexpectedCardinal => some ("UNEXPECTED_CARDINAL", 11406)
  | exclusiveArgument => some ("EXCLUSIVE_ARGUMENT", 11407)
  | missingArgument => some ("MISSING_ARGUMENT", 11408)
  | invalidInvocation => some ("INVALID_INVOCATION", 11501)
  | skippedOption => some ("SKIPPED_OPTION", 12201)

/-- The codes by name. -/
def codes : List (Text × Nat) :=
  all.filterMap code?

/-- Whether a kind is a warning. -/
def isWarning : Kind → Bool
  | warning | skippedOption => true
  | _ => false

/-- Whether faults of a kind are left unreported. -/
def isQuiet : Kind → Bool
  | nonExecutable | interrupted => true
  | _ => false

/-- The word for what a fault of the kind is. -/
def word (kind : Kind) : Text :=
  if kind.isWarning then "warning" else "fault"

end Kind

end Fault

end CommandTree
