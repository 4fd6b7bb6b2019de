import CommandTree.Config.Basic

/-!
# Bad invocations

What can be wrong with the arguments of the program itself, beyond what its signature says.
-/

namespace CommandTree

/-- Why an invocation of the program is refused. -/
inductive Invocation where
  | absoluteWithOthers
  | executableAlone
  | rootMissing
  | notAbsolute (path : Text)
  /-- There is no color mode such as the one asked for, which is shown as it stands in a message. -/
  | unknownColor (shown : Text)
  | badConfig (defect : Config.Defect)
  | extensionMissing
  | usageWithHelp
deriving DecidableEq

namespace Invocation

/-- The wording of a refusal. -/
def message : Invocation → Text
  | absoluteWithOthers => "cannot use --absolute with --executable or --relative"
  | executableAlone => "--executable and --relative must be used together"
  | rootMissing => "must provide either --absolute or --executable with --relative"
  | notAbsolute _ => "--absolute path must be absolute"
  | unknownColor shown => "invalid color mode " ++ shown
  | badConfig defect => defect.message
  | extensionMissing => "--extension requires a value"
  | usageWithHelp => "the argument '--usage' cannot be used with '--help'"

/-- What a user may do about a refusal. -/
def hint? : Invocation → Option Text
  | unknownColor _ => some ("use one of " ++ Text.join ", " (ColorMode.all.map ColorMode.word))
  | _ => none

end Invocation

end CommandTree
