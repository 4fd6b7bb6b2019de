import CommandTree.Datum.Equality
import CommandTree.Signature.Help
import CommandTree.Text.Ordinal

/-!
# Faults of arguments

What can be wrong with the words given to a command.  The faults that a word gives rise to carry its
index, counted from one; the last two are about the words as a whole.
-/

namespace CommandTree

/-- Why the words given to a command are refused. -/
inductive ArgumentFault where
  /-- No long switch of this name; some resemble it. -/
  | unknownLong (input : Text) (index : Nat) (suggestions : List Text)
  /-- No short switch of this name. -/
  | unknownShort (input : Text) (index : Nat)
  /-- Several long switches start with this. -/
  | ambiguous (input : Text) (index : Nat) (candidates : List Text)
  /-- The switch was given before. -/
  | duplicated (declaration : Declaration) (index : Nat)
  /-- The flag was given a value. -/
  | assigned (declaration : Declaration) (index : Nat)
  /-- The option was given without a value. -/
  | valueMissing (declaration : Declaration) (index : Nat)
  /-- The option was given an empty value. -/
  | valueEmpty (declaration : Declaration) (index : Nat)
  /-- There is no cardinal for the word, which may be of any kind. -/
  | unexpected (input : Datum) (index : Nat)
  /-- The argument was not given alone. -/
  | notAlone (declaration : Declaration) (others : List Declaration)
  /-- The argument was not given. -/
  | missing (declaration : Declaration)
deriving DecidableEq

namespace ArgumentFault

/-- The word for a kind of switch. -/
def switchWord (d : Declaration) : Text :=
  if d.isOption then "option" else "flag"

/-- The wording of a fault. -/
def message : ArgumentFault → Text
  | unknownLong input index _ | unknownShort input index =>
    "unknown option or flag " ++ input.quoted ++ " at " ++ ordinal index ++ " position"
  | ambiguous input index _ =>
    "ambiguous option or flag " ++ input.quoted ++ " at " ++ ordinal index ++ " position"
  | duplicated d index =>
    switchWord d ++ " " ++ d.name.quoted ++ " at " ++ ordinal index ++
      " position was already provided"
  | assigned d index =>
    "flag " ++ d.name.quoted ++ " at " ++ ordinal index ++ " position cannot have an inline value"
  | valueMissing d index =>
    "option " ++ d.name.quoted ++ " at " ++ ordinal index ++ " position requires a value"
  | valueEmpty d index =>
    "empty inline value for option " ++ d.name.quoted ++ " at " ++ ordinal index ++ " position"
  | unexpected input index =>
    "unexpected positional argument " ++ input.quoted ++ " from " ++ ordinal index ++ " position"
  | notAlone d _ => "argument " ++ (Styled.plain d.label).quoted ++ " must be used alone"
  | missing d => "missing required argument " ++ (Styled.plain d.label).quoted

/-- The command line that shows the help of `prog`. -/
def helpLine (prog : Text) : Text :=
  "'" ++ prog ++ " --help'"

/-- What a user may do about a fault of `prog`. -/
def hint (prog : Text) : ArgumentFault → Text
  | unknownLong _ _ [] | unknownShort _ _ =>
    "run " ++ helpLine prog ++ " to see all available options"
  | unknownLong _ _ (suggestion :: _) =>
    "did you mean " ++ suggestion.quoted ++ "? you can also run " ++ helpLine prog ++
      " to see all options"
  | ambiguous _ _ candidates =>
    "did you mean one of " ++ Text.join ", " (candidates.map Text.quoted) ++ "?"
  | duplicated d _ =>
    "keep a single " ++ switchWord d ++ "; each " ++ switchWord d ++ " can be specified only once"
  | assigned d _ => "remove everything from '=' (for example: " ++ d.name ++ ")"
  | valueMissing d _ =>
    "pass it inline (" ++ d.name ++ "=" ++ d.metavar ++ ") or as the next argument"
  | valueEmpty d _ => "add a value after '=' (for example: " ++ d.name ++ "=" ++ d.metavar ++ ")"
  | unexpected _ _ =>
    "remove this extra value or run " ++ helpLine prog ++ " to see the expected usage"
  | notAlone d _ =>
    "remove the other arguments or run '" ++ prog ++ " " ++ Styled.plain d.label ++ "' by itself"
  | missing _ => "run " ++ helpLine prog ++ " to see the expected usage"

end ArgumentFault

end CommandTree
