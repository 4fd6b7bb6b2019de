import CommandTree.Text.Ident
import CommandTree.Text.Letter
import CommandTree.Text.Quoted

/-!
# Usage lines

A script states the arguments that it takes in one line:

    # Usage: {cmd} <target> [-f] [--count=COUNT] [--version]! [files]...

A `Usage` is the list of these arguments and, possibly, the name under which the rest of a command
line is captured.  An argument that stands in brackets is optional, and one marked `!` is exclusive:
it is given alone or not at all.

## Writing

`Usage.render` writes a usage line.  It writes any value of the type, also one that no line can state.

## Well-formed usages

`Usage.WellFormed` says which values can be stated: names are identifiers, a short switch is one
letter, the placeholder of a value is in capitals, nothing is both required and exclusive, and no two
arguments share a key.

## Problems

What a reader may object to is a `Usage.Cause`; together with the position in the line it is a
`Usage.Problem`.  `Cause.message` holds the wording.
-/

namespace CommandTree

namespace Usage

/-- How an argument is given on a command line. -/
inductive Form where
  /-- By its place among the arguments. -/
  | positional (name : Text)
  /-- By a dash and one letter. -/
  | short (letter : Text)
  /-- By two dashes and a name, with a value if a placeholder for one is stated. -/
  | long (name : Text) (value : Option Text)
deriving DecidableEq

/-- An argument of a usage line. -/
structure Argument where
  form : Form
  required : Bool
  exclusive : Bool
deriving DecidableEq

/-- The name without dashes, under which the argument is known elsewhere. -/
def Form.key : Form → Text
  | positional name => name
  | short letter => letter
  | long name _ => name

/-- The key of an argument is that of its form. -/
def Argument.key (argument : Argument) : Text :=
  argument.form.key

end Usage

/-- The arguments that a script takes, in order, and the name of its rest capture. -/
structure Usage where
  arguments : List Usage.Argument
  rest : Option Text
deriving DecidableEq

namespace Usage

/-- What a usage line starts with. -/
def header : Text := "# Usage:"

/-- What stands for the command itself. -/
def command : Text := "\x7bcmd\x7d"

/-- What follows the brackets of a rest capture. -/
def ellipsis : Text := "..."

/-! ## Writing -/

/-- A form as it is written; a positional name stands between angle brackets where it is required. -/
def Form.render (required : Bool) : Form → Text
  | positional name => if required then "<" ++ name ++ ">" else name
  | short letter => "-" ++ letter
  | long name none => "--" ++ name
  | long name (some value) => "--" ++ name ++ "=" ++ value

/-- An argument as it is written. -/
def Argument.render (argument : Argument) : Text :=
  if argument.required then argument.form.render true
  else "[" ++ argument.form.render false ++ "]" ++ (if argument.exclusive then Text.lit "!" else [])

/-- A rest capture as it is written. -/
def renderRest (name : Text) : Text :=
  "[" ++ name ++ "]" ++ ellipsis

/-- The line that states a usage, with one space between its words. -/
def render (usage : Usage) : Text :=
  Text.join " " (header :: command :: usage.arguments.map Argument.render ++
    usage.rest.toList.map renderRest)

/-! ## Well-formed usages -/

/-- Whether a form can be written so that it is read back. -/
def Form.WellFormed : Form → Prop
  | positional name => name.IsIdent
  | short letter => ∃ g : Glyph, letter = [g] ∧ g.isLetter = true
  | long name value =>
    name.IsIdent ∧ ∀ v ∈ value, v ≠ [] ∧ ∀ g ∈ v, g.isAsciiUpper = true

/-- Whether an argument can be written so that it is read back. -/
def Argument.WellFormed (argument : Argument) : Prop :=
  argument.form.WellFormed ∧ ¬(argument.required = true ∧ argument.exclusive = true)

/-- The keys of the arguments and of the rest capture. -/
def keys (usage : Usage) : List Text :=
  usage.arguments.map Argument.key ++ usage.rest.toList

/-- Whether a usage can be stated in a line. -/
def WellFormed (usage : Usage) : Prop :=
  (∀ argument ∈ usage.arguments, argument.WellFormed) ∧
    (∀ name ∈ usage.rest, name.IsIdent) ∧ usage.keys.Nodup

/-! ## Problems -/

/-- Why a usage line is refused.  `found` is the glyph at the position, none at the end of the
line. -/
inductive Cause where
  | expectedHeader
  | expectedCommand (found : Option Glyph)
  | expectedGap (found : Option Glyph)
  | expectedIdent (after : Text) (found : Option Glyph)
  | expectedValue (name : Text) (found : Option Glyph)
  | expectedLetter (found : Option Glyph)
  | unclosedName (name : Text) (found : Option Glyph)
  | expectedArgument (found : Option Glyph)
  | expectedOptional (found : Option Glyph)
  | unclosedOptional (found : Option Glyph)
  | restOfSwitch
  | afterRest (word rest : Text)
  | duplicate (key : Text) (first : Nat)
deriving DecidableEq

/-- A cause and the position at which it was met. -/
structure Problem where
  position : Nat
  cause : Cause
deriving DecidableEq

/-- How a message names what stands at a position. -/
def foundText : Option Glyph → Text
  | some g => Text.quoted [g]
  | none => "end of line"

/-- The wording of a cause. -/
def Cause.message : Cause → Text
  | expectedHeader => "expected " ++ header.quoted
  | expectedCommand found => "expected " ++ command.quoted ++ ", found " ++ foundText found
  | expectedGap found =>
    "expected whitespace or end of line after argument, found " ++ foundText found
  | expectedIdent after found =>
    "expected an identifier after " ++ after.quoted ++ ", found " ++ foundText found
  | expectedValue name found =>
    "expected an uppercase value placeholder after '--" ++ name ++ "=', found " ++ foundText found
  | expectedLetter found => "expected a letter after '-', found " ++ foundText found
  | unclosedName name found =>
    "expected '>' to close '<" ++ name ++ "', found " ++ foundText found
  | expectedArgument found =>
    "expected an argument ('<name>', '-x', '--name' or '[...]'), found " ++ foundText found
  | expectedOptional found =>
    "expected '-x', '--name' or a name inside '[', found " ++ foundText found
  | unclosedOptional found =>
    "expected ']' to close the optional argument, found " ++ foundText found
  | restOfSwitch => "only a plain name can capture the rest of the arguments"
  | afterRest word rest =>
    "unexpected " ++ word.quoted ++ " after the rest capture '[" ++ rest ++ "]...'"
  | duplicate key first =>
    "duplicate argument " ++ key.quoted ++ " (first declared at position " ++
      Text.ofNat first ++ ")"

/-- The position and the wording in one sentence. -/
def Problem.describe (problem : Problem) : Text :=
  "at position " ++ Text.ofNat problem.position ++ ": " ++ problem.cause.message

end Usage

end CommandTree
