import CommandTree.Text.Basic

/-!
# Internal commands

The commands that every command line has.  They are found before any script, so that no script can take
their place.  `help` and `commands` are listed at the top level; `completions` serves the shell and is
not listed.
-/

namespace CommandTree

/-- A command that every command line has. -/
inductive Internal where
  | help
  | commands
  | completions
deriving DecidableEq

namespace Internal

/-- All internal commands. -/
def all : List Internal :=
  [help, commands, completions]

/-- The internal commands that are listed. -/
def listed : List Internal :=
  [help, commands]

/-- The word that names an internal command. -/
def word : Internal → Text
  | help => "help"
  | commands => "commands"
  | completions => "completions"

/-- The internal command of a word. -/
def ofWord? (word : Text) : Option Internal :=
  all.find? fun command => command.word = word

theorem ofWord?_eq_some_iff {word : Text} {command : Internal} :
    ofWord? word = some command ↔ word = command.word := by
  constructor
  · intro h
    have hword := List.find?_some h
    exact (of_decide_eq_true hword).symm
  · rintro rfl
    cases command <;> decide

/-- What a list says of an internal command. -/
def summary : Internal → Text
  | help => "Display help for a sub command"
  | commands => "List available commands"
  | completions => "List completions for a sub command"

/-- What help says of an internal command. -/
def description : Internal → Text
  | help =>
    Text.join "\n"
      ["A command is considered documented if it starts with a comment block",
        "that has a `Summary:' or `Usage:' section. Usage instructions can",
        "span multiple lines as long as subsequent lines are indented.",
        "The remainder of the comment block is displayed as extended",
        "documentation."]
  | commands | completions => []

/-- What follows the name of an internal command in its usage line. -/
def arguments : Internal → Text
  | help => "[<command>]..."
  | commands => "[<command>]..."
  | completions => "[<command>] [<args>]..."

end Internal

end CommandTree
