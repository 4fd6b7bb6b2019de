import CommandTree.Failure
import CommandTree.Signature.Parse

/-!
# Splitting the words of a user

Among the words of a user, some select a `Mode`: what is to be done with the command instead of running
it.  They are recognised anywhere before the word `--`.  The option `--extension` restricts what is
listed.  All other words, and all from `--` on, are the command and its arguments.  Data of other kinds may
be an extension, or stand after `--`; elsewhere each word is looked into and must be a text.

`Split.ofWords` reads the words from left to right; the last word that selects a mode counts, except
that usage and help may not both be asked for.
-/

namespace CommandTree

/-- What is done with a command. -/
inductive Mode where
  | invoke
  | usage
  | help
  | commands
  | completions
  | validate
deriving DecidableEq

namespace Mode

/-- All modes. -/
def all : List Mode :=
  [invoke, usage, help, commands, completions, validate]

/-- The word for a mode. -/
def word : Mode → Text
  | invoke => "invoke"
  | usage => "usage"
  | help => "help"
  | commands => "commands"
  | completions => "completions"
  | validate => "validate"

/-- The mode of a word. -/
def ofWord? (word : Text) : Option Mode :=
  all.find? fun mode => mode.word = word

/-- The modes that a switch selects. -/
def selectable : List Mode :=
  [usage, help, commands, completions, validate]

/-- The mode that a word of a user selects. -/
def ofSwitch? (token : Text) : Option Mode :=
  if token = "-h" then some help
  else selectable.find? fun mode => terminator ++ mode.word = token

end Mode

/-- The words of a user, split. -/
structure Split where
  mode : Mode
  extension : Option Datum
  tokens : List Datum
deriving DecidableEq

namespace Split

/-- The option that restricts what is listed. -/
def extensionSwitch : Text := "--extension"

/-- What is known after some words: the split so far, and whether usage and help were asked for. -/
structure Progress where
  split : Split
  usage : Bool
  help : Bool
deriving DecidableEq

namespace Progress

/-- What is known before the first word. -/
def start : Progress :=
  ⟨⟨.invoke, none, []⟩, false, false⟩

/-- A mode is selected. -/
def select (progress : Progress) (mode : Mode) : Progress :=
  ⟨{ progress.split with mode }, progress.usage || mode = .usage, progress.help || mode = .help⟩

/-- The extension is given. -/
def restrict (progress : Progress) (extension : Datum) : Progress :=
  { progress with split := { progress.split with extension := some extension } }

/-- Some words belong to the command. -/
def keep (progress : Progress) (words : List Datum) : Progress :=
  { progress with split := { progress.split with tokens := progress.split.tokens ++ words } }

/-- What is known after the remaining words. -/
def read (progress : Progress) : List Datum → Except Failure Progress
  | [] => .ok progress
  | .text word :: rest =>
    if word = terminator then .ok (progress.keep (.text word :: rest))
    else
      match Mode.ofSwitch? word with
      | some mode => read (progress.select mode) rest
      | none =>
        if word = extensionSwitch then
          match rest with
          | [] | .none :: _ => .error (.cause (.invocation .extensionMissing))
          | value :: rest => read (progress.restrict value) rest
        else
          match Text.after? (extensionSwitch ++ [.char '=']) word with
          | some value => read (progress.restrict (.text value)) rest
          | none => read (progress.keep [.text word]) rest
  | _ :: _ => .error (.misuse .notWord)

/-- The split, unless usage and help were both asked for. -/
def finish (progress : Progress) : Except Failure Split :=
  if progress.usage && progress.help then .error (.cause (.invocation .usageWithHelp))
  else .ok progress.split

end Progress

/-- Splits the words of a user. -/
def ofWords (words : List Datum) : Except Failure Split :=
  match Progress.start.read words with
  | .error failure => .error failure
  | .ok progress => progress.finish

end Split

end CommandTree
