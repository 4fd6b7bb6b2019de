import CommandTree.Datum.Equality
import CommandTree.OsError
import CommandTree.Text.Quoted

/-!
# Child processes

A child runs a program with arguments or a command line of the shell, in an environment of its own.
How it ends is its `Outcome`: it exits, a signal ends it, the wait for it is interrupted, or it cannot
be started.  The last has two forms.  The operating system refuses to start it, and says why; or the
operating system is not even asked, because what the child is given has no form in which it could be
passed on (`Outcome.unfit`): a text goes there as bytes that end with the first zero, and a variable as
its name, `=` and its value.  `Child.IsPassable` says which children can be passed on.
-/

namespace CommandTree

/-- Variables with their values, in the order in which they were first set. -/
abbrev Environment := Assoc Text Text

/-- What a child runs.  The words that a program is called with are passed on as they are, of whatever kind. -/
inductive Command where
  | program (path : Text) (arguments : List Datum)
  | shell (line : Datum)
deriving DecidableEq

/-- How a message names what a child runs: a program by its path, a line of the shell by itself, as it stands
in a message. -/
def Command.describe : Command → Text
  | program path _ => path
  | shell line => line.quoted

/-- Whether a text can be passed on to a process: it holds no glyph that would end it there. -/
def Text.IsPassable (text : Text) : Prop :=
  .char '\x00' ∉ text

instance (text : Text) : Decidable text.IsPassable :=
  inferInstanceAs (Decidable (_ ∉ text))

/-- Whether a word can be passed on to a process. -/
def Datum.IsPassable : Datum → Prop
  | .text value => value.IsPassable
  | _ => False

instance : DecidablePred Datum.IsPassable
  | .text value => inferInstanceAs (Decidable value.IsPassable)
  | .none | .unset | .bool _ | .int _ | .decimal _ _ _ | .styled _ _ | .list _ | .set _ | .record _ =>
    .isFalse id

/-- Whether all that a command consists of can be passed on. -/
def Command.IsPassable : Command → Prop
  | program path arguments => path.IsPassable ∧ ∀ word ∈ arguments, word.IsPassable
  | shell line => line.IsPassable

instance : DecidablePred Command.IsPassable
  | .program path arguments =>
    inferInstanceAs (Decidable (path.IsPassable ∧ ∀ word ∈ arguments, word.IsPassable))
  | .shell line => inferInstanceAs (Decidable line.IsPassable)

/-- A process to be run and waited for. -/
structure Child where
  command : Command
  environment : Environment
deriving DecidableEq

namespace Child

/-- Whether a child can be passed on to the operating system. -/
structure IsPassable (child : Child) : Prop where
  command : child.command.IsPassable
  names : ∀ entry ∈ child.environment, entry.1.IsPassable ∧ .char '=' ∉ entry.1
  values : ∀ entry ∈ child.environment, entry.2.IsPassable

instance : DecidablePred IsPassable := fun child =>
  decidable_of_iff
    (child.command.IsPassable ∧ (∀ entry ∈ child.environment, entry.1.IsPassable ∧ .char '=' ∉ entry.1) ∧
      ∀ entry ∈ child.environment, entry.2.IsPassable)
    ⟨fun h => ⟨h.1, h.2.1, h.2.2⟩, fun h => ⟨h.command, h.names, h.values⟩⟩

/-- How a child ends.  A negative exit status is the number of the signal that ended it.  Nothing is
started for a child that is unfit to be passed on. -/
inductive Outcome where
  | exit (status : Int)
  | interrupt
  | refused (reason : OsError)
  | unfit
deriving DecidableEq

/-- Whether a child may end in some way: it is unfit exactly if it cannot be passed on. -/
def CanEndIn (child : Child) (outcome : Outcome) : Prop :=
  outcome = .unfit ↔ ¬child.IsPassable

instance (child : Child) (outcome : Outcome) : Decidable (child.CanEndIn outcome) :=
  inferInstanceAs (Decidable (_ ↔ _))

/-- The outcome of a child that exits without complaint. -/
def Outcome.success : Outcome := exit 0

/-- Why a child has no exit code. -/
inductive Mishap where
  | interrupted
  | killed (signal : Nat)
  | notStarted (reason : OsError)
deriving DecidableEq

/-- The wording of a mishap. -/
def Mishap.message (command : Command) : Mishap → Text
  | interrupted => command.describe ++ " was interrupted"
  | killed signal => command.describe ++ " was killed by signal " ++ Text.ofNat signal
  | notStarted reason => "cannot run " ++ command.describe ++ ": " ++ reason.describe

end Child

end CommandTree
