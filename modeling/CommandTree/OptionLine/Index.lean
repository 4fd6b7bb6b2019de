import CommandTree.Assoc
import CommandTree.OptionLine.Basic

/-!
# Completion index

The completions that the option lines of a script state, by the key of the argument.  Where a key is
described twice, the later completion counts.
-/

namespace CommandTree

/-- The stated completions by key, in the order in which the keys were first described. -/
abbrev CompletionIndex := Assoc Text Completion

namespace CompletionIndex

/-- The index of some option lines; those without a completion are left out. -/
def build (lines : List OptionLine) : CompletionIndex :=
  Assoc.ofPairs (lines.filterMap fun line => line.completion.map fun c => (line.name, c))

/-- The completion of a key. -/
def get? (index : CompletionIndex) (key : Text) : Option Completion :=
  List.lookup key index

/-- Whether two indices give the same completion to every key. -/
def same (a b : CompletionIndex) : Bool :=
  a.length = b.length && a.all fun entry => b.get? entry.1 = some entry.2

/-- How a completion is shown. -/
def showCompletion : Completion → Text
  | .script => "Script()"
  | .command line => "LiteralCommand(command=" ++ line.quoted ++ ")"

/-- How an index is shown. -/
def display (index : CompletionIndex) : Text :=
  "CompletionIndex(\x7b" ++
    Text.join ", " (index.map fun entry => entry.1.quoted ++ ": " ++ showCompletion entry.2) ++
    "\x7d)"

end CompletionIndex

end CommandTree
