import CommandTree.Datum.Members
import CommandTree.Failure
import CommandTree.OptionLine.Basic
import CommandTree.Signature.Words
import CommandTree.Usage.Parser

/-!
# Reading what a caller hands in

Usage lines, option lines, words of a command line, values and paths, as a caller hands them in.  What cannot
be read is a cause; what is of a wrong kind is a misuse.
-/

namespace CommandTree

/-- The usage that a line states. -/
def Usage.ofDatum : Datum → Except Failure Usage
  | .text line =>
    match parse? line with
    | .ok usage => .ok usage
    | .error problems => .error (.cause (.invalidUsage line problems none))
  | _ => .error (.misuse .usageNotText)

/-- What an option line states. -/
def OptionLine.ofDatum : Datum → Except Failure OptionLine
  | .text line =>
    match parse? line with
    | .ok read => .ok read
    | .error problem => .error (.cause (.invalidOption ⟨line, problem⟩ none))
  | _ => .error (.misuse .optionNotText)

/-- The values that words give to the arguments of a command. -/
def Signature.values (sig : Signature) (words : List Datum) : Except Failure (Assoc Text Datum) :=
  match sig.parseData words with
  | .ok values => .ok values
  | .error .notText => .error (.misuse .notWord)
  | .error (.fault fault) => .error (.cause (.argument sig.prog fault))

/-- The line in which a script receives data. -/
def Values.line (data : List (Datum × Datum)) : Except Failure Text :=
  match serializeData data with
  | .ok line => .ok line
  | .error (.notUtf8 key) => .error (.cause (.unencodableValue key))
  | .error (.mismatch .notText) => .error (.misuse .notWord)
  | .error (.mismatch .notTexts) => .error (.misuse .notWords)

/-- The line in which a script receives the values that words give to its arguments. -/
def Signature.line (sig : Signature) (words : List Datum) : Except Failure Text :=
  match sig.values words with
  | .error failure => .error failure
  | .ok values => Values.line (values.map fun entry => (.text entry.1, entry.2))

/-- The line that entries with keys of any kind give: a key that is written again keeps its place. -/
def Values.lineOfEntries (entries : List (Datum × Datum)) : Except Failure Text :=
  match Datum.table? entries with
  | some table => Values.line table
  | none => .error (.misuse .notKey)

/-- The command that runs the program at a path of any kind. -/
def Command.ofPath (path : Datum) (arguments : List Datum) : Except Failure Command :=
  match path with
  | .text path => .ok (.program (Path.ofText path).toText arguments)
  | _ => .error (.misuse .notPath)

end CommandTree
