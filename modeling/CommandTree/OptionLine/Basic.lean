import CommandTree.Text.Blank
import CommandTree.Text.Ident
import CommandTree.Text.Quoted

/-!
# Option lines

A script describes its arguments in lines of the form

    name ("(" completion ")")? ":" description

with blanks allowed around every part.  The completion is the word `script`, when the script itself
is asked for the values of the argument, or a shell command between backquotes.

`OptionLine.parse?` reads such a line; of many, `OptionLine.accepted` keeps what the lines say that can be
read, and `OptionLine.skipped` the others.
-/

namespace CommandTree

/-- Where the values of an argument are found. -/
inductive Completion where
  /-- The script writes them when it is asked to. -/
  | script
  /-- A shell command writes them. -/
  | command (line : Text)
deriving DecidableEq

/-- The description of an argument: its key, where its values are found, and a sentence. -/
structure OptionLine where
  name : Text
  completion : Option Completion
  description : Option Text
deriving DecidableEq

namespace OptionLine

/-- Why an option line is refused. -/
inductive Cause where
  | expectedName (found : Option Glyph)
  | unclosedCommand
  | expectedCompletion (found : Option Glyph)
  | unclosedCompletion (found : Option Glyph)
  | expectedColon (found : Option Glyph)
deriving DecidableEq

/-- A cause and the position at which it was met. -/
structure Problem where
  position : Nat
  cause : Cause
deriving DecidableEq

/-- How a message names what stands at a position. -/
def foundText : Option Glyph → Text
  | some g => Text.quoted [g]
  | none => "end of line"

/-- The wording of a cause. -/
def Cause.message : Cause → Text
  | expectedName found => "expected an option name, found " ++ foundText found
  | unclosedCommand => "expected a closing '`' for the completion command"
  | expectedCompletion found =>
    "expected 'script' or a `command` completion, found " ++ foundText found
  | unclosedCompletion found => "expected ')' to close the completion, found " ++ foundText found
  | expectedColon found => "expected ':' after the option name, found " ++ foundText found

/-- The position and the wording in one sentence. -/
def Problem.describe (problem : Problem) : Text :=
  "at position " ++ Text.ofNat problem.position ++ ": " ++ problem.cause.message

/-- A reader: what it read and what follows, or why and where it stopped. -/
abbrev Scan (α : Type) := Text → Except (Cause × Text) (α × Text)

/-- The word for a completion by the script itself. -/
def scriptWord : Text := "script"

/-- The glyph around a completion command. -/
def backquote : Glyph := .char '\x60'

/-- A command, its opening backquote already read. -/
def closedCommand : Scan Completion := fun text =>
  match text.cutAt backquote with
  | (_, none) => .error (.unclosedCommand, [])
  | (line, some rest) => .ok (.command line.trim, rest)

/-- What may stand between the parentheses. -/
def scriptOrCommand : Scan Completion := fun text =>
  match Text.after? scriptWord text with
  | some rest => .ok (.script, rest)
  | none =>
    match text with
    | [] => .error (.expectedCompletion none, [])
    | g :: rest =>
      if g = backquote then closedCommand rest
      else .error (.expectedCompletion (some g), g :: rest)

/-- A completion between parentheses, the opening one already read. -/
def closedCompletion : Scan Completion := fun text =>
  match scriptOrCommand text.trimStart with
  | .error stop => .error stop
  | .ok (read, rest) =>
    match Text.trimStart rest with
    | .char ')' :: rest => .ok (read, rest)
    | rest => .error (.unclosedCompletion rest.head?, rest)

/-- A completion between parentheses, or nothing. -/
def parenthesised : Scan (Option Completion)
  | .char '(' :: rest =>
    match closedCompletion rest with
    | .error stop => .error stop
    | .ok (read, rest) => .ok (some read, Text.trimStart rest)
  | text => .ok (none, text)

/-- A description that says nothing is none. -/
def nonEmpty (text : Text) : Option Text :=
  if text = [] then none else some text

/-- A whole option line. -/
def wholeLine (line : Text) : Except (Cause × Text) OptionLine :=
  let start := line.trimStart
  match Ident.span? start with
  | none => .error (.expectedName start.head?, start)
  | some (name, rest) =>
    match parenthesised rest.trimStart with
    | .error stop => .error stop
    | .ok (completion, .char ':' :: rest) => .ok ⟨name, completion, nonEmpty (Text.trim rest)⟩
    | .ok (_, rest) => .error (.expectedColon rest.head?, rest)

/-- Reads an option line; the first problem where there is one. -/
def parse? (line : Text) : Except Problem OptionLine :=
  match wholeLine line with
  | .ok read => .ok read
  | .error (cause, stop) => .error ⟨line.length - stop.length, cause⟩

/-- A line that was refused, and its problem. -/
structure Skipped where
  line : Text
  problem : Problem
deriving DecidableEq

/-- The lines that can be read, in order. -/
def accepted (lines : List Text) : List OptionLine :=
  lines.filterMap fun line => (parse? line).toOption

/-- The lines that cannot be read, in order. -/
def skipped (lines : List Text) : List Skipped :=
  lines.filterMap fun line =>
    match parse? line with
    | .ok _ => none
    | .error problem => some ⟨line, problem⟩

end OptionLine

end CommandTree
