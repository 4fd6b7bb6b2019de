import CommandTree.Text.Blank

/-!
# Documentation in comment blocks

A script, or the README of a directory, is documented by the comment lines at its top:

    #!/bin/sh                           ignored
    # Summary: Greets someone           the summary
    # Usage: {cmd} <name> [--loud]!     the usage line; indented lines continue it
    # Options:                          the option lines follow, indented
    #   name: who to greet
    #
    # Provide completions               the script answers `--complete`
    # All else is the description.

`Docs.ofLines` sorts the lines.  What a line means depends on the lines before it, through the
`Section` that they leave open: a usage line or an option list is open until a bare `#` or a line that
is not indented, and a description, once begun, stays open to the end.
-/

namespace CommandTree

/-- What the comment block of a script says. -/
structure Docs where
  summary : Option Text
  usage : Option Text
  options : List Text
  description : Option Text
  completes : Bool
deriving DecidableEq

namespace Docs

/-- Documentation that says nothing. -/
def none : Docs := ⟨.none, .none, [], .none, false⟩

/-- A comment line without a text. -/
def bareLine : Text := "#"

/-- What the line of a summary starts with. -/
def summaryOpening : Text := "# Summary: "

/-- What a usage line starts with. -/
def usageOpening : Text := "# Usage:"

/-- The line that opens an option list. -/
def optionsHeader : Text := "# Options:"

/-- The line that says that the script answers `--complete`. -/
def completionMarker : Text := "# Provide completions"

/-- A text that is one line, without its line feed if it ends in one. -/
def oneLine? (text : Text) : Option Text :=
  match text.cutAt (.char '\n') with
  | (line, .none) => some line
  | (line, some []) => some line
  | (_, some (_ :: _)) => .none

/-- The remainder of a line after an opening. -/
def remainder? (opening line : Text) : Option Text :=
  (Text.after? opening line).bind oneLine?

/-- The text of an indented comment line. -/
def indented? (line : Text) : Option Text :=
  (remainder? "#  " line).map Text.trim

/-- The text of a comment line. -/
def commented? (line : Text) : Option Text :=
  (remainder? "# " line).map Text.trim

/-- What the lines so far leave open. -/
inductive Section where
  | outside
  | usage
  | options
  | description
deriving DecidableEq

/-- What has been gathered from the lines so far. -/
structure Gathered where
  openSection : Section
  summary : Option Text
  usage : Option Text
  options : List Text
  description : List Text
  completes : Bool
deriving DecidableEq

namespace Gathered

/-- Nothing gathered yet. -/
def start : Gathered := ⟨.outside, .none, .none, [], [], false⟩

/-- A line where nothing is open. -/
def outside (g : Gathered) (line : Text) : Gathered :=
  if line = bareLine then { g with openSection := .outside }
  else
    match remainder? summaryOpening line with
    | some text => { g with openSection := .outside, summary := some text.trim }
    | .none =>
      if Text.startsWith usageOpening line then
        { g with openSection := .usage, usage := some line.trimEnd }
      else if line = optionsHeader then { g with openSection := .options }
      else
        match commented? line with
        | some text =>
          { g with openSection := .description, description := g.description ++ [text] }
        | .none => { g with openSection := .outside }

/-- A line where the usage line may be continued. -/
def inUsage (g : Gathered) (line : Text) : Gathered :=
  if line = bareLine then { g with openSection := .outside }
  else
    match indented? line with
    | some text => { g with usage := g.usage.map fun usage => usage ++ " " ++ text }
    | .none => g.outside line

/-- A line in an option list. -/
def inOptions (g : Gathered) (line : Text) : Gathered :=
  if line = bareLine then { g with openSection := .outside }
  else
    match indented? line with
    | some text => { g with options := g.options ++ [text] }
    | .none => g.outside line

/-- A line of the description. -/
def inDescription (g : Gathered) (line : Text) : Gathered :=
  if line = bareLine then { g with description := g.description ++ [[]] }
  else
    match commented? line with
    | some text => { g with description := g.description ++ [text] }
    | .none => g

/-- The next line; the completion marker is noted wherever it stands and changes nothing else. -/
def step (g : Gathered) (line : Text) : Gathered :=
  if line = completionMarker then { g with completes := true }
  else
    match g.openSection with
    | .outside => g.outside line
    | .usage => g.inUsage line
    | .options => g.inOptions line
    | .description => g.inDescription line

/-- The description lines as one text, without line feeds at its end. -/
def describe : List Text → Option Text
  | [] => .none
  | lines => some ((Text.join "\n" lines).dropEndWhile fun g => g = .char '\n')

/-- The documentation gathered. -/
def docs (g : Gathered) : Docs :=
  ⟨g.summary, g.usage, g.options, describe g.description, g.completes⟩

end Gathered

/-- The documentation in some comment lines. -/
def ofLines (lines : List Text) : Docs :=
  (lines.foldl Gathered.step Gathered.start).docs

end Docs

end CommandTree
