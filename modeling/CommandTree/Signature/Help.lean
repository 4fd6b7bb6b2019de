import CommandTree.Signature.Basic

/-!
# Usage and help

The one-line usage of a command and its full help, as styled texts.

The help of a command is a list of sections with an empty line between neighbours: the usage, the
summary, the arguments, the options, and the description.  A section without content is left out.  In
both lists the descriptions start in one column, four beyond the longest label of the command.
-/

namespace CommandTree

namespace Signature

/-! ## Styles -/

def usageLabelStyle : Style := "bold #00E6FF"
def programStyle : Style := "bold #FF4D94"
def summaryStyle : Style := "bold"
def descriptionStyle : Style := "italic #A3A3A3"
def groupStyle : Style := "bold #FFFFFF"
def argumentDescriptionStyle : Style := "#9CA3AF"
def cardinalStyle : Style := "bold #36C5F0"
def greedyStyle : Style := "bold italic #FFD600"
def optionStyle : Style := "bold #00E6FF"
def flagStyle : Style := "bold #22C55E"
def metavarStyle : Style := "bold #FFD600"

end Signature

/-- A description in a given style, unless it has one of its own. -/
def Description.render (style : Style) : Description → Styled
  | plain text => Styled.span style text
  | styled text own => Styled.span own text

namespace Declaration

/-- The name of a cardinal, in the style of its kind. -/
def nameSpan (greedy : Bool) (name : Text) : Styled :=
  Styled.span (if greedy then Signature.greedyStyle else Signature.cardinalStyle) name

/-- What follows the closing bracket of a greedy cardinal. -/
def ellipsisSpan (greedy : Bool) : Styled :=
  if greedy then Styled.bare "..." else []

/-- An argument as it is named in help and in messages. -/
def label (d : Declaration) : Styled :=
  match d.kind with
  | .cardinal greedy =>
    Styled.bare "<" ++ nameSpan greedy d.name ++ Styled.bare ">" ++ ellipsisSpan greedy
  | .option metavar =>
    Styled.span Signature.optionStyle d.name ++ Styled.bare "=" ++
      Styled.span Signature.metavarStyle metavar
  | .flag => Styled.span Signature.flagStyle d.name

/-- An argument as it stands in a usage line: in brackets unless it is required. -/
def usageToken (d : Declaration) : Styled :=
  if d.required then d.label
  else
    match d.kind with
    | .cardinal greedy =>
      Styled.bare "[" ++ nameSpan greedy d.name ++ Styled.bare "]" ++ ellipsisSpan greedy
    | _ => Styled.bare "[" ++ d.label ++ Styled.bare "]"

end Declaration

namespace Signature

/-- What a usage line says before the arguments. -/
def usageHead (prog : Text) : Styled :=
  Styled.span usageLabelStyle "Usage" ++ Styled.bare ": " ++ Styled.span programStyle prog

/-- The one-line usage. -/
def usage (sig : Signature) : Styled :=
  usageHead sig.prog ++ sig.declarations.flatMap fun d => Styled.bare " " ++ d.usageToken

/-- The column, counted from the label, in which the descriptions of arguments start. -/
def descriptionColumn (sig : Signature) : Nat :=
  (sig.declarations.map fun d => d.label.length).foldl max 0 + 4

/-- The line of an argument in a list; the description stands in its column. -/
def argumentLine (column : Nat) (d : Declaration) : Styled :=
  let indented := Styled.bare "\n    " ++ d.label
  match d.description with
  | none => indented
  | some text =>
    if text.datum.truthy then
      indented ++ Styled.bare (List.replicate (column - d.label.length) (.char ' ')) ++
        text.render argumentDescriptionStyle
    else indented

/-- A list of arguments under a title; none without arguments. -/
def argumentSection (column : Nat) (title : Text) (arguments : List Declaration) : List Styled :=
  if arguments = [] then []
  else
    [Styled.span groupStyle title ++ Styled.bare ":" ++ arguments.flatMap (argumentLine column)]

/-- The section of what is said about the command; none where nothing is said. -/
def remarkSection (style : Style) (said : Datum) : List Styled :=
  if said.truthy then [said.fragment true style] else []

/-- The sections of the help. -/
def sections (sig : Signature) : List Styled :=
  [sig.usage] ++ remarkSection summaryStyle sig.summary ++
    argumentSection sig.descriptionColumn "Arguments" sig.cardinals ++
    argumentSection sig.descriptionColumn "Options" sig.switches ++
    remarkSection descriptionStyle sig.description

/-- The full help. -/
def help (sig : Signature) : Styled :=
  Styled.join (Styled.bare "\n\n") sig.sections

end Signature

end CommandTree
