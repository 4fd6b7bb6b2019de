import CommandTree.Text.Styled
import CommandTree.Text.Width

/-!
# Consoles

A console turns a styled text into the text that is written.  A line feed ends each line.  A line is
written in pieces: tabs become spaces up to the next multiple of `tabStop` columns, and each ends a
piece.  A console that shows styles puts the escape sequence of its style before each run of a piece and
the reset sequence after it.

A style is read word by word: `bold`, `dim` and `italic` have numbers, `#RRGGBB` is a colour given by
its three components.  The numbers are written in that order whatever the order of the words.

A console has no width here: it is taken to be as wide as the longest line that it prints, and no line is
folded.  Of texts that are printed as they are, such as help, this is what is meant.  The report of a fault
(`CommandTree.Fault.Report`) is folded by a console that is narrower than it; that is left out.
-/

namespace CommandTree

/-- When output is coloured. -/
inductive ColorMode where
  | auto
  | always
  | never
deriving DecidableEq

namespace ColorMode

/-- The modes, in the order in which they are offered. -/
def all : List ColorMode :=
  [auto, always, never]

/-- The word for a mode. -/
def word : ColorMode → Text
  | auto => "auto"
  | always => "always"
  | never => "never"

/-- The mode of a word. -/
def ofWord? (text : Text) : Option ColorMode :=
  all.find? fun mode => mode.word = text

end ColorMode

namespace Style

/-- The number that two hexadecimal digits write. -/
def hexByte (high low : Glyph) : Nat :=
  digit high.code * 16 + digit low.code
where
  digit (n : Nat) : Nat :=
    if n < 58 then n - 48 else if n < 71 then n - 55 else n - 87

/-- The numbers of the escape sequence of a colour word. -/
def colourCode : Text → Option Text
  | [hash, r, r', g, g', b, b'] =>
    if hash = .char '#' then
      some ("38;2;" ++ Text.join ";" ([hexByte r r', hexByte g g', hexByte b b'].map Text.ofNat))
    else none
  | _ => none

/-- The numbers of the escape sequence of a style. -/
def codes (style : Style) : List Text :=
  let words := Text.splitAt (.char ' ') style
  let flag (word : Text) (code : Text) : List Text := if words.contains word then [code] else []
  flag "bold" "1" ++ flag "dim" "2" ++ flag "italic" "3" ++ words.filterMap colourCode

/-- A piece of a line between the escape sequence of its style and the reset. -/
def paint (style : Style) (text : Text) : Text :=
  match codes style with
  | [] => text
  | codes => "\x1b[" ++ Text.join ";" codes ++ "m" ++ text ++ "\x1b[0m"

end Style

/-- Where a tab leads: to the next column that is a multiple of this. -/
def tabStop : Nat := 8

/-- A place where styled texts are printed. -/
structure Console where
  /-- Whether styles are shown. -/
  styled : Bool
deriving DecidableEq

namespace Console

/-- The console of a color mode; it is not a terminal, so `auto` shows no styles. -/
def ofMode (mode : ColorMode) : Console :=
  ⟨mode = .always⟩

/-- A console without styles. -/
def plain : Console := ⟨false⟩

/-- The lines of a styled text; always at least one. -/
def lines : Styled → List Styled
  | [] => [[]]
  | (g, style) :: rest =>
    if g = .char '\n' then [] :: lines rest
    else
      match lines rest with
      | [] => [[(g, style)]]
      | line :: more => ((g, style) :: line) :: more

/-- The pieces of a line of which `column` columns are taken already: each but the last ends in a tab, and
stands here with the spaces of the tab instead.  The spaces have the style of the tab. -/
def pieces : (column : Nat) → Styled → List Styled
  | _, [] => [[]]
  | column, (g, style) :: rest =>
    if g = .char '\t' then
      let width := tabStop - column % tabStop
      List.replicate width (.char ' ', style) :: pieces (column + width) rest
    else
      match pieces (column + g.columns) rest with
      | [] => [[(g, style)]]
      | piece :: more => ((g, style) :: piece) :: more

/-- What is written for a piece of a line. -/
def piece (console : Console) (styled : Styled) : Text :=
  if console.styled then (Styled.runs styled).flatMap fun run => Style.paint run.2 run.1
  else Styled.plain styled

/-- What is written for one line. -/
def line (console : Console) (styled : Styled) : Text :=
  (pieces 0 styled).flatMap console.piece

/-- What is written for a styled text: its lines, each with a line feed. -/
def print (console : Console) (styled : Styled) : Text :=
  (lines styled).flatMap fun l => console.line l ++ [.char '\n']

end Console

end CommandTree
