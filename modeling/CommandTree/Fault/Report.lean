import CommandTree.Fault.Cause
import CommandTree.Text.Console

/-!
# Reports

A fault is reported to a user in lines:

    prog: message
      detail
     → hint

with one line for each detail, and the last line only where there is a hint.  The context of a fault
says how it is reported: the name of the program (`prog`), the details, the hint, other styles
(`styles`), and whether styles are used at all (`colorful`).

The lines are printed whole: a console is taken to be wide enough for them (`CommandTree.Text.Console`).

`Report.lines` writes a report.  `Report.ofFault?` reads one off the context of any fault and
`Report.ofCause` makes the one of a cause.
-/

namespace CommandTree

namespace Report

/-- The parts of a report that have a style of their own. -/
inductive Role where
  | prog
  | message
  | detail
  | arrow
  | hint
deriving DecidableEq

/-- The word by which a role is given another style. -/
def Role.word : Role → Text
  | prog => "prog-name"
  | message => "message"
  | detail => "detail"
  | arrow => "hint-arrow"
  | hint => "hint"

/-- The styles of errors. -/
def errorStyle : Role → Style
  | .prog => "bold #E6E6F0"
  | .message => "#FF4DA6"
  | .detail => "#C8C8D0"
  | .arrow => "#9CE19C dim"
  | .hint => "italic #9CE19C"

/-- The styles of warnings. -/
def warningStyle : Role → Style
  | .prog => "bold #E6E6F0"
  | .message => "#FFB400"
  | .detail => "#D6D6DE"
  | .arrow => "#B8EFAF dim"
  | .hint => "italic #B8EFAF"

end Report

/-- All that is said about a fault. -/
structure Report where
  prog : Datum
  message : Text
  details : List Datum
  hint : Datum
  style : Report.Role → Style
  colorful : Bool

namespace Report

/-- The name under which the program reports what concerns no command. -/
def usualProg : Text := "sub"

/-! ## Writing reports -/

/-- A part of a report in the style of its role. -/
def part (report : Report) (role : Role) (datum : Datum) : Styled :=
  datum.fragment report.colorful (report.style role)

/-- The line with the message. -/
def headLine (report : Report) : Styled :=
  report.part .prog report.prog ++ Styled.bare ": " ++ report.part .message (.text report.message)

/-- The line of a detail. -/
def detailLine (report : Report) (detail : Datum) : Styled :=
  Styled.bare "  " ++ report.part .detail detail

/-- The line with the hint, where there is one. -/
def hintLines (report : Report) : List Styled :=
  if report.hint.truthy then
    [report.part .arrow (.text " → ") ++ report.part .hint report.hint]
  else []

/-- The lines of a report. -/
def lines (report : Report) : List Styled :=
  report.headLine :: report.details.map report.detailLine ++ report.hintLines

/-- What a console shows of a report, if it is as wide as the longest line. -/
def print (console : Console) (report : Report) : Text :=
  report.lines.flatMap console.print

/-! ## Reports of faults -/

/-- Why a fault cannot be reported. -/
inductive Objection where
  | detailsNotMany
  | stylesNotRecord
  | detailNotText
  /-- A style that is a number or a condition. -/
  | styleNoWord
  /-- A style that has parts. -/
  | styleNotSimple
  /-- A console that is none. -/
  | notConsole
  /-- A detail under the name of the fault itself. -/
  | selfNamed
deriving DecidableEq

/-- The details in the context of a fault. -/
def detailsOf (fault : Fault) : Except Objection (List Datum) :=
  match fault.datum? "details" with
  | none => .ok []
  | some details =>
    match details.items? with
    | some items => .ok items
    | none => .error .detailsNotMany

/-- The style that a datum names. -/
def namedStyle : Datum → Style
  | .text style => style
  | other => if other.truthy then other.display else []

/-- The styles of a fault: those of its kind, unless its context names others. -/
def styleOf (fault : Fault) : Except Objection (Role → Style) :=
  let usual := if fault.kind.isWarning then warningStyle else errorStyle
  match fault.datum? "styles" with
  | none => .ok usual
  | some (.record fields) =>
    .ok fun role => ((List.lookup role.word fields).map namedStyle).getD (usual role)
  | some _ => .error .stylesNotRecord

/-- What a console objects to in the style that a datum names; it takes texts only, and nothing that is false
names a style. -/
def styleObjection? (style : Datum) : Option Objection :=
  if style.truthy then
    match style with
    | .text _ => none
    | .styled _ _ | .list _ | .set _ | .record _ => some .styleNotSimple
    | _ => some .styleNoWord
  else none

/-- Whether a datum needs the style of its role where it is shown: it has no style of its own, and a glyph
of it stands in a line. -/
def needsStyle (datum : Datum) : Bool :=
  match datum with
  | .styled _ _ => false
  | other => (Styled.plain (other.fragment true [])).any fun g => g ≠ .char '\n'

/-- The parts of a report with their roles, in order. -/
def parts (report : Report) : List (Role × Datum) :=
  (.prog, report.prog) :: (.message, .text report.message) ::
    report.details.map (Prod.mk .detail) ++
    (if report.hint.truthy then [(.arrow, .text " → "), (.hint, report.hint)] else [])

/-- What a console objects to first in the report of a fault: the style in its context of a part that needs
one. -/
def objection? (fault : Fault) (report : Report) : Option Objection :=
  match fault.datum? "styles" with
  | some (.record fields) =>
    if report.colorful then
      report.parts.findSome? fun part =>
        if needsStyle part.2 then (List.lookup part.1.word fields).bind styleObjection? else none
    else none
  | _ => none

/-- The report of a fault; a quiet one has none. -/
def ofFault? (fault : Fault) : Except Objection (Option Report) :=
  match styleOf fault with
  | .error objection => .error objection
  | .ok style =>
    if fault.kind.isQuiet then .ok none
    else
      match detailsOf fault with
      | .error objection => .error objection
      | .ok details =>
        .ok (some
          { prog := (fault.datum? "prog").getD (.text usualProg)
            message := fault.message
            details
            hint := (fault.datum? "hint").getD .none
            style
            colorful := fault.affirms "colorful" true })

/-- The report of a cause. -/
def ofCause (prog : Text) (cause : Cause) : Report :=
  { prog := .text prog
    message := cause.message
    details := cause.details.map .text
    hint := (cause.hint?.map Datum.text).getD .none
    style := errorStyle
    colorful := true }

/-- The report of a skipped option line. -/
def ofSkipped (prog : Text) (line : OptionLine.Skipped) : Report :=
  { prog := .text prog
    message := (Cause.skipped line).message
    details := [.text line.problem.describe]
    hint := .none
    style := warningStyle
    colorful := true }

end Report

/-- A fault in one line: its message, and for an error the details after it. -/
def Fault.summarize (fault : Fault) : Except Report.Objection Text :=
  if fault.kind.isWarning then .ok fault.message
  else
    match Report.detailsOf fault with
    | .error objection => .error objection
    | .ok details =>
      match details.mapM Datum.text? with
      | some texts => .ok (Text.join "; " (fault.message :: texts))
      | none => .error .detailNotText

end CommandTree
