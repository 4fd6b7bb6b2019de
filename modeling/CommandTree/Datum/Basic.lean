import CommandTree.Assoc
import CommandTree.Text.Quoted
import CommandTree.Text.Styled

/-!
# Data of any kind

Some entry points take whatever they are given and check it themselves: the fields of a declaration,
the context of a fault, the fields of a configuration.  A `Datum` is such a value.

`Datum.unset` marks a field that was not given where absence and `Datum.none` mean different things.

* `Datum.truthy` is the reading of a datum as a condition.
* `Datum.quoted` shows a datum inside a message, with quotes around texts.
* `Datum.display` shows a datum by itself, a text as it is.
-/

namespace CommandTree

/-- A value of any kind.  `decimal negative digits places` is the number `digits / 10 ^ places` with a sign,
which zero has as well. -/
inductive Datum where
  | none
  | unset
  | bool (value : Bool)
  | int (value : Int)
  | decimal (negative : Bool) (digits places : Nat)
  | text (value : Text)
  | styled (value : Text) (style : Style)
  | list (items : List Datum)
  | set (items : List Datum)
  | record (fields : List (Text × Datum))

namespace Datum

/-- A datum read as a condition: nothing, zero and whatever is empty are false. -/
def truthy : Datum → Bool
  | none => false
  | unset => false
  | bool value => value
  | int value => value != 0
  | decimal _ digits _ => digits != 0
  | text value => !value.isEmpty
  | styled value _ => !(value.filter Styled.isShown).isEmpty
  | list items => !items.isEmpty
  | set items => !items.isEmpty
  | record fields => !fields.isEmpty

/-- Another datum in place of one that was not given. -/
def orElse (datum fallback : Datum) : Datum :=
  match datum with
  | unset => fallback
  | given => given

/-- Nothing in place of a datum that is false. -/
def ifTrue (datum : Datum) : Datum :=
  if datum.truthy then datum else none

/-- The datum that there is, if it is one; nothing else counts as being there. -/
def present? : Option Datum → Option Datum
  | some none => Option.none
  | other => other

/-! ## Decimal numbers -/

/-- The digits of a number without the zeros at their end, and the places that are left. -/
def reduce : (fuel digits places : Nat) → Nat × Nat
  | 0, digits, places => (digits, places)
  | fuel + 1, digits, places =>
    if 0 < places ∧ digits % 10 = 0 then reduce fuel (digits / 10) (places - 1) else (digits, places)

/-- A number below 10^16 and from 10^-4 on, with a point and at least one digit on either side. -/
def positional (digits : Text) (places : Nat) : Text :=
  let padded := List.replicate (places + 1 - digits.length) (.char '0') ++ digits
  let whole := padded.take (padded.length - places)
  let fraction := padded.drop (padded.length - places)
  whole ++ "." ++ (if fraction = [] then Text.lit "0" else fraction)

/-- A number as one digit, the further digits after a point, and a power of ten of at least two
digits. -/
def scientific (digits : Text) (exponent : Int) : Text :=
  let significant := digits.dropEndWhile fun g => g = .char '0'
  let mantissa := match significant with
    | [] => Text.lit "0"
    | [g] => [g]
    | g :: rest => g :: .char '.' :: rest
  let size := Text.ofNat exponent.natAbs
  mantissa ++ (if exponent < 0 then Text.lit "e-" else Text.lit "e+") ++
    (if size.length < 2 then Text.lit "0" ++ size else size)

/-- How a decimal number is written: positionally from 10^-4 up to 10^16, else with a power of
ten. -/
def showDecimal (negative : Bool) (digits places : Nat) : Text :=
  let (size, places) := reduce places digits places
  let written := Text.ofNat size
  let exponent : Int := (written.length : Int) - places - 1
  let sign : Text := if negative then Text.lit "-" else []
  if size = 0 then sign ++ "0.0"
  else if -4 ≤ exponent ∧ exponent < 16 then sign ++ positional written places
  else sign ++ scientific written exponent

/-! ## Showing data -/

/-- How a condition is shown. -/
def showBool (value : Bool) : Text :=
  if value then "True" else "False"

mutual

/-- A datum as it stands inside a message. -/
def quoted : Datum → Text
  | none => "None"
  | unset => "Unset"
  | bool value => showBool value
  | int value => Text.ofInt value
  | decimal negative digits places => showDecimal negative digits places
  | text value => value.quoted
  | styled value style =>
    "<text " ++ Text.quoted (value.filter Styled.isShown) ++ " [] " ++ style.quoted ++ ">"
  | list items => "[" ++ Text.join ", " (quotedAll items) ++ "]"
  | set [] => "set()"
  | set items => "\x7b" ++ Text.join ", " (quotedAll items) ++ "\x7d"
  | record fields => "\x7b" ++ Text.join ", " (quotedFields fields) ++ "\x7d"

/-- Each of some data as it stands inside a message. -/
def quotedAll : List Datum → List Text
  | [] => []
  | datum :: rest => quoted datum :: quotedAll rest

/-- Each field of a record as it stands inside a message. -/
def quotedFields : List (Text × Datum) → List Text
  | [] => []
  | (key, datum) :: rest => (key.quoted ++ ": " ++ quoted datum) :: quotedFields rest

end

/-- A datum by itself: a text stands for itself, all else is shown as inside a message. -/
def display : Datum → Text
  | text value => value
  | styled value _ => value.filter Styled.isShown
  | other => other.quoted

/-- The text that a datum is. -/
def text? : Datum → Option Text
  | text value => some value
  | _ => .none

theorem mapM_text?_text (texts : List Text) : (texts.map text).mapM text? = some texts := by
  induction texts with
  | nil => rfl
  | cons text rest ih => simp [text?, ih]

/-- The data that a datum consists of: the items of a list, the glyphs of a text, the keys of a record. -/
def items? : Datum → Option (List Datum)
  | list items | set items => some items
  | text value => some (value.map fun g => text [g])
  | styled value _ => some ((value.filter Styled.isShown).map fun g => styled [g] [])
  | record fields => some (fields.map fun field => text field.1)
  | _ => .none

/-- The texts of which a datum is a list. -/
def texts? : Datum → Option (List Text)
  | list items => items.mapM text?
  | _ => .none

/-- A field of a record. -/
def field? (key : Text) : Datum → Option Datum
  | record fields => List.lookup key fields
  | _ => .none

/-- A datum in a style: one that is false shows nothing, one that has a style keeps it, any other is
shown in the given style.  Without colour no style is shown. -/
def fragment (colorful : Bool) (style : Style) (datum : Datum) : Styled :=
  if datum.truthy then
    match datum with
    | styled value own => Styled.span (if colorful then own else []) value
    | other => Styled.span (if colorful then style else []) other.display
  else []

end Datum

end CommandTree
