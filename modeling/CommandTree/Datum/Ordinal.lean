import CommandTree.Datum.Members
import CommandTree.Text.Ordinal

/-!
# Ordinals of data

The ordinal of a datum that counts as a number.  A number that is not whole is shown in digits and takes the
ending `th`.  Zeros of several spellings that are no whole numbers have one label, that of the first.

`Datum.ordinal?_int` states that whole numbers have their usual ordinal.
-/

namespace CommandTree

namespace Datum

/-- The ordinal of the number that a datum is. -/
def ordinal? (datum : Datum) : Option Text :=
  datum.number?.map fun (digits, unit) =>
    if digits % unit ≠ 0 then datum.display ++ "th"
    else if 1 ≤ digits / unit ∧ digits / unit ≤ 10 then ordinal (digits / unit)
    else datum.display ++ Text.lit (ordinalEnding (digits / unit))

theorem ordinal?_int (n : Int) : (int n).ordinal? = some (ordinal n) := by
  by_cases h : 1 ≤ n ∧ n ≤ 10 <;> simp [ordinal?, number?, ordinal, h, display, quoted]

/-- Whether a datum is zero and no whole number. -/
def isOtherZero : Datum → Bool
  | bool value => !value
  | decimal _ digits _ => digits = 0
  | _ => false

/-- The ordinals of some data. -/
def ordinals? (data : List Datum) : Option (List Text) :=
  data.mapM fun datum =>
    (if datum.isOtherZero then (data.find? isOtherZero).getD datum else datum).ordinal?

end Datum

end CommandTree
