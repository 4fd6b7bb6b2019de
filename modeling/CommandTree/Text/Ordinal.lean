import CommandTree.Text.Basic

/-!
# Ordinal numbers in words

Messages count the arguments of a command line: `first` to `tenth`, then digits with the English
ending.  The ending depends on the last two digits, that is on the remainder modulo 100 that is never
negative, so that every integer has one.
-/

namespace CommandTree

/-- The ordinals that have a word of their own, from one on. -/
def ordinalWords : List String :=
  ["first", "second", "third", "fourth", "fifth", "sixth", "seventh", "eighth", "ninth", "tenth"]

/-- The ending of an ordinal written in digits: 11 to 19 take `th` whatever their last digit. -/
def ordinalEnding (n : Int) : String :=
  if 10 < n % 100 ∧ n % 100 < 20 then "th"
  else if n % 10 = 1 then "st"
  else if n % 10 = 2 then "nd"
  else if n % 10 = 3 then "rd"
  else "th"

/-- The ordinal of a number. -/
def ordinal (n : Int) : Text :=
  if 1 ≤ n ∧ n ≤ 10 then
    match ordinalWords[(n - 1).toNat]? with
    | some word => Text.lit word
    | none => Text.ofInt n ++ Text.lit (ordinalEnding n)
  else Text.ofInt n ++ Text.lit (ordinalEnding n)

end CommandTree
