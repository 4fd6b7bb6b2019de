/-!
# Numbers of limited precision

A decimal number is held with 53 binary digits, none of which counts less than `2 ^ -1074`.  What is held is
the nearest such number, and of two that are equally near the one whose last digit is even.

`Binary.nearest` is the number that is held in place of a fraction.
-/

namespace CommandTree

namespace Binary

/-- How many binary digits a number has. -/
def precision : Nat := 53

/-- The exponent of the smallest unit. -/
def smallestExponent : Int := -1074

/-- `n / d` as a whole number: the nearest one, or the even one of two. -/
def roundEven (n d : Nat) : Nat :=
  if d < 2 * (n % d) ∨ (d = 2 * (n % d) ∧ n / d % 2 = 1) then n / d + 1 else n / d

/-- `n / d` as a fraction of units of `2 ^ exponent`. -/
def inUnits (n d : Nat) (exponent : Int) : Nat × Nat :=
  (n <<< (-exponent).toNat, d <<< exponent.toNat)

/-- The exponent of the unit in which `n / d` has as many digits before the point as a number may have. -/
def unitExponent (n d : Nat) : Int :=
  let exponent : Int := n.log2 - d.log2 - (precision - 1 : Nat)
  let (size, unit) := inUnits n d exponent
  max smallestExponent (if size < unit <<< (precision - 1) then exponent - 1 else exponent)

/-- The number that is held in place of `n / d`, as a fraction. -/
def nearest (n d : Nat) : Nat × Nat :=
  let exponent := unitExponent n d
  let (size, unit) := inUnits n d exponent
  (roundEven size unit <<< exponent.toNat, 1 <<< (-exponent).toNat)

end Binary

end CommandTree
