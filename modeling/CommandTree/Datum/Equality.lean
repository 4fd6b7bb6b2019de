import CommandTree.Datum.Basic

/-!
# Equality of data

Data are compared part by part.  `Datum.beq_iff` states that the comparison is equality, which makes it
decidable.
-/

namespace CommandTree

namespace Datum

mutual

/-- Whether two data are equal. -/
def beq : Datum → Datum → Bool
  | none, none => true
  | unset, unset => true
  | bool a, bool b => decide (a = b)
  | int a, int b => decide (a = b)
  | decimal n a p, decimal m b q => decide (n = m ∧ a = b ∧ p = q)
  | text a, text b => decide (a = b)
  | styled a s, styled b t => decide (a = b ∧ s = t)
  | list xs, list ys => beqAll xs ys
  | set xs, set ys => beqAll xs ys
  | record fs, record gs => beqFields fs gs
  | _, _ => false

/-- Whether two lists of data are equal. -/
def beqAll : List Datum → List Datum → Bool
  | [], [] => true
  | x :: xs, y :: ys => beq x y && beqAll xs ys
  | _, _ => false

/-- Whether the fields of two records are equal. -/
def beqFields : List (Text × Datum) → List (Text × Datum) → Bool
  | [], [] => true
  | (k, x) :: fs, (l, y) :: gs => decide (k = l) && beq x y && beqFields fs gs
  | _, _ => false

end

mutual

/-- Comparing part by part decides equality. -/
theorem beq_iff : (a b : Datum) → (beq a b = true ↔ a = b)
  | none, b | unset, b | bool _, b | int _, b | decimal _ _ _, b | text _, b | styled _ _, b => by
    cases b <;> simp [beq]
  | list xs, b => by cases b <;> simp [beq, beqAll_iff xs]
  | set xs, b => by cases b <;> simp [beq, beqAll_iff xs]
  | record fs, b => by cases b <;> simp [beq, beqFields_iff fs]

theorem beqAll_iff : (xs ys : List Datum) → (beqAll xs ys = true ↔ xs = ys)
  | [], ys => by cases ys <;> simp [beqAll]
  | x :: xs, ys => by cases ys <;> simp [beqAll, beq_iff x, beqAll_iff xs]

theorem beqFields_iff :
    (fs gs : List (Text × Datum)) → (beqFields fs gs = true ↔ fs = gs)
  | [], gs => by cases gs <;> simp [beqFields]
  | (k, x) :: fs, gs => by
    cases gs with
    | nil => simp [beqFields]
    | cons g gs => simp [beqFields, beq_iff x, beqFields_iff fs, Prod.ext_iff, and_assoc]

end

instance : DecidableEq Datum := fun a b =>
  decidable_of_iff _ (beq_iff a b)

end Datum

end CommandTree
