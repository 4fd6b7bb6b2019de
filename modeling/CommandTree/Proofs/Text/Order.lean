import CommandTree.Text.Basic
import Mathlib.Data.List.Lex
import Mathlib.Order.Defs.LinearOrder

/-!
# The order of texts

`Text.before` is the lexicographic order of the codes of glyphs (`Text.before_iff`), and different texts
have different codes (`Text.codes_injective`): a stray byte is numbered by a surrogate, and no character is
one.  So the order is total on texts, which is what a list that is sorted by it needs.
-/

namespace CommandTree

theorem Glyph.code_injective : Function.Injective Glyph.code := by
  have hstray : ∀ (c : Char) (b : Fin 128), c.toNat ≠ 0xDC80 + b.val := by
    intro c b h
    have hvalid := c.valid
    have hval : c.val.toNat = 0xDC80 + b.val := h
    simp only [UInt32.isValidChar, Nat.isValidChar, hval] at hvalid
    omega
  intro g h hcode
  cases g with
  | char c =>
    cases h with
    | char d => rw [Char.toNat_inj.mp hcode]
    | stray b => exact absurd hcode (hstray c b)
  | stray a =>
    cases h with
    | char d => exact absurd hcode.symm (hstray d a)
    | stray b => rw [Fin.ext (Nat.add_left_cancel hcode)]

namespace Text

/-- The codes of the glyphs of a text. -/
def codes (text : Text) : List Nat :=
  text.map Glyph.code

theorem codes_injective : Function.Injective codes :=
  Glyph.code_injective.list_map

theorem before_iff {a b : Text} : before a b = true ↔ a.codes < b.codes := by
  induction a generalizing b with
  | nil => cases b <;> simp [before, codes]
  | cons g a ih =>
    cases b with
    | nil => simp [before, codes]
    | cons h b =>
      have hrest := @ih b
      simp only [codes] at hrest
      simp [before, codes, List.cons_lt_cons_iff, hrest]

/-- Not to come before is a total order, as sorting needs it. -/
theorem not_before_iff {a b : Text} : (!before b a) = true ↔ a.codes ≤ b.codes := by
  rw [Bool.not_eq_true', ← Bool.not_eq_true, before_iff, not_lt]

end Text

end CommandTree
