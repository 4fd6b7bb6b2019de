import CommandTree.Text.Basic

/-!
# Identifiers

The names of arguments, of long switches and of annotated options: an ASCII letter, then ASCII
letters, digits, underscores and dashes.  `Ident.span?` takes the longest identifier from the front of
a text and `Text.IsIdent` says that a whole text is one.

`Ident.span?_append` is what makes identifiers readable in a longer text: the reader stops exactly
where the identifier ends, provided the next glyph does not continue it.
-/

namespace CommandTree

namespace Glyph

/-- What may follow the first letter of an identifier. -/
def isIdentTail (g : Glyph) : Bool :=
  g.isAsciiLetter || g.isAsciiDigit || g = .char '_' || g = .char '-'

end Glyph

/-- The text is an identifier. -/
def Text.IsIdent : Text → Prop
  | [] => False
  | g :: rest => g.isAsciiLetter = true ∧ ∀ h ∈ rest, h.isIdentTail = true

instance : DecidablePred Text.IsIdent
  | [] => inferInstanceAs (Decidable False)
  | g :: rest =>
    inferInstanceAs (Decidable (g.isAsciiLetter = true ∧ ∀ h ∈ rest, h.isIdentTail = true))

namespace Ident

/-- The longest identifier at the front of a text, and what follows it. -/
def span? : Text → Option (Text × Text)
  | [] => none
  | g :: rest =>
    if g.isAsciiLetter then
      some (g :: rest.takeWhile Glyph.isIdentTail, rest.dropWhile Glyph.isIdentTail)
    else none

/-- Nothing is lost, and what is taken is an identifier. -/
theorem span?_sound {text name rest : Text} (h : span? text = some (name, rest)) :
    text = name ++ rest ∧ name.IsIdent ∧ ∀ g ∈ rest.head?, g.isIdentTail = false := by
  cases text with
  | nil => simp [span?] at h
  | cons g tail =>
    by_cases hg : g.isAsciiLetter
    · simp only [span?, hg, if_true, Option.some.injEq, Prod.mk.injEq] at h
      obtain ⟨rfl, rfl⟩ := h
      refine ⟨by simp, ⟨hg, fun x hx => ?_⟩, fun x hx => ?_⟩
      · exact List.all_eq_true.mp (List.all_takeWhile (p := Glyph.isIdentTail)) x hx
      · have := List.head?_dropWhile_not Glyph.isIdentTail tail
        cases hd : (tail.dropWhile Glyph.isIdentTail).head? with
        | none => simp [hd] at hx
        | some y => simp_all
    · simp [span?, hg] at h

/-- The reader takes the whole of an identifier and nothing more. -/
theorem span?_append {name rest : Text} (hname : name.IsIdent)
    (hrest : ∀ g ∈ rest.head?, g.isIdentTail = false) :
    span? (name ++ rest) = some (name, rest) := by
  cases name with
  | nil => exact absurd hname id
  | cons g tail =>
    have htail : ∀ x ∈ tail, x.isIdentTail = true := hname.2
    have htake : rest.takeWhile Glyph.isIdentTail = [] := by
      cases rest with
      | nil => rfl
      | cons a _ => simp [hrest a (by simp)]
    have hdrop : rest.dropWhile Glyph.isIdentTail = rest := by
      cases rest with
      | nil => rfl
      | cons a _ => simp [hrest a (by simp)]
    rw [List.cons_append, span?, if_pos hname.1, List.takeWhile_append_of_pos htail,
      List.dropWhile_append_of_pos htail, htake, hdrop, List.append_nil]

/-- Reading an identifier shortens the text. -/
theorem length_of_span? {text name rest : Text} (h : span? text = some (name, rest)) :
    rest.length < text.length := by
  obtain ⟨rfl, hname, -⟩ := span?_sound h
  cases name with
  | nil => exact absurd hname id
  | cons =>
    simp only [List.length_append, List.length_cons]
    omega

end Ident

end CommandTree
