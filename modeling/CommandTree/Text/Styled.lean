import CommandTree.Text.Basic

/-!
# Styled texts

A styled text gives every glyph the style in which a terminal shows it.  Appending is the appending of
lists, `Styled.plain` forgets the styles, and `Styled.runs` collects neighbours of one style.

A terminal has no glyph for the controls that ring or move its cursor (U+0007, U+0008, U+000B, U+000C
and U+000D), so they are left out when a text is given a style.
-/

namespace CommandTree

/-- The description of a style in the words of a terminal, such as `bold #36C5F0`; the empty text is no
style. -/
abbrev Style := Text

/-- A text whose every glyph has a style. -/
abbrev Styled := List (Glyph × Style)

namespace Styled

/-- Whether a glyph is kept in a styled text. -/
def isShown (g : Glyph) : Bool :=
  !(g.code == 7 || g.code == 8 || g.code == 11 || g.code == 12 || g.code == 13)

/-- A text in one style. -/
def span (style : Style) (text : Text) : Styled :=
  (text.filter isShown).map fun g => (g, style)

/-- A text in no style. -/
def bare (text : Text) : Styled :=
  span [] text

/-- The glyphs without their styles. -/
def plain (styled : Styled) : Text :=
  styled.map Prod.fst

/-- The longest pieces in one style, from left to right. -/
def runs : Styled → List (Text × Style)
  | [] => []
  | (g, style) :: rest =>
    match runs rest with
    | [] => [([g], style)]
    | (text, next) :: more =>
      if next = style then (g :: text, style) :: more else ([g], style) :: (text, next) :: more

/-- Texts with a separator between neighbours. -/
def join (separator : Styled) (parts : List Styled) : Styled :=
  separator.intercalate parts

@[simp] theorem plain_append (a b : Styled) : plain (a ++ b) = plain a ++ plain b := by
  simp [plain]

theorem plain_span (style : Style) (text : Text) : plain (span style text) = text.filter isShown := by
  simp [plain, span, Function.comp_def]

end Styled

end CommandTree
