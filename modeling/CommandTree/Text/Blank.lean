import CommandTree.Text.Basic

/-!
# Blank glyphs

The glyphs that separate words: the white space of the Unicode standard together with the four
information separators U+001C to U+001F.  `Glyph.isBlank` is the class, `Text.trimStart`,
`Text.trimEnd` and `Text.trim` take blanks away at the ends of a text, and `Text.IsTrimmed` says that
there are none.

`Text.trim_eq_self_iff` states that trimming leaves exactly the trimmed texts alone.
-/

namespace CommandTree

namespace Glyph

/-- The code points of the blank glyphs. -/
def blankRanges : List (Nat × Nat) :=
  [(0x0009, 0x000D), (0x001C, 0x0020), (0x0085, 0x0085), (0x00A0, 0x00A0), (0x1680, 0x1680),
   (0x2000, 0x200A), (0x2028, 0x2029), (0x202F, 0x202F), (0x205F, 0x205F), (0x3000, 0x3000)]

/-- White space, which separates words and is trimmed from the ends of a text. -/
def isBlank (g : Glyph) : Bool :=
  inRanges blankRanges g.code

end Glyph

namespace Text

/-- The text without the blanks at its start. -/
def trimStart (text : Text) : Text :=
  text.dropWhile Glyph.isBlank

/-- The text without the blanks at its end. -/
def trimEnd (text : Text) : Text :=
  text.dropEndWhile Glyph.isBlank

/-- The text without the blanks at its ends. -/
def trim (text : Text) : Text :=
  text.trimStart.trimEnd

/-- Neither the first nor the last glyph is blank. -/
def IsTrimmed (text : Text) : Prop :=
  (∀ g ∈ text.head?, g.isBlank = false) ∧ ∀ g ∈ text.getLast?, g.isBlank = false

theorem trimStart_eq_self {text : Text} (h : ∀ g ∈ text.head?, g.isBlank = false) :
    text.trimStart = text := by
  cases text with
  | nil => rfl
  | cons g rest => simp [trimStart, h g (by simp)]

theorem trimEnd_eq_self {text : Text} (h : ∀ g ∈ text.getLast?, g.isBlank = false) :
    text.trimEnd = text := by
  have hr : text.reverse.dropWhile Glyph.isBlank = text.reverse :=
    @trimStart_eq_self text.reverse (by simpa using h)
  rw [trimEnd, dropEndWhile, hr, List.reverse_reverse]

theorem head?_trimStart (text : Text) : ∀ g ∈ text.trimStart.head?, g.isBlank = false := by
  intro g hg
  induction text with
  | nil => simp [trimStart] at hg
  | cons a rest ih =>
    cases ha : a.isBlank
    · simp only [trimStart, List.dropWhile_cons, ha] at hg
      simp_all
    · exact ih (by simpa [trimStart, List.dropWhile_cons, ha] using hg)

theorem getLast?_trimEnd (text : Text) : ∀ g ∈ text.trimEnd.getLast?, g.isBlank = false := by
  intro g hg
  refine head?_trimStart text.reverse g ?_
  simpa [trimEnd, dropEndWhile, trimStart] using hg

/-- The first glyph survives the trimming of the end, unless nothing is left. -/
theorem head?_trimEnd (text : Text) (h : ∀ g ∈ text.head?, g.isBlank = false) :
    ∀ g ∈ text.trimEnd.head?, g.isBlank = false := by
  intro g hg
  have hpre : text.trimEnd <+: text := by
    have := List.dropWhile_suffix (l := text.reverse) Glyph.isBlank
    simpa [trimEnd, dropEndWhile] using List.reverse_prefix.mpr this
  obtain ⟨tail, htail⟩ := hpre
  refine h g ?_
  rw [← htail]
  cases hc : text.trimEnd with
  | nil => simp [hc] at hg
  | cons a rest => simpa [hc] using hg

/-- A trimmed text has no blank at its ends. -/
theorem isTrimmed_trim (text : Text) : text.trim.IsTrimmed :=
  ⟨head?_trimEnd _ (head?_trimStart text), getLast?_trimEnd _⟩

/-- Trimming leaves exactly the trimmed texts alone. -/
theorem trim_eq_self_iff {text : Text} : text.trim = text ↔ text.IsTrimmed := by
  constructor
  · intro h
    rw [← h]
    exact isTrimmed_trim text
  · intro h
    rw [trim, trimStart_eq_self h.1, trimEnd_eq_self h.2]

end Text

end CommandTree
