import CommandTree.Text.Blank
import CommandTree.Text.Ident
import CommandTree.Text.Letter

/-!
# Blanks and words

A text that consists of blanks (`Text.IsBlank`) is what trimming takes away: `Text.trimStart_eq_iff` says
what is left of a text that starts with blanks.

No blank is a letter or belongs to an identifier (`Glyph.isBlank_of_isLetter`, `Text.IsIdent.isBlank`), so
that a word ends where a blank stands.
-/

namespace CommandTree

namespace Glyph

variable {g : Glyph}

theorem code_of_isBlank (h : g.isBlank = true) : g.code ≤ 32 ∨ 133 ≤ g.code := by
  simp only [isBlank, inRanges, blankRanges, List.any_cons, List.any_nil, Bool.or_false, Bool.or_eq_true,
    Bool.and_eq_true, decide_eq_true_eq] at h
  omega

theorem code_of_isIdentTail (h : g.isIdentTail = true) : 45 ≤ g.code ∧ g.code ≤ 122 := by
  simp only [isIdentTail, isAsciiLetter, isAsciiDigit, Bool.or_eq_true, Bool.and_eq_true,
    decide_eq_true_eq] at h
  rcases h with ((h | h) | rfl) | rfl
  · omega
  · omega
  · decide
  · decide

/-- No blank belongs to an identifier. -/
theorem isIdentTail_of_isBlank (h : g.isBlank = true) : g.isIdentTail = false := by
  cases htail : g.isIdentTail with
  | false => rfl
  | true =>
    have hblank := code_of_isBlank h
    have hword := code_of_isIdentTail htail
    omega

theorem isIdentTail_of_isAsciiLetter (h : g.isAsciiLetter = true) : g.isIdentTail = true := by
  simp [isIdentTail, h]

theorem isAsciiLetter_of_isAsciiUpper (h : g.isAsciiUpper = true) : g.isAsciiLetter = true := by
  simp only [isAsciiUpper, isAsciiLetter, Bool.and_eq_true, Bool.or_eq_true, decide_eq_true_eq] at h ⊢
  omega

theorem inRanges_eq_false {table other : List (Nat × Nat)} {n : Nat}
    (h : ∀ range ∈ table, ∀ next ∈ other, range.2 < next.1 ∨ next.2 < range.1)
    (hn : inRanges table n = true) : inRanges other n = false := by
  simp only [inRanges, List.any_eq_true, List.any_eq_false, Bool.and_eq_true, decide_eq_true_eq] at hn ⊢
  obtain ⟨range, hrange, hlow, hhigh⟩ := hn
  intro next hnext
  have := h range hrange next hnext
  omega

/-- No letter is blank. -/
theorem isBlank_of_isLetter (h : g.isLetter = true) : g.isBlank = false := by
  simp only [isLetter, Bool.or_eq_true, Bool.and_eq_true] at h
  rcases h with hascii | ⟨-, hranges⟩
  · cases hblank : g.isBlank with
    | false => rfl
    | true =>
      have htail := isIdentTail_of_isAsciiLetter hascii
      rw [isIdentTail_of_isBlank hblank] at htail
      cases htail
  · exact inRanges_eq_false (by decide +kernel) hranges

theorem isBlank_of_isIdentTail (h : g.isIdentTail = true) : g.isBlank = false := by
  cases hblank : g.isBlank with
  | false => rfl
  | true =>
    rw [isIdentTail_of_isBlank hblank] at h
    cases h

end Glyph

namespace Text

variable {text blanks rest : Text}

/-- Whether a text consists of blanks. -/
def IsBlank (text : Text) : Prop :=
  ∀ g ∈ text, g.isBlank = true

/-- Trimming the start of a text takes blanks away, and all of them. -/
theorem trimStart_eq_iff :
    text.trimStart = rest ↔
      (∃ blanks : Text, blanks.IsBlank ∧ text = blanks ++ rest) ∧
        ∀ g ∈ rest.head?, g.isBlank = false := by
  constructor
  · rintro rfl
    refine ⟨⟨text.takeWhile Glyph.isBlank, fun g hg => ?_, List.takeWhile_append_dropWhile.symm⟩,
      head?_trimStart text⟩
    exact List.all_eq_true.mp (List.all_takeWhile (p := Glyph.isBlank)) g hg
  · rintro ⟨⟨blanks, hblanks, rfl⟩, hrest⟩
    rw [trimStart, List.dropWhile_append_of_pos hblanks]
    exact trimStart_eq_self hrest

theorem exists_trimStart (text : Text) : ∃ blanks : Text, blanks.IsBlank ∧ text = blanks ++ text.trimStart :=
  (trimStart_eq_iff.mp rfl).1

/-- Trimming the start stops at a glyph that is no blank. -/
theorem trimStart_append_cons {g : Glyph} (hblanks : blanks.IsBlank) (hg : g.isBlank = false) (rest : Text) :
    trimStart (blanks ++ g :: rest) = g :: rest :=
  trimStart_eq_iff.mpr ⟨⟨blanks, hblanks, rfl⟩, by simpa using hg⟩

theorem trimStart_eq_nil_iff : text.trimStart = [] ↔ text.IsBlank := by
  rw [trimStart_eq_iff]
  simp

theorem IsIdent.isBlank (h : text.IsIdent) : ∀ g ∈ text, g.isBlank = false := by
  cases text with
  | nil => exact absurd h id
  | cons first rest =>
    intro g hg
    rcases List.mem_cons.mp hg with rfl | hg
    · exact Glyph.isBlank_of_isIdentTail (Glyph.isIdentTail_of_isAsciiLetter h.1)
    · exact Glyph.isBlank_of_isIdentTail (h.2 g hg)

/-- An identifier starts with no blank. -/
theorem IsIdent.head_not_isBlank (h : text.IsIdent) (rest : Text) : ∀ g ∈ (text ++ rest).head?, g.isBlank = false := by
  cases text with
  | nil => exact absurd h id
  | cons first more =>
    intro g hg
    obtain rfl : first = g := by simpa using hg
    exact h.isBlank first List.mem_cons_self

end Text

end CommandTree
