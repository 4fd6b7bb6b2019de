/-!
# Texts

Every text that the library reads or writes is a `Text`, a list of `Glyph`s.  A glyph is a
character, or a `stray` byte: an argument or a file name is a byte string that need not be UTF-8, and
each byte that belongs to no character is kept as a glyph of its own, so that nothing is lost between
the place where an argument is read and the place where it is passed on or shown.

## Order

`Glyph.code` numbers the glyphs: a character by its code point, a stray byte `b` by `0xDC00 + b`.
`Text.before` is the order of these numbers, read from the left, and is the order in which names are
listed.

## Small operations

`Text.lit` writes a fixed text, `Text.ofNat` and `Text.ofInt` write numbers in decimal, `Text.join`
puts a separator between texts and `Text.splitAt` takes a text apart at every occurrence of a
separator.
-/

namespace CommandTree

/-- A character, or a byte (`0x80 + b`) that is not part of any character. -/
inductive Glyph where
  | char (c : Char)
  | stray (b : Fin 128)
deriving DecidableEq

namespace Glyph

instance : Coe Char Glyph := ⟨char⟩

/-- The number by which glyphs are ordered. -/
def code : Glyph → Nat
  | char c => c.toNat
  | stray b => 0xDC80 + b.val

/-- A stray byte is not encodable as UTF-8. -/
def isStray : Glyph → Bool
  | char _ => false
  | stray _ => true

/-- One of the letters `A` to `Z` and `a` to `z`. -/
def isAsciiLetter (g : Glyph) : Bool :=
  (65 ≤ g.code && g.code ≤ 90) || (97 ≤ g.code && g.code ≤ 122)

/-- One of the letters `A` to `Z`. -/
def isAsciiUpper (g : Glyph) : Bool :=
  65 ≤ g.code && g.code ≤ 90

/-- One of the digits `0` to `9`. -/
def isAsciiDigit (g : Glyph) : Bool :=
  48 ≤ g.code && g.code ≤ 57

/-- Whether a number lies in one of the ranges of a table, both ends included. -/
def inRanges (table : List (Nat × Nat)) (n : Nat) : Bool :=
  table.any fun range => range.1 ≤ n && n ≤ range.2

end Glyph

/-- A text is a list of glyphs. -/
abbrev Text := List Glyph

namespace Text

/-- A fixed text. -/
def lit (s : String) : Text :=
  s.toList.map Glyph.char

instance : Coe String Text := ⟨lit⟩

instance : LawfulBEq Text := inferInstance

/-- A number in decimal. -/
def ofNat (n : Nat) : Text :=
  (Nat.toDigits 10 n).map Glyph.char

/-- A number in decimal, a negative one after a minus sign. -/
def ofInt : Int → Text
  | .ofNat n => ofNat n
  | .negSucc n => .char '-' :: ofNat (n + 1)

/-- `a` comes strictly before `b` in the order of codes. -/
def before : Text → Text → Bool
  | _, [] => false
  | [], _ :: _ => true
  | g :: a, h :: b => g.code < h.code || (g.code = h.code && before a b)

/-- The texts, with `separator` between neighbours. -/
def join (separator : Text) (parts : List Text) : Text :=
  separator.intercalate parts

/-- The parts between the occurrences of `separator`; always at least one. -/
def splitAt (separator : Glyph) : Text → List Text
  | [] => [[]]
  | g :: rest =>
    if g = separator then [] :: splitAt separator rest
    else
      match splitAt separator rest with
      | [] => [[g]]
      | part :: parts => (g :: part) :: parts

/-- What stands before the first `mark`, and what stands after it if there is one. -/
def cutAt (mark : Glyph) : Text → Text × Option Text
  | [] => ([], none)
  | g :: rest =>
    if g = mark then ([], some rest)
    else ((g :: (cutAt mark rest).1), (cutAt mark rest).2)

/-- What follows `opening` at the front of a text, if the text starts with it. -/
def after? : (opening text : Text) → Option Text
  | [], text => some text
  | _ :: _, [] => none
  | g :: opening, h :: text => if g = h then after? opening text else none

/-- Whether a text starts with another. -/
def startsWith (opening text : Text) : Bool :=
  (after? opening text).isSome

/-- The text filled up with spaces to at least `width` glyphs. -/
def padTo (width : Nat) (text : Text) : Text :=
  text ++ List.replicate (width - text.length) (.char ' ')

/-- The text without the glyphs of a class at its end. -/
def dropEndWhile (p : Glyph → Bool) (text : Text) : Text :=
  (text.reverse.dropWhile p).reverse

theorem after?_eq_some_iff {opening text rest : Text} :
    after? opening text = some rest ↔ text = opening ++ rest := by
  induction opening generalizing text with
  | nil => simp [after?]
  | cons g opening ih =>
    cases text with
    | nil => simp [after?]
    | cons h text =>
      by_cases hg : g = h
      · subst hg
        simp [after?, ih]
      · have hne : h ≠ g := fun e => hg e.symm
        simp [after?, hg, hne]

@[simp] theorem after?_append (opening rest : Text) : after? opening (opening ++ rest) = some rest :=
  after?_eq_some_iff.mpr rfl

theorem cutAt_append {mark : Glyph} {pre : Text} (h : mark ∉ pre) (rest : Text) :
    cutAt mark (pre ++ mark :: rest) = (pre, some rest) := by
  induction pre with
  | nil => simp [cutAt]
  | cons g pre ih =>
    obtain ⟨hg, hpre⟩ : ¬mark = g ∧ mark ∉ pre := by simpa using h
    have hne : g ≠ mark := fun e => hg e.symm
    simp [cutAt, hne, ih hpre]

theorem cutAt_eq_self {mark : Glyph} {text : Text} (h : mark ∉ text) : cutAt mark text = (text, none) := by
  induction text with
  | nil => rfl
  | cons g rest ih =>
    obtain ⟨hg, hrest⟩ : ¬mark = g ∧ mark ∉ rest := by simpa using h
    have hne : g ≠ mark := fun e => hg e.symm
    simp [cutAt, hne, ih hrest]

/-- A text either holds no mark or is cut at its first one. -/
theorem cutAt_cases (mark : Glyph) (text : Text) :
    (mark ∉ text ∧ cutAt mark text = (text, none)) ∨
      ∃ pre rest, mark ∉ pre ∧ text = pre ++ mark :: rest ∧ cutAt mark text = (pre, some rest) := by
  by_cases h : mark ∈ text
  · obtain ⟨pre, rest, rfl, hpre⟩ := List.eq_append_cons_of_mem h
    exact .inr ⟨pre, rest, hpre, rfl, cutAt_append hpre rest⟩
  · exact .inl ⟨h, cutAt_eq_self h⟩

/-- Before every part but the first stands the separator. -/
theorem join_cons (separator part : Text) (parts : List Text) :
    join separator (part :: parts) = part ++ parts.flatMap fun next => separator ++ next := by
  induction parts generalizing part with
  | nil => simp [join]
  | cons next parts ih =>
    have hnext := ih next
    rw [join] at hnext ⊢
    rw [List.intercalate_cons_cons, hnext]
    simp

end Text

end CommandTree
