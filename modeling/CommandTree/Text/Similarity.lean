import CommandTree.Text.Basic

/-!
# Close matches

An unknown name is answered with the known names that resemble it.  The resemblance of two texts is
twice the number of glyphs that their matching blocks hold, divided by the sum of their lengths: the
longest common block is found first, then the blocks to its left and to its right in the same way.
Names of a resemblance of at least 3/5 are close.  Resemblances are compared as exact fractions.

In a word of 200 glyphs or more the glyphs that make up more than a hundredth of it (and more than one
occurrence) start no block; they only extend one.
-/

namespace CommandTree

namespace Similarity

/-- Whether `g` occurs so often in a long word that no block may start at it. -/
def isFrequent (word : Text) (g : Glyph) : Bool :=
  200 ≤ word.length && word.length / 100 + 1 < word.count g

/-- A common block of two texts: where it starts in the first and in the second, and its size. -/
structure Block where
  first : Nat
  second : Nat
  size : Nat
deriving DecidableEq

/-- The lengths of the common blocks that end at `g` and at each glyph of `word`, from those that end
one glyph earlier. -/
def row (frequent : Glyph → Bool) (g : Glyph) (word : Text) (previous : List Nat) : List Nat :=
  (word.zip (0 :: previous)).map fun (h, size) => if g = h && !frequent h then size + 1 else 0

/-- The better of a block and the blocks that end at position `i` of the first text and, with the
given sizes, from position `j` of the second on; the earlier one wins a tie. -/
def bestInRow (i : Nat) : (j : Nat) → List Nat → Block → Block
  | _, [], best => best
  | j, size :: sizes, best =>
    bestInRow i (j + 1) sizes
      (if best.size < size then ⟨i + 1 - size, j + 1 - size, size⟩ else best)

/-- The longest common block, the glyphs of `text` from position `i` on still to be read. -/
def longestFrom (frequent : Glyph → Bool) (word : Text) :
    (i : Nat) → (text : Text) → (previous : List Nat) → Block → Block
  | _, [], _, best => best
  | i, g :: text, previous, best =>
    let sizes := row frequent g word previous
    longestFrom frequent word (i + 1) text sizes (bestInRow i 0 sizes best)

/-- The number of glyphs that two texts have in common at their starts. -/
def commonLength : Text → Text → Nat
  | g :: a, h :: b => if g = h then commonLength a b + 1 else 0
  | _, _ => 0

/-- The longest common block, extended at both ends over frequent glyphs. -/
def longestBlock (frequent : Glyph → Bool) (text word : Text) : Block :=
  let block := longestFrom frequent word 0 text (word.map fun _ => 0) ⟨0, 0, 0⟩
  let left := commonLength (text.take block.first).reverse (word.take block.second).reverse
  let right := commonLength (text.drop (block.first + block.size))
    (word.drop (block.second + block.size))
  ⟨block.first - left, block.second - left, left + block.size + right⟩

/-- The number of glyphs in the matching blocks of two texts.  A block lies inside the text, so the
parts to its left and right are shorter. -/
def matched (frequent : Glyph → Bool) (text word : Text) : Nat :=
  match longestBlock frequent text word with
  | ⟨i, j, size⟩ =>
    if _h : 0 < size ∧ i + size ≤ text.length then
      size + matched frequent (text.take i) (word.take j) +
        matched frequent (text.drop (i + size)) (word.drop (j + size))
    else 0
termination_by text.length
decreasing_by
  · rw [List.length_take]; omega
  · rw [List.length_drop]; omega

/-- A resemblance: twice `shared` divided by `total`. -/
structure Score where
  shared : Nat
  total : Nat
deriving DecidableEq

/-- The resemblance of a name to a word; two empty texts resemble each other fully. -/
def score (word name : Text) : Score :=
  if name.length + word.length = 0 then ⟨1, 2⟩
  else ⟨matched (isFrequent word) name word, name.length + word.length⟩

/-- At least 3/5. -/
def Score.isClose (s : Score) : Bool :=
  3 * s.total ≤ 10 * s.shared

/-- A greater resemblance comes first, and of two names of the same the later one in the order of
texts. -/
def ahead (a b : Score × Text) : Bool :=
  if a.1.shared * b.1.total = b.1.shared * a.1.total then !a.2.before b.2
  else b.1.shared * a.1.total < a.1.shared * b.1.total

/-- The close names, the closest first, `limit` of them at most. -/
def closest (limit : Nat) (word : Text) (names : List Text) : List Text :=
  let scored := (names.map fun name => (score word name, name)).filter fun entry => entry.1.isClose
  ((scored.mergeSort ahead).map Prod.snd).take limit

end Similarity

end CommandTree
