import CommandTree.Text.Basic

/-!
# Paths

A path is an anchor, saying where it starts, and the names that it passes through.  Writing a path
collapses repeated slashes and parts that are a single dot; two dots stay, because what they mean
depends on symbolic links.  A path that starts with exactly two slashes keeps both.

`Path.normalize` takes two dots for the parent by name alone.
-/

namespace CommandTree

/-- Where a path starts. -/
inductive Path.Anchor where
  | relative
  | root
  | doubleRoot
deriving DecidableEq

/-- A path: where it starts and the names that it passes through. -/
structure Path where
  anchor : Path.Anchor
  names : List Text
deriving DecidableEq

namespace Path

/-- The glyph between the names of a path. -/
def slash : Glyph := .char '/'

/-- The part that stays in its directory. -/
def here : Text := "."

/-- The part that leads to the parent directory. -/
def up : Text := ".."

/-- Where a written path starts. -/
def anchorOf : Text → Anchor
  | .char '/' :: .char '/' :: .char '/' :: _ => .root
  | .char '/' :: .char '/' :: _ => .doubleRoot
  | .char '/' :: _ => .root
  | _ => .relative

/-- The path that a text writes. -/
def ofText (text : Text) : Path :=
  ⟨anchorOf text, (Text.splitAt slash text).filter fun name => name ≠ [] ∧ name ≠ here⟩

/-- How an anchor is written. -/
def Anchor.toText : Anchor → Text
  | relative => []
  | root => [slash]
  | doubleRoot => [slash, slash]

/-- How a path is written; the empty relative path is a dot. -/
def toText (path : Path) : Text :=
  if path.anchor = .relative ∧ path.names = [] then here
  else path.anchor.toText ++ Text.join [slash] path.names

/-- Whether a path starts at a root. -/
def isAbsolute (path : Path) : Bool :=
  path.anchor ≠ .relative

/-- One path after another; an absolute one starts anew. -/
def append (base path : Path) : Path :=
  if path.isAbsolute then path else ⟨base.anchor, base.names ++ path.names⟩

/-- The entry of a name in the directory at a path. -/
def child (path : Path) (name : Text) : Path :=
  ⟨path.anchor, path.names ++ [name]⟩

/-- The path without its last name. -/
def parent (path : Path) : Path :=
  ⟨path.anchor, path.names.dropLast⟩

/-- The names of an absolute path with every pair of dots and the name before it taken out. -/
def collapse (names : List Text) : List Text :=
  names.foldl (fun above name => if name = up then above.dropLast else above ++ [name]) []

/-- An absolute path with its pairs of dots taken out by name. -/
def normalize (path : Path) : Path :=
  ⟨path.anchor, collapse path.names⟩

/-- The directory of the file system's root. -/
def root : Path := ⟨.root, []⟩

/-- The absolute path that a text writes for a reader who works in a directory. -/
def absolute (directory : Path) (text : Text) : Path :=
  (directory.append (ofText text)).normalize

/-- What follows the last dot of a name, if something stands on either side of that dot. -/
def extension? (name : Text) : Option Text :=
  let tail := (name.reverse.takeWhile fun g => g ≠ .char '.').reverse
  if tail = [] ∨ name.length ≤ tail.length + 1 then none else some tail

end Path

end CommandTree
