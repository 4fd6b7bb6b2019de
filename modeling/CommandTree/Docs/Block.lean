import CommandTree.Text.Utf8

/-!
# Comment blocks

The comment block of a file is the run of lines at its top that start with `#`.  A line ends with the
byte 0x0A.  The lines of the block, and no others, must be UTF-8: what follows the block may be
anything, and is not looked at.
-/

namespace CommandTree

namespace Block

/-- The byte that ends a line. -/
def lineFeed : UInt8 := 0x0A

/-- The byte that starts a comment line. -/
def hash : UInt8 := 0x23

/-- The lines of a file, each without the line feed that ends it.  What follows the last line feed is a
line unless it is empty. -/
def rawLines : List UInt8 → List (List UInt8)
  | [] => []
  | b :: rest =>
    if b = lineFeed then [] :: rawLines rest
    else
      match rawLines rest with
      | [] => [[b]]
      | line :: more => (b :: line) :: more

/-- The lines of the comment block, as bytes. -/
def rawBlock (content : List UInt8) : List (List UInt8) :=
  (rawLines content).takeWhile fun line => line.head? = some hash

/-- A comment line without the carriage returns at its end. -/
def cleanLine (line : Text) : Text :=
  line.dropEndWhile fun g => g = .char '\r'

/-- The texts of some lines of which the first has the given number; the number of the first that is
not UTF-8 where there is one. -/
def decodeFrom : (number : Nat) → List (List UInt8) → Except Nat (List Text)
  | _, [] => .ok []
  | number, line :: rest =>
    match Text.ofUtf8? line with
    | none => .error number
    | some text => (decodeFrom (number + 1) rest).map fun texts => cleanLine text :: texts

/-- The texts of the comment block of a file; where a line of it is not UTF-8, the number of the first
such line, counted from one. -/
def read (content : List UInt8) : Except Nat (List Text) :=
  decodeFrom 1 (rawBlock content)

end Block

end CommandTree
