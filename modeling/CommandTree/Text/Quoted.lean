import CommandTree.Text.Printable

/-!
# Quoted texts

Messages show a text that came from outside between quotes.  The quote is the apostrophe, or the
double quote where the text holds an apostrophe and no double quote.  Inside, the quote itself and the
backslash are preceded by a backslash, line feed, carriage return and tab have escapes of one letter,
and any other unprintable glyph is written by its code in hexadecimal: two digits after `\x`, four
after `\u`, eight after `\U`.
-/

namespace CommandTree

namespace Text

/-- The quote that stands around a text. -/
def quoteMark (text : Text) : Glyph :=
  if text.contains (.char '\'') && !text.contains (.char '"') then .char '"' else .char '\''

/-- The lower case hexadecimal digits of `n`, filled up with zeros to `width`. -/
def hexDigits (width n : Nat) : Text :=
  let digits := (Nat.toDigits 16 n).map Glyph.char
  List.replicate (width - digits.length) (.char '0') ++ digits

/-- The escape of an unprintable glyph. -/
def escapeCode (n : Nat) : Text :=
  if n < 0x100 then lit "\\x" ++ hexDigits 2 n
  else if n < 0x10000 then lit "\\u" ++ hexDigits 4 n
  else lit "\\U" ++ hexDigits 8 n

/-- How a glyph is written between the quotes `mark`. -/
def escapeGlyph (mark g : Glyph) : Text :=
  if g = mark ∨ g = .char '\\' then [.char '\\', g]
  else if g = .char '\n' then lit "\\n"
  else if g = .char '\r' then lit "\\r"
  else if g = .char '\t' then lit "\\t"
  else if g.isPrintable then [g]
  else escapeCode g.code

/-- The text between quotes. -/
def quoted (text : Text) : Text :=
  text.quoteMark :: text.flatMap (escapeGlyph text.quoteMark) ++ [text.quoteMark]

end Text

end CommandTree
