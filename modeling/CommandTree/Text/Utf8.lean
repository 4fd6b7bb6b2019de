import CommandTree.Text.Basic

/-!
# UTF-8

`Utf8.char?` reads one character from the front of a byte string, by the table of well-formed byte
sequences of the Unicode standard: no overlong form, no surrogate, nothing above U+10FFFF.  A byte
string becomes a text in two ways.

* `Text.ofBytes` always succeeds: a byte at which no character starts becomes a stray glyph.  Names
  and arguments are read so.
* `Text.ofUtf8?` succeeds where every byte belongs to a character.  Comment lines are read so.

`Text.toBytes` gives the bytes back.
-/

namespace CommandTree

namespace Utf8

/-- A byte that continues a character. -/
def isTail (b : UInt8) : Bool :=
  0x80 ≤ b.toNat && b.toNat ≤ 0xBF

/-- The least and the greatest second byte of a three-byte character that starts with `a`. -/
def secondOfThree (a : Nat) : Nat × Nat :=
  if a = 0xE0 then (0xA0, 0xBF) else if a = 0xED then (0x80, 0x9F) else (0x80, 0xBF)

/-- The least and the greatest second byte of a four-byte character that starts with `a`. -/
def secondOfFour (a : Nat) : Nat × Nat :=
  if a = 0xF0 then (0x90, 0xBF) else if a = 0xF4 then (0x80, 0x8F) else (0x80, 0xBF)

/-- Whether a byte lies in a range, both ends included. -/
def within (range : Nat × Nat) (b : UInt8) : Bool :=
  range.1 ≤ b.toNat && b.toNat ≤ range.2

/-- The code point that the rest of a two-byte character gives, and the bytes after it. -/
def two? (lead : Nat) : List UInt8 → Option (Nat × List UInt8)
  | b :: rest => if isTail b then some ((lead - 0xC0) * 64 + (b.toNat - 0x80), rest) else none
  | _ => none

/-- The code point that the rest of a three-byte character gives, and the bytes after it. -/
def three? (lead : Nat) : List UInt8 → Option (Nat × List UInt8)
  | b :: c :: rest =>
    if within (secondOfThree lead) b && isTail c then
      some (((lead - 0xE0) * 64 + (b.toNat - 0x80)) * 64 + (c.toNat - 0x80), rest)
    else none
  | _ => none

/-- The code point that the rest of a four-byte character gives, and the bytes after it. -/
def four? (lead : Nat) : List UInt8 → Option (Nat × List UInt8)
  | b :: c :: d :: rest =>
    if within (secondOfFour lead) b && isTail c && isTail d then
      some ((((lead - 0xF0) * 64 + (b.toNat - 0x80)) * 64 + (c.toNat - 0x80)) * 64 +
        (d.toNat - 0x80), rest)
    else none
  | _ => none

/-- The code point at the front of a byte string, and the bytes after it. -/
def code? : List UInt8 → Option (Nat × List UInt8)
  | [] => none
  | a :: rest =>
    if a.toNat < 0x80 then some (a.toNat, rest)
    else if within (0xC2, 0xDF) a then two? a.toNat rest
    else if within (0xE0, 0xEF) a then three? a.toNat rest
    else if within (0xF0, 0xF4) a then four? a.toNat rest
    else none

/-- The character at the front of a byte string, and the bytes after it. -/
def char? (bytes : List UInt8) : Option (Char × List UInt8) :=
  (code? bytes).map fun (n, rest) => (Char.ofNat n, rest)

theorem length_of_two? {lead n : Nat} {bytes rest : List UInt8}
    (h : two? lead bytes = some (n, rest)) : rest.length < bytes.length := by
  match bytes with
  | [] => simp [two?] at h
  | b :: tail =>
    simp only [two?, Option.ite_none_right_eq_some, Option.some.injEq, Prod.mk.injEq] at h
    simp [← h.2.2]

theorem length_of_three? {lead n : Nat} {bytes rest : List UInt8}
    (h : three? lead bytes = some (n, rest)) : rest.length < bytes.length := by
  match bytes with
  | [] | [_] => simp [three?] at h
  | b :: c :: tail =>
    simp only [three?, Option.ite_none_right_eq_some, Option.some.injEq, Prod.mk.injEq] at h
    simp only [← h.2.2, List.length_cons]
    omega

theorem length_of_four? {lead n : Nat} {bytes rest : List UInt8}
    (h : four? lead bytes = some (n, rest)) : rest.length < bytes.length := by
  match bytes with
  | [] | [_] | [_, _] => simp [four?] at h
  | b :: c :: d :: tail =>
    simp only [four?, Option.ite_none_right_eq_some, Option.some.injEq, Prod.mk.injEq] at h
    simp only [← h.2.2, List.length_cons]
    omega

/-- A character takes at least one byte. -/
theorem length_of_char? {bytes : List UInt8} {c : Char} {rest : List UInt8}
    (h : char? bytes = some (c, rest)) : rest.length < bytes.length := by
  obtain ⟨⟨n, after⟩, hcode, heq⟩ := Option.map_eq_some_iff.mp h
  obtain ⟨rfl, rfl⟩ := Prod.mk.inj heq
  cases bytes with
  | nil => simp [code?] at hcode
  | cons a tail =>
    simp only [code?] at hcode
    split at hcode
    · simp_all
    split at hcode
    · exact Nat.lt_succ_of_lt (length_of_two? hcode)
    split at hcode
    · exact Nat.lt_succ_of_lt (length_of_three? hcode)
    split at hcode
    · exact Nat.lt_succ_of_lt (length_of_four? hcode)
    · simp at hcode

end Utf8

namespace Text

/-- The text of a byte string; a byte at which no character starts becomes a stray glyph. -/
def ofBytes : List UInt8 → Text
  | [] => []
  | b :: rest =>
    match h : Utf8.char? (b :: rest) with
    | some (c, after) => .char c :: ofBytes after
    | none => .stray ⟨b.toNat % 128, Nat.mod_lt _ (by decide)⟩ :: ofBytes rest
termination_by bytes => bytes.length
decreasing_by
  · exact Utf8.length_of_char? h
  · simp

/-- Whether the text holds no stray byte, so that it can be written as UTF-8. -/
def isEncodable (text : Text) : Bool :=
  text.all fun g => !g.isStray

/-- The text of a byte string that is UTF-8 throughout. -/
def ofUtf8? (bytes : List UInt8) : Option Text :=
  let text := ofBytes bytes
  if text.isEncodable then some text else none

/-- The bytes of a text. -/
def toBytes (text : Text) : List UInt8 :=
  text.flatMap fun
    | .char c => String.utf8EncodeChar c
    | .stray b => [UInt8.ofNat (128 + b.val)]

theorem isEncodable_of_ofUtf8? {bytes : List UInt8} {text : Text}
    (h : ofUtf8? bytes = some text) : text.isEncodable = true := by
  simp only [ofUtf8?] at h
  split at h <;> simp_all

end Text

end CommandTree
