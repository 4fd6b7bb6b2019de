import CommandTree.Text.Utf8
import Mathlib.Data.List.Basic

/-!
# Reading and writing UTF-8

The reader of characters goes by a table of well-formed byte sequences; the writer computes the bytes of a code
point.  Here the two are compared: a byte string starts with a character that the reader finds exactly if it starts
with what the writer gives for it (`Utf8.char?_eq_some_iff`).  The three rows of the table with more than one byte
are taken one by one, in both directions, and what excludes overlong forms and surrogates is the range of the second
byte.

For texts this gives two results.  Nothing is lost when bytes are read as a text, UTF-8 or not
(`Text.toBytes_ofBytes`), and a byte string is UTF-8 exactly if it is written for some characters, which are then its
text (`Text.ofUtf8?_eq_some_iff`).
-/

namespace CommandTree

namespace Utf8

variable {n : Nat} {a : UInt8} {bytes rest : List UInt8} {c : Char}

/-! ## The range of the second byte -/

/-- The second of three bytes excludes overlong forms and surrogates. -/
theorem within_secondOfThree_iff {lead : Nat} {b : UInt8} :
    within (secondOfThree lead) b = true ↔ 0x80 ≤ b.toNat ∧ b.toNat ≤ 0xBF ∧
      (lead = 0xE0 → 0xA0 ≤ b.toNat) ∧ (lead = 0xED → b.toNat ≤ 0x9F) := by
  unfold within secondOfThree
  by_cases hfirst : lead = 0xE0
  · rw [if_pos hfirst, Bool.and_eq_true, decide_eq_true_eq, decide_eq_true_eq]
    omega
  by_cases hsurrogate : lead = 0xED
  · rw [if_neg hfirst, if_pos hsurrogate, Bool.and_eq_true, decide_eq_true_eq, decide_eq_true_eq]
    omega
  · rw [if_neg hfirst, if_neg hsurrogate, Bool.and_eq_true, decide_eq_true_eq, decide_eq_true_eq]
    omega

/-- The second of four bytes excludes overlong forms and what is above the last code point. -/
theorem within_secondOfFour_iff {lead : Nat} {b : UInt8} :
    within (secondOfFour lead) b = true ↔ 0x80 ≤ b.toNat ∧ b.toNat ≤ 0xBF ∧
      (lead = 0xF0 → 0x90 ≤ b.toNat) ∧ (lead = 0xF4 → b.toNat ≤ 0x8F) := by
  unfold within secondOfFour
  by_cases hfirst : lead = 0xF0
  · rw [if_pos hfirst, Bool.and_eq_true, decide_eq_true_eq, decide_eq_true_eq]
    omega
  by_cases hlast : lead = 0xF4
  · rw [if_neg hfirst, if_pos hlast, Bool.and_eq_true, decide_eq_true_eq, decide_eq_true_eq]
    omega
  · rw [if_neg hfirst, if_neg hlast, Bool.and_eq_true, decide_eq_true_eq, decide_eq_true_eq]
    omega

theorem toNat_ofNat {m : Nat} (h : m < 256) : (UInt8.ofNat m).toNat = m :=
  UInt8.toNat_ofNat_of_lt' h

/-! ## Reading what was written -/

theorem code?_two (h : 0x80 ≤ n ∧ n ≤ 0x7FF) :
    code? (UInt8.ofNat (n / 64 % 0x20 + 0xC0) :: UInt8.ofNat (n % 0x40 + 0x80) :: rest) = some (n, rest) := by
  have hlead : (UInt8.ofNat (n / 64 % 0x20 + 0xC0)).toNat = n / 64 + 0xC0 := by
    rw [toNat_ofNat (by omega)]
    omega
  have htail : (UInt8.ofNat (n % 0x40 + 0x80)).toNat = n % 0x40 + 0x80 := toNat_ofNat (by omega)
  simp only [code?, within, two?, isTail, hlead, htail]
  rw [if_neg (by omega), if_pos (by simp; omega), if_pos (by simp; omega)]
  simp only [Option.some.injEq, Prod.mk.injEq, and_true]
  omega

theorem code?_three (h : 0x800 ≤ n ∧ n ≤ 0xFFFF) (hvalid : n.isValidChar) :
    code? (UInt8.ofNat (n / 4096 % 0x10 + 0xE0) :: UInt8.ofNat (n / 64 % 0x40 + 0x80) ::
      UInt8.ofNat (n % 0x40 + 0x80) :: rest) = some (n, rest) := by
  unfold Nat.isValidChar at hvalid
  have hlead : (UInt8.ofNat (n / 4096 % 0x10 + 0xE0)).toNat = n / 4096 + 0xE0 := by
    rw [toNat_ofNat (by omega)]
    omega
  have hsecond : (UInt8.ofNat (n / 64 % 0x40 + 0x80)).toNat = n / 64 % 0x40 + 0x80 := toNat_ofNat (by omega)
  have hthird : (UInt8.ofNat (n % 0x40 + 0x80)).toNat = n % 0x40 + 0x80 := toNat_ofNat (by omega)
  have hrange : within (secondOfThree (n / 4096 + 0xE0)) (UInt8.ofNat (n / 64 % 0x40 + 0x80)) = true := by
    rw [within_secondOfThree_iff, hsecond]
    omega
  simp only [code?, three?, hlead, hrange, isTail, hthird]
  simp only [within, hlead]
  rw [if_neg (by omega), if_neg (by simp), if_pos (by simp; omega), if_pos (by simp; omega)]
  simp only [Option.some.injEq, Prod.mk.injEq, and_true]
  omega

theorem code?_four (h : 0x10000 ≤ n) (hvalid : n.isValidChar) :
    code? (UInt8.ofNat (n / 262144 % 0x08 + 0xF0) :: UInt8.ofNat (n / 4096 % 0x40 + 0x80) ::
      UInt8.ofNat (n / 64 % 0x40 + 0x80) :: UInt8.ofNat (n % 0x40 + 0x80) :: rest) = some (n, rest) := by
  unfold Nat.isValidChar at hvalid
  have hlead : (UInt8.ofNat (n / 262144 % 0x08 + 0xF0)).toNat = n / 262144 + 0xF0 := by
    rw [toNat_ofNat (by omega)]
    omega
  have hsecond : (UInt8.ofNat (n / 4096 % 0x40 + 0x80)).toNat = n / 4096 % 0x40 + 0x80 :=
    toNat_ofNat (by omega)
  have hthird : (UInt8.ofNat (n / 64 % 0x40 + 0x80)).toNat = n / 64 % 0x40 + 0x80 := toNat_ofNat (by omega)
  have hfourth : (UInt8.ofNat (n % 0x40 + 0x80)).toNat = n % 0x40 + 0x80 := toNat_ofNat (by omega)
  have hrange : within (secondOfFour (n / 262144 + 0xF0)) (UInt8.ofNat (n / 4096 % 0x40 + 0x80)) = true := by
    rw [within_secondOfFour_iff, hsecond]
    omega
  simp only [code?, four?, hlead, hrange, isTail, hthird, hfourth]
  simp only [within, hlead]
  rw [if_neg (by omega), if_neg (by simp), if_neg (by simp), if_pos (by simp; omega), if_pos (by simp; omega)]
  simp only [Option.some.injEq, Prod.mk.injEq, and_true]
  omega

/-- Reading gives back the character that was written. -/
theorem char?_append (c : Char) (rest : List UInt8) :
    char? (String.utf8EncodeChar c ++ rest) = some (c, rest) := by
  have hvalid : c.toNat.isValidChar := c.valid
  have hcode : code? (String.utf8EncodeChar c ++ rest) = some (c.toNat, rest) := by
    have hval : c.val.toNat = c.toNat := rfl
    simp only [String.utf8EncodeChar, hval]
    split
    · have hlead : (UInt8.ofNat c.toNat).toNat = c.toNat := toNat_ofNat (by omega)
      simp only [List.cons_append, List.nil_append, code?, hlead]
      rw [if_pos (by omega)]
    split
    · exact code?_two (by omega)
    split
    · exact code?_three (by omega) hvalid
    · exact code?_four (by omega) hvalid
  rw [char?, hcode]
  simp

/-! ## Writing what was read -/

theorem eq_ofNat_iff {b : UInt8} {m : Nat} (h : m < 256) : b = UInt8.ofNat m ↔ b.toNat = m := by
  rw [← UInt8.toNat_inj, toNat_ofNat h]

theorem toNat_ofNat_of_isValidChar (h : n.isValidChar) : (Char.ofNat n).val.toNat = n := by
  rw [Char.ofNat, dif_pos h]
  rfl

theorem eq_append_of_one (ha : a.toNat < 0x80) :
    a :: bytes = String.utf8EncodeChar (Char.ofNat a.toNat) ++ bytes := by
  have hvalid : a.toNat.isValidChar := .inl (by omega)
  simp only [String.utf8EncodeChar, toNat_ofNat_of_isValidChar hvalid]
  rw [if_pos (by omega)]
  simp

theorem eq_append_of_two? (ha : within (0xC2, 0xDF) a = true) (h : two? a.toNat bytes = some (n, rest)) :
    a :: bytes = String.utf8EncodeChar (Char.ofNat n) ++ rest := by
  match bytes with
  | [] => simp [two?] at h
  | b :: tail =>
    simp only [two?, Option.ite_none_right_eq_some, Option.some.injEq, Prod.mk.injEq] at h
    obtain ⟨hb, hn, rfl⟩ := h
    simp only [within, isTail, Bool.and_eq_true, decide_eq_true_eq] at ha hb
    have hvalid : n.isValidChar := .inl (by omega)
    simp only [String.utf8EncodeChar, toNat_ofNat_of_isValidChar hvalid]
    rw [if_neg (by omega), if_pos (by omega)]
    simp only [List.cons_append, List.nil_append, List.cons.injEq, and_true]
    exact ⟨(eq_ofNat_iff (by omega)).mpr (by omega), (eq_ofNat_iff (by omega)).mpr (by omega)⟩

theorem eq_append_of_three? (ha : within (0xE0, 0xEF) a = true) (h : three? a.toNat bytes = some (n, rest)) :
    a :: bytes = String.utf8EncodeChar (Char.ofNat n) ++ rest := by
  match bytes with
  | [] | [_] => simp [three?] at h
  | b :: c :: tail =>
    simp only [three?, Option.ite_none_right_eq_some, Option.some.injEq, Prod.mk.injEq, Bool.and_eq_true] at h
    obtain ⟨⟨hb, hc⟩, hn, rfl⟩ := h
    have hsecond := within_secondOfThree_iff.mp hb
    simp only [within, isTail, Bool.and_eq_true, decide_eq_true_eq] at ha hc
    have hvalid : n.isValidChar := by
      unfold Nat.isValidChar
      omega
    simp only [String.utf8EncodeChar, toNat_ofNat_of_isValidChar hvalid]
    rw [if_neg (by omega), if_neg (by omega), if_pos (by omega)]
    simp only [List.cons_append, List.nil_append, List.cons.injEq, and_true]
    exact ⟨(eq_ofNat_iff (by omega)).mpr (by omega), (eq_ofNat_iff (by omega)).mpr (by omega),
      (eq_ofNat_iff (by omega)).mpr (by omega)⟩

theorem eq_append_of_four? (ha : within (0xF0, 0xF4) a = true) (h : four? a.toNat bytes = some (n, rest)) :
    a :: bytes = String.utf8EncodeChar (Char.ofNat n) ++ rest := by
  match bytes with
  | [] | [_] | [_, _] => simp [four?] at h
  | b :: c :: d :: tail =>
    simp only [four?, Option.ite_none_right_eq_some, Option.some.injEq, Prod.mk.injEq, Bool.and_eq_true] at h
    obtain ⟨⟨⟨hb, hc⟩, hd⟩, hn, rfl⟩ := h
    have hsecond := within_secondOfFour_iff.mp hb
    simp only [within, isTail, Bool.and_eq_true, decide_eq_true_eq] at ha hc hd
    have hvalid : n.isValidChar := by
      unfold Nat.isValidChar
      omega
    simp only [String.utf8EncodeChar, toNat_ofNat_of_isValidChar hvalid]
    rw [if_neg (by omega), if_neg (by omega), if_neg (by omega)]
    simp only [List.cons_append, List.nil_append, List.cons.injEq, and_true]
    exact ⟨(eq_ofNat_iff (by omega)).mpr (by omega), (eq_ofNat_iff (by omega)).mpr (by omega),
      (eq_ofNat_iff (by omega)).mpr (by omega), (eq_ofNat_iff (by omega)).mpr (by omega)⟩

/-- Writing gives back the bytes that were read. -/
theorem eq_append_of_char? (h : char? bytes = some (c, rest)) : bytes = String.utf8EncodeChar c ++ rest := by
  obtain ⟨⟨n, after⟩, hcode, heq⟩ := Option.map_eq_some_iff.mp h
  obtain ⟨rfl, rfl⟩ := Prod.mk.inj heq
  cases bytes with
  | nil => cases hcode
  | cons a tail =>
    simp only [code?] at hcode
    split at hcode
    · rename_i hascii
      cases hcode
      exact eq_append_of_one hascii
    split at hcode
    · rename_i hlead
      exact eq_append_of_two? hlead hcode
    split at hcode
    · rename_i hlead
      exact eq_append_of_three? hlead hcode
    split at hcode
    · rename_i hlead
      exact eq_append_of_four? hlead hcode
    · cases hcode

theorem char?_eq_some_iff : char? bytes = some (c, rest) ↔ bytes = String.utf8EncodeChar c ++ rest :=
  ⟨eq_append_of_char?, fun h => h ▸ char?_append c rest⟩

/-- A byte below 0x80 is a character by itself. -/
theorem le_toNat_of_char?_eq_none {b : UInt8} (h : char? (b :: rest) = none) : 0x80 ≤ b.toNat := by
  refine Nat.le_of_not_lt fun hlt => ?_
  simp [char?, code?, hlt] at h

end Utf8

namespace Text

open Utf8 (char?_eq_some_iff)

variable {bytes : List UInt8} {text : Text}

/-! ## Characters and their bytes -/

/-- A text of characters. -/
def ofChars (chars : List Char) : Text :=
  chars.map .char

/-- The bytes of some characters in UTF-8. -/
def encode (chars : List Char) : List UInt8 :=
  chars.flatMap String.utf8EncodeChar

theorem toBytes_ofChars (chars : List Char) : toBytes (ofChars chars) = encode chars := by
  simp [toBytes, ofChars, encode, List.flatMap_map]

theorem isEncodable_ofChars (chars : List Char) : (ofChars chars).isEncodable = true := by
  simp [isEncodable, ofChars, Glyph.isStray]

/-- A text without stray bytes consists of characters. -/
theorem exists_eq_ofChars (h : text.isEncodable = true) : ∃ chars, text = ofChars chars := by
  induction text with
  | nil => exact ⟨[], rfl⟩
  | cons g rest ih =>
    obtain ⟨hg, hrest⟩ : g.isStray = false ∧ Text.isEncodable rest = true := by simpa [isEncodable] using h
    obtain ⟨chars, rfl⟩ := ih hrest
    cases g with
    | char c => exact ⟨c :: chars, rfl⟩
    | stray b => cases hg

/-! ## Bytes and texts -/

/-- No byte is lost in a text. -/
theorem toBytes_ofBytes (bytes : List UInt8) : toBytes (ofBytes bytes) = bytes := by
  fun_induction ofBytes bytes with
  | case1 => rfl
  | case2 b rest c after h ih =>
    rw [char?_eq_some_iff.mp h, toBytes, List.flatMap_cons]
    exact congrArg _ ih
  | case3 b rest h ih =>
    have hhigh := Utf8.le_toNat_of_char?_eq_none h
    have hlt := b.toNat_lt
    have hbyte : UInt8.ofNat (128 + b.toNat % 128) = b := by
      rw [eq_comm, Utf8.eq_ofNat_iff (by omega)]
      omega
    rw [toBytes, List.flatMap_cons]
    exact congrArg₂ List.cons hbyte ih

theorem ofBytes_encode (chars : List Char) : ofBytes (encode chars) = ofChars chars := by
  induction chars with
  | nil => simp [encode, ofBytes, ofChars]
  | cons c chars ih =>
    have hchar : Utf8.char? (encode (c :: chars)) = some (c, encode chars) := Utf8.char?_append c _
    cases hbytes : encode (c :: chars) with
    | nil =>
      rw [hbytes] at hchar
      cases hchar
    | cons b rest =>
      rw [hbytes] at hchar
      rw [ofBytes]
      split
      · rename_i read after hread
        cases hchar.symm.trans hread
        rw [ih]
        rfl
      · rename_i hnone
        cases hchar.symm.trans hnone

/-- A byte string is UTF-8 exactly if it is written for some characters, which are its text. -/
theorem ofUtf8?_eq_some_iff :
    ofUtf8? bytes = some text ↔ ∃ chars, encode chars = bytes ∧ text = ofChars chars := by
  constructor
  · intro h
    obtain ⟨chars, rfl⟩ := exists_eq_ofChars (isEncodable_of_ofUtf8? h)
    have hread : ofBytes bytes = ofChars chars := by
      simp only [ofUtf8?, Option.ite_none_right_eq_some, Option.some.injEq] at h
      exact h.2
    exact ⟨chars, by rw [← toBytes_ofChars, ← hread, toBytes_ofBytes], rfl⟩
  · rintro ⟨chars, rfl, rfl⟩
    simp [ofUtf8?, ofBytes_encode, isEncodable_ofChars]

end Text

end CommandTree
