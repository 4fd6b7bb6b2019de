import CommandTree.Text.Blank
import CommandTree.Usage.Basic

/-!
# Reading usage lines

    usage    := blank* "# Usage:" blank* "{cmd}" (blank+ token)* blank*
    token    := required | "[" blank* optional blank* "]" "!"? | "[" blank* ident blank* "]..."
    required := "<" ident ">" | switch
    optional := ident | switch
    switch   := "-" letter | "--" ident ("=" capital+)?

A rest capture (`[name]...`) is the last token, and no two tokens share a key.

`Usage.parse?` reads a line.  It does not stop at the first bad word: a problem is noted, the rest of
the word is skipped and reading goes on, so that all problems of a line are reported at once.

## How it is built

A `Scan` reads something from the front of a text and returns what follows it, or the cause of its
failure and the text at which it stopped.  Positions are not counted: the position of a text that is
left to read is the length of the line less its own length.

`outcomes` is the list of what became of each word, a token or a problem, and `parse?` collects the
one or the other.  Every step of `outcomes` leaves less to read (`length_of_token`,
`length_of_token_error`, `length_skipWord_of_trimStart`), which is why it ends.
-/

namespace CommandTree

namespace Usage

/-- A reader: what it read and what follows, or why and where it stopped. -/
abbrev Scan (α : Type) := Text → Except (Cause × Text) (α × Text)

/-- A word of a usage line. -/
inductive Token where
  | argument (argument : Argument)
  | rest (name : Text)
deriving DecidableEq

/-- The key by which a token is told from others. -/
def Token.key : Token → Text
  | argument a => a.key
  | rest name => name

/-- The argument of a token. -/
def Token.argument? : Token → Option Argument
  | argument a => some a
  | rest _ => none

/-- The name of a rest capture. -/
def Token.rest? : Token → Option Text
  | argument _ => none
  | rest name => some name

/-- The text from the next blank on. -/
def skipWord (text : Text) : Text :=
  text.dropWhile fun g => !g.isBlank

/-- The glyphs up to the next blank. -/
def word (text : Text) : Text :=
  text.takeWhile fun g => !g.isBlank

/-! ## The parts of a word -/

/-- An identifier, which must follow `after`. -/
def ident (after : Text) : Scan Text := fun text =>
  match Ident.span? text with
  | some read => .ok read
  | none => .error (.expectedIdent after text.head?, text)

/-- The placeholder of the value of `--name`. -/
def placeholder (name : Text) : Scan Text := fun text =>
  match text.takeWhile Glyph.isAsciiUpper with
  | [] => .error (.expectedValue name text.head?, text)
  | g :: value => .ok (g :: value, text.dropWhile Glyph.isAsciiUpper)

/-- A long switch, its two dashes already read. -/
def longSwitch : Scan Form := fun text =>
  match ident "--" text with
  | .error stop => .error stop
  | .ok (name, .char '=' :: rest) =>
    match placeholder name rest with
    | .error stop => .error stop
    | .ok (value, rest) => .ok (.long name (some value), rest)
  | .ok (name, rest) => .ok (.long name none, rest)

/-- A short switch, its dash already read. -/
def shortSwitch : Scan Form
  | g :: rest =>
    if g.isLetter then .ok (.short [g], rest) else .error (.expectedLetter (some g), g :: rest)
  | [] => .error (.expectedLetter none, [])

/-- A switch; `otherwise` reads a text that does not start with a dash. -/
def switchOr (otherwise : Scan Form) : Scan Form
  | .char '-' :: .char '-' :: rest => longSwitch rest
  | .char '-' :: rest => shortSwitch rest
  | text => otherwise text

/-- A required positional name, its angle bracket already read. -/
def bracketedName : Scan Form := fun text =>
  match ident "<" text with
  | .error stop => .error stop
  | .ok (name, .char '>' :: rest) => .ok (.positional name, rest)
  | .ok (name, rest) => .error (.unclosedName name rest.head?, rest)

/-- What stands outside of brackets. -/
def requiredForm : Scan Form :=
  switchOr fun
    | .char '<' :: rest => bracketedName rest
    | text => .error (.expectedArgument text.head?, text)

/-- What stands inside of brackets. -/
def optionalForm : Scan Form :=
  switchOr fun text =>
    match Ident.span? text with
    | some (name, rest) => .ok (.positional name, rest)
    | none => .error (.expectedOptional text.head?, text)

/-- What was read must be followed by a blank or the end of the line. -/
def thenGap {α : Type} (read : α) : Scan α
  | [] => .ok (read, [])
  | g :: rest => if g.isBlank then .ok (read, g :: rest) else .error (.expectedGap (some g), g :: rest)

/-! ## Words -/

/-- What follows the closing bracket of an optional form. -/
def closing (form : Form) : Scan Token
  | .char '.' :: .char '.' :: .char '.' :: rest =>
    match form with
    | .positional name => thenGap (.rest name) rest
    | _ => .error (.restOfSwitch, .char '.' :: .char '.' :: .char '.' :: rest)
  | .char '!' :: rest => thenGap (.argument ⟨form, false, true⟩) rest
  | text => thenGap (.argument ⟨form, false, false⟩) text

/-- A token in brackets, the opening one already read. -/
def bracketedToken : Scan Token := fun text =>
  match optionalForm text.trimStart with
  | .error stop => .error stop
  | .ok (form, rest) =>
    match rest.trimStart with
    | .char ']' :: rest => closing form rest
    | rest => .error (.unclosedOptional rest.head?, rest)

/-- A token outside of brackets. -/
def requiredToken : Scan Token := fun text =>
  match requiredForm text with
  | .error stop => .error stop
  | .ok (form, rest) => thenGap (.argument ⟨form, true, false⟩) rest

/-- One argument or the rest capture. -/
def token : Scan Token
  | .char '[' :: text => bracketedToken text
  | text => requiredToken text

/-! ## Every step leaves less to read -/

/-- How much a reader leaves of a text of a given length: at most that much where it succeeds, and at
most that much where it stops. -/
def LeavesAtMost {α : Type} (length : Nat) : Except (Cause × Text) (α × Text) → Prop
  | .ok (_, rest) => rest.length ≤ length
  | .error (_, stop) => stop.length ≤ length

theorem LeavesAtMost.mono {α : Type} {m n : Nat} (h : m ≤ n)
    {result : Except (Cause × Text) (α × Text)} (hm : LeavesAtMost m result) :
    LeavesAtMost n result := by
  cases result with
  | ok read => exact Nat.le_trans (show read.2.length ≤ m from hm) h
  | error stop => exact Nat.le_trans (show stop.2.length ≤ m from hm) h

theorem length_trimStart_le (text : Text) : text.trimStart.length ≤ text.length :=
  (List.dropWhile_sublist _).length_le

theorem ident_leaves (after text : Text) : LeavesAtMost text.length (ident after text) := by
  unfold ident
  split
  · rename_i read h
    obtain ⟨name, rest⟩ := read
    exact Nat.le_of_lt (Ident.length_of_span? h)
  · exact Nat.le_refl _

theorem placeholder_leaves (name text : Text) :
    LeavesAtMost text.length (placeholder name text) := by
  unfold placeholder
  split
  · exact Nat.le_refl _
  · exact (List.dropWhile_sublist _).length_le

theorem longSwitch_leaves (text : Text) : LeavesAtMost text.length (longSwitch text) := by
  have hident := ident_leaves "--" text
  unfold longSwitch
  split
  · rename_i stop h
    rw [h] at hident
    exact hident
  · rename_i name rest h
    rw [h] at hident
    have hvalue := placeholder_leaves name rest
    have hle : rest.length ≤ text.length :=
      Nat.le_trans (Nat.le_succ _) (show (Glyph.char '=' :: rest).length ≤ text.length from hident)
    split
    · rename_i stop hstop
      rw [hstop] at hvalue
      exact hvalue.mono hle
    · rename_i value rest' hok
      rw [hok] at hvalue
      exact Nat.le_trans (show rest'.length ≤ rest.length from hvalue) hle
  · rename_i name rest _ h
    rw [h] at hident
    exact hident

theorem shortSwitch_leaves (text : Text) : LeavesAtMost text.length (shortSwitch text) := by
  cases text with
  | nil => exact Nat.le_refl _
  | cons g rest =>
    simp only [shortSwitch]
    split
    · exact Nat.le_succ _
    · exact Nat.le_refl _

theorem switchOr_leaves {otherwise : Scan Form}
    (h : ∀ text, LeavesAtMost text.length (otherwise text)) (text : Text) :
    LeavesAtMost text.length (switchOr otherwise text) := by
  unfold switchOr
  split
  · exact (longSwitch_leaves _).mono (by simp only [List.length_cons]; omega)
  · exact (shortSwitch_leaves _).mono (by simp)
  · exact h _

theorem bracketedName_leaves (text : Text) : LeavesAtMost text.length (bracketedName text) := by
  have hident := ident_leaves "<" text
  unfold bracketedName
  split
  · rename_i stop h
    rw [h] at hident
    exact hident
  · rename_i name rest h
    rw [h] at hident
    exact Nat.le_trans (Nat.le_succ _)
      (show (Glyph.char '>' :: rest).length ≤ text.length from hident)
  · rename_i name rest _ h
    rw [h] at hident
    exact hident

theorem optionalForm_leaves (text : Text) : LeavesAtMost text.length (optionalForm text) := by
  refine switchOr_leaves (fun text => ?_) text
  split
  · rename_i name rest h
    exact Nat.le_of_lt (Ident.length_of_span? h)
  · exact Nat.le_refl _

theorem thenGap_leaves {α : Type} (read : α) (text : Text) :
    LeavesAtMost text.length (thenGap read text) := by
  cases text with
  | nil => exact Nat.le_refl _
  | cons g rest =>
    simp only [thenGap]
    split <;> exact Nat.le_refl _

theorem closing_leaves (form : Form) (text : Text) :
    LeavesAtMost text.length (closing form text) := by
  unfold closing
  split
  · split
    · exact (thenGap_leaves _ _).mono (by simp only [List.length_cons]; omega)
    · exact Nat.le_refl _
  · exact (thenGap_leaves _ _).mono (by simp)
  · exact thenGap_leaves _ _

theorem bracketedToken_leaves (text : Text) : LeavesAtMost text.length (bracketedToken text) := by
  have hform := (optionalForm_leaves text.trimStart).mono (length_trimStart_le text)
  unfold bracketedToken
  split
  · rename_i stop h
    rw [h] at hform
    exact hform
  · rename_i form rest h
    rw [h] at hform
    have hrest : rest.trimStart.length ≤ text.length :=
      Nat.le_trans (length_trimStart_le rest) hform
    split
    · rename_i after hafter
      rw [hafter, List.length_cons] at hrest
      exact (closing_leaves form after).mono (by omega)
    · exact hrest

/-- A reader that was given `text`, not empty, has taken at least one glyph, or stands where it was
given it. -/
def Advances {α : Type} (text : Text) : Except (Cause × Text) (α × Text) → Prop
  | .ok (_, rest) => rest.length < text.length
  | .error (_, stop) => stop.length < text.length ∨ stop = text

theorem LeavesAtMost.advances {α : Type} {n : Nat} {text : Text} (h : n < text.length)
    {result : Except (Cause × Text) (α × Text)} (hn : LeavesAtMost n result) :
    Advances text result := by
  cases result with
  | ok read => exact Nat.lt_of_le_of_lt (show read.2.length ≤ n from hn) h
  | error stop => exact .inl (Nat.lt_of_le_of_lt (show stop.2.length ≤ n from hn) h)

theorem requiredForm_advances {text : Text} : Advances text (requiredForm text) := by
  unfold requiredForm switchOr
  split
  · exact (longSwitch_leaves _).advances (by simp only [List.length_cons]; omega)
  · exact (shortSwitch_leaves _).advances (by simp)
  · dsimp only
    split
    · exact (bracketedName_leaves _).advances (by simp)
    · exact .inr rfl

/-- A token takes at least one glyph, or fails where it starts. -/
theorem token_advances (text : Text) : Advances text (token text) := by
  unfold token
  split
  · exact (bracketedToken_leaves _).advances (by simp)
  · rename_i text' _
    have hform := @requiredForm_advances text
    unfold requiredToken
    split
    · rename_i stop h
      rw [h] at hform
      exact hform
    · rename_i form rest h
      rw [h] at hform
      exact (thenGap_leaves _ rest).advances hform

theorem length_skipWord_le (text : Text) : (skipWord text).length ≤ text.length :=
  (List.dropWhile_sublist _).length_le

theorem length_skipWord_lt {g : Glyph} (rest : Text) (h : g.isBlank = false) :
    (skipWord (g :: rest)).length < (g :: rest).length := by
  have : skipWord (g :: rest) = skipWord rest := by simp [skipWord, h]
  rw [this]
  exact Nat.lt_succ_of_le (length_skipWord_le rest)

theorem isBlank_of_trimStart {text rest : Text} {g : Glyph} (h : text.trimStart = g :: rest) :
    g.isBlank = false :=
  Text.head?_trimStart text g (by simp [h])

/-- A token that was read leaves less. -/
theorem length_of_token {text rest after : Text} {g : Glyph} {read : Token}
    (hstart : text.trimStart = g :: rest) (h : token (g :: rest) = .ok (read, after)) :
    after.length < text.length := by
  have hadv := token_advances (g :: rest)
  rw [h] at hadv
  have hle := length_trimStart_le text
  rw [hstart] at hle
  exact Nat.lt_of_lt_of_le (show after.length < (g :: rest).length from hadv) hle

/-- A word that was refused is left behind. -/
theorem length_of_token_error {text rest stop : Text} {g : Glyph} {cause : Cause}
    (hstart : text.trimStart = g :: rest) (h : token (g :: rest) = .error (cause, stop)) :
    (skipWord stop).length < text.length := by
  have hadv := token_advances (g :: rest)
  rw [h] at hadv
  have hle := length_trimStart_le text
  rw [hstart] at hle
  refine Nat.lt_of_lt_of_le ?_ hle
  rcases hadv with hlt | heq
  · exact Nat.lt_of_le_of_lt (length_skipWord_le stop) hlt
  · rw [show stop = g :: rest from heq]
    exact length_skipWord_lt rest (isBlank_of_trimStart hstart)

/-- A word after the rest capture is left behind. -/
theorem length_skipWord_of_trimStart {text rest : Text} {g : Glyph}
    (hstart : text.trimStart = g :: rest) :
    (skipWord (g :: rest)).length < text.length := by
  have hle := length_trimStart_le text
  rw [hstart] at hle
  exact Nat.lt_of_lt_of_le (length_skipWord_lt rest (isBlank_of_trimStart hstart)) hle

/-! ## Lines -/

/-- What is known while the words of a line are read: the length of the line, the keys accepted so far
with their positions, the latest first, and the rest capture if there was one. -/
structure Progress where
  length : Nat
  seen : List (Text × Nat)
  rest : Option Text

/-- The position of what is left to read. -/
def Progress.position (progress : Progress) (left : Text) : Nat :=
  progress.length - left.length

/-- The progress after a token that starts at `left`. -/
def Progress.accept (progress : Progress) (left : Text) (read : Token) : Progress :=
  ⟨progress.length, (read.key, progress.position left) :: progress.seen, read.rest?⟩

/-- What became of each word: the token that it is, or the problem that it has. -/
def outcomes (progress : Progress) (text : Text) : List (Except Problem Token) :=
  match _hstart : text.trimStart with
  | [] => []
  | g :: rest =>
    match progress.rest with
    | some name =>
      .error ⟨progress.position (g :: rest), .afterRest (word (g :: rest)) name⟩ ::
        outcomes progress (skipWord (g :: rest))
    | none =>
      match _hread : token (g :: rest) with
      | .error (cause, stop) =>
        .error ⟨progress.position stop, cause⟩ :: outcomes progress (skipWord stop)
      | .ok (read, after) =>
        match progress.seen.lookup read.key with
        | some first =>
          .error ⟨progress.position (g :: rest), .duplicate read.key first⟩ ::
            outcomes progress after
        | none => .ok read :: outcomes (progress.accept (g :: rest) read) after
termination_by text.length
decreasing_by
  · exact length_skipWord_of_trimStart _hstart
  · exact length_of_token_error _hstart _hread
  · exact length_of_token _hstart _hread
  · exact length_of_token _hstart _hread

/-- The problems among the outcomes. -/
def problems (results : List (Except Problem Token)) : List Problem :=
  results.filterMap fun
    | .error problem => some problem
    | .ok _ => none

/-- The tokens among the outcomes. -/
def tokens (results : List (Except Problem Token)) : List Token :=
  results.filterMap Except.toOption

/-- The usage that consists of some tokens. -/
def ofTokens (read : List Token) : Usage :=
  ⟨read.filterMap Token.argument?, read.findSome? Token.rest?⟩

/-- What follows the header and the command of a line. -/
def afterCommand (line : Text) : Except Problem Text :=
  let stopAt (left : Text) (cause : Cause) : Except Problem Text :=
    .error ⟨line.length - left.length, cause⟩
  match Text.after? header line.trimStart with
  | none => stopAt line.trimStart .expectedHeader
  | some rest =>
    match Text.after? command rest.trimStart with
    | none => stopAt rest.trimStart (.expectedCommand rest.trimStart.head?)
    | some rest =>
      match thenGap () rest with
      | .error (cause, stop) => stopAt stop cause
      | .ok (_, rest) => .ok rest

/-- Reads a usage line; all its problems where there are any. -/
def parse? (line : Text) : Except (List Problem) Usage :=
  match afterCommand line with
  | .error problem => .error [problem]
  | .ok rest =>
    let results := outcomes ⟨line.length, [], none⟩ rest
    match problems results with
    | [] => .ok (ofTokens (tokens results))
    | found => .error found

end Usage

end CommandTree
