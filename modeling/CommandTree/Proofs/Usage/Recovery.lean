import CommandTree.Proofs.Usage.Confinement
import CommandTree.Proofs.Usage.RoundTrip
import Mathlib.Data.List.Basic

/-!
# Every bad word is reported

The reader of a usage line does not stop at a word that it refuses.  It notes the problem, skips what is
left of the word and goes on, and so every word is judged by itself and by the words that were accepted
before it, whatever is wrong with the others.

`Usage.Refused` and `Usage.Accepted` say how a word is judged, in terms of what may be written for a token
(`Usage.Word`), and `Usage.Reports` says it of all words of a line, from left to right.  What a step does
with one word is `Usage.outcomes_append`; that every run of words is judged in this way follows by
induction on the words, where `Usage.Progress.Knows` ties what the reader remembers to the tokens accepted
so far (`Usage.outcomes_reports`).

`Usage.parse?_reports` is the contract.
-/

namespace CommandTree

namespace Usage

/-! ## Words in a line -/

/-- A word with the blanks before it.  The word holds no blank, and it closes a bracket if it opens with
one. -/
structure SpacedWord where
  blanks : Text
  word : Text
  apart : blanks ≠ []
  isBlank : blanks.IsBlank
  nonempty : word ≠ []
  isSolid : word.IsSolid
  closed : word.head? = some (.char '[') → .char ']' ∈ word

/-- The text of some words with the blanks before them. -/
def bodyOf (words : List SpacedWord) : Text :=
  words.flatMap fun spaced => spaced.blanks ++ spaced.word

/-- What stands before the words of a line. -/
def opening : Text :=
  header ++ " " ++ command

variable {text rest : Text} {progress : Progress} {accepted : List (Token × Nat)} {words : List SpacedWord}
  {spaced : SpacedWord} {offset : Nat} {w : Text}

theorem gap_bodyOf (words : List SpacedWord) : Gap (bodyOf words) := by
  cases words with
  | nil => simp [Gap, bodyOf]
  | cons spaced words =>
    intro g hg
    obtain ⟨first, more, hblanks⟩ := List.exists_cons_of_ne_nil spaced.apart
    obtain rfl : first = g := by simpa [bodyOf, hblanks] using hg
    exact spaced.isBlank first (hblanks ▸ List.mem_cons_self)

/-! ## How words are judged -/

/-- Why a word is refused that starts at a position, after some tokens were accepted at their positions:
the rest was captured before; or it is no token; or its key was used before.  A word that is no token is
refused at a position in it or right behind it, every other one at its start. -/
inductive Refused (accepted : List (Token × Nat)) (start : Nat) (w : Text) : Problem → Prop where
  | afterRest {name : Text} {first : Nat} (captured : (.rest name, first) ∈ accepted) :
      Refused accepted start w ⟨start, .afterRest w name⟩
  | malformed {position : Nat} {cause : Cause} (free : ∀ name first, (.rest name, first) ∉ accepted)
      (noToken : ∀ read, ¬Word read w) (notBefore : start ≤ position)
      (notBehind : position ≤ start + w.length) : Refused accepted start w ⟨position, cause⟩
  | duplicate {read earlier : Token} {first : Nat} (free : ∀ name first, (.rest name, first) ∉ accepted)
      (word : Word read w) (used : (earlier, first) ∈ accepted) (same : earlier.key = read.key) :
      Refused accepted start w ⟨start, .duplicate read.key first⟩

/-- Whether a word is accepted as a token, after some tokens were accepted at their positions. -/
structure Accepted (accepted : List (Token × Nat)) (w : Text) (read : Token) : Prop where
  free : ∀ name first, (.rest name, first) ∉ accepted
  word : Word read w
  new : ∀ earlier first, (earlier, first) ∈ accepted → earlier.key ≠ read.key

/-- What becomes of words that stand at an offset, after some tokens were accepted: one result for each, in
order. -/
inductive Reports : (offset : Nat) → (accepted : List (Token × Nat)) → List SpacedWord →
    List (Except Problem Token) → Prop where
  | nil {offset : Nat} {accepted : List (Token × Nat)} : Reports offset accepted [] []
  | refused {offset start : Nat} {accepted : List (Token × Nat)} {spaced : SpacedWord}
      {words : List SpacedWord} {problem : Problem} {results : List (Except Problem Token)}
      (place : start = offset + spaced.blanks.length) (bad : Refused accepted start spaced.word problem)
      (more : Reports (start + spaced.word.length) accepted words results) :
      Reports offset accepted (spaced :: words) (.error problem :: results)
  | accepted {offset start : Nat} {accepted : List (Token × Nat)} {spaced : SpacedWord}
      {words : List SpacedWord} {read : Token} {results : List (Except Problem Token)}
      (place : start = offset + spaced.blanks.length) (good : Accepted accepted spaced.word read)
      (more : Reports (start + spaced.word.length) ((read, start) :: accepted) words results) :
      Reports offset accepted (spaced :: words) (.ok read :: results)

/-! ## One word -/

/-- What the reader notes of the first word of a text. -/
theorem outcomes_of_trimStart {left : Text} (hstart : text.trimStart = left) (hne : left ≠ []) :
    outcomes progress text =
      match progress.rest with
      | some name =>
        .error ⟨progress.position left, .afterRest (word left) name⟩ :: outcomes progress (skipWord left)
      | none =>
        match token left with
        | .error (cause, stop) => .error ⟨progress.position stop, cause⟩ :: outcomes progress (skipWord stop)
        | .ok (read, after) =>
          match progress.seen.lookup read.key with
          | some first =>
            .error ⟨progress.position left, .duplicate read.key first⟩ :: outcomes progress after
          | none => .ok read :: outcomes (progress.accept left read) after := by
  rw [outcomes]
  split
  · rename_i hnil
    exact absurd (hstart.symm.trans hnil) hne
  · rename_i g more hcons
    obtain rfl := hstart.symm.trans hcons
    cases hrest : progress.rest with
    | some name => rfl
    | none =>
      rcases htoken : token (g :: more) with ⟨cause, stop⟩ | ⟨read, after⟩
      · rfl
      · rfl

theorem skipWord_append (hsolid : w.IsSolid) (hgap : Gap rest) : skipWord (w ++ rest) = rest := by
  have hrest : skipWord rest = rest := by
    cases rest with
    | nil => rfl
    | cons g more => simp [skipWord, hgap g (by simp)]
  rw [skipWord, List.dropWhile_append_of_pos (fun g hg => by simp [hsolid g hg])]
  exact hrest

theorem word_append (hsolid : w.IsSolid) (hgap : Gap rest) : word (w ++ rest) = w := by
  have hrest : word rest = [] := by
    cases rest with
    | nil => rfl
    | cons g more => simp [word, hgap g (by simp)]
  rw [word, List.takeWhile_append_of_pos (fun g hg => by simp [hsolid g hg])]
  exact (congrArg (w ++ ·) hrest).trans (List.append_nil w)

/-- What the reader remembers is what was accepted so far: its keys and positions, and the rest capture if
it is among it. -/
structure Progress.Knows (progress : Progress) (accepted : List (Token × Nat)) : Prop where
  seen : progress.seen = accepted.map fun entry => (entry.1.key, entry.2)
  rest : ∀ name, progress.rest = some name ↔ ∃ first, (.rest name, first) ∈ accepted

namespace Progress.Knows

theorem nothing (length : Nat) : Knows ⟨length, [], none⟩ [] where
  seen := rfl
  rest := by simp

theorem free (h : progress.Knows accepted) (hrest : progress.rest = none) (name : Text) (first : Nat) :
    (.rest name, first) ∉ accepted := by
  intro hmem
  rw [(h.rest name).mpr ⟨first, hmem⟩] at hrest
  cases hrest

/-- A key that was seen was accepted at the position that is remembered. -/
theorem exists_of_lookup (h : progress.Knows accepted) {key : Text} {first : Nat}
    (hkey : progress.seen.lookup key = some first) :
    ∃ earlier, (earlier, first) ∈ accepted ∧ earlier.key = key := by
  rw [h.seen, List.lookup_eq_some_iff] at hkey
  obtain ⟨before, after, hsplit, -⟩ := hkey
  have hmem : (key, first) ∈ accepted.map fun entry => (entry.1.key, entry.2) := by simp [hsplit]
  obtain ⟨⟨earlier, position⟩, hentry, heq⟩ := List.mem_map.mp hmem
  cases heq
  exact ⟨earlier, hentry, rfl⟩

theorem new_of_lookup (h : progress.Knows accepted) {key : Text} (hkey : progress.seen.lookup key = none)
    (earlier : Token) (first : Nat) (hmem : (earlier, first) ∈ accepted) : earlier.key ≠ key := by
  rw [h.seen, List.lookup_eq_none_iff] at hkey
  have hne := hkey _ (List.mem_map_of_mem hmem)
  rintro rfl
  simp at hne

theorem accept (h : progress.Knows accepted) (hrest : progress.rest = none) (left : Text) (read : Token) :
    (progress.accept left read).Knows ((read, progress.position left) :: accepted) where
  seen := by simp [Progress.accept, h.seen]
  rest name := by
    have hfree := h.free hrest name
    cases read <;> simp [Progress.accept, Token.rest?, hfree, eq_comm]

end Progress.Knows

/-- A word is refused or accepted by what was accepted before, and what follows it is read from where it
ends. -/
theorem outcomes_append {start : Nat} (hknows : progress.Knows accepted)
    (hlength : progress.length = offset + (spaced.blanks ++ spaced.word ++ rest).length) (hgap : Gap rest)
    (hstart : start = offset + spaced.blanks.length) :
    (∃ problem, Refused accepted start spaced.word problem ∧
        outcomes progress (spaced.blanks ++ spaced.word ++ rest) =
          .error problem :: outcomes progress rest) ∨
      ∃ read next, Accepted accepted spaced.word read ∧ next.length = progress.length ∧
        next.Knows ((read, start) :: accepted) ∧
        outcomes progress (spaced.blanks ++ spaced.word ++ rest) = .ok read :: outcomes next rest := by
  have hposition : ∀ left : Text, left <:+ spaced.word →
      progress.position (left ++ rest) = start + (spaced.word.length - left.length) := by
    intro left hleft
    have hle := hleft.length_le
    simp only [Progress.position, hlength, hstart, List.length_append]
    omega
  have hhere : progress.position (spaced.word ++ rest) = start := by
    simp [hposition spaced.word List.suffix_rfl]
  have htrim : (spaced.blanks ++ spaced.word ++ rest).trimStart = spaced.word ++ rest := by
    refine Text.trimStart_eq_iff.mpr ⟨⟨spaced.blanks, spaced.isBlank, by simp⟩, fun g hg => ?_⟩
    obtain ⟨first, more, hword⟩ := List.exists_cons_of_ne_nil spaced.nonempty
    obtain rfl : first = g := by simpa [hword] using hg
    exact spaced.isSolid first (hword ▸ List.mem_cons_self)
  have hne : spaced.word ++ rest ≠ [] := by simp [spaced.nonempty]
  have hstep := @outcomes_of_trimStart _ progress _ htrim hne
  cases hrest : progress.rest with
  | some name =>
    obtain ⟨first, hcaptured⟩ := (hknows.rest name).mp hrest
    simp only [hrest, hhere, word_append spaced.isSolid hgap, skipWord_append spaced.isSolid hgap] at hstep
    exact .inl ⟨_, .afterRest hcaptured, hstep⟩
  | none =>
    have hfree := hknows.free hrest
    rcases token_word hgap spaced.isSolid spaced.closed with
      ⟨read, hword, htoken⟩ | ⟨hnone, cause, left, hleft, htoken⟩
    · simp only [hrest, htoken] at hstep
      cases hlookup : progress.seen.lookup read.key with
      | some first =>
        obtain ⟨earlier, hused, hsame⟩ := hknows.exists_of_lookup hlookup
        simp only [hlookup, hhere] at hstep
        exact .inl ⟨_, .duplicate hfree hword hused hsame, hstep⟩
      | none =>
        simp only [hlookup] at hstep
        have hnext := hknows.accept hrest (spaced.word ++ rest) read
        rw [hhere] at hnext
        have hgood : Accepted accepted spaced.word read := ⟨hfree, hword, hknows.new_of_lookup hlookup⟩
        exact .inr ⟨read, progress.accept (spaced.word ++ rest) read, hgood, rfl, hnext, hstep⟩
    · have hskip : skipWord (left ++ rest) = rest :=
        skipWord_append (fun g hg => spaced.isSolid g (hleft.subset hg)) hgap
      simp only [hrest, htoken, hposition left hleft, hskip] at hstep
      exact .inl ⟨_, .malformed hfree hnone (Nat.le_add_right _ _) (by omega), hstep⟩

/-! ## All words -/

/-- Every word of a line is judged by itself and by what was accepted before it. -/
theorem outcomes_reports (words : List SpacedWord) (hknows : progress.Knows accepted)
    (hlength : progress.length = offset + (bodyOf words).length) :
    Reports offset accepted words (outcomes progress (bodyOf words)) := by
  induction words generalizing progress accepted offset with
  | nil =>
    have hnil : outcomes progress (bodyOf []) = [] := outcomes_eq_nil_iff.mpr (by simp [bodyOf, Text.IsBlank])
    rw [hnil]
    exact .nil
  | cons spaced words ih =>
    have hbody : bodyOf (spaced :: words) = spaced.blanks ++ spaced.word ++ bodyOf words := by simp [bodyOf]
    rw [hbody] at hlength ⊢
    have hmore : progress.length =
        offset + spaced.blanks.length + spaced.word.length + (bodyOf words).length := by
      simp only [hlength, List.length_append]
      omega
    rcases outcomes_append hknows hlength (gap_bodyOf words) rfl with
      ⟨problem, hbad, hstep⟩ | ⟨read, next, hgood, hsame, hnext, hstep⟩
    · rw [hstep]
      exact .refused rfl hbad (ih hknows hmore)
    · rw [hstep]
      exact .accepted rfl hgood (ih hnext (hsame.trans hmore))

/-- Only the last word that was accepted may be the rest capture. -/
theorem Reports.restLast {reads : List Token} (h : Reports offset accepted words (reads.map .ok)) :
    ∀ read ∈ reads.dropLast, read.rest? = none := by
  induction reads generalizing offset accepted words with
  | nil => simp
  | cons read reads ih =>
    rw [List.map_cons] at h
    cases h with
    | @accepted _ start _ spaced words _ _ place good more =>
      cases reads with
      | nil => simp
      | cons next reads =>
        intro earlier hearlier
        rw [List.dropLast_cons_of_ne_nil (List.cons_ne_nil next reads)] at hearlier
        rcases List.mem_cons.mp hearlier with rfl | hearlier
        · -- the word after a rest capture would have been refused
          cases earlier with
          | argument argument => rfl
          | rest name =>
            rw [List.map_cons] at more
            cases more with
            | accepted place good more => exact absurd List.mem_cons_self (good.free name start)
        · exact ih more earlier hearlier

/-- Reading a line whose words are set apart by blanks reports one problem for each bad word, in the order
of the words, and no other; a word is bad if the rest was captured before it, or else if it is no token, or
else if its key was used by an accepted word before it.  Where no word is bad the line states the words in
order. -/
theorem parse?_reports (words : List SpacedWord) :
    ∃ results, Reports opening.length [] words results ∧
      (problems results ≠ [] → parse? (opening ++ bodyOf words) = .error (problems results)) ∧
      ∀ reads : List Token, results = reads.map .ok →
        ∃ usage, parse? (opening ++ bodyOf words) = .ok usage ∧ usage.asTokens = reads := by
  have hopening : afterCommand (opening ++ bodyOf words) = .ok (bodyOf words) :=
    afterCommand_eq_ok_iff.mpr
      ⟨[], Text.lit " ", by simp [Text.IsBlank], isBlank_space, by simp [opening], gap_bodyOf words⟩
  have hreports := outcomes_reports words (Progress.Knows.nothing (opening ++ bodyOf words).length)
    List.length_append
  refine ⟨_, hreports, fun hproblems => ?_, fun reads hreads => ?_⟩
  · obtain ⟨problem, more, hfound⟩ := List.exists_cons_of_ne_nil hproblems
    simp only [parse?, hopening, hfound]
  · rw [hreads] at hreports
    refine ⟨ofTokens reads, ?_, asTokens_ofTokens hreports.restLast⟩
    simp only [parse?, hopening, hreads, problems_eq_nil_iff.mpr ⟨reads, rfl⟩, tokens_map_ok]

/-- A word with one space before it. -/
def SpacedWord.single (word : Text) (nonempty : word ≠ []) (isSolid : ∀ g ∈ word, g.isBlank = false)
    (closed : word.head? = some (.char '[') → .char ']' ∈ word) : SpacedWord :=
  ⟨" ", word, by decide, isBlank_space, nonempty, isSolid, closed⟩

/-- A name, a name without its closing bracket, a name that is used again, a rest capture, and a word after
it. -/
def mixedWords : List SpacedWord :=
  [.single "<a>" (by decide) (by decide) (by decide), .single "<b" (by decide) (by decide) (by decide),
    .single "<a>" (by decide) (by decide) (by decide), .single "[c]..." (by decide) (by decide) (by decide),
    .single "d" (by decide) (by decide) (by decide)]

theorem parse?_reports_mixed :
    opening ++ bodyOf mixedWords = "# Usage: \x7bcmd\x7d <a> <b <a> [c]... d" ∧
      ∃ results, Reports opening.length [] mixedWords results ∧ problems results =
        [⟨21, .unclosedName "b" (some (.char ' '))⟩, ⟨22, .duplicate "a" 15⟩, ⟨33, .afterRest "d" "c"⟩] := by
  have hparse : parse? (opening ++ bodyOf mixedWords) = .error
      [⟨21, .unclosedName "b" (some (.char ' '))⟩, ⟨22, .duplicate "a" 15⟩, ⟨33, .afterRest "d" "c"⟩] := by
    decide +kernel
  obtain ⟨results, hreports, hbad, hgood⟩ := parse?_reports mixedWords
  refine ⟨by decide, results, hreports, ?_⟩
  by_cases hnone : problems results = []
  · obtain ⟨reads, hreads⟩ := problems_eq_nil_iff.mp hnone
    obtain ⟨usage, husage, -⟩ := hgood reads hreads
    rw [hparse] at husage
    cases husage
  · exact Except.error.inj ((hbad hnone).symm.trans hparse)

end Usage

end CommandTree
