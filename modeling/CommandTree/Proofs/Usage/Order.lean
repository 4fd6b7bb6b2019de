import CommandTree.Proofs.Usage.Recovery
import Mathlib.Logic.Relation

/-!
# Problems in the order of the line

The reader of a usage line goes over it once, from left to right.  `Usage.Reader` says where it stands, which is
at a word or at the end of the line, and `Usage.Reader.pass?` is what it does there: it accepts the word or
refuses it, and goes on to the next one.  Pass by pass this comes to `Usage.outcomes` (`Usage.Reader.exists_run`).

A word is refused where the reading of it stopped, or, if it was read, where it starts.  The reading may stop at
the start of the word, in it, at the blank behind it, in a later word if a bracket is open, or at the end of the
line.  From wherever that is, the reader skips what is left of a word and the blanks behind it, and this takes it
past the place, unless the line ends there (`Usage.length_trimStart_skipWord_lt`).

`Usage.Reader.Takes` lists what a pass can do, as far as the order of the problems depends on it, and
`Usage.Reader.Tidy` is the invariant: the problems found so far are in order, and lie behind the reader.
`Usage.parse?_reports_in_order` is the contract.
-/

namespace CommandTree

namespace Usage

open Relation

variable {line rest text : Text} {progress : Progress}

/-- Whether problems have ever greater positions, none of them beyond a length. -/
structure InOrder (length : Nat) (found : List Problem) : Prop where
  increasing : found.Pairwise fun earlier later => earlier.position < later.position
  within : ∀ problem ∈ found, problem.position ≤ length

/-- The problems that are reported for a line. -/
def reported (line : Text) : List Problem :=
  match parse? line with
  | .ok _ => []
  | .error found => found

theorem InOrder.nil {length : Nat} : InOrder length [] :=
  ⟨.nil, nofun⟩

theorem InOrder.snoc {length : Nat} {found : List Problem} {problem : Problem} (h : InOrder length found)
    (hlast : ∀ earlier ∈ found, earlier.position < problem.position) (hwithin : problem.position ≤ length) :
    InOrder length (found ++ [problem]) where
  increasing := by
    refine List.pairwise_append.mpr ⟨h.increasing, List.pairwise_singleton _ problem, ?_⟩
    intro earlier hearlier later hlater
    obtain rfl := List.mem_singleton.mp hlater
    exact hlast earlier hearlier
  within := by
    intro one hmem
    rcases List.mem_append.mp hmem with hmem | hmem
    · exact h.within one hmem
    · obtain rfl := List.mem_singleton.mp hmem
      exact hwithin

/-! ## Readers -/

/-- The reader of a line: what it knows, what is left to read, and what became of the words before.  It stands
at a word or at the end of the line. -/
structure Reader where
  progress : Progress
  left : Text
  atWord : ∀ g ∈ left.head?, g.isBlank = false
  results : List (Except Problem Token)

namespace Reader

/-- The reader behind the command of a line, when it has come to the first word. -/
def start (line rest : Text) : Reader :=
  ⟨⟨line.length, [], none⟩, rest.trimStart, Text.head?_trimStart rest, []⟩

/-- The position at which the reader stands. -/
def position (reader : Reader) : Nat :=
  reader.progress.position reader.left

/-- The problems that were found so far. -/
def found (reader : Reader) : List Problem :=
  problems reader.results

/-- The reader at the next word, after a result for the one before. -/
def goOn (reader : Reader) (result : Except Problem Token) (progress : Progress) (after : Text) : Reader :=
  ⟨progress, after.trimStart, Text.head?_trimStart after, reader.results ++ [result]⟩

/-- One pass over the word at which the reader stands; none at the end of the line. -/
def pass? (reader : Reader) : Option Reader :=
  match reader.left with
  | [] => none
  | left@(_ :: _) => some <|
    match reader.progress.rest with
    | some name =>
      reader.goOn (.error ⟨reader.position, .afterRest (word left) name⟩) reader.progress (skipWord left)
    | none =>
      match token left with
      | .error (cause, stop) =>
        reader.goOn (.error ⟨reader.progress.position stop, cause⟩) reader.progress (skipWord stop)
      | .ok (read, after) =>
        match reader.progress.seen.lookup read.key with
        | some first => reader.goOn (.error ⟨reader.position, .duplicate read.key first⟩) reader.progress after
        | none => reader.goOn (.ok read) (reader.progress.accept left read) after

/-- Whether a reader comes to another one by one pass. -/
def Pass (reader next : Reader) : Prop :=
  reader.pass? = some next

variable {reader next : Reader}

theorem pass?_eq_none_iff : reader.pass? = none ↔ reader.left = [] := by
  unfold pass?
  split
  · rename_i hnil
    simp [hnil]
  · rename_i hcons
    simp [hcons]

@[simp]
theorem found_goOn_ok (read : Token) (progress : Progress) (after : Text) :
    (reader.goOn (.ok read) progress after).found = reader.found := by
  simp [goOn, found, problems]

@[simp]
theorem found_goOn_error (problem : Problem) (progress : Progress) (after : Text) :
    (reader.goOn (.error problem) progress after).found = reader.found ++ [problem] := by
  simp [goOn, found, problems]

end Reader

/-! ## One pass -/

theorem outcomes_trimStart (progress : Progress) (text : Text) :
    outcomes progress text.trimStart = outcomes progress text := by
  have hagain : text.trimStart.trimStart = text.trimStart := Text.trimStart_eq_self (Text.head?_trimStart text)
  cases hleft : text.trimStart with
  | nil =>
    have hblank : text.IsBlank := Text.trimStart_eq_nil_iff.mp hleft
    rw [outcomes_eq_nil_iff.mpr hblank, outcomes_eq_nil_iff.mpr (by simp [Text.IsBlank])]
  | cons g more =>
    rw [hleft] at hagain
    rw [outcomes_of_trimStart hleft (List.cons_ne_nil g more),
      outcomes_of_trimStart hagain (List.cons_ne_nil g more)]

/-- From any place but the end of the line, the reader skips at least one glyph: it stands in a word, or at a
blank. -/
theorem length_trimStart_skipWord_lt (h : text ≠ []) : (skipWord text).trimStart.length < text.length := by
  obtain ⟨g, more, rfl⟩ := List.exists_cons_of_ne_nil h
  cases hg : g.isBlank with
  | false => exact Nat.lt_of_le_of_lt (length_trimStart_le _) (length_skipWord_lt more hg)
  | true =>
    have hskip : (skipWord (g :: more)).trimStart = Text.trimStart more := by
      simp [skipWord, Text.trimStart, hg]
    rw [hskip]
    exact Nat.lt_succ_of_le (length_trimStart_le more)

theorem trimStart_skipWord_past (text : Text) :
    (skipWord text).trimStart.length < text.length ∨ text = [] ∧ (skipWord text).trimStart = [] := by
  cases text with
  | nil => exact .inr ⟨rfl, rfl⟩
  | cons g more => exact .inl (length_trimStart_skipWord_lt (List.cons_ne_nil g more))

theorem Progress.position_lt {other : Text} (h : other.length < text.length)
    (hfits : text.length ≤ progress.length) : progress.position text < progress.position other := by
  simp only [position]
  omega

namespace Reader

variable {reader next last : Reader}

/-- What a pass can take the reader to, with the outcome that it gives.  A word is refused at a place that is not
before it, and the reader goes on past this place, unless it is the end of the line. -/
inductive Takes (reader : Reader) : Reader → Prop where
  | refused {problem : Problem} {stop after : Text}
      (gives : outcomes reader.progress reader.left = .error problem :: outcomes reader.progress after)
      (place : problem.position = reader.progress.position stop)
      (notBefore : stop.length ≤ reader.left.length)
      (past : after.trimStart.length < stop.length ∨ stop = [] ∧ after.trimStart = []) :
      Takes reader (reader.goOn (.error problem) reader.progress after)
  | accepted {read : Token} {after : Text}
      (gives : outcomes reader.progress reader.left =
        .ok read :: outcomes (reader.progress.accept reader.left read) after)
      (past : after.length < reader.left.length) :
      Takes reader (reader.goOn (.ok read) (reader.progress.accept reader.left read) after)

theorem Pass.left_ne_nil (h : Pass reader next) : reader.left ≠ [] := by
  intro hnil
  cases h.symm.trans (pass?_eq_none_iff.mpr hnil)

theorem Pass.takes (h : Pass reader next) : Takes reader next := by
  have hhere : reader.left.trimStart = reader.left := Text.trimStart_eq_self reader.atWord
  have hgives := @outcomes_of_trimStart _ reader.progress _ hhere h.left_ne_nil
  have hadvances := token_advances reader.left
  unfold Pass pass? at h
  split at h
  · cases h
  rename_i hleft
  rw [← hleft] at h
  cases hrest : reader.progress.rest with
  | some name =>
    simp only [hrest] at h hgives
    cases h
    exact .refused hgives rfl (Nat.le_refl _) (trimStart_skipWord_past reader.left)
  | none =>
    simp only [hrest] at h hgives
    rcases htoken : token reader.left with ⟨cause, stop⟩ | ⟨read, after⟩
    · simp only [htoken] at h hgives
      cases h
      rw [htoken] at hadvances
      have hstop : stop.length ≤ reader.left.length := by
        rcases hadvances with hless | rfl
        · exact Nat.le_of_lt hless
        · exact Nat.le_refl _
      exact .refused hgives rfl hstop (trimStart_skipWord_past stop)
    · rw [htoken] at hadvances
      have hafter : after.length < reader.left.length := hadvances
      cases hseen : reader.progress.seen.lookup read.key with
      | some first =>
        -- the word was read, and is refused where it starts
        simp only [htoken, hseen] at h hgives
        cases h
        exact .refused hgives rfl (Nat.le_refl _) (.inl (Nat.lt_of_le_of_lt (length_trimStart_le after) hafter))
      | none =>
        simp only [htoken, hseen] at h hgives
        cases h
        exact .accepted hgives hafter

/-- A pass gives the first of the outcomes that are due, and leaves the others. -/
theorem Pass.outcomes_eq (h : Pass reader next) :
    next.results ++ outcomes next.progress next.left =
      reader.results ++ outcomes reader.progress reader.left := by
  cases h.takes with
  | refused gives => simp [goOn, outcomes_trimStart, gives]
  | accepted gives => simp [goOn, outcomes_trimStart, gives]

theorem Pass.length_eq (h : Pass reader next) : next.progress.length = reader.progress.length := by
  cases h.takes with
  | refused => rfl
  | accepted => rfl

theorem Pass.length_lt (h : Pass reader next) : next.left.length < reader.left.length := by
  have hleft := List.length_pos_iff.mpr h.left_ne_nil
  cases h.takes with
  | @refused problem stop after _ _ notBefore past =>
    rcases past with hless | ⟨-, hnil⟩
    · exact Nat.lt_of_lt_of_le hless notBefore
    · simpa [goOn, hnil] using hleft
  | @accepted read after _ past => exact Nat.lt_of_le_of_lt (length_trimStart_le after) past

/-- Whether a problem lies between two readers: the first one has not come to it, and the other one is past it, or
stands at it at the end of the line. -/
structure Between (reader next : Reader) (problem : Problem) : Prop where
  notBefore : reader.position ≤ problem.position
  past : problem.position < next.position ∨ problem.position = next.position ∧ next.left = []

/-- Whether a reader goes on to another one, and finds at most one problem on the way. -/
structure GoesOn (reader next : Reader) : Prop where
  advances : reader.position < next.position
  adds : next.found = reader.found ∨
    ∃ problem, Between reader next problem ∧ next.found = reader.found ++ [problem]

/-- A pass leads on, and past the problem that it finds if it finds one. -/
theorem Pass.goesOn (h : Pass reader next) (hfits : reader.left.length ≤ reader.progress.length) :
    GoesOn reader next := by
  refine ⟨?_, ?_⟩
  · simpa only [position, Progress.position, h.length_eq] using Progress.position_lt h.length_lt hfits
  · cases h.takes with
    | @refused problem stop after _ place notBefore past =>
      refine .inr ⟨problem, ⟨?_, ?_⟩, found_goOn_error problem _ after⟩
      · rw [place]
        exact Nat.sub_le_sub_left notBefore _
      · rw [place]
        rcases past with hless | ⟨rfl, hnil⟩
        · exact .inl (Progress.position_lt hless (Nat.le_trans notBefore hfits))
        · exact .inr ⟨by simp [goOn, position, hnil], hnil⟩
    | accepted => exact .inl (found_goOn_ok _ _ _)

/-! ## All passes -/

/-- Whether the problems that a reader has found are in order and lie behind it. -/
structure Tidy (reader : Reader) : Prop where
  fits : reader.left.length ≤ reader.progress.length
  inOrder : InOrder reader.progress.length reader.found
  behind : reader.left ≠ [] → ∀ problem ∈ reader.found, problem.position < reader.position

theorem tidy_start (h : rest.length ≤ line.length) : Tidy (start line rest) where
  fits := Nat.le_trans (length_trimStart_le rest) h
  inOrder := .nil
  behind _ := nofun

theorem Tidy.of_pass (h : Tidy reader) (hpass : Pass reader next) : Tidy next := by
  have hfits : next.left.length ≤ next.progress.length := by
    rw [hpass.length_eq]
    exact Nat.le_trans (Nat.le_of_lt hpass.length_lt) h.fits
  have hposition : next.position ≤ next.progress.length := Nat.sub_le _ _
  have hbehind := h.behind hpass.left_ne_nil
  have hinOrder := h.inOrder
  rw [← hpass.length_eq] at hinOrder
  obtain ⟨hadvances, hsame | ⟨problem, hbetween, hadds⟩⟩ := hpass.goesOn h.fits
  · refine ⟨hfits, hsame ▸ hinOrder, fun _ earlier hmem => ?_⟩
    exact Nat.lt_trans (hbehind earlier (hsame ▸ hmem)) hadvances
  · -- what was found before lies behind the reader, and the new problem does not
    have hlast : ∀ earlier ∈ reader.found, earlier.position < problem.position := fun earlier hmem =>
      Nat.lt_of_lt_of_le (hbehind earlier hmem) hbetween.notBefore
    have hwithin : problem.position ≤ next.progress.length := by
      rcases hbetween.past with hless | ⟨heq, -⟩
      · exact Nat.le_trans (Nat.le_of_lt hless) hposition
      · exact heq ▸ hposition
    refine ⟨hfits, hadds ▸ hinOrder.snoc hlast hwithin, fun hleft one hmem => ?_⟩
    have hproblem : problem.position < next.position := hbetween.past.resolve_right fun hend => hleft hend.2
    rw [hadds] at hmem
    rcases List.mem_append.mp hmem with hmem | hmem
    · exact Nat.lt_trans (hlast one hmem) hproblem
    · obtain rfl := List.mem_singleton.mp hmem
      exact hproblem

theorem Tidy.of_reach (h : Tidy reader) (hreach : ReflTransGen Pass reader last) : Tidy last := by
  induction hreach with
  | refl => exact h
  | tail _ hpass ih => exact ih.of_pass hpass

theorem length_eq_of_reach (hreach : ReflTransGen Pass reader last) :
    last.progress.length = reader.progress.length := by
  induction hreach with
  | refl => rfl
  | tail _ hpass ih => exact hpass.length_eq.trans ih

theorem outcomes_eq_of_reach (hreach : ReflTransGen Pass reader last) :
    last.results ++ outcomes last.progress last.left =
      reader.results ++ outcomes reader.progress reader.left := by
  induction hreach with
  | refl => rfl
  | tail _ hpass ih => exact hpass.outcomes_eq.trans ih

/-- The reader comes to the end of the line. -/
theorem exists_last (reader : Reader) : ∃ last, ReflTransGen Pass reader last ∧ last.left = [] := by
  induction hlength : reader.left.length using Nat.strongRecOn generalizing reader with
  | ind length ih =>
    subst hlength
    cases hpass : reader.pass? with
    | none => exact ⟨reader, .refl, pass?_eq_none_iff.mp hpass⟩
    | some next =>
      obtain ⟨last, hreach, hend⟩ := ih _ (Pass.length_lt hpass) next rfl
      exact ⟨last, .head hpass hreach, hend⟩

/-- The run of a reader over a line ends with the outcomes of all its words. -/
theorem exists_run (line rest : Text) :
    ∃ last, ReflTransGen Pass (start line rest) last ∧ last.left = [] ∧
      last.results = outcomes ⟨line.length, [], none⟩ rest := by
  obtain ⟨last, hreach, hend⟩ := exists_last (start line rest)
  have hnone : outcomes last.progress last.left = [] := by
    rw [hend]
    exact outcomes_eq_nil_iff.mpr nofun
  have hall := outcomes_eq_of_reach hreach
  rw [hnone, List.append_nil] at hall
  exact ⟨last, hreach, hend, hall.trans (outcomes_trimStart _ rest)⟩

end Reader

/-! ## Lines -/

theorem reported_of_afterCommand (h : afterCommand line = .ok rest) :
    reported line = problems (outcomes ⟨line.length, [], none⟩ rest) := by
  simp only [reported, parse?, h]
  cases hfound : problems (outcomes ⟨line.length, [], none⟩ rest) <;> simp

theorem reported_of_noCommand {problem : Problem} (h : afterCommand line = .error problem) :
    reported line = [problem] := by
  simp only [reported, parse?, h]

theorem position_le_of_noCommand {problem : Problem} (h : afterCommand line = .error problem) :
    problem.position ≤ line.length := by
  simp only [afterCommand] at h
  split at h
  · cases h
    exact Nat.sub_le _ _
  split at h
  · cases h
    exact Nat.sub_le _ _
  split at h
  · cases h
    exact Nat.sub_le _ _
  · cases h

theorem length_le_of_afterCommand (h : afterCommand line = .ok rest) : rest.length ≤ line.length := by
  obtain ⟨lead, gap, -, -, rfl, -⟩ := afterCommand_eq_ok_iff.mp h
  simp only [List.length_append]
  omega

/-- Whether a reader is met while the words of a line are read. -/
def Reader.Reads (reader : Reader) (line : Text) : Prop :=
  ∃ rest, afterCommand line = .ok rest ∧ ReflTransGen Pass (start line rest) reader

theorem Reader.Reads.length_eq {reader : Reader} (h : reader.Reads line) : reader.progress.length = line.length := by
  obtain ⟨rest, -, hreach⟩ := h
  exact length_eq_of_reach hreach

theorem Reader.Reads.tidy {reader : Reader} (h : reader.Reads line) : reader.Tidy := by
  obtain ⟨rest, hrest, hreach⟩ := h
  exact (tidy_start (length_le_of_afterCommand hrest)).of_reach hreach

/-- Where a line has a header and a command, the reading of its words comes to an end, and what was found then is
reported. -/
theorem Reader.exists_reads (h : afterCommand line = .ok rest) :
    ∃ last : Reader, last.Reads line ∧ last.left = [] ∧ last.found = reported line := by
  obtain ⟨last, hreach, hend, hresults⟩ := exists_run line rest
  refine ⟨last, ⟨rest, h, hreach⟩, hend, ?_⟩
  rw [found, hresults, reported_of_afterCommand h]

/-- The problems that are reported for a line, whatever stands in it, have ever greater positions, from its start to
its end.  For the words of the line are read in one run of passes, of which each finds at most one problem and
leads strictly on, past this problem unless the line ends there. -/
theorem parse?_reports_in_order (line : Text) :
    InOrder line.length (reported line) ∧
      (∀ rest, afterCommand line = .ok rest →
        ∃ last : Reader, last.Reads line ∧ last.left = [] ∧ last.found = reported line) ∧
      ∀ reader next : Reader, reader.Reads line → reader.Pass next → reader.GoesOn next := by
  refine ⟨?_, fun rest hrest => Reader.exists_reads hrest, fun reader next hreads hpass => ?_⟩
  · cases hcommand : afterCommand line with
    | error problem =>
      rw [reported_of_noCommand hcommand]
      exact InOrder.nil.snoc nofun (position_le_of_noCommand hcommand)
    | ok rest =>
      obtain ⟨last, hreads, -, hfound⟩ := Reader.exists_reads hcommand
      have hinOrder := hreads.tidy.inOrder
      rwa [hfound, hreads.length_eq] at hinOrder
  · exact hpass.goesOn hreads.tidy.fits

/-- Words that are refused at the blank behind an open name, at a start, at the blank behind a dash, behind the
blanks in open brackets, and at the end of the line. -/
def brokenWords : Text :=
  " <a b> - [ c  d] [e"

theorem parse?_reports_in_order_broken :
    afterCommand (opening ++ brokenWords) = .ok brokenWords ∧
      (reported (opening ++ brokenWords)).map Problem.position = [17, 18, 22, 28, 33] ∧
      InOrder (opening ++ brokenWords).length (reported (opening ++ brokenWords)) ∧
      ∃ next, (Reader.start (opening ++ brokenWords) brokenWords).Pass next ∧
        (Reader.start (opening ++ brokenWords) brokenWords).GoesOn next := by
  have hrest : afterCommand (opening ++ brokenWords) = .ok brokenWords := rfl
  obtain ⟨hinOrder, -, hgoesOn⟩ := parse?_reports_in_order (opening ++ brokenWords)
  refine ⟨hrest, by decide +kernel, hinOrder, ?_⟩
  cases hpass : (Reader.start (opening ++ brokenWords) brokenWords).pass? with
  | none => exact absurd (Reader.pass?_eq_none_iff.mp hpass) (by decide +kernel)
  | some next => exact ⟨next, hpass, hgoesOn _ next ⟨brokenWords, hrest, .refl⟩ hpass⟩

end Usage

end CommandTree
