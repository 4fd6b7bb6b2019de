import CommandTree.OptionLine.Basic
import CommandTree.Proofs.Text.Blank

/-!
# The grammar of option lines

`OptionLine.States` says which lines state an option line: a name, a completion in parentheses if there is one, a
colon and the description, with blanks around the parts.

The reader is followed part by part.  For each part one lemma says that what was read was written (`…_sound`), one
that what was written is read back (`…_append`), and one that where the reader stops, what it has passed can be
continued to something that it reads (`…_stop`).  The last is said with `OptionLine.Opens`.

`OptionLine.parse?_states_or_blames` puts the parts together: a line is read as an option line exactly if it states it,
and every other line is refused at a position up to which it can be the beginning of a line that is read.
-/

namespace CommandTree

namespace OptionLine

variable {text rest line stop lead name gap group seen more : Text} {completion : Completion}
  {stated : Option Completion} {read : OptionLine} {cause : Cause}

/-! ## What may be written -/

/-- What may be written for a completion. -/
inductive Word : Text → Completion → Prop where
  | script : Word scriptWord .script
  | command {line : Text} (unquoted : backquote ∉ line) : Word (backquote :: line ++ [backquote]) (.command line.trim)

/-- What may stand between the name and the colon: nothing, or a completion in parentheses, with blanks after each of
its parts. -/
inductive Group : Text → Option Completion → Prop where
  | absent : Group [] none
  | present {lead word gap trail : Text} {completion : Completion} (lead_isBlank : lead.IsBlank)
      (word_states : Word word completion) (gap_isBlank : gap.IsBlank) (trail_isBlank : trail.IsBlank) :
      Group ("(" ++ lead ++ word ++ gap ++ ")" ++ trail) (some completion)

/-- Whether a line states an option line.  A description of blanks alone is none. -/
inductive States : Text → OptionLine → Prop where
  | intro {lead name gap group description : Text} {stated : Option Completion} (lead_isBlank : lead.IsBlank)
      (name_isIdent : name.IsIdent) (gap_isBlank : gap.IsBlank) (group_states : Group group stated) :
      States (lead ++ name ++ gap ++ group ++ ":" ++ description)
        ⟨name, stated, if description.trim = [] then none else some description.trim⟩

/-- Whether a text can be continued to one that states something. -/
def Opens {α : Type} (states : Text → α → Prop) (seen : Text) : Prop :=
  ∃ tail read, states (seen ++ tail) read

theorem opens_of_states {α : Type} {states : Text → α → Prop} {value : α} (h : states text value) :
    Opens states text :=
  ⟨[], value, by rwa [List.append_nil]⟩

theorem Opens.of_append {α : Type} {states : Text → α → Prop} (h : Opens states (seen ++ more)) :
    Opens states seen := by
  obtain ⟨tail, value, hstates⟩ := h
  exact ⟨more ++ tail, value, by rwa [← List.append_assoc]⟩

theorem opens_group (hlead : lead.IsBlank) (h : Opens Word seen) : Opens Group ("(" ++ lead ++ seen) := by
  obtain ⟨tail, completion, hword⟩ := h
  have hblank : Text.IsBlank [] := nofun
  have hgroup : Group (Text.lit "(" ++ lead ++ (seen ++ tail) ++ [] ++ Text.lit ")" ++ []) (some completion) :=
    .present hlead hword hblank hblank
  exact ⟨tail ++ ")", _, by simpa using hgroup⟩

theorem opens_line (hlead : lead.IsBlank) (hname : name.IsIdent) (hgap : gap.IsBlank) (h : Opens Group seen) :
    Opens States (lead ++ name ++ gap ++ seen) := by
  obtain ⟨tail, stated, hgroup⟩ := h
  have hline : States (lead ++ name ++ gap ++ (seen ++ tail) ++ Text.lit ":" ++ []) ⟨name, stated, _⟩ :=
    .intro hlead hname hgap hgroup
  exact ⟨tail ++ ":", _, by simpa using hline⟩

/-! ## Completions -/

theorem closedCommand_sound (h : closedCommand text = .ok (completion, rest)) :
    ∃ line, backquote ∉ line ∧ text = line ++ backquote :: rest ∧ completion = .command line.trim := by
  unfold closedCommand at h
  rcases Text.cutAt_cases backquote text with ⟨-, hcut⟩ | ⟨line, after, hline, rfl, hcut⟩
  · rw [hcut] at h
    cases h
  · rw [hcut] at h
    cases h
    exact ⟨line, hline, rfl, rfl⟩

theorem closedCommand_append (h : backquote ∉ line) (rest : Text) :
    closedCommand (line ++ backquote :: rest) = .ok (.command line.trim, rest) := by
  rw [closedCommand, Text.cutAt_append h]

theorem closedCommand_stop (h : closedCommand text = .error (cause, stop)) : backquote ∉ text ∧ stop = [] := by
  unfold closedCommand at h
  rcases Text.cutAt_cases backquote text with ⟨htext, hcut⟩ | ⟨line, after, -, -, hcut⟩
  · rw [hcut] at h
    cases h
    exact ⟨htext, rfl⟩
  · rw [hcut] at h
    cases h

theorem scriptOrCommand_sound (h : scriptOrCommand text = .ok (completion, rest)) :
    ∃ word, Word word completion ∧ text = word ++ rest := by
  unfold scriptOrCommand at h
  split at h
  · rename_i after hafter
    cases h
    exact ⟨scriptWord, .script, Text.after?_eq_some_iff.mp hafter⟩
  split at h
  · cases h
  split at h
  · rename_i hg
    obtain ⟨line, hline, rfl, rfl⟩ := closedCommand_sound h
    exact ⟨_, .command hline, by simp [hg]⟩
  · cases h

theorem scriptOrCommand_append {word : Text} (h : Word word completion) (rest : Text) :
    scriptOrCommand (word ++ rest) = .ok (completion, rest) := by
  cases h with
  | script => simp only [scriptOrCommand, Text.after?_append]
  | @command line hline =>
    have hscript : Text.after? scriptWord (backquote :: line ++ [backquote] ++ rest) = none := by
      simp [scriptWord, Text.lit, Text.after?, backquote]
    have htext : backquote :: line ++ [backquote] ++ rest = backquote :: (line ++ backquote :: rest) := by simp
    rw [htext] at hscript ⊢
    simp only [scriptOrCommand, hscript, if_true, closedCommand_append hline]

theorem opens_word_nil : Opens Word [] :=
  ⟨scriptWord, .script, .script⟩

theorem scriptOrCommand_stop (h : scriptOrCommand text = .error (cause, stop)) :
    ∃ seen, text = seen ++ stop ∧ Opens Word seen := by
  unfold scriptOrCommand at h
  split at h
  · cases h
  split at h
  · cases h
    exact ⟨[], rfl, opens_word_nil⟩
  split at h
  · rename_i hg
    obtain ⟨hquote, rfl⟩ := closedCommand_stop h
    rw [hg]
    exact ⟨_, (List.append_nil _).symm, [backquote], _, .command hquote⟩
  · cases h
    exact ⟨[], rfl, opens_word_nil⟩

/-- A completion starts with no blank. -/
theorem Word.head_not_isBlank {word : Text} (h : Word word completion) (rest : Text) :
    ∀ g ∈ (word ++ rest).head?, g.isBlank = false := by
  intro g hg
  cases h with
  | script =>
    obtain rfl : .char 's' = g := by simpa [scriptWord, Text.lit] using hg
    decide
  | command =>
    obtain rfl : backquote = g := by simpa using hg
    decide

/-! ## Parentheses -/

theorem closedCompletion_sound (h : closedCompletion text = .ok (completion, rest)) :
    ∃ lead word gap : Text, lead.IsBlank ∧ Word word completion ∧ gap.IsBlank ∧
      text = lead ++ word ++ gap ++ ")" ++ rest := by
  unfold closedCompletion at h
  split at h
  · cases h
  rename_i found after hword
  split at h
  · rename_i last hclosed
    cases h
    obtain ⟨word, hstates, hstart⟩ := scriptOrCommand_sound hword
    obtain ⟨⟨lead, hlead, rfl⟩, -⟩ := Text.trimStart_eq_iff.mp hstart
    obtain ⟨⟨gap, hgap, rfl⟩, -⟩ := Text.trimStart_eq_iff.mp hclosed
    exact ⟨lead, word, gap, hlead, hstates, hgap, by simp [Text.lit]⟩
  · cases h

theorem closedCompletion_append {word : Text} (hlead : lead.IsBlank) (hword : Word word completion)
    (hgap : gap.IsBlank) (rest : Text) :
    closedCompletion (lead ++ word ++ gap ++ ")" ++ rest) = .ok (completion, rest) := by
  have hstart : Text.trimStart (lead ++ word ++ gap ++ ")" ++ rest) = word ++ (gap ++ .char ')' :: rest) :=
    Text.trimStart_eq_iff.mpr ⟨⟨lead, hlead, by simp [Text.lit]⟩, hword.head_not_isBlank _⟩
  have hclosed : Text.trimStart (gap ++ .char ')' :: rest) = .char ')' :: rest :=
    Text.trimStart_append_cons hgap (by decide) rest
  simp only [closedCompletion, hstart, scriptOrCommand_append hword, hclosed]

theorem closedCompletion_stop (h : closedCompletion text = .error (cause, stop)) :
    ∃ seen, text = seen ++ stop ∧ Opens Group ("(" ++ seen) := by
  unfold closedCompletion at h
  split at h
  · rename_i hword
    cases h
    obtain ⟨seen, hstart, hopens⟩ := scriptOrCommand_stop hword
    obtain ⟨⟨lead, hlead, rfl⟩, -⟩ := Text.trimStart_eq_iff.mp hstart
    exact ⟨lead ++ seen, by simp, by simpa using opens_group hlead hopens⟩
  rename_i found after hword
  split at h
  · cases h
  · cases h
    obtain ⟨word, hstates, hstart⟩ := scriptOrCommand_sound hword
    obtain ⟨⟨lead, hlead, rfl⟩, -⟩ := Text.trimStart_eq_iff.mp hstart
    obtain ⟨gap, hgap, hafter⟩ := Text.exists_trimStart after
    have hblank : Text.IsBlank [] := nofun
    refine ⟨lead ++ word ++ gap, by simp [← hafter], ")", some found, ?_⟩
    simpa using Group.present hlead hstates hgap hblank

theorem parenthesised_sound (h : parenthesised text = .ok (stated, rest)) :
    ∃ group, Group group stated ∧ text = group ++ rest := by
  unfold parenthesised at h
  split at h
  · rename_i after
    split at h
    · cases h
    rename_i found last hclosed
    cases h
    obtain ⟨lead, word, gap, hlead, hword, hgap, rfl⟩ := closedCompletion_sound hclosed
    obtain ⟨trail, htrail, hlast⟩ := Text.exists_trimStart last
    refine ⟨_, .present hlead hword hgap htrail, ?_⟩
    simp [Text.lit, ← hlast]
  · cases h
    exact ⟨[], .absent, rfl⟩

theorem parenthesised_append (h : Group group stated) (rest : Text) :
    parenthesised (group ++ ":" ++ rest) = .ok (stated, ":" ++ rest) := by
  cases h with
  | absent => rfl
  | @present lead word gap trail completion hlead hword hgap htrail =>
    have htext : Text.lit "(" ++ lead ++ word ++ gap ++ Text.lit ")" ++ trail ++ Text.lit ":" ++ rest =
        .char '(' :: (lead ++ word ++ gap ++ Text.lit ")" ++ (trail ++ .char ':' :: rest)) := by
      simp [Text.lit]
    have hcolon : Text.trimStart (trail ++ .char ':' :: rest) = .char ':' :: rest :=
      Text.trimStart_append_cons htrail (by decide) rest
    rw [htext]
    simp only [parenthesised, closedCompletion_append hlead hword hgap, hcolon]
    rfl

theorem parenthesised_stop (h : parenthesised text = .error (cause, stop)) :
    ∃ seen, text = seen ++ stop ∧ Opens Group seen := by
  unfold parenthesised at h
  split at h
  · split at h
    · rename_i hclosed
      cases h
      obtain ⟨seen, rfl, hopens⟩ := closedCompletion_stop hclosed
      exact ⟨"(" ++ seen, by simp [Text.lit], hopens⟩
    · cases h
  · cases h

/-- What stands after the name and its blanks starts with a parenthesis or a colon. -/
theorem Group.head_eq (h : Group group stated) (rest : Text) :
    ∀ g ∈ (group ++ ":" ++ rest).head?, g = .char '(' ∨ g = .char ':' := by
  intro g hg
  cases h with
  | absent =>
    obtain rfl : .char ':' = g := by simpa [Text.lit] using hg
    exact .inr rfl
  | present =>
    obtain rfl : .char '(' = g := by simpa [Text.lit] using hg
    exact .inl rfl

/-! ## Lines -/

theorem wholeLine_sound (h : wholeLine line = .ok read) : States line read := by
  simp only [wholeLine] at h
  split at h
  · cases h
  rename_i name after hspan
  split at h
  · cases h
  · rename_i stated description hgroup
    cases h
    obtain ⟨hstart, hname, -⟩ := Ident.span?_sound hspan
    obtain ⟨group, hstates, hafter⟩ := parenthesised_sound hgroup
    obtain ⟨⟨lead, hlead, rfl⟩, -⟩ := Text.trimStart_eq_iff.mp hstart
    obtain ⟨⟨gap, hgap, rfl⟩, -⟩ := Text.trimStart_eq_iff.mp hafter
    have hline : States (lead ++ name ++ gap ++ group ++ ":" ++ description) ⟨name, stated, _⟩ :=
      .intro hlead hname hgap hstates
    simpa [Text.lit, nonEmpty] using hline
  · cases h

theorem wholeLine_append (h : States line read) : wholeLine line = .ok read := by
  cases h with
  | @intro lead name gap group description stated hlead hname hgap hgroup =>
    have hhead := hgroup.head_eq description
    have hline : Text.trimStart (lead ++ name ++ gap ++ group ++ ":" ++ description) =
        name ++ (gap ++ (group ++ ":" ++ description)) := by
      exact Text.trimStart_eq_iff.mpr ⟨⟨lead, hlead, by simp⟩, Text.IsIdent.head_not_isBlank hname _⟩
    have hafter : Text.trimStart (gap ++ (group ++ ":" ++ description)) = group ++ ":" ++ description := by
      refine Text.trimStart_eq_iff.mpr ⟨⟨gap, hgap, rfl⟩, fun g hg => ?_⟩
      rcases hhead g hg with rfl | rfl <;> decide
    have hspan : Ident.span? (name ++ (gap ++ (group ++ ":" ++ description))) =
        some (name, gap ++ (group ++ ":" ++ description)) := by
      refine Ident.span?_append hname fun g hg => ?_
      cases gap with
      | nil => rcases hhead g hg with rfl | rfl <;> decide
      | cons first more =>
        obtain rfl : first = g := by simpa using hg
        exact Glyph.isIdentTail_of_isBlank (hgap first List.mem_cons_self)
    simp only [wholeLine, hline, hspan, hafter, parenthesised_append hgroup]
    rfl

theorem wholeLine_eq_ok_iff : wholeLine line = .ok read ↔ States line read :=
  ⟨wholeLine_sound, wholeLine_append⟩

theorem wholeLine_stop (h : wholeLine line = .error (cause, stop)) :
    ∃ seen, line = seen ++ stop ∧ Opens States seen := by
  simp only [wholeLine] at h
  split at h
  · cases h
    obtain ⟨lead, hlead, hline⟩ := Text.exists_trimStart line
    have hname : Text.IsIdent "a" := by decide
    have hopens : Opens States (lead ++ Text.lit "a" ++ [] ++ []) :=
      opens_line hlead hname nofun (opens_of_states .absent)
    rw [List.append_assoc, List.append_assoc] at hopens
    exact ⟨lead, hline, hopens.of_append⟩
  rename_i name after hspan
  obtain ⟨hstart, hname, -⟩ := Ident.span?_sound hspan
  obtain ⟨⟨lead, hlead, rfl⟩, -⟩ := Text.trimStart_eq_iff.mp hstart
  obtain ⟨gap, hgap, hafter⟩ := Text.exists_trimStart after
  split at h
  · rename_i hstop
    cases h
    obtain ⟨seen, hseen, hopens⟩ := parenthesised_stop hstop
    exact ⟨lead ++ name ++ gap ++ seen, by simp [← hseen, ← hafter], opens_line hlead hname hgap hopens⟩
  · cases h
  · rename_i hgroup
    cases h
    obtain ⟨group, hstates, hrest⟩ := parenthesised_sound hgroup
    exact ⟨lead ++ name ++ gap ++ group, by simp [← hrest, ← hafter],
      opens_line hlead hname hgap (opens_of_states hstates)⟩

theorem parse?_eq_ok_iff : parse? line = .ok read ↔ States line read := by
  rw [← wholeLine_eq_ok_iff]
  unfold parse?
  cases wholeLine line <;> simp

theorem opens_of_parse?_eq_error {problem : Problem} (h : parse? line = .error problem) :
    problem.position ≤ line.length ∧ Opens States (line.take problem.position) := by
  unfold parse? at h
  split at h
  · cases h
  rename_i cause stop hstop
  cases h
  obtain ⟨seen, rfl, hopens⟩ := wholeLine_stop hstop
  have hposition : (seen ++ stop).length - stop.length = seen.length := by simp
  refine ⟨Nat.sub_le _ _, ?_⟩
  rw [hposition, List.take_left]
  exact hopens

/-- A line is read as an option line exactly if it states it.  Every other line, and no more, is refused at a position
within the line such that what stands in front of this position begins some line that is read. -/
theorem parse?_states_or_blames (line : Text) :
    (∀ read, parse? line = .ok read ↔ States line read) ∧
      ((∃ problem, parse? line = .error problem ∧ problem.position ≤ line.length ∧
        ∃ rest read, parse? (line.take problem.position ++ rest) = .ok read) ↔ ¬∃ read, States line read) := by
  refine ⟨fun read => parse?_eq_ok_iff, ?_⟩
  simp only [← parse?_eq_ok_iff]
  cases hline : parse? line with
  | ok read => simp
  | error problem =>
    obtain ⟨hposition, rest, read, hstates⟩ := opens_of_parse?_eq_error hline
    have hread := parse?_eq_ok_iff.mpr hstates
    exact ⟨fun _ => nofun, fun _ => ⟨problem, rfl, hposition, rest, read, hread⟩⟩

/-- The position is that of the completion, since `count(` can be continued. -/
example : parse? "count(bogus): x" = .error ⟨6, .expectedCompletion (some (.char 'b'))⟩ := rfl

end OptionLine

end CommandTree
