import CommandTree.FrontEnd.Split
import Mathlib.Data.List.Basic

/-!
# The end of mode recognition

The word `--` ends the words among which modes are looked for: it stays, and all that follows it is kept
(`Progress.read_terminator`).  What is in front of it is read as if nothing followed, with one exception: the option
`--extension` at the very end of it takes the `--` for its value, as it takes any word (`Split.Waits`).  The words
after are then looked into as if there had been no `--`.

`Progress.Reads` holds of words that are read to their end one after the other, each with its effect on what is known
(`Progress.note`).  Words in front of a `--` are read so, unless the option is left waiting
(`Progress.exists_reads`).

`Split.keepsRest_iff` says when adding the `--` and more words changes nothing but what is kept.
-/

namespace CommandTree

namespace Split

/-- The split with further words for the command. -/
def followedBy (split : Split) (words : List Text) : Split :=
  { split with tokens := split.tokens ++ words.map .text }

/-! ## Word by word -/

namespace Progress

variable {progress after : Progress} {word : Text} {front words : List Text} {rest : List Datum}

/-- What is known after one more word, which is neither `--` nor an option that waits for a value. -/
def note (progress : Progress) (word : Text) : Progress :=
  match Mode.ofSwitch? word with
  | some mode => progress.select mode
  | none =>
    match Text.after? (extensionSwitch ++ [.char '=']) word with
    | some value => progress.restrict (.text value)
    | none => progress.keep [.text word]

theorem read_cons (hword : word ≠ terminator) (hextension : word ≠ extensionSwitch) :
    progress.read (.text word :: rest) = (progress.note word).read rest := by
  rw [read.eq_def]
  simp only [if_neg hword, if_neg hextension, note]
  cases Mode.ofSwitch? word with
  | some mode => rfl
  | none => cases Text.after? (extensionSwitch ++ [.char '=']) word <;> rfl

theorem read_terminator :
    progress.read (.text terminator :: rest) = .ok (progress.keep (.text terminator :: rest)) := by
  rw [read.eq_def]
  exact if_pos rfl

theorem read_extension (value : Text) :
    progress.read (.text extensionSwitch :: .text value :: rest) = (progress.restrict (.text value)).read rest := by
  rw [read.eq_def]
  rfl

theorem read_waiting : progress.read [.text extensionSwitch] = .error (.cause (.invocation .extensionMissing)) := by
  rw [read.eq_def]
  rfl

/-- Whether some words are read to their end one after the other, with the second progress after the first. -/
inductive Reads : Progress → List Text → Progress → Prop where
  | nil (progress : Progress) : Reads progress [] progress
  | note {progress after : Progress} {word : Text} {words : List Text} (other : word ≠ terminator)
      (complete : word ≠ extensionSwitch) (more : Reads (progress.note word) words after) :
      Reads progress (word :: words) after
  | extension {progress after : Progress} (value : Text) {words : List Text}
      (more : Reads (progress.restrict (.text value)) words after) :
      Reads progress (extensionSwitch :: value :: words) after

/-- What follows the words is read with what is known after them. -/
theorem Reads.read_append (h : Reads progress front after) (rest : List Datum) :
    progress.read (front.map .text ++ rest) = after.read rest := by
  induction h with
  | nil progress => rfl
  | note other complete more ih => rw [List.map_cons, List.cons_append, read_cons other complete, ih]
  | extension value more ih =>
    rw [List.map_cons, List.map_cons, List.cons_append, List.cons_append, read_extension, ih]

theorem Reads.read_eq (h : Reads progress front after) : progress.read (front.map .text) = .ok after := by
  have happend := h.read_append []
  rw [List.append_nil] at happend
  rw [happend, read]

/-- Words without `--` are read to their end, unless the last of them waits for a value. -/
theorem exists_reads (progress : Progress) : ∀ front : List Text, terminator ∉ front →
    (∃ after, Reads progress front after) ∨
      ∃ names after, front = names ++ [extensionSwitch] ∧ Reads progress names after
  | [], _ => .inl ⟨progress, .nil progress⟩
  | [word], h => by
    by_cases hextension : word = extensionSwitch
    · exact .inr ⟨[], progress, by rw [hextension, List.nil_append], .nil progress⟩
    · exact .inl ⟨_, .note (fun heq => h (by simp [heq])) hextension (.nil _)⟩
  | word :: value :: front, h => by
    obtain ⟨hword, hfront⟩ := not_or.mp (mt List.mem_cons.mpr h)
    by_cases hextension : word = extensionSwitch
    · subst hextension
      rcases exists_reads (progress.restrict (.text value)) front (mt (List.mem_cons_of_mem _) hfront) with
        ⟨after, hreads⟩ | ⟨names, after, rfl, hreads⟩
      · exact .inl ⟨after, .extension value hreads⟩
      · exact .inr ⟨extensionSwitch :: value :: names, after, rfl, .extension value hreads⟩
    · rcases exists_reads (progress.note word) (value :: front) hfront with
        ⟨after, hreads⟩ | ⟨names, after, hnames, hreads⟩
      · exact .inl ⟨after, .note (Ne.symm hword) hextension hreads⟩
      · exact .inr ⟨word :: names, after, by rw [hnames, List.cons_append], .note (Ne.symm hword) hextension hreads⟩

theorem reads_iff (h : terminator ∉ front) :
    Reads progress front after ↔ progress.read (front.map .text) = .ok after := by
  refine ⟨Reads.read_eq, fun hread => ?_⟩
  rcases exists_reads progress front h with ⟨other, hreads⟩ | ⟨names, other, rfl, hreads⟩
  · obtain rfl : other = after := by simpa [hreads.read_eq] using hread
    exact hreads
  · rw [List.map_append, hreads.read_append] at hread
    cases read_waiting.symm.trans hread

/-! ## Ending -/

theorem ofWords_eq (words : List Datum) : ofWords words = (start.read words).bind finish := by
  unfold ofWords
  cases start.read words <;> rfl

/-- Words that are kept have no part in whether the split is refused. -/
theorem finish_keep (words : List Text) :
    (progress.keep (words.map .text)).finish = progress.finish.map (followedBy · words) := by
  unfold finish keep
  split <;> rfl

/-- Once both usage and help are asked for, no further words are accepted. -/
theorem refused_of_both : ∀ (words : List Text) {progress : Progress},
    progress.usage = true → progress.help = true →
      ∃ refusal, (progress.read (words.map .text)).bind finish = .error (.cause (.invocation refusal))
  | [], progress, husage, hhelp => ⟨.usageWithHelp, by simp [read, Except.bind, finish, husage, hhelp]⟩
  | word :: words, progress, husage, hhelp => by
    rw [List.map_cons]
    by_cases hword : word = terminator
    · exact ⟨.usageWithHelp, by rw [hword, read_terminator]; simp [Except.bind, finish, keep, husage, hhelp]⟩
    by_cases hextension : word = extensionSwitch
    · subst hextension
      cases words with
      | nil => exact ⟨.extensionMissing, by rw [List.map_nil, read_waiting]; rfl⟩
      | cons value words =>
        rw [List.map_cons, read_extension]
        exact refused_of_both words husage hhelp
    · rw [read_cons hword hextension]
      obtain ⟨husage, hhelp⟩ : (progress.note word).usage = true ∧ (progress.note word).help = true := by
        unfold note
        split
        · simp [select, husage, hhelp]
        · split <;> exact ⟨husage, hhelp⟩
      exact refused_of_both words husage hhelp

end Progress

/-! ## What the separator changes -/

variable {front rest : List Text} {said : Progress}

/-- Whether what some words say stays as it is when `--` and further words are put behind them: a split keeps these as
well, and a refusal stays one. -/
structure KeepsRest (front rest : List Text) : Prop where
  split : ∀ split, ofWords (front.map .text) = .ok split →
    ofWords ((front ++ terminator :: rest).map .text) = .ok (split.followedBy (terminator :: rest))
  refused : ∀ refusal, ofWords (front.map .text) = .error (.cause (.invocation refusal)) →
    ∃ other, ofWords ((front ++ terminator :: rest).map .text) = .error (.cause (.invocation other))

/-- Whether the last of some words is `--extension` and waits for its value, with what the words before it say. -/
def Waits (front : List Text) (said : Progress) : Prop :=
  ∃ names, front = names ++ [extensionSwitch] ∧ Progress.start.read (names.map .text) = .ok said

theorem Waits.exists_reads (hfront : terminator ∉ front) (h : Waits front said) :
    ∃ names, front = names ++ [extensionSwitch] ∧ Progress.Reads .start names said := by
  obtain ⟨names, rfl, hread⟩ := h
  exact ⟨names, rfl, (Progress.reads_iff fun hmem => hfront (List.mem_append_left _ hmem)).mpr hread⟩

theorem ofWords_terminator {after : Progress} (h : Progress.Reads .start front after) (rest : List Text) :
    ofWords ((front ++ terminator :: rest).map .text) =
      (ofWords (front.map .text)).map (followedBy · (terminator :: rest)) := by
  rw [Progress.ofWords_eq, Progress.ofWords_eq, List.map_append, h.read_append, h.read_eq, List.map_cons,
    Progress.read_terminator]
  exact Progress.finish_keep (terminator :: rest)

theorem Waits.ofWords_terminator (hfront : terminator ∉ front) (h : Waits front said) (rest : List Text) :
    ofWords ((front ++ terminator :: rest).map .text) =
      ((said.restrict (.text terminator)).read (rest.map .text)).bind Progress.finish := by
  obtain ⟨names, rfl, hreads⟩ := h.exists_reads hfront
  rw [Progress.ofWords_eq, List.append_assoc, List.map_append, hreads.read_append]
  exact congrArg (·.bind Progress.finish) (Progress.read_extension terminator)

theorem Waits.ofWords_eq (hfront : terminator ∉ front) (h : Waits front said) :
    ofWords (front.map .text) = .error (.cause (.invocation .extensionMissing)) := by
  obtain ⟨names, rfl, hreads⟩ := h.exists_reads hfront
  rw [Progress.ofWords_eq, List.map_append, hreads.read_append]
  exact congrArg (·.bind Progress.finish) Progress.read_waiting

theorem ofWords_terminator_of_not_waits (hfront : terminator ∉ front) (h : ¬∃ said, Waits front said)
    (rest : List Text) : ofWords ((front ++ terminator :: rest).map .text) =
      (ofWords (front.map .text)).map (followedBy · (terminator :: rest)) := by
  rcases Progress.exists_reads .start front hfront with ⟨after, hreads⟩ | ⟨names, after, hnames, hreads⟩
  · exact ofWords_terminator hreads rest
  · exact absurd ⟨after, names, hnames, hreads.read_eq⟩ h

theorem keepsRest_of_not_waits (hfront : terminator ∉ front) (h : ¬∃ said, Waits front said) (rest : List Text) :
    KeepsRest front rest where
  split split hsplit := by rw [ofWords_terminator_of_not_waits hfront h, hsplit]; rfl
  refused refusal hrefusal := ⟨refusal, by rw [ofWords_terminator_of_not_waits hfront h, hrefusal]; rfl⟩

theorem Waits.keepsRest (hfront : terminator ∉ front) (h : Waits front said) (husage : said.usage = true)
    (hhelp : said.help = true) (rest : List Text) : KeepsRest front rest where
  split split hsplit := nomatch (h.ofWords_eq hfront).symm.trans hsplit
  refused refusal hrefusal := by
    rw [h.ofWords_terminator hfront]
    exact Progress.refused_of_both rest husage hhelp

theorem Waits.both_of_keepsRest (hfront : terminator ∉ front) (h : Waits front said) (hkeeps : KeepsRest front []) :
    said.usage = true ∧ said.help = true := by
  obtain ⟨other, hother⟩ := hkeeps.refused _ (h.ofWords_eq hfront)
  rw [h.ofWords_terminator hfront, List.map_nil, Progress.read] at hother
  by_contra hnot
  have hfinish : (said.restrict (.text terminator)).finish = .ok (said.restrict (.text terminator)).split := by
    rw [← Bool.and_eq_true] at hnot
    exact if_neg hnot
  cases hfinish.symm.trans hother

/-- A `--` and the words after it are kept as they are, and change nothing of what is said in front, exactly unless
the option `--extension` stands before the `--` and waits for its value.  It then gets the `--`, and the words after
are read on; only where both usage and help were asked for before is the refusal sure to stay. -/
theorem keepsRest_iff (hfront : terminator ∉ front) :
    ((∀ rest, KeepsRest front rest) ↔ ∀ said, Waits front said → said.usage = true ∧ said.help = true) ∧
      ((¬∃ said, Waits front said) → ∀ rest, ofWords ((front ++ terminator :: rest).map .text) =
        (ofWords (front.map .text)).map (followedBy · (terminator :: rest))) ∧
      ∀ said, Waits front said → ∀ rest, ofWords ((front ++ terminator :: rest).map .text) =
        ((said.restrict (.text terminator)).read (rest.map .text)).bind Progress.finish := by
  refine ⟨⟨fun hkeeps said hwaits => hwaits.both_of_keepsRest hfront (hkeeps []), fun hboth rest => ?_⟩,
    ofWords_terminator_of_not_waits hfront, fun said hwaits => hwaits.ofWords_terminator hfront⟩
  by_cases hwaits : ∃ said, Waits front said
  · obtain ⟨said, hwaits⟩ := hwaits
    obtain ⟨husage, hhelp⟩ := hboth said hwaits
    exact hwaits.keepsRest hfront husage hhelp rest
  · exact keepsRest_of_not_waits hfront hwaits rest

theorem keepsRest_iff_listing : terminator ∉ [Text.lit "--commands", "--extension", "sh", "copy"] ∧
    (∀ rest, KeepsRest ["--commands", "--extension", "sh", "copy"] rest) ∧
    terminator ∉ [Text.lit "copy", "--extension"] ∧
    ofWords ([Text.lit "copy", "--extension", "--", "--help"].map .text) =
      .ok ⟨.help, some (.text "--"), [.text "copy"]⟩ := by
  have hgiven : terminator ∉ [Text.lit "--commands", "--extension", "sh", "copy"] := by decide
  have hwaiting : terminator ∉ [Text.lit "copy", "--extension"] := by decide
  refine ⟨hgiven, (keepsRest_iff hgiven).1.mpr ?_, hwaiting, ?_⟩
  · rintro said ⟨names, hnames, -⟩
    have hlast := congrArg List.getLast? hnames
    rw [List.getLast?_concat] at hlast
    exact absurd hlast (by decide)
  · exact (keepsRest_iff hwaiting).2.2 _ ⟨[Text.lit "copy"], rfl, rfl⟩ [Text.lit "--help"]

/-- A separator is not kept where the option waits for its value. -/
theorem not_keepsRest_extension :
    ¬∀ front rest : List Text, terminator ∉ front → KeepsRest front rest := by
  intro h
  obtain ⟨other, hother⟩ := (h [extensionSwitch] [] (by decide)).refused .extensionMissing rfl
  cases hother

end Split

end CommandTree
