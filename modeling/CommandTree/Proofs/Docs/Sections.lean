import CommandTree.Docs.Basic

/-!
# The sections of a comment block

A comment line is read with what the lines before it left open.  `Docs.Gathered.Adds` lists what a line can add to
what has been gathered, and `Docs.Gathered.adds_step` says that the list is complete.

The open section is not part of the documentation, but shows in it: a description has begun exactly where the
description is open (`Docs.Gathered.Coherent`), and then neither the summary, the usage nor the options change
any more (`Docs.Gathered.Adds.sameHead`).

The completion marker is read alike in every section: the documentation is that of the other lines, with the marker
noted (`Docs.ofLines_eq_of_unmarked`).

`Docs.ofLines_frame` puts the two together.
-/

namespace CommandTree

namespace Docs

variable {front lines : List Text} {line : Text}

/-! ## Lines -/

/-- The indented comment line with a text. -/
def indentedLine (text : Text) : Text :=
  "#  " ++ text

/-- The text of a line that looks like no header, so that it may begin a description. -/
structure IsOpening (text : Text) : Prop where
  noSummary : Text.startsWith "Summary: " text = false
  noUsage : Text.startsWith "Usage:" text = false
  noOptions : text ≠ "Options:"

instance : DecidablePred IsOpening := fun text =>
  decidable_of_iff (Text.startsWith "Summary: " text = false ∧ Text.startsWith "Usage:" text = false ∧
    text ≠ "Options:") ⟨fun h => ⟨h.1, h.2.1, h.2.2⟩, fun h => ⟨h.noSummary, h.noUsage, h.noOptions⟩⟩

theorem bareLine_ne_completionMarker : bareLine ≠ completionMarker := by
  decide

theorem indentedLine_ne_bareLine (text : Text) : indentedLine text ≠ bareLine := by
  simp [indentedLine, bareLine, Text.lit]

theorem indentedLine_ne_completionMarker (text : Text) : indentedLine text ≠ completionMarker := by
  simp [indentedLine, completionMarker, Text.lit]

theorem comment_ne_bareLine (text : Text) : "# " ++ text ≠ bareLine := by
  simp [bareLine, Text.lit]

theorem comment_ne_completionMarker {text : Text} (h : text ≠ "Provide completions") :
    "# " ++ text ≠ completionMarker :=
  fun heq => h (List.append_cancel_left heq)

theorem remainder?_append (opening : Text) {text : Text} (h : .char '\n' ∉ text) :
    remainder? opening (opening ++ text) = some text := by
  rw [remainder?, Text.after?_append, Option.bind_some, oneLine?, Text.cutAt_eq_self h]

theorem indented?_indentedLine {text : Text} (h : .char '\n' ∉ text) :
    indented? (indentedLine text) = some text.trim := by
  rw [indented?, indentedLine, remainder?_append _ h, Option.map_some]

theorem commented?_comment {text : Text} (h : .char '\n' ∉ text) : commented? ("# " ++ text) = some text.trim := by
  rw [commented?, remainder?_append _ h, Option.map_some]

theorem after?_cancel (opening first text : Text) :
    Text.after? (opening ++ first) (opening ++ text) = Text.after? first text := by
  induction opening with
  | nil => rfl
  | cons g opening ih => simp [Text.after?, ih]

/-- Whether two documentations agree in all that may stand before the description. -/
structure SameHead (docs other : Docs) : Prop where
  summary : docs.summary = other.summary
  usage : docs.usage = other.usage
  options : docs.options = other.options

theorem SameHead.trans {docs other further : Docs} (h : SameHead docs other) (hnext : SameHead other further) :
    SameHead docs further :=
  ⟨h.summary.trans hnext.summary, h.usage.trans hnext.usage, h.options.trans hnext.options⟩

namespace Gathered

variable {g after : Gathered}

/-! ## Line by line -/

/-- A bare line closes every section but the description. -/
theorem step_bareLine (opened : Section) (hopen : g.openSection = opened) (hother : opened ≠ .description) :
    g.step bareLine = { g with openSection := .outside } := by
  rw [step, if_neg bareLine_ne_completionMarker, hopen]
  cases opened with
  | outside | usage | options => exact if_pos rfl
  | description => exact absurd rfl hother

/-- A comment that is no header begins the description. -/
theorem outside_comment {text : Text} (hopening : IsOpening text) (hfeed : .char '\n' ∉ text) :
    g.outside ("# " ++ text) =
      { g with openSection := .description, description := g.description ++ [text.trim] } := by
  have hsummary : remainder? summaryOpening ("# " ++ text) = .none := by
    have hafter : Text.after? summaryOpening ("# " ++ text) = Text.after? "Summary: " text :=
      after?_cancel "# " "Summary: " text
    have hnone : Text.after? "Summary: " text = .none := by simpa [Text.startsWith] using hopening.noSummary
    rw [remainder?, hafter, hnone, Option.bind_none]
  have husage : Text.startsWith usageOpening ("# " ++ text) = false := by
    rw [Text.startsWith, ← hopening.noUsage]
    exact congrArg Option.isSome (after?_cancel "# " "Usage:" text)
  have hheader : "# " ++ text ≠ optionsHeader := fun heq => hopening.noOptions (List.append_cancel_left heq)
  simp only [outside, if_neg (comment_ne_bareLine text), hsummary, husage, Bool.false_eq_true, if_false,
    if_neg hheader, commented?_comment hfeed]

theorem step_continuation {text : Text} (hopen : g.openSection = .usage) (hfeed : .char '\n' ∉ text) :
    g.step (indentedLine text) = { g with usage := g.usage.map fun usage => usage ++ " " ++ text.trim } := by
  simp only [step, if_neg (indentedLine_ne_completionMarker text), hopen, inUsage,
    if_neg (indentedLine_ne_bareLine text), indented?_indentedLine hfeed]

theorem step_option {text : Text} (hopen : g.openSection = .options) (hfeed : .char '\n' ∉ text) :
    g.step (indentedLine text) = { g with options := g.options ++ [text.trim] } := by
  simp only [step, if_neg (indentedLine_ne_completionMarker text), hopen, inOptions,
    if_neg (indentedLine_ne_bareLine text), indented?_indentedLine hfeed]

/-! ## What a line adds -/

/-- What a line can make of what has been gathered, with the sections in which it can. -/
inductive Adds (g : Gathered) (line : Text) : Gathered → Prop where
  | marker (marks : line = completionMarker) : Adds g line { g with completes := true }
  | nothing (begun : g.openSection ≠ .description) : Adds g line { g with openSection := .outside }
  | summary (begun : g.openSection ≠ .description) (text : Text) :
      Adds g line { g with openSection := .outside, summary := some text }
  | usage (begun : g.openSection ≠ .description) (text : Text) :
      Adds g line { g with openSection := .usage, usage := some text }
  | continuation (begun : g.openSection = .usage) (text : Text) :
      Adds g line { g with usage := g.usage.map fun usage => usage ++ " " ++ text }
  | header (begun : g.openSection ≠ .description) : Adds g line { g with openSection := .options }
  | option (begun : g.openSection = .options) (text : Text) : Adds g line { g with options := g.options ++ [text] }
  | description (text : Text) :
      Adds g line { g with openSection := .description, description := g.description ++ [text] }
  | idle (begun : g.openSection = .description) : Adds g line g

theorem adds_outside (hbegun : g.openSection ≠ .description) : Adds g line (g.outside line) := by
  unfold outside
  split
  · exact .nothing hbegun
  split
  · exact .summary hbegun _
  split
  · exact .usage hbegun _
  split
  · exact .header hbegun
  split
  · exact .description _
  · exact .nothing hbegun

/-- The list of what a line can add is complete. -/
theorem adds_step (g : Gathered) (line : Text) : Adds g line (g.step line) := by
  unfold step
  split
  · rename_i hmarker
    exact .marker hmarker
  cases hsection : g.openSection with
  | outside => exact adds_outside (by simp [hsection])
  | usage =>
    have hbegun : g.openSection ≠ .description := by simp [hsection]
    simp only [inUsage]
    split
    · exact .nothing hbegun
    split
    · exact .continuation hsection _
    · exact adds_outside hbegun
  | options =>
    have hbegun : g.openSection ≠ .description := by simp [hsection]
    simp only [inOptions]
    split
    · exact .nothing hbegun
    split
    · exact .option hsection _
    · exact adds_outside hbegun
  | description =>
    -- the description stays open, which the equation says in the form of an update
    have hstays : ∀ text, Adds g line { g with description := g.description ++ [text] } := fun text => by
      have hadds : Adds g line { g with openSection := .description, description := g.description ++ [text] } :=
        .description text
      rwa [← hsection] at hadds
    simp only [inDescription]
    split
    · exact hstays []
    split
    · exact hstays _
    · exact .idle hsection

/-- What the open section says of what has been gathered. -/
structure Coherent (g : Gathered) : Prop where
  described : g.openSection = .description ↔ g.description ≠ []
  used : g.openSection = .usage → g.usage ≠ .none

theorem coherent_start : Coherent start where
  described := by simp [start]
  used := nofun

theorem Coherent.of_adds (h : Coherent g) (hadds : Adds g line after) : Coherent after := by
  have hnone : g.openSection ≠ .description → g.description = [] := fun hbegun =>
    Decidable.not_not.mp (mt h.described.mpr hbegun)
  cases hadds with
  | idle => exact h
  | marker => exact ⟨h.described, h.used⟩
  | nothing begun | summary begun | header begun => exact ⟨by simp [hnone begun], nofun⟩
  | usage begun text => exact ⟨by simp [hnone begun], fun _ => nofun⟩
  | continuation begun text => exact ⟨h.described, fun hsection => by simpa using h.used hsection⟩
  | option begun text => exact ⟨h.described, h.used⟩
  | description text => exact ⟨by simp, nofun⟩

theorem Coherent.foldl_step (h : Coherent g) (lines : List Text) : Coherent (lines.foldl step g) := by
  induction lines generalizing g with
  | nil => exact h
  | cons line rest ih => exact ih (h.of_adds (g.adds_step line))

/-- What comes after the first line of the description changes nothing but the description. -/
theorem Adds.sameHead (hadds : Adds g line after) (h : g.openSection = .description) :
    after.openSection = .description ∧ SameHead after.docs g.docs := by
  cases hadds with
  | marker | idle => exact ⟨h, rfl, rfl, rfl⟩
  | description => exact ⟨rfl, rfl, rfl, rfl⟩
  | nothing begun | summary begun | usage begun | header begun => exact absurd h begun
  | continuation begun | option begun => cases h.symm.trans begun

theorem sameHead_foldl_step (h : g.openSection = .description) (lines : List Text) :
    SameHead (lines.foldl step g).docs g.docs := by
  induction lines generalizing g with
  | nil => exact ⟨rfl, rfl, rfl⟩
  | cons line rest ih =>
    obtain ⟨hopen, hhead⟩ := (g.adds_step line).sameHead h
    exact (ih hopen).trans hhead

theorem describe_eq_none_iff : describe lines = .none ↔ lines = [] := by
  cases lines <;> simp [describe]

/-! ## The completion marker -/

/-- The same with the marker noted, or not. -/
def noting (g : Gathered) (completes : Bool) : Gathered :=
  { g with completes := completes }

theorem noting_self (g : Gathered) : g.noting g.completes = g := rfl

theorem outside_noting (g : Gathered) (line : Text) (completes : Bool) :
    (g.noting completes).outside line = (g.outside line).noting completes := by
  unfold outside
  split
  · rfl
  split
  · rfl
  split
  · rfl
  split
  · rfl
  split <;> rfl

/-- What a line means does not depend on whether the marker has been met. -/
theorem step_noting (g : Gathered) (completes : Bool) (hline : line ≠ completionMarker) :
    (g.noting completes).step line = (g.step line).noting completes := by
  have hopen : (g.noting completes).openSection = g.openSection := rfl
  simp only [step, if_neg hline, hopen]
  cases g.openSection with
  | outside => exact g.outside_noting line completes
  | usage =>
    simp only [inUsage]
    split
    · rfl
    split
    · rfl
    · exact g.outside_noting line completes
  | options =>
    simp only [inOptions]
    split
    · rfl
    split
    · rfl
    · exact g.outside_noting line completes
  | description =>
    simp only [inDescription]
    split
    · rfl
    split <;> rfl

theorem step_marker (g : Gathered) : g.step completionMarker = g.noting true :=
  if_pos rfl

/-- No line but the marker is noted as it. -/
theorem completes_step (g : Gathered) (line : Text) :
    (g.step line).completes = true ↔ g.completes = true ∨ line = completionMarker := by
  by_cases hline : line = completionMarker
  · simp [hline, step_marker, noting]
  · have hstep := g.step_noting g.completes hline
    rw [noting_self] at hstep
    rw [hstep, or_iff_left hline]
    rfl

theorem completes_foldl (g : Gathered) (lines : List Text) :
    (lines.foldl step g).completes = true ↔ g.completes = true ∨ completionMarker ∈ lines := by
  induction lines generalizing g with
  | nil => simp
  | cons line rest ih =>
    rw [List.foldl_cons, ih, completes_step, or_assoc, List.mem_cons, @eq_comm _ completionMarker]

end Gathered

/-- The marker is noted wherever it stands in a comment block. -/
theorem completes_ofLines : (ofLines lines).completes = true ↔ completionMarker ∈ lines :=
  (Gathered.completes_foldl Gathered.start lines).trans (or_iff_right Bool.false_ne_true)

/-- The lines of a comment block other than the completion marker. -/
def unmarked (lines : List Text) : List Text :=
  lines.filter (· ≠ completionMarker)

theorem Gathered.foldl_step_noting (g : Gathered) (completes : Bool) (lines : List Text) :
    (lines.foldl step g).noting completes = (unmarked lines).foldl step (g.noting completes) := by
  induction lines generalizing g with
  | nil => rfl
  | cons line rest ih =>
    by_cases hline : line = completionMarker
    · rw [List.foldl_cons, ih, hline, step_marker]
      simp [unmarked, noting]
    · have hkept : unmarked (line :: rest) = line :: unmarked rest := by simp [unmarked, hline]
      rw [List.foldl_cons, ih, hkept, List.foldl_cons, step_noting g completes hline]

/-- The documentation is that of any lines that differ in markers alone, with the marker noted. -/
theorem ofLines_eq_of_unmarked {other : List Text} (h : unmarked lines = unmarked other) :
    ofLines lines = { ofLines other with completes := decide (completionMarker ∈ lines) } := by
  have hcompletes : (lines.foldl Gathered.step .start).completes = decide (completionMarker ∈ lines) := by
    rw [Bool.eq_iff_iff, decide_eq_true_iff]
    exact completes_ofLines
  have hsame : (lines.foldl Gathered.step .start).noting (decide (completionMarker ∈ lines)) =
      (other.foldl Gathered.step .start).noting (decide (completionMarker ∈ lines)) := by
    rw [Gathered.foldl_step_noting, Gathered.foldl_step_noting, h]
  rw [← hcompletes, Gathered.noting_self] at hsame
  rw [← hcompletes]
  exact congrArg Gathered.docs hsame

/-! ## What stays as it is -/

theorem openSection_eq_description_iff :
    (front.foldl Gathered.step .start).openSection = .description ↔ (ofLines front).description ≠ .none := by
  rw [(Gathered.coherent_start.foldl_step front).described]
  exact not_congr Gathered.describe_eq_none_iff.symm

theorem openSection_ne_description (h : (ofLines front).description = .none) :
    (front.foldl Gathered.step .start).openSection ≠ .description :=
  fun hopen => openSection_eq_description_iff.mp hopen h

/-- Once the description has begun, no line changes the summary, the usage or the options.  The completion marker
changes nothing but that it is noted, wherever it is put in. -/
theorem ofLines_frame :
    (∀ front rest : List Text, (ofLines front).description ≠ .none →
      SameHead (ofLines (front ++ rest)) (ofLines front)) ∧
    ∀ front rest : List Text,
      ofLines (front ++ completionMarker :: rest) = { ofLines (front ++ rest) with completes := true } := by
  constructor
  · intro front rest hdescribed
    have hopen := openSection_eq_description_iff.mpr hdescribed
    unfold ofLines
    rw [List.foldl_append]
    exact Gathered.sameHead_foldl_step hopen rest
  · intro front rest
    have hunmarked : unmarked (front ++ completionMarker :: rest) = unmarked (front ++ rest) := by
      simp [unmarked]
    rw [ofLines_eq_of_unmarked hunmarked]
    simp

/-- A usage line in the description is a line of the description. -/
theorem ofLines_frame_late : (ofLines ["# Usage: {cmd}", "#", "# Greets."]).description ≠ .none ∧
    (ofLines ["# Usage: {cmd}", "#", "# Greets.", "# Usage: {cmd} <name>"]).usage = some "# Usage: {cmd}" := by
  have hdescribed : (ofLines ["# Usage: {cmd}", "#", "# Greets."]).description ≠ .none := by decide
  exact ⟨hdescribed, (ofLines_frame.1 _ ["# Usage: {cmd} <name>"] hdescribed).usage⟩

end Docs

end CommandTree
