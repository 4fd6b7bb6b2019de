import CommandTree.Proofs.Docs.Sections
import Mathlib.Data.List.DropRight

/-!
# Comment blocks in the usual order

A `Docs.Outline` is what an author fills in: a summary, a usage with its continuations, option lines and a
description.  `Outline.lines` writes it as the comment block that authors write, with a bare line after the usage and
after the options.

`Outline.ofLines_eq_docs` says that such a block is read as the outline says, wherever the completion marker is put in and
however often.  The sections are followed one by one: each of `foldl_continuations`, `foldl_entries` and
`foldl_comments` is an induction on the lines of one section.
-/

namespace CommandTree

namespace Docs

variable {texts : List Text} {text : Text}

/-- A text that a comment line gives back as it is: one line, without blanks at its ends. -/
structure IsEntry (text : Text) : Prop where
  trimmed : text.IsTrimmed
  unbroken : .char '\n' ∉ text

instance : DecidablePred IsEntry := fun text =>
  decidable_of_iff (text.trim = text ∧ .char '\n' ∉ text)
    ⟨fun h => ⟨Text.trim_eq_self_iff.mp h.1, h.2⟩, fun h => ⟨Text.trim_eq_self_iff.mpr h.trimmed, h.unbroken⟩⟩

theorem IsEntry.trim_eq (h : IsEntry text) : text.trim = text :=
  Text.trim_eq_self_iff.mpr h.trimmed

/-- The parts of a comment block.  The description must not begin with what would be a header, nor have an empty line
at either end, nor hold the completion marker. -/
structure Outline where
  interpreter : Text
  summary : Text
  usage : Text
  continuations : List Text
  options : List Text
  description : List Text
  summary_isEntry : IsEntry summary
  continuations_isEntry : ∀ text ∈ continuations, IsEntry text
  options_isEntry : ∀ text ∈ options, IsEntry text
  description_isEntry : ∀ text ∈ description, IsEntry text
  opens : ∀ first ∈ description.head?, first ≠ [] ∧ IsOpening first
  closes : ∀ last ∈ description.getLast?, last ≠ []
  unmarked : ∀ text ∈ description, text ≠ "Provide completions"

/-- A line of the description as a comment. -/
def commentLine (text : Text) : Text :=
  if text = [] then bareLine else "# " ++ text

theorem commentLine_nil : commentLine [] = bareLine :=
  if_pos rfl

theorem commentLine_of_ne (h : text ≠ []) : commentLine text = "# " ++ text :=
  if_neg h

namespace Outline

/-- The usage line, its continuations and the bare line after them. -/
def usageLines (outline : Outline) : List Text :=
  (usageOpening ++ outline.usage) :: outline.continuations.map indentedLine ++ [bareLine]

/-- The option list, with its header and the bare line after it. -/
def optionLines (outline : Outline) : List Text :=
  optionsHeader :: outline.options.map indentedLine ++ [bareLine]

/-- The comment block of an outline. -/
def lines (outline : Outline) : List Text :=
  ["#!" ++ outline.interpreter, summaryOpening ++ outline.summary] ++ outline.usageLines ++ outline.optionLines ++
    outline.description.map commentLine

/-- The usage with its continuations in one line. -/
def fullUsage (outline : Outline) : Text :=
  (usageOpening ++ outline.usage).trimEnd ++ outline.continuations.flatMap fun text => Text.lit " " ++ text

/-- What the comment block of an outline says, with or without the completion marker. -/
def docs (outline : Outline) (completes : Bool) : Docs where
  summary := some outline.summary
  usage := some outline.fullUsage
  options := outline.options
  description := if outline.description = [] then .none else some (Text.join "\n" outline.description)
  completes := completes

end Outline

/-! ## Section by section -/

namespace Gathered

variable {g : Gathered}

theorem step_interpreter (hopen : g.openSection = .outside) (interpreter : Text) :
    g.step ("#!" ++ interpreter) = g := by
  have hmarker : "#!" ++ interpreter ≠ completionMarker := by simp [completionMarker, Text.lit]
  have hbare : "#!" ++ interpreter ≠ bareLine := by simp [bareLine, Text.lit]
  have hheader : "#!" ++ interpreter ≠ optionsHeader := by simp [optionsHeader, Text.lit]
  have hafter : ∀ opening : Text, Text.after? (.char '#' :: .char ' ' :: opening) ("#!" ++ interpreter) = .none :=
    fun opening => by simp [Text.after?, Text.lit]
  have hsummary : remainder? summaryOpening ("#!" ++ interpreter) = .none := congrArg (·.bind oneLine?) (hafter _)
  have husage : Text.startsWith usageOpening ("#!" ++ interpreter) = false := congrArg Option.isSome (hafter _)
  have hcomment : commented? ("#!" ++ interpreter) = .none :=
    congrArg (fun read => (read.bind oneLine?).map Text.trim) (hafter [])
  simp only [step, if_neg hmarker, hopen, outside, if_neg hbare, hsummary, husage, Bool.false_eq_true, if_false,
    if_neg hheader, hcomment]
  rw [← hopen]

theorem step_summary (hopen : g.openSection = .outside) (hfeed : .char '\n' ∉ text) :
    g.step (summaryOpening ++ text) = { g with summary := some text.trim } := by
  have hmarker : summaryOpening ++ text ≠ completionMarker := by simp [summaryOpening, completionMarker, Text.lit]
  have hbare : summaryOpening ++ text ≠ bareLine := by simp [summaryOpening, bareLine, Text.lit]
  simp only [step, if_neg hmarker, hopen, outside, if_neg hbare, remainder?_append _ hfeed]

theorem step_usage (hopen : g.openSection = .outside) (text : Text) :
    g.step (usageOpening ++ text) =
      { g with openSection := .usage, usage := some (usageOpening ++ text).trimEnd } := by
  have hmarker : usageOpening ++ text ≠ completionMarker := by simp [usageOpening, completionMarker, Text.lit]
  have hbare : usageOpening ++ text ≠ bareLine := by simp [usageOpening, bareLine, Text.lit]
  have hsummary : remainder? summaryOpening (usageOpening ++ text) = .none := by
    simp [remainder?, summaryOpening, usageOpening, Text.after?, Text.lit]
  have husage : Text.startsWith usageOpening (usageOpening ++ text) = true := by
    simp [Text.startsWith]
  simp only [step, if_neg hmarker, hopen, outside, if_neg hbare, hsummary, husage, if_true]

theorem foldl_continuations (hopen : g.openSection = .usage) (htexts : ∀ text ∈ texts, IsEntry text) :
    (texts.map indentedLine).foldl step g =
      { g with usage := g.usage.map fun usage => usage ++ texts.flatMap fun text => Text.lit " " ++ text } := by
  induction texts generalizing g with
  | nil => simp
  | cons text rest ih =>
    obtain ⟨htext, hrest⟩ := List.forall_mem_cons.mp htexts
    have hstep := step_continuation hopen htext.unbroken
    rw [htext.trim_eq] at hstep
    rw [List.map_cons, List.foldl_cons, hstep, ih ?_ hrest, List.flatMap_cons]
    · simp [Function.comp_def, Text.lit]
    · exact hopen

theorem foldl_usageLines (hopen : g.openSection = .outside) (outline : Outline) :
    outline.usageLines.foldl step g = { g with usage := some outline.fullUsage } := by
  rw [Outline.usageLines, List.cons_append, List.foldl_cons, List.foldl_append, step_usage hopen,
    foldl_continuations rfl outline.continuations_isEntry, List.foldl_cons, step_bareLine .usage rfl nofun,
    List.foldl_nil, ← hopen]
  rfl

theorem step_optionsHeader (hopen : g.openSection = .outside) :
    g.step optionsHeader = { g with openSection := .options } := by
  simp only [step, hopen]
  rfl

theorem foldl_entries (hopen : g.openSection = .options) (htexts : ∀ text ∈ texts, IsEntry text) :
    (texts.map indentedLine).foldl step g = { g with options := g.options ++ texts } := by
  induction texts generalizing g with
  | nil => simp
  | cons text rest ih =>
    obtain ⟨htext, hrest⟩ := List.forall_mem_cons.mp htexts
    have hstep := step_option hopen htext.unbroken
    rw [htext.trim_eq] at hstep
    rw [List.map_cons, List.foldl_cons, hstep, ih ?_ hrest]
    · simp
    · exact hopen

theorem foldl_optionLines (hopen : g.openSection = .outside) (outline : Outline) :
    outline.optionLines.foldl step g = { g with options := g.options ++ outline.options } := by
  rw [Outline.optionLines, List.cons_append, List.foldl_cons, List.foldl_append, step_optionsHeader hopen,
    foldl_entries rfl outline.options_isEntry, List.foldl_cons, step_bareLine .options rfl nofun, List.foldl_nil,
    ← hopen]

/-- A line of the description, once it has begun. -/
theorem step_commentLine (hopen : g.openSection = .description) (htext : IsEntry text)
    (hmarker : text ≠ "Provide completions") :
    g.step (commentLine text) = { g with description := g.description ++ [text] } := by
  by_cases hempty : text = []
  · subst hempty
    simp only [commentLine_nil, step, if_neg bareLine_ne_completionMarker, hopen, inDescription, if_true]
  · simp only [commentLine_of_ne hempty, step, if_neg (comment_ne_completionMarker hmarker), hopen, inDescription,
      if_neg (comment_ne_bareLine text), commented?_comment htext.unbroken, htext.trim_eq]

theorem foldl_comments (hopen : g.openSection = .description) (htexts : ∀ text ∈ texts, IsEntry text)
    (hmarkers : ∀ text ∈ texts, text ≠ "Provide completions") :
    (texts.map commentLine).foldl step g = { g with description := g.description ++ texts } := by
  induction texts generalizing g with
  | nil => simp
  | cons text rest ih =>
    obtain ⟨htext, hrest⟩ := List.forall_mem_cons.mp htexts
    obtain ⟨hmarker, hothers⟩ := List.forall_mem_cons.mp hmarkers
    rw [List.map_cons, List.foldl_cons, step_commentLine hopen htext hmarker, ih ?_ hrest hothers]
    · simp
    · exact hopen

/-- The description of an outline, where nothing is open; it is then open unless there is none. -/
theorem foldl_description (hopen : g.openSection = .outside) (outline : Outline) :
    ∃ last, (outline.description.map commentLine).foldl step g =
      { g with openSection := last, description := g.description ++ outline.description } := by
  have hentries := outline.description_isEntry
  have hmarkers := outline.unmarked
  have hopens := outline.opens
  cases hdescription : outline.description with
  | nil => exact ⟨g.openSection, by simp⟩
  | cons first rest =>
    rw [hdescription] at hentries hmarkers hopens
    obtain ⟨hfirst, hrest⟩ := List.forall_mem_cons.mp hentries
    obtain ⟨hmarker, hothers⟩ := List.forall_mem_cons.mp hmarkers
    obtain ⟨hne, hopening⟩ := hopens first rfl
    have hstep : g.step (commentLine first) =
        { g with openSection := .description, description := g.description ++ [first] } := by
      simp only [commentLine_of_ne hne, step, if_neg (comment_ne_completionMarker hmarker), hopen,
        outside_comment hopening hfirst.unbroken, hfirst.trim_eq]
    refine ⟨.description, ?_⟩
    rw [List.map_cons, List.foldl_cons, hstep, foldl_comments rfl hrest hothers]
    simp

end Gathered

theorem exists_join_eq_append {parts : List Text} {last : Text} (separator : Text) (h : parts.getLast? = some last) :
    ∃ front, Text.join separator parts = front ++ last := by
  obtain ⟨earlier, rfl⟩ := List.getLast?_eq_some_iff.mp h
  cases earlier with
  | nil => exact ⟨[], by simp [Text.join]⟩
  | cons first rest =>
    refine ⟨first ++ rest.flatMap (separator ++ ·) ++ separator, ?_⟩
    rw [List.cons_append, Text.join_cons]
    simp

namespace Outline

/-- The lines of a description are shown as they are, since the last of them is not empty. -/
theorem describe_description (outline : Outline) : Gathered.describe outline.description =
    if outline.description = [] then .none else some (Text.join "\n" outline.description) := by
  cases hlast : outline.description.getLast? with
  | none =>
    rw [List.getLast?_eq_none_iff.mp hlast]
    rfl
  | some last =>
    have hne : outline.description ≠ [] := by
      intro hnil
      simp [hnil] at hlast
    obtain ⟨front, hjoin⟩ := exists_join_eq_append "\n" hlast
    have hkept : (Text.join "\n" outline.description).dropEndWhile (fun g => g = .char '\n') =
        Text.join "\n" outline.description := by
      have hentry := outline.description_isEntry last (List.mem_of_getLast? hlast)
      obtain ⟨body, g, hg⟩ := List.eq_nil_or_concat last |>.resolve_left (outline.closes last hlast)
      have hfeed : g ≠ .char '\n' := by
        rintro rfl
        exact hentry.unbroken (by simp [hg])
      change List.rdropWhile _ _ = _
      rw [hjoin, hg, List.concat_eq_append, ← List.append_assoc, List.rdropWhile_concat_neg _ _ _ (by simpa using hfeed)]
    rw [if_neg hne, ← hkept]
    cases hdescription : outline.description with
    | nil => exact absurd hdescription hne
    | cons => rfl

theorem ofLines_lines (outline : Outline) : ofLines outline.lines = outline.docs false := by
  have hsummary := outline.summary_isEntry
  obtain ⟨last, hdescription⟩ := Gathered.foldl_description
    (g := ⟨.outside, some outline.summary, some outline.fullUsage, outline.options, [], false⟩) rfl outline
  have hlines : outline.lines.foldl Gathered.step .start =
      ⟨last, some outline.summary, some outline.fullUsage, outline.options, outline.description, false⟩ := by
    rw [lines, List.foldl_append, List.foldl_append, List.foldl_append, List.foldl_cons, List.foldl_cons,
      List.foldl_nil, Gathered.step_interpreter rfl, Gathered.step_summary rfl hsummary.unbroken, hsummary.trim_eq,
      Gathered.foldl_usageLines rfl, Gathered.foldl_optionLines rfl]
    exact hdescription
  rw [ofLines, hlines, Gathered.docs, outline.describe_description]
  rfl

/-- The comment block of an outline, with the completion marker put in anywhere and any number of times, is read as
the outline says. -/
theorem ofLines_eq_docs {lines : List Text} {outline : Outline} (hlines : Docs.unmarked lines = outline.lines) :
    ofLines lines = outline.docs (decide (completionMarker ∈ lines)) := by
  have hunmarked : Docs.unmarked lines = Docs.unmarked outline.lines := by
    rw [← hlines, Docs.unmarked, Docs.unmarked, List.filter_filter]
    simp
  rw [ofLines_eq_of_unmarked hunmarked, ofLines_lines]
  rfl

/-- A script that greets: a usage in two lines, an option line and a description with an empty line. -/
def greeting : Outline where
  interpreter := "/bin/sh"
  summary := "Greets someone"
  usage := " \x7bcmd\x7d <name> "
  continuations := ["[--loud]!"]
  options := ["name: who to greet"]
  description := ["Greets the given person.", [], "Twice if asked."]
  summary_isEntry := by decide
  continuations_isEntry := by decide
  options_isEntry := by decide
  description_isEntry := by decide
  opens := by decide
  closes := by decide
  unmarked := by decide

/-- A comment block that was marked twice. -/
def markedGreeting : List Text :=
  ["#!/bin/sh", "# Summary: Greets someone", "# Usage: \x7bcmd\x7d <name> ", "# Provide completions", "#  [--loud]!",
    "#", "# Options:", "#  name: who to greet", "#", "# Greets the given person.", "#", "# Twice if asked.",
    "# Provide completions"]

theorem ofLines_eq_docs_greeting : Docs.unmarked markedGreeting = greeting.lines ∧
    ofLines markedGreeting =
      { summary := some "Greets someone"
        usage := some "# Usage: \x7bcmd\x7d <name> [--loud]!"
        options := ["name: who to greet"]
        description := some "Greets the given person.\n\nTwice if asked."
        completes := true } := by
  have hlines : Docs.unmarked markedGreeting = greeting.lines := by decide +kernel
  refine ⟨hlines, (ofLines_eq_docs hlines).trans ?_⟩
  decide +kernel

end Outline

end Docs

end CommandTree
