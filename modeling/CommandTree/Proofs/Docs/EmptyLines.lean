import CommandTree.Proofs.Docs.Sections
import CommandTree.Proofs.Text.Blank

/-!
# Empty comment lines

A comment line may be empty in two ways: it is a bare hash, or spaces follow the hash (`Docs.paddedLine`).  They look
alike and are not read alike.  Where no section is open a bare line is passed over, but a padded one begins the
description, and so none of the lines after it is a header any more (`Docs.Begins.sameHead`).  In an open section a
bare line closes it, and a line with two spaces or more continues it with an empty text.

`Docs.isInsignificant_iff` says where the spaces are of no account: in the description, and nowhere else.
-/

namespace CommandTree

namespace Docs

variable {front : List Text} {count : Nat}

/-- A text of spaces. -/
def spaces (count : Nat) : Text :=
  List.replicate count (.char ' ')

/-- A comment line that is empty but for the spaces after the hash. -/
def paddedLine (count : Nat) : Text :=
  bareLine ++ spaces count

theorem trim_spaces (count : Nat) : (spaces count).trim = [] := by
  have hblank : (spaces count).IsBlank := by
    intro g hg
    rw [List.eq_of_mem_replicate hg]
    decide
  rw [Text.trim, Text.trimStart_eq_nil_iff.mpr hblank]
  rfl

theorem feed_not_mem_spaces (count : Nat) : .char '\n' ∉ spaces count := by
  simp [spaces]

theorem isOpening_spaces (count : Nat) : IsOpening (spaces count) := by
  cases count with
  | zero => decide
  | succ count =>
    rw [spaces, List.replicate_succ]
    exact ⟨rfl, rfl, by simp [Text.lit]⟩

theorem paddedLine_succ (count : Nat) : paddedLine (count + 1) = "# " ++ spaces count := by
  simp [paddedLine, bareLine, spaces, List.replicate_succ, Text.lit]

theorem paddedLine_succ_succ (count : Nat) : paddedLine (count + 2) = indentedLine (spaces count) := by
  simp [paddedLine, bareLine, indentedLine, spaces, List.replicate_succ, Text.lit]

theorem paddedLine_ne_completionMarker (count : Nat) : paddedLine count ≠ completionMarker := by
  cases count with
  | zero => decide
  | succ count =>
    rw [paddedLine_succ]
    refine comment_ne_completionMarker fun hmarker => ?_
    have hmem : Glyph.char 'P' ∈ spaces count := by
      rw [hmarker]
      decide
    cases List.eq_of_mem_replicate hmem

theorem paddedLine_succ_ne_bareLine (count : Nat) : paddedLine (count + 1) ≠ bareLine := by
  rw [paddedLine_succ]
  exact comment_ne_bareLine _

theorem commented?_paddedLine (count : Nat) : commented? (paddedLine (count + 1)) = some [] := by
  rw [paddedLine_succ, commented?_comment (feed_not_mem_spaces count), trim_spaces]

/-! ## What a padded line adds -/

namespace Gathered

variable {g : Gathered}

theorem step_paddedLine_of_description (hopen : g.openSection = .description) :
    g.step (paddedLine (count + 1)) = g.step bareLine := by
  simp only [step, if_neg (paddedLine_ne_completionMarker _), if_neg bareLine_ne_completionMarker, hopen,
    inDescription, if_neg (paddedLine_succ_ne_bareLine count), commented?_paddedLine, if_true]

theorem outside_paddedLine (count : Nat) : g.outside (paddedLine (count + 1)) =
    { g with openSection := .description, description := g.description ++ [[]] } := by
  rw [paddedLine_succ, outside_comment (isOpening_spaces count) (feed_not_mem_spaces count), trim_spaces]

/-- Outside of the sections a padded line begins the description, and a single space is no indentation. -/
theorem step_paddedLine_of_begins (hopen : g.openSection ≠ .description)
    (hbegins : g.openSection = .outside ∨ count = 0) : g.step (paddedLine (count + 1)) =
      { g with openSection := .description, description := g.description ++ [[]] } := by
  have hindented : count = 0 → indented? (paddedLine (count + 1)) = .none := by
    rintro rfl
    decide
  rw [← outside_paddedLine count, step, if_neg (paddedLine_ne_completionMarker _)]
  cases hsection : g.openSection with
  | outside => rfl
  | usage =>
    have hcount : count = 0 := hbegins.resolve_left (by simp [hsection])
    simp only [inUsage, if_neg (paddedLine_succ_ne_bareLine count), hindented hcount]
  | options =>
    have hcount : count = 0 := hbegins.resolve_left (by simp [hsection])
    simp only [inOptions, if_neg (paddedLine_succ_ne_bareLine count), hindented hcount]
  | description => exact absurd hsection hopen

theorem step_paddedLine_of_usage (hopen : g.openSection = .usage) :
    g.step (paddedLine (count + 2)) = { g with usage := g.usage.map fun usage => usage ++ " " } := by
  rw [paddedLine_succ_succ, step_continuation hopen (feed_not_mem_spaces count), trim_spaces]
  simp

theorem step_paddedLine_of_options (hopen : g.openSection = .options) :
    g.step (paddedLine (count + 2)) = { g with options := g.options ++ [[]] } := by
  rw [paddedLine_succ_succ, step_option hopen (feed_not_mem_spaces count), trim_spaces]

end Gathered

/-! ## What the spaces change -/

theorem ofLines_cons (front rest : List Text) (line : Text) : ofLines (front ++ line :: rest) =
    (rest.foldl Gathered.step ((front.foldl Gathered.step .start).step line)).docs := by
  rw [ofLines, List.foldl_append, List.foldl_cons]

/-- Whether a padded line after some lines may be replaced by a bare one: whatever follows, the summary, the usage,
the options and the completion marker stay as they are. -/
def IsInsignificant (front : List Text) (count : Nat) : Prop :=
  ∀ rest, SameHead (ofLines (front ++ paddedLine count :: rest)) (ofLines (front ++ bareLine :: rest)) ∧
    (ofLines (front ++ paddedLine count :: rest)).completes = (ofLines (front ++ bareLine :: rest)).completes

/-- Whether a padded line begins the description after some lines: it has not begun, and the line continues neither
a usage nor an option list. -/
structure Begins (front : List Text) (count : Nat) : Prop where
  first : (ofLines front).description = .none
  free : (front.foldl Gathered.step .start).openSection = .outside ∨ count = 1

theorem completes_paddedLine (front rest : List Text) (count : Nat) :
    (ofLines (front ++ paddedLine count :: rest)).completes = (ofLines (front ++ bareLine :: rest)).completes := by
  have hpadded := (paddedLine_ne_completionMarker count).symm
  have hbare := bareLine_ne_completionMarker.symm
  rw [Bool.eq_iff_iff, completes_ofLines, completes_ofLines]
  simp [hpadded, hbare]

theorem ofLines_paddedLine (hdescribed : (ofLines front).description ≠ .none) (hcount : count ≠ 0)
    (rest : List Text) : ofLines (front ++ paddedLine count :: rest) = ofLines (front ++ bareLine :: rest) := by
  obtain ⟨count, rfl⟩ := Nat.exists_eq_succ_of_ne_zero hcount
  rw [ofLines_cons, ofLines_cons,
    Gathered.step_paddedLine_of_description (openSection_eq_description_iff.mpr hdescribed)]

/-- What follows a padded line that begins the description is not looked at for headers. -/
theorem Begins.sameHead (h : Begins front count) (hcount : count ≠ 0) (rest : List Text) :
    SameHead (ofLines (front ++ paddedLine count :: rest)) (ofLines front) := by
  obtain ⟨count, rfl⟩ := Nat.exists_eq_succ_of_ne_zero hcount
  have hstep := Gathered.step_paddedLine_of_begins (openSection_ne_description h.first)
    (h.free.imp_right Nat.succ.inj)
  have hopened : ((front.foldl Gathered.step .start).step (paddedLine (count + 1))).openSection = .description := by
    rw [hstep]
  have hhead : SameHead ((front.foldl Gathered.step .start).step (paddedLine (count + 1))).docs (ofLines front) := by
    rw [hstep]
    exact ⟨rfl, rfl, rfl⟩
  rw [ofLines_cons]
  exact (Gathered.sameHead_foldl_step hopened rest).trans hhead

/-- After a bare line an option list adds to the options, unless the description has begun. -/
theorem options_listing (hfirst : (ofLines front).description = .none) :
    (ofLines (front ++ [bareLine, optionsHeader, indentedLine []])).options = (ofLines front).options ++ [[]] := by
  rw [ofLines_cons, Gathered.step_bareLine _ rfl (openSection_ne_description hfirst)]
  rfl

/-- Before the description has begun, some lines can follow to which it matters that a line is padded. -/
theorem exists_not_sameHead (hfirst : (ofLines front).description = .none) (hcount : count ≠ 0) :
    ∃ rest, ¬SameHead (ofLines (front ++ paddedLine count :: rest)) (ofLines (front ++ bareLine :: rest)) := by
  by_cases hbegins : Begins front count
  · refine ⟨[optionsHeader, indentedLine []], fun hsame => ?_⟩
    have hoptions := hsame.options
    rw [(hbegins.sameHead hcount _).options, options_listing hfirst] at hoptions
    simp at hoptions
  · have hcoherent := Gathered.coherent_start.foldl_step front
    have hfree : ¬((front.foldl Gathered.step .start).openSection = .outside ∨ count = 1) :=
      fun hfree => hbegins ⟨hfirst, hfree⟩
    obtain ⟨count, rfl⟩ : ∃ more, count = more + 2 := ⟨count - 2, by omega⟩
    refine ⟨[], fun hsame => ?_⟩
    rw [ofLines_cons, ofLines_cons] at hsame
    cases hsection : (front.foldl Gathered.step .start).openSection with
    | outside => exact hfree (.inl hsection)
    | usage =>
      obtain ⟨usage, husage⟩ := Option.ne_none_iff_exists'.mp (hcoherent.used hsection)
      have hlonger := hsame.usage
      rw [Gathered.step_paddedLine_of_usage hsection, Gathered.step_bareLine .usage hsection (by decide)] at hlonger
      simp [Gathered.docs, husage, Text.lit] at hlonger
    | options =>
      have hlonger := hsame.options
      rw [Gathered.step_paddedLine_of_options hsection, Gathered.step_bareLine .options hsection (by decide)] at hlonger
      simp [Gathered.docs] at hlonger
    | description => exact openSection_ne_description hfirst hsection

/-- The spaces of a padded line are of no account exactly once the description has begun; then they change nothing at
all.  Where a padded line begins the description, the summary, the usage and the options are those of the lines before
it, whatever follows.  The completion marker is noted alike everywhere. -/
theorem isInsignificant_iff (hcount : count ≠ 0) :
    (IsInsignificant front count ↔ (ofLines front).description ≠ .none) ∧
      ((ofLines front).description ≠ .none → ∀ rest,
        ofLines (front ++ paddedLine count :: rest) = ofLines (front ++ bareLine :: rest)) ∧
      (Begins front count → ∀ rest, SameHead (ofLines (front ++ paddedLine count :: rest)) (ofLines front)) ∧
      ∀ rest, (ofLines (front ++ paddedLine count :: rest)).completes =
        (ofLines (front ++ bareLine :: rest)).completes := by
  have hkept : (ofLines front).description ≠ .none → ∀ rest,
      ofLines (front ++ paddedLine count :: rest) = ofLines (front ++ bareLine :: rest) :=
    fun hdescribed => ofLines_paddedLine hdescribed hcount
  refine ⟨⟨fun hinsignificant hfirst => ?_, fun hdescribed rest => ?_⟩, hkept, fun h => h.sameHead hcount,
    fun rest => completes_paddedLine front rest count⟩
  · obtain ⟨rest, hdiffers⟩ := exists_not_sameHead hfirst hcount
    exact hdiffers (hinsignificant rest).1
  · rw [hkept hdescribed]
    exact ⟨⟨rfl, rfl, rfl⟩, rfl⟩

/-- Spaces do not count after the description has begun, and hide a usage line before. -/
theorem isInsignificant_iff_greeting : IsInsignificant ["# Greets."] 1 ∧
    (ofLines ["# Summary: Greets", "# ", "# Usage: \x7bcmd\x7d <name>"]).usage = .none := by
  have hcount : 1 ≠ 0 := by decide
  have hdescribed : (ofLines ["# Greets."]).description ≠ .none := by decide
  have hbegins : Begins ["# Summary: Greets"] 1 := ⟨by decide, .inr rfl⟩
  have hhidden := (isInsignificant_iff hcount).2.2.1 hbegins ["# Usage: \x7bcmd\x7d <name>"]
  exact ⟨(isInsignificant_iff hcount).1.mpr hdescribed, hhidden.usage⟩

/-- A space after the hash loses the usage line that follows. -/
theorem not_isInsignificant_summary : ¬∀ (front : List Text) (count : Nat), IsInsignificant front count := by
  intro h
  have hsame := (h ["# Summary: Greets"] 1 ["# Usage: \x7bcmd\x7d <name>"]).1.usage
  exact absurd hsame (by decide)

end Docs

end CommandTree
