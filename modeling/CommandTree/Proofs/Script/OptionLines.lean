import CommandTree.OptionLine.Index

/-!
# What option lines say

The option lines of a script are read one by one, and those that cannot be read are passed over.  What they
say about a key is what the last of them says that says anything: a later line counts for more than an
earlier one, and a line that says nothing leaves what was said before it in place
(`OptionLine.exists_last`).

`OptionLine.Hints` is this for the completion of a key, and `OptionLine.hints_iff` states that the completion
index of a script holds it.
-/

namespace CommandTree

namespace OptionLine

variable {lines : List Text}

theorem toOption_parse? {line : Text} {read : OptionLine} :
    (parse? line).toOption = some read ↔ parse? line = .ok read := by
  cases parse? line <;> simp [Except.toOption]

theorem mem_accepted {read : OptionLine} :
    read ∈ accepted lines ↔ ∃ line ∈ lines, parse? line = .ok read := by
  simp [accepted, toOption_parse?]

theorem mem_skipped {line : Text} {problem : Problem} :
    ⟨line, problem⟩ ∈ skipped lines ↔ line ∈ lines ∧ parse? line = .error problem := by
  simp only [skipped, List.mem_filterMap]
  constructor
  · rintro ⟨other, hother, hskipped⟩
    split at hskipped
    · cases hskipped
    · rename_i hparse
      cases hskipped
      exact ⟨hother, hparse⟩
  · rintro ⟨hline, hparse⟩
    exact ⟨line, hline, by rw [hparse]⟩

/-- A place among the option lines that are read is a place among all lines. -/
theorem exists_line_of_accepted {before after : List OptionLine} {read : OptionLine}
    (h : accepted lines = before ++ read :: after) :
    ∃ front line rest,
      lines = front ++ line :: rest ∧ parse? line = .ok read ∧ accepted rest = after := by
  obtain ⟨front, others, rfl, -, hothers⟩ := List.filterMap_eq_append_iff.mp h
  obtain ⟨unread, line, rest, rfl, -, hline, hrest⟩ := List.filterMap_eq_cons_iff.mp hothers
  exact ⟨front ++ unread, line, rest, by simp, toOption_parse?.mp hline, hrest⟩

/-! ## The last line counts -/

variable {α : Type} {part : OptionLine → Option α}

/-- What is found from the end is what the last line says that says anything. -/
theorem exists_last {said : α} (h : (accepted lines).reverse.findSome? part = some said) :
    ∃ before line after read, lines = before ++ line :: after ∧ parse? line = .ok read ∧
      part read = some said ∧ ∀ later ∈ after, ∀ other, parse? later = .ok other → part other = none := by
  obtain ⟨passed, read, others, hsplit, hsaid, hpassed⟩ := List.findSome?_eq_some_iff.mp h
  -- the search is from the end, so what it passes over are the later lines
  have haccepted : accepted lines = others.reverse ++ read :: passed.reverse := by
    rw [← List.reverse_reverse (accepted lines), hsplit]
    simp
  obtain ⟨before, line, after, hlines, hread, hafter⟩ := exists_line_of_accepted haccepted
  refine ⟨before, line, after, read, hlines, hread, hsaid, fun later hlater other hother => ?_⟩
  have hmem : other ∈ passed.reverse := hafter ▸ mem_accepted.mpr ⟨later, hlater, hother⟩
  exact hpassed other (List.mem_reverse.mp hmem)

/-- Where nothing is found no line says anything. -/
theorem silent_of_findSome? (h : (accepted lines).reverse.findSome? part = none) {line : Text}
    (hline : line ∈ lines) {read : OptionLine} (hread : parse? line = .ok read) : part read = none :=
  List.findSome?_eq_none_iff.mp h read (List.mem_reverse.mpr (mem_accepted.mpr ⟨line, hline, hread⟩))

/-! ## Completions -/

/-- Where some lines say that the values of a key are found: what the last option line of this name says,
among those that can be read and have a completion; nothing if there is none. -/
inductive Hints (lines : List Text) (key : Text) : Option Completion → Prop where
  | absent (silent : ∀ line ∈ lines, ∀ read, parse? line = .ok read → read.name = key →
      read.completion = none) : Hints lines key none
  | last {before after : List Text} {line : Text} {read : OptionLine} {completion : Completion}
      (split : lines = before ++ line :: after) (parses : parse? line = .ok read) (name : read.name = key)
      (hint : read.completion = some completion)
      (final : ∀ later ∈ after, ∀ other, parse? later = .ok other → other.name = key →
        other.completion = none) :
      Hints lines key (some completion)

/-- What a line says about the completion of a key. -/
def completionOf? (key : Text) (line : OptionLine) : Option Completion :=
  if line.name = key then line.completion else none

theorem completionOf?_eq_some_iff {key : Text} {line : OptionLine} {completion : Completion} :
    line.completionOf? key = some completion ↔ line.name = key ∧ line.completion = some completion := by
  simp [completionOf?]

theorem completionOf?_eq_none_iff {key : Text} {line : OptionLine} :
    line.completionOf? key = none ↔ (line.name = key → line.completion = none) := by
  simp [completionOf?]

end OptionLine

open OptionLine in
/-- The index is written in the order of the lines and read as if it were searched from the end. -/
theorem CompletionIndex.get?_build (lines : List OptionLine) (key : Text) :
    (build lines).get? key = lines.reverse.findSome? (completionOf? key) := by
  simp only [build, get?, Assoc.ofPairs, Assoc.lookup_insertAll, List.lookup_nil, Option.or_none,
    ← List.filterMap_reverse]
  induction lines.reverse with
  | nil => rfl
  | cons line rest ih =>
    cases hcompletion : line.completion with
    | none => simp [completionOf?, hcompletion, ih]
    | some completion =>
      simp only [List.filterMap_cons, hcompletion, Option.map_some, Assoc.lookup_cons, List.findSome?_cons,
        completionOf?, ih]
      by_cases hname : line.name = key
      · simp [hname]
      · have hkey : key ≠ line.name := fun h => hname h.symm
        simp [hname, hkey]

namespace OptionLine

variable {lines : List Text} {key : Text} {found : Option Completion}

theorem hints_get? (lines : List Text) (key : Text) :
    Hints lines key ((CompletionIndex.build (accepted lines)).get? key) := by
  rw [CompletionIndex.get?_build]
  cases hfound : (accepted lines).reverse.findSome? (completionOf? key) with
  | none =>
    exact .absent fun line hline read hread =>
      completionOf?_eq_none_iff.mp (silent_of_findSome? hfound hline hread)
  | some completion =>
    obtain ⟨before, line, after, read, hlines, hread, hsaid, hfinal⟩ := exists_last hfound
    obtain ⟨hname, hhint⟩ := completionOf?_eq_some_iff.mp hsaid
    exact .last hlines hread hname hhint fun later hlater other hother =>
      completionOf?_eq_none_iff.mp (hfinal later hlater other hother)

theorem Hints.get?_eq (h : Hints lines key found) :
    (CompletionIndex.build (accepted lines)).get? key = found := by
  rw [CompletionIndex.get?_build]
  cases h with
  | absent silent =>
    refine List.findSome?_eq_none_iff.mpr fun read hread => completionOf?_eq_none_iff.mpr ?_
    obtain ⟨line, hline, hparse⟩ := mem_accepted.mp (List.mem_reverse.mp hread)
    exact silent line hline read hparse
  | @last before after line read completion split parses name hint final =>
    have hsplit : (accepted lines).reverse =
        (accepted after).reverse ++ read :: (accepted before).reverse := by
      simp [split, accepted, parses, Except.toOption]
    have hafter : (accepted after).reverse.findSome? (completionOf? key) = none := by
      refine List.findSome?_eq_none_iff.mpr fun other hother => completionOf?_eq_none_iff.mpr ?_
      obtain ⟨later, hlater, hparse⟩ := mem_accepted.mp (List.mem_reverse.mp hother)
      exact final later hlater other hparse
    rw [hsplit, List.findSome?_append, hafter, Option.none_or, List.findSome?_cons,
      completionOf?_eq_some_iff.mpr ⟨name, hint⟩]

/-- The index holds what the lines say. -/
theorem hints_iff :
    Hints lines key found ↔ (CompletionIndex.build (accepted lines)).get? key = found :=
  ⟨Hints.get?_eq, fun h => h ▸ hints_get? lines key⟩

end OptionLine

end CommandTree
