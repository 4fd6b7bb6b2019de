import CommandTree.Proofs.FileTree.Refusals
import CommandTree.Proofs.Node.Resolution

/-!
# When finding a node has an answer

Finding is meant to end in a node or in one of the faults of which a user is told (`Node.Answers`).  It looks
at the file system once for every word that it follows, and for most words that name nothing the file system
says so.  For a name that is too long it does not say so: it refuses, and the refusal passes through
(`Node.IsRefused`).

`Node.resolve_answers` draws the line.  Where there is a directory of scripts, words have an answer exactly
if no word on their way is refused.  A word that no directory lists is refused if it is `Node.IsOverlong` and is
unknown otherwise.  Links are why this is not the whole truth: a listed name may be a link whose target has
a name in it that is too long.  If there is no such link, words of lawful length always have an answer.

The line is exact for a file system that limits the length of names and not that of whole paths, which
`FileTree.walk` assumes.  Where paths are limited as well, a path that is too long is refused for the same
reason, whatever its names.
-/

namespace CommandTree

namespace Node

open FileTree (Fits)

variable {config : Config} {files : FileTree} {directory : Path} {segment : Text} {lead rest words : List Text}
  {failure : Failure} {reason : Errno}

/-- The kinds of the faults that finding a node may end in. -/
def findingKinds : List Fault.Kind :=
  [.noLibexec, .unknownSubCommand, .nonExecutable]

/-- Whether finding ends as it is meant to: in a node or in one of its faults. -/
inductive Answers : Except Failure Node → Prop where
  | node (found : Node) : Answers (.ok found)
  | fault {cause : Cause} (known : cause.kind ∈ findingKinds) : Answers (.error (.cause cause))

/-- Whether words are looked up in the directory of scripts: their first is no internal command. -/
def IsOuter (words : List Text) : Prop :=
  ∀ command : Internal, words.head? ≠ some command.word

/-- Whether the file system refuses a word: names lead from directory to directory, and what the next word
would name in the last one is refused. -/
inductive IsRefused (config : Config) (files : FileTree) : List Text → Prop where
  | intro {lead rest : List Text} {segment : Text} (outer : IsOuter (lead ++ [segment]))
      (passes : Passes files config.libexec lead) (good : IsName segment)
      (refused : files.stat ((config.libexec.below lead).child segment) = .error .nameTooLong) :
      IsRefused config files (lead ++ segment :: rest)

/-- Whether a word can be a name of a command but is too long to be one. -/
structure IsOverlong (segment : Text) : Prop where
  good : IsName segment
  long : ¬Fits segment
  spoken : Glyph.char '\x00' ∉ segment

/-! ## One word -/

theorem probe_of_stat_error (hname : IsName segment) (h : files.stat (directory.child segment) = .error reason) :
    probe files directory segment =
      if reason.isAbsence then .error (.cause (unknown files directory segment)) else .error (.refusal reason) := by
  rw [probe, if_pos (isSegment_iff_isName.mpr hname), h]

/-- A word that leads nowhere has an answer, or is refused. -/
theorem answers_or_refused_of_probe (h : probe files directory segment = .error failure) :
    Answers (.error failure) ∨ IsName segment ∧ files.stat (directory.child segment) = .error .nameTooLong := by
  unfold probe at h
  split at h
  · rename_i hsegment
    split at h
    · rename_i reason hstat
      rcases FileTree.isAbsence_or_eq_nameTooLong hstat with habsent | rfl
      · rw [if_pos habsent] at h
        cases h
        exact .inl (.fault (by simp [unknown, Cause.kind, findingKinds]))
      · exact .inr ⟨isSegment_iff_isName.mp hsegment, hstat⟩
    · cases h
    · split at h
      · cases h
      · cases h
        exact .inl (.fault (by simp [Cause.kind, findingKinds]))
  · cases h
    exact .inl (.fault (by simp [Cause.kind, findingKinds]))

theorem advance_text (files : FileTree) (directory : Path) (segment : Text) :
    advance files directory (.text segment) = (probe files directory segment).map fun step => (segment, step) :=
  rfl

/-! ## All words -/

/-- Words that are followed from a directory have an answer, or one of them is refused. -/
theorem answers_or_refused_of_findFrom {start : Path} (hstart : IsDirectoryAt files start) (names words : List Text) :
    Answers (findFrom files start names (words.map .text)) ∨
      ∃ lead segment rest, words = lead ++ segment :: rest ∧ Passes files start lead ∧ IsName segment ∧
        files.stat ((start.below lead).child segment) = .error .nameTooLong := by
  induction words generalizing start names with
  | nil => exact .inl (.node _)
  | cons segment rest ih =>
    have hspec := advances_text files start segment
    rw [List.map_cons, findFrom, advance_text]
    cases hprobe : probe files start segment with
    | error failure =>
      apply (answers_or_refused_of_probe hprobe).imp_right
      rintro ⟨hname, hrefused⟩
      refine ⟨[], segment, rest, rfl, passes_nil_iff.mpr hstart, hname, ?_⟩
      rwa [Path.below_nil]
    | ok step =>
      rw [hprobe] at hspec
      cases hspec with
      | script good file bits => exact .inl (.node _)
      | directory good found =>
        apply (ih found (names ++ [segment])).imp_right
        rintro ⟨lead, next, rest, rfl, hlead, hname, hrefused⟩
        refine ⟨segment :: lead, next, rest, rfl, passes_cons_iff.mpr ⟨hstart, good, hlead⟩, hname, ?_⟩
        rwa [← Path.child_below]

theorem isOuter_or_exists (words : List Text) :
    IsOuter words ∨ ∃ (command : Internal) (rest : List Text), words = command.word :: rest := by
  by_cases h : IsOuter words
  · exact .inl h
  · simp only [IsOuter, not_forall, not_not] at h
    obtain ⟨command, hhead⟩ := h
    obtain ⟨rest, rfl⟩ := List.head?_eq_some_iff.mp hhead
    exact .inr ⟨command, rest, rfl⟩

theorem isOuter_append_cons : IsOuter (lead ++ segment :: rest) ↔ IsOuter (lead ++ [segment]) := by
  cases lead <;> exact Iff.rfl

/-- Words of which the first is no internal command are followed from the directory of scripts. -/
theorem IsOuter.resolve_eq (h : IsOuter words) (hlibexec : IsDirectoryAt files config.libexec) (hne : words ≠ []) :
    resolve config files (words.map .text) = findFrom files config.libexec [] (words.map .text) := by
  apply resolve_eq_findFrom hlibexec (mt List.map_eq_nil_iff.mp hne)
  intro word hword
  rw [List.head?_map] at hword
  obtain ⟨first, hfirst, rfl⟩ := Option.mem_map.mp hword
  apply internal?_eq_none
  rintro command ⟨⟩
  exact h command hfirst

/-- A failure of one word, after names that lead from directory to directory, is the failure of all words. -/
theorem resolve_eq_error (houter : IsOuter (lead ++ [segment])) (hlead : Passes files config.libexec lead)
    (h : probe files (config.libexec.below lead) segment = .error failure) (rest : List Text) :
    resolve config files ((lead ++ segment :: rest).map .text) = .error failure := by
  rw [(isOuter_append_cons.mpr houter).resolve_eq hlead.first (by simp), List.map_append, List.map_cons,
    findFrom_of_passes hlead, findFrom, advance_text, h]
  rfl

theorem IsRefused.resolve_eq (h : IsRefused config files words) :
    resolve config files (words.map .text) = .error (.refusal .nameTooLong) := by
  obtain ⟨houter, hlead, hgood, hrefused⟩ := h
  apply resolve_eq_error houter hlead
  exact probe_of_stat_error hgood hrefused

/-- Words have an answer, or one of them is refused. -/
theorem answers_or_isRefused (hlibexec : IsDirectoryAt files config.libexec) (words : List Text) :
    Answers (resolve config files (words.map .text)) ∨ IsRefused config files words := by
  have hholds := holdsAt_isDirectory_iff.mpr hlibexec
  rcases isOuter_or_exists words with houter | ⟨command, rest, rfl⟩
  · by_cases hne : words = []
    · subst hne
      have htop : resolve config files [] = .ok .topLevel := by rw [resolve, hholds]
      exact .inl (htop ▸ .node _)
    · rw [houter.resolve_eq hlibexec hne]
      apply (answers_or_refused_of_findFrom hlibexec [] words).imp_right
      rintro ⟨lead, segment, rest, rfl, hlead, hgood, hrefused⟩
      exact ⟨isOuter_append_cons.mp houter, hlead, hgood, hrefused⟩
  · have hword : internal? (.text command.word) = some command := Internal.ofWord?_eq_some_iff.mpr rfl
    rw [List.map_cons, resolve_cons hholds, hword]
    exact .inl (.node _)

theorem answers_iff (hlibexec : IsDirectoryAt files config.libexec) (words : List Text) :
    Answers (resolve config files (words.map .text)) ↔ ¬IsRefused config files words := by
  constructor
  · intro hanswers hrefused
    rw [hrefused.resolve_eq] at hanswers
    cases hanswers
  · exact (answers_or_isRefused hlibexec words).resolve_right

/-! ## Words that no directory lists -/

/-- What becomes of a word that the directory does not list to which the names before it lead. -/
theorem resolve_unlisted {listed : List Text} (houter : IsOuter (lead ++ [segment]))
    (hlead : Passes files config.libexec lead) (hlisted : files.list (config.libexec.below lead) = .ok listed)
    (hsegment : segment ∉ listed) (rest : List Text) :
    (IsOverlong segment → resolve config files ((lead ++ segment :: rest).map .text) =
      .error (.refusal .nameTooLong)) ∧
    (¬IsOverlong segment → ∃ similar, resolve config files ((lead ++ segment :: rest).map .text) =
      .error (.cause (.unknownSubCommand (.text segment) similar))) := by
  have hresolve : ∀ {failure : Failure}, probe files (config.libexec.below lead) segment = .error failure →
      resolve config files ((lead ++ segment :: rest).map .text) = .error failure :=
    fun hprobe => resolve_eq_error houter hlead hprobe rest
  by_cases hname : IsName segment
  · have hhere : segment ≠ Path.here := by
      rintro rfl
      exact hname.shown rfl
    have hup : segment ≠ Path.up := by
      rintro rfl
      exact hname.shown rfl
    have hprobe := probe_of_stat_error hname
      (FileTree.stat_child_of_not_listed hlisted hsegment hname.nonempty hhere hup)
    constructor
    · intro hoverlong
      have hnever : ¬(Fits segment ∨ Glyph.char '\x00' ∈ segment) := not_or.mpr ⟨hoverlong.long, hoverlong.spoken⟩
      rw [if_neg hnever] at hprobe
      exact hresolve hprobe
    · intro hoverlong
      have hsometimes : Fits segment ∨ Glyph.char '\x00' ∈ segment := by
        by_contra hnever
        exact hoverlong ⟨hname, (not_or.mp hnever).1, (not_or.mp hnever).2⟩
      rw [if_pos hsometimes] at hprobe
      exact ⟨_, hresolve hprobe⟩
  · have hprobe : probe files (config.libexec.below lead) segment =
        .error (.cause (.unknownSubCommand (.text segment) [])) := by
      rw [probe, if_neg (mt isSegment_iff_isName.mp hname)]
    exact ⟨fun hoverlong => absurd hoverlong.good hname, fun _ => ⟨[], hresolve hprobe⟩⟩

/-! ## Words of lawful length -/

theorem answers_of_fits (hlibexec : IsDirectoryAt files config.libexec) (htargets : files.TargetsFit)
    (h : ∀ word ∈ words, Fits word) : Answers (resolve config files (words.map .text)) := by
  rw [answers_iff hlibexec]
  rintro ⟨houter, hlead, hgood, hrefused⟩
  obtain ⟨entries, hstat⟩ := hlead.isDirectory _ List.prefix_rfl
  exact htargets.stat_child_ne_nameTooLong hstat (h _ (by simp)) hrefused

/-- Finding ends as it is meant to unless a word on the way is refused; then the refusal passes through.  A word
that no directory lists is unknown unless it is overlong.  Where the targets of links have names of lawful
length, so that only the words themselves can be overlong, words of lawful length have an answer.  Here names
have a limit and paths as a whole have none, as in `FileTree.walk`. -/
theorem resolve_answers (hlibexec : IsDirectoryAt files config.libexec) :
    (∀ words : List Text,
      (Answers (resolve config files (words.map .text)) ↔ ¬IsRefused config files words) ∧
      (IsRefused config files words →
        resolve config files (words.map .text) = .error (.refusal .nameTooLong)) ∧
      (files.TargetsFit → (∀ word ∈ words, Fits word) → Answers (resolve config files (words.map .text)))) ∧
    ∀ (lead : List Text) (segment : Text) (rest listed : List Text),
      IsOuter (lead ++ [segment]) → Passes files config.libexec lead →
      files.list (config.libexec.below lead) = .ok listed → segment ∉ listed →
      (IsOverlong segment → resolve config files ((lead ++ segment :: rest).map .text) =
        .error (.refusal .nameTooLong)) ∧
      (¬IsOverlong segment → ∃ similar, resolve config files ((lead ++ segment :: rest).map .text) =
        .error (.cause (.unknownSubCommand (.text segment) similar))) := by
  refine ⟨fun words => ⟨answers_iff hlibexec words, IsRefused.resolve_eq, answers_of_fits hlibexec⟩, ?_⟩
  intro lead segment rest listed houter hlead hlisted hsegment
  exact resolve_unlisted houter hlead hlisted hsegment rest

/-- A word of some number of equal letters. -/
def longWord (length : Nat) : Text :=
  List.replicate length (.char 'a')

theorem length_toBytes_longWord (length : Nat) : (longWord length).toBytes.length = length := by
  simp [longWord, Text.toBytes, List.length_flatMap, String.utf8EncodeChar]

theorem isOverlong_longWord {length : Nat} (h : FileTree.nameLimit < length) : IsOverlong (longWord length) := by
  have hpos : length ≠ 0 := by omega
  have hletter : ∀ glyph, glyph ∈ longWord length → glyph = .char 'a' := fun glyph => List.eq_of_mem_replicate
  refine ⟨⟨?_, ?_, ?_⟩, ?_, ?_⟩
  · simpa [longWord] using hpos
  · simp [longWord, List.head?_replicate, hpos]
  · exact fun hslash => absurd (hletter _ hslash) (by decide)
  · rw [Fits, length_toBytes_longWord]
    omega
  · exact fun hnul => absurd (hletter _ hnul) (by decide)

theorem IsOverlong.isOuter (h : IsOverlong segment) : IsOuter [segment] := by
  have hwords : ∀ command : Internal, Fits command.word := by
    rintro (_ | _ | _) <;> decide
  intro command hhead
  obtain rfl : segment = command.word := Option.some.inj hhead
  exact h.long (hwords command)

theorem resolve_answers_sample :
    (Answers (resolve sampleConfig sampleFiles [.text "also", .text "copy"]) ↔
      ¬IsRefused sampleConfig sampleFiles ["also", "copy"]) ∧
    resolve sampleConfig sampleFiles [.text "also", .text (longWord 256), .text "copy"] =
      .error (.refusal .nameTooLong) ∧
    ∃ similar, resolve sampleConfig sampleFiles [.text "also", .text "paste"] =
      .error (.cause (.unknownSubCommand (.text "paste") similar)) := by
  have hlibexec : IsDirectoryAt sampleFiles sampleConfig.libexec := ⟨_, by cbv⟩
  have halso : IsDirectoryAt sampleFiles (sampleConfig.libexec.child "also") := ⟨_, by cbv⟩
  have hname : IsName "also" := ⟨by decide, by decide, by decide⟩
  have hlead : Passes sampleFiles sampleConfig.libexec ["also"] :=
    passes_cons_iff.mpr ⟨hlibexec, hname, passes_nil_iff.mpr halso⟩
  have hlisted : sampleFiles.list (sampleConfig.libexec.below ["also"]) = .ok ["copy"] := by cbv
  have hfirst : ∀ command : Internal, some (Text.lit "also") ≠ some command.word := by
    rintro (_ | _ | _) <;> decide
  have houter : ∀ segment, IsOuter ["also", segment] := fun segment => hfirst
  have hlong : longWord 256 ∉ [("copy" : Text)] := by
    intro hmem
    have hlength := congrArg List.length (List.mem_singleton.mp hmem)
    rw [longWord, List.length_replicate] at hlength
    exact absurd hlength (by decide)
  have hpaste : ¬IsOverlong "paste" := fun h => h.long (by decide)
  have hwords := resolve_answers hlibexec
  exact ⟨(hwords.1 ["also", "copy"]).1,
    (hwords.2 ["also"] (longWord 256) ["copy"] ["copy"] (houter _) hlead hlisted hlong).1
      (isOverlong_longWord (by decide)),
    (hwords.2 ["also"] "paste" [] ["copy"] (houter _) hlead hlisted (by decide)).2 hpaste⟩

/-- Where there are no scripts at all, a word that is too long is not unknown but refused. -/
theorem not_answers_everywhere :
    ¬∀ (config : Config) (files : FileTree) (words : List Text), IsDirectoryAt files config.libexec →
      Answers (resolve config files (words.map .text)) := by
  intro h
  have hlibexec : IsDirectoryAt (FileTree.empty.makeDirectory sampleConfig.libexec) sampleConfig.libexec :=
    ⟨[], by cbv⟩
  have hlisted : (FileTree.empty.makeDirectory sampleConfig.libexec).list (sampleConfig.libexec.below []) =
      .ok [] := by cbv
  have hlong : IsOverlong (longWord 256) := isOverlong_longWord (by decide)
  have hrefused : resolve sampleConfig (FileTree.empty.makeDirectory sampleConfig.libexec)
      ([longWord 256].map .text) = .error (.refusal .nameTooLong) :=
    (resolve_unlisted hlong.isOuter (passes_nil_iff.mpr hlibexec) hlisted (by simp) []).1 hlong
  have hanswers := h sampleConfig _ [longWord 256] hlibexec
  rw [hrefused] at hanswers
  cases hanswers

end Node

end CommandTree
