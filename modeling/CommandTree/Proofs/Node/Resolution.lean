import CommandTree.Proofs.Node.Listing

/-!
# Where words lead and where they stop

The words of a command line that do not start with an internal command are followed from directory to
directory, from the directory of scripts on.  What one word does is `Node.Advances`: it passes on to a
directory, it stops at a script, it is blocked by a fault of which a user is told, or something else fails.

Words pass through the directories in front of them and are then followed from the last one
(`Node.findFrom_of_passes`), and however many words there are, they pass as far as they can
(`Node.exists_passes`).  Therefore one word decides, and what comes after it is of no account: it becomes
the arguments of a script, or is never looked at.

`Node.resolve_contract` is the contract.  It speaks of internal commands only where there is a directory of
scripts, because this is checked before the words are looked at (`Node.not_resolves_everywhere`).
-/

namespace CommandTree

/-- The path to which names lead from a path. -/
def Path.below (path : Path) (names : List Text) : Path :=
  ⟨path.anchor, path.names ++ names⟩

@[simp] theorem Path.below_nil (path : Path) : path.below [] = path := by
  simp [below]

theorem Path.child_below (path : Path) (name : Text) (names : List Text) :
    (path.child name).below names = path.below (name :: names) := by
  simp [below, child]

theorem Path.below_child (path : Path) (names : List Text) (name : Text) :
    (path.below names).child name = path.below (names ++ [name]) := by
  simp [below, child]

namespace Node

variable {config : Config} {files : FileTree} {start directory : Path} {name : Text} {word : Datum}
  {names : List Text} {words : List Datum}

/-! ## Directories on the way -/

/-- Whether a text can be the name of a command. -/
structure IsName (name : Text) : Prop where
  nonempty : name ≠ []
  shown : name.head? ≠ some (.char '.')
  noSlash : .char '/' ∉ name

theorem isSegment_iff_isName : isSegment name = true ↔ IsName name := by
  rw [isSegment_iff, isHidden, decide_eq_false_iff_not]
  exact ⟨fun h => ⟨h.1, h.2.1, h.2.2⟩, fun h => ⟨h.nonempty, h.shown, h.noSlash⟩⟩

/-- Whether a path leads to a directory. -/
def IsDirectoryAt (files : FileTree) (path : Path) : Prop :=
  ∃ entries, files.stat path = .ok (.directory entries)

/-- Whether names lead from directory to directory. -/
structure Passes (files : FileTree) (start : Path) (names : List Text) : Prop where
  isName : ∀ name ∈ names, IsName name
  isDirectory : ∀ lead, lead <+: names → IsDirectoryAt files (start.below lead)

theorem Passes.first (h : Passes files start names) : IsDirectoryAt files start := by
  simpa using h.isDirectory [] List.nil_prefix

theorem passes_nil_iff : Passes files start [] ↔ IsDirectoryAt files start := by
  constructor
  · exact Passes.first
  · intro h
    refine ⟨by simp, fun lead hlead => ?_⟩
    rwa [List.prefix_nil.mp hlead, Path.below_nil]

theorem passes_cons_iff :
    Passes files start (name :: names) ↔
      IsDirectoryAt files start ∧ IsName name ∧ Passes files (start.child name) names := by
  constructor
  · intro h
    refine ⟨h.first, h.isName name List.mem_cons_self,
      fun other hother => h.isName other (List.mem_cons_of_mem _ hother), fun lead hlead => ?_⟩
    rw [Path.child_below]
    exact h.isDirectory (name :: lead) ((List.prefix_cons_inj name).mpr hlead)
  · rintro ⟨hstart, hname, h⟩
    refine ⟨fun other hother => ?_, fun lead hlead => ?_⟩
    · rcases List.mem_cons.mp hother with rfl | hother
      · exact hname
      · exact h.isName other hother
    · rcases List.prefix_cons_iff.mp hlead with rfl | ⟨more, rfl, hmore⟩
      · rwa [Path.below_nil]
      · rw [← Path.child_below]
        exact h.isDirectory more hmore

/-! ## One word -/

/-- Why a word leads nowhere from a directory: it can be no name, it names nothing, or the file that it
names may be executed by nobody. -/
inductive Blocks (files : FileTree) (directory : Path) : Datum → Cause → Prop where
  | malformed {segment : Text} (bad : ¬IsName segment) :
      Blocks files directory (.text segment) (.unknownSubCommand (.text segment) [])
  | noText {word : Datum} (other : ∀ segment, word ≠ .text segment) (falsy : word.truthy = false) :
      Blocks files directory word (.unknownSubCommand word [])
  | missing {segment : Text} {reason : Errno} (good : IsName segment)
      (nothing : files.stat (directory.child segment) = .error reason) (absent : reason.isAbsence = true) :
      Blocks files directory (.text segment) (.unknownSubCommand (.text segment)
        (Similarity.closest suggestionLimit segment (entries files directory)))
  | notExecutable {segment : Text} {mode : Nat} {content : List UInt8} (good : IsName segment)
      (file : files.stat (directory.child segment) = .ok (.file mode content))
      (bits : mode &&& 0o111 = 0) :
      Blocks files directory (.text segment) (.nonExecutable segment (directory.child segment))

/-- The segment that a word is, and what it leads to from a directory. -/
def advance (files : FileTree) (directory : Path) (word : Datum) : Except Failure (Text × Step) :=
  match segmentOf word with
  | .error failure => .error failure
  | .ok segment => (probe files directory segment).map fun step => (segment, step)

/-- What a word does when it is followed from a directory. -/
inductive Advances (files : FileTree) (directory : Path) : Datum → Except Failure (Text × Step) → Prop where
  | directory {segment : Text} (good : IsName segment)
      (found : IsDirectoryAt files (directory.child segment)) :
      Advances files directory (.text segment) (.ok (segment, .directory))
  | script {segment : Text} {mode : Nat} {content : List UInt8} (good : IsName segment)
      (file : files.stat (directory.child segment) = .ok (.file mode content))
      (bits : mode &&& 0o111 ≠ 0) :
      Advances files directory (.text segment) (.ok (segment, .script))
  | blocked {word : Datum} {cause : Cause} (blocks : Blocks files directory word cause) :
      Advances files directory word (.error (.cause cause))
  | failed {word : Datum} {failure : Failure} (other : failure.isCause = false) :
      Advances files directory word (.error failure)

theorem advances_text (files : FileTree) (directory : Path) (segment : Text) :
    Advances files directory (.text segment)
      ((probe files directory segment).map fun step => (segment, step)) := by
  unfold probe
  split
  · rename_i hsegment
    have hname := isSegment_iff_isName.mp hsegment
    split
    · rename_i reason hstat
      split
      · rename_i habsent
        exact .blocked (.missing hname hstat habsent)
      · exact .failed rfl
    · rename_i entries hstat
      exact .directory hname ⟨entries, hstat⟩
    · rename_i found hother hstat
      cases found with
      | directory entries => exact absurd rfl (hother entries)
      | link target => exact absurd rfl ((FileTree.finds_of_stat hstat).ne_link target)
      | file mode content =>
        split
        · rename_i hexecutable
          exact .script hname hstat (of_decide_eq_true hexecutable)
        · rename_i hexecutable
          have hbits : mode &&& 0o111 = 0 := by simpa [FileTree.Node.isExecutable] using hexecutable
          exact .blocked (.notExecutable hname hstat hbits)
  · rename_i hsegment
    exact .blocked (.malformed (mt isSegment_iff_isName.mpr hsegment))

theorem advances (files : FileTree) (directory : Path) (word : Datum) :
    Advances files directory word (advance files directory word) := by
  unfold advance segmentOf
  split
  · rename_i failure hfailure
    split at hfailure
    · cases hfailure
    · rename_i hother
      split at hfailure
      · cases hfailure
        exact .failed rfl
      · rename_i hfalsy
        cases hfailure
        exact .blocked (.noText hother (Bool.eq_false_iff.mpr hfalsy))
  · rename_i segment hsegment
    split at hsegment
    · cases hsegment
      exact advances_text files directory segment
    · split at hsegment <;> cases hsegment

theorem advance_of_isDirectoryAt (hname : IsName name) (h : IsDirectoryAt files (directory.child name)) :
    advance files directory (.text name) = .ok (name, .directory) := by
  obtain ⟨entries, hstat⟩ := h
  have hprobe : probe files directory name = .ok .directory :=
    probe_eq_ok_iff.mpr ⟨isSegment_iff_isName.mpr hname, _, hstat, rfl⟩
  simp only [advance, segmentOf, hprobe, Except.map]

/-! ## All words -/

/-- The node to which words lead from a directory, to which some names led. -/
def findFrom (files : FileTree) (directory : Path) (names : List Text) : List Datum → Except Failure Node
  | [] => .ok (.directory names directory)
  | word :: rest =>
    match advance files directory word with
    | .error failure => .error failure
    | .ok (segment, .directory) => findFrom files (directory.child segment) (names ++ [segment]) rest
    | .ok (segment, .script) => .ok (.file ⟨names ++ [segment], directory.child segment, rest, none⟩)

theorem follow_eq (directory : Path) (names : List Text) (segment : Text) (rest : List Datum) :
    follow files directory names segment rest =
      match probe files directory segment with
      | .error failure => .error failure
      | .ok .directory => findFrom files (directory.child segment) (names ++ [segment]) rest
      | .ok .script => .ok (.file ⟨names ++ [segment], directory.child segment, rest, none⟩) := by
  induction rest generalizing directory names segment with
  | nil => rfl
  | cons next rest ih =>
    unfold follow
    cases probe files directory segment with
    | error failure => rfl
    | ok step =>
      cases step with
      | script => rfl
      | directory =>
        simp only [findFrom, advance]
        cases segmentOf next with
        | error failure => rfl
        | ok more =>
          simp only [ih]
          cases probe files (directory.child segment) more with
          | error failure => rfl
          | ok step => cases step <;> rfl

theorem find_cons (word : Datum) (rest : List Datum) :
    find config files (word :: rest) = findFrom files config.libexec [] (word :: rest) := by
  simp only [find, findFrom, advance, follow_eq]
  cases segmentOf word with
  | error failure => rfl
  | ok segment =>
    cases hprobe : probe files config.libexec segment with
    | error failure => simp only [hprobe, Except.map]
    | ok step => cases step <;> simp only [hprobe, Except.map]

/-- Words are followed from the directory to which the names in front of them lead. -/
theorem findFrom_of_passes (h : Passes files start names) (before : List Text) (words : List Datum) :
    findFrom files start before (names.map .text ++ words) =
      findFrom files (start.below names) (before ++ names) words := by
  induction names generalizing start before with
  | nil => simp
  | cons name names ih =>
    obtain ⟨hstart, hname, hmore⟩ := passes_cons_iff.mp h
    have hadvance := advance_of_isDirectoryAt hname hmore.first
    rw [List.map_cons, List.cons_append, findFrom, hadvance]
    simp only [ih hmore, Path.child_below, List.append_assoc, List.singleton_append]

/-- Words pass through as many directories as they can.  The word after these does not lead to a
directory. -/
theorem exists_passes (hstart : IsDirectoryAt files start) (words : List Datum) :
    ∃ lead rest, words = lead.map .text ++ rest ∧ Passes files start lead ∧
      ∀ word more, rest = word :: more → ∀ segment,
        advance files (start.below lead) word ≠ .ok (segment, .directory) := by
  induction words generalizing start with
  | nil => exact ⟨[], [], rfl, passes_nil_iff.mpr hstart, fun word more h => nomatch h⟩
  | cons word words ih =>
    by_cases hpass : ∃ segment, advance files start word = .ok (segment, .directory)
    · obtain ⟨segment, hadvance⟩ := hpass
      have hspec := advances files start word
      rw [hadvance] at hspec
      cases hspec with
      | directory good found =>
        obtain ⟨lead, rest, rfl, hlead, hstop⟩ := ih found
        refine ⟨segment :: lead, rest, rfl, passes_cons_iff.mpr ⟨hstart, good, hlead⟩, ?_⟩
        rwa [← Path.child_below]
    · refine ⟨[], word :: words, rfl, passes_nil_iff.mpr hstart, ?_⟩
      rintro word more ⟨⟩ segment hadvance
      rw [Path.below_nil] at hadvance
      exact hpass ⟨segment, hadvance⟩

/-! ## Where words lead -/

/-- What words are that lead to a directory. -/
structure ReachesDirectory (config : Config) (files : FileTree) (words : List Datum) (names : List Text)
    (path : Path) : Prop where
  words_eq : words = names.map .text
  path_eq : path = config.libexec.below names
  passes : Passes files config.libexec names

/-- What words are that lead to a script: its names, all of which but the last lead from directory to
directory, and its arguments, which may be any others. -/
structure ReachesScript (config : Config) (files : FileTree) (words : List Datum) (script : ScriptFile) :
    Prop where
  words_eq : words = script.names.map .text ++ script.args
  path_eq : script.path = config.libexec.below script.names
  isName : ∀ name ∈ script.names, IsName name
  isDirectory : ∀ lead, lead <+: script.names → lead ≠ script.names →
    IsDirectoryAt files (config.libexec.below lead)
  isFile : ∃ mode content, files.stat script.path = .ok (.file mode content) ∧ mode &&& 0o111 ≠ 0
  unread : script.loaded = none
  stable : ∀ extra, resolve config files (words ++ extra) =
    .ok (.file { script with args := script.args ++ extra })

/-- What words are that lead to a fault: names that lead from directory to directory, and a word that is
blocked in the last one.  Whatever words come after it, the fault is the same. -/
inductive BlockedBy (config : Config) (files : FileTree) : List Datum → Cause → Prop where
  | intro {lead : List Text} {word : Datum} {rest : List Datum} {cause : Cause}
      (passes : Passes files config.libexec lead)
      (blocks : Blocks files (config.libexec.below lead) word cause)
      (stable : ∀ others, resolve config files (lead.map .text ++ word :: others) = .error (.cause cause)) :
      BlockedBy config files (lead.map .text ++ word :: rest) cause

/-- Whether a failure is about a word that leads nowhere. -/
def IsAboutWord (failure : Failure) : Prop :=
  ∃ cause, failure = .cause cause ∧ (cause.kind = .unknownSubCommand ∨ cause.kind = .nonExecutable)

/-- What becomes of words. -/
inductive Ends (config : Config) (files : FileTree) (words : List Datum) : Except Failure Node → Prop where
  | directory {names : List Text} {path : Path} (reaches : ReachesDirectory config files words names path) :
      Ends config files words (.ok (.directory names path))
  | script {script : ScriptFile} (reaches : ReachesScript config files words script) :
      Ends config files words (.ok (.file script))
  | blocked {cause : Cause} (blocked : BlockedBy config files words cause) :
      Ends config files words (.error (.cause cause))
  | failed {failure : Failure} (other : ¬IsAboutWord failure) : Ends config files words (.error failure)

theorem holdsAt_isDirectory_iff :
    files.holdsAt directory FileTree.Node.isDirectory = .ok true ↔ IsDirectoryAt files directory := by
  constructor
  · exact stat_of_holdsAt
  · rintro ⟨entries, hstat⟩
    rw [FileTree.holdsAt, hstat]
    rfl

theorem resolve_eq_findFrom (hlibexec : IsDirectoryAt files config.libexec) (hne : words ≠ [])
    (hhead : ∀ word ∈ words.head?, internal? word = none) :
    resolve config files words = findFrom files config.libexec [] words := by
  obtain ⟨word, rest, rfl⟩ := List.exists_cons_of_ne_nil hne
  rw [resolve_cons (holdsAt_isDirectory_iff.mpr hlibexec), hhead word rfl]
  exact find_cons word rest

theorem ends_of_isDirectoryAt (hlibexec : IsDirectoryAt files config.libexec) (hne : words ≠ [])
    (hhead : ∀ word ∈ words.head?, internal? word = none) :
    Ends config files words (resolve config files words) := by
  obtain ⟨lead, rest, rfl, hlead, hstop⟩ := exists_passes hlibexec words
  cases rest with
  | nil =>
    rw [resolve_eq_findFrom hlibexec hne hhead, findFrom_of_passes hlead, findFrom]
    exact .directory ⟨by simp, rfl, hlead⟩
  | cons word rest =>
    -- the words after the one that decides do not change what is decided
    have hall : ∀ others, resolve config files (lead.map .text ++ word :: others) =
        findFrom files (config.libexec.below lead) lead (word :: others) := by
      intro others
      rw [resolve_eq_findFrom hlibexec (by simp) (by simpa using hhead), findFrom_of_passes hlead,
        List.nil_append]
    simp only [findFrom] at hall
    have hspec := advances files (config.libexec.below lead) word
    have hnot := hstop word rest rfl
    rw [hall]
    generalize advance files (config.libexec.below lead) word = result at hspec hall hnot
    cases hspec with
    | directory good found => exact absurd rfl (hnot _)
    | script good file bits =>
      refine .script ⟨by simp, Path.below_child _ _ _, fun name hname => ?_, fun front hfront hne => ?_,
        ⟨_, _, file, bits⟩, rfl, fun extra => ?_⟩
      · rcases List.mem_append.mp hname with hname | hname
        · exact hlead.isName name hname
        · rwa [List.mem_singleton.mp hname]
      · exact hlead.isDirectory front ((List.prefix_concat_iff.mp hfront).resolve_left hne)
      · rw [List.append_assoc, List.cons_append, hall]
    | blocked blocks => exact .blocked ⟨hlead, blocks, hall⟩
    | failed other =>
      refine .failed ?_
      rintro ⟨cause, rfl, -⟩
      cases other

theorem resolve_of_not_directory (h : ¬IsDirectoryAt files config.libexec) (words : List Datum) :
    ∃ failure, resolve config files words = .error failure ∧ ¬IsAboutWord failure := by
  unfold resolve
  split
  · exact ⟨_, rfl, fun ⟨cause, hcause, _⟩ => nomatch hcause⟩
  · refine ⟨_, rfl, ?_⟩
    rintro ⟨cause, ⟨⟩, hkind⟩
    simp [Cause.kind] at hkind
  · rename_i hholds
    exact absurd (holdsAt_isDirectory_iff.mp hholds) h

/-- Words that do not start with an internal command end in one of four ways. -/
theorem ends_resolve {first : Datum} (hfirst : internal? first = none) (rest : List Datum) :
    Ends config files (first :: rest) (resolve config files (first :: rest)) := by
  by_cases hlibexec : IsDirectoryAt files config.libexec
  · refine ends_of_isDirectoryAt hlibexec (List.cons_ne_nil first rest) ?_
    rintro word ⟨⟩
    exact hfirst
  · obtain ⟨failure, hfailure, hother⟩ := resolve_of_not_directory hlibexec (first :: rest)
    rw [hfailure]
    exact .failed hother

theorem internal?_eq_none (h : ∀ command : Internal, word ≠ .text command.word) : internal? word = none := by
  cases hword : internal? word with
  | none => rfl
  | some command => exact absurd (eq_text_of_internal?_eq_some hword) (h command)

theorem reachesScript_of_resolve {script : ScriptFile} (h : resolve config files words = .ok (.file script)) :
    ReachesScript config files words script := by
  cases words with
  | nil =>
    unfold resolve at h
    split at h <;> cases h
  | cons first rest =>
    cases hfirst : internal? first with
    | none =>
      have hends := @ends_resolve config files first hfirst rest
      rw [h] at hends
      cases hends with
      | script reaches => exact reaches
    | some command =>
      simp only [resolve, hfirst] at h
      split at h <;> cases h

/-- A script that was found has not been read. -/
theorem unread_of_resolve {script : ScriptFile} (h : resolve config files words = .ok (.file script)) :
    script.loaded = none :=
  (reachesScript_of_resolve h).unread

/-- Finding splits the words of a command line that does not start with an internal command: into the names
of a directory; or into the names of a script and its arguments, to which any words may be added; or, for a
fault, into names that pass and the word that does not.  The word of an internal command leads to it
wherever there is a directory of scripts. -/
theorem resolve_contract (config : Config) (files : FileTree) (first : Datum) (rest : List Datum) :
    ((∀ command : Internal, first ≠ .text command.word) →
      (∀ names path, resolve config files (first :: rest) = .ok (.directory names path) →
        ReachesDirectory config files (first :: rest) names path) ∧
      (∀ script, resolve config files (first :: rest) = .ok (.file script) →
        ReachesScript config files (first :: rest) script) ∧
      ∀ cause, resolve config files (first :: rest) = .error (.cause cause) →
        cause.kind = .unknownSubCommand ∨ cause.kind = .nonExecutable →
        BlockedBy config files (first :: rest) cause) ∧
      ∀ command : Internal,
        resolve config files (.text command.word :: rest) = .ok (.internal command rest) ↔
          IsDirectoryAt files config.libexec := by
  refine ⟨fun hfirst => ?_, fun command => ?_⟩
  · have hends := @ends_resolve config files first (internal?_eq_none hfirst) rest
    refine ⟨fun names path h => ?_, fun script h => ?_, fun cause h hkind => ?_⟩
    · rw [h] at hends
      cases hends with
      | directory reaches => exact reaches
    · rw [h] at hends
      cases hends with
      | script reaches => exact reaches
    · rw [h] at hends
      cases hends with
      | blocked blocked => exact blocked
      | failed other => exact absurd ⟨cause, rfl, hkind⟩ other
  · by_cases hlibexec : IsDirectoryAt files config.libexec
    · have hword : internal? (.text command.word) = some command := Internal.ofWord?_eq_some_iff.mpr rfl
      rw [resolve_cons (holdsAt_isDirectory_iff.mpr hlibexec), hword]
      exact iff_of_true rfl hlibexec
    · obtain ⟨failure, hfailure, -⟩ := resolve_of_not_directory hlibexec (.text command.word :: rest)
      rw [hfailure]
      exact iff_of_false (fun h => nomatch h) hlibexec

/-- Without a directory of scripts the words of internal commands lead nowhere either. -/
theorem not_resolves_everywhere :
    ¬∀ (config : Config) (files : FileTree) (command : Internal) (rest : List Datum),
      resolve config files (.text command.word :: rest) = .ok (.internal command rest) := by
  intro h
  have hhelp := h sampleConfig FileTree.empty .help []
  have hfails : resolve sampleConfig FileTree.empty [.text "help"] =
      .error (.cause (.noLibexec sampleConfig.libexec)) := by cbv
  cases hfails.symm.trans hhelp

end Node

end CommandTree
