import CommandTree.Node.Basic
import CommandTree.Text.Similarity

/-!
# Finding nodes

`Node.resolve` follows the words of a command line.  No words lead to the top level, and the word of an
internal command leads to it, whatever files there are.  All other words are followed from directory to
directory, as *segments* of a path, up to the first that is no directory: this is the script, and the
words after it are its own.

A segment is not empty, does not start with a dot and has no slash.  What looks like no segment is
unknown, as is a segment that names nothing; a file that nobody may execute is refused.  The words after a
script may be of any kind, while one that is followed must be a text, unless it is false and so no segment.

`Node.children` lists what one further word may lead to, in order of names.
-/

namespace CommandTree

namespace Node

/-- The glyph that names of hidden entries start with. -/
def dot : Glyph := .char '.'

/-- Whether an entry is hidden. -/
def isHidden (name : Text) : Bool :=
  name.head? = some dot

/-- Whether a word can be a step of a path. -/
def isSegment (word : Text) : Bool :=
  !word.isEmpty && !isHidden word && !word.contains Path.slash

/-- How many similar names are suggested for an unknown command. -/
def suggestionLimit : Nat := 3

/-- The names of the entries of a directory that are not hidden; none if it cannot be read. -/
def entries (files : FileTree) (directory : Path) : List Text :=
  match files.list directory with
  | .ok names => names.filter fun name => !isHidden name
  | .error _ => []

/-- The cause for a segment that names nothing in a directory. -/
def unknown (files : FileTree) (directory : Path) (segment : Text) : Cause :=
  .unknownSubCommand (.text segment)
    (Similarity.closest suggestionLimit segment (entries files directory))

/-- What a segment leads to. -/
inductive Step where
  | directory
  | script
deriving DecidableEq

/-- What a segment leads to from a directory. -/
def probe (files : FileTree) (directory : Path) (segment : Text) : Except Failure Step :=
  if isSegment segment then
    match files.stat (directory.child segment) with
    | .error reason =>
      if reason.isAbsence then .error (.cause (unknown files directory segment))
      else .error (.refusal reason)
    | .ok (.directory _) => .ok .directory
    | .ok found =>
      if found.isExecutable then .ok .script
      else .error (.cause (.nonExecutable segment (directory.child segment)))
  else .error (.cause (.unknownSubCommand (.text segment) []))

/-- The segment that a word is. -/
def segmentOf : Datum → Except Failure Text
  | .text segment => .ok segment
  | other =>
    if other.truthy then .error (.misuse .notWord)
    else .error (.cause (.unknownSubCommand other []))

/-- The node to which a segment and the words after it lead from a directory, to which some names led. -/
def follow (files : FileTree) (directory : Path) (names : List Text) (segment : Text) :
    (rest : List Datum) → Except Failure Node
  | [] =>
    match probe files directory segment with
    | .error failure => .error failure
    | .ok .directory => .ok (.directory (names ++ [segment]) (directory.child segment))
    | .ok .script => .ok (.file ⟨names ++ [segment], directory.child segment, [], none⟩)
  | next :: rest =>
    match probe files directory segment with
    | .error failure => .error failure
    | .ok .directory =>
      match segmentOf next with
      | .error failure => .error failure
      | .ok next => follow files (directory.child segment) (names ++ [segment]) next rest
    | .ok .script =>
      .ok (.file ⟨names ++ [segment], directory.child segment, next :: rest, none⟩)

/-- The node to which words lead that name no internal command. -/
def find (config : Config) (files : FileTree) : List Datum → Except Failure Node
  | [] => .ok .topLevel
  | word :: rest =>
    match segmentOf word with
    | .error failure => .error failure
    | .ok segment => follow files config.libexec [] segment rest

/-- The internal command that a word names. -/
def internal? : Datum → Option Internal
  | .text word => Internal.ofWord? word
  | _ => none

theorem eq_text_of_internal?_eq_some {word : Datum} {command : Internal}
    (h : internal? word = some command) : word = .text command.word := by
  unfold internal? at h
  split at h
  · rw [Internal.ofWord?_eq_some_iff.1 h]
  · simp at h

/-- The node to which the words of a command line lead. -/
def resolve (config : Config) (files : FileTree) (words : List Datum) : Except Failure Node :=
  match files.holdsAt config.libexec FileTree.Node.isDirectory with
  | .error reason => .error (.refusal reason)
  | .ok false => .error (.cause (.noLibexec config.libexec))
  | .ok true =>
    match words with
    | [] => .ok .topLevel
    | word :: rest =>
      match internal? word with
      | some command => .ok (.internal command rest)
      | none => find config files (word :: rest)

/-- An internal command is found only by its own word. -/
theorem eq_cons_of_resolve_internal {config : Config} {files : FileTree} {words rest : List Datum}
    {command : Internal} (h : resolve config files words = .ok (.internal command rest)) :
    words = .text command.word :: rest := by
  have hfollow : ∀ (rest : List Datum) (directory : Path) (names : List Text) (segment : Text)
      (args : List Datum),
      follow files directory names segment rest ≠ .ok (.internal command args) := by
    intro rest
    induction rest with
    | nil =>
      intro directory names segment args
      unfold follow
      split <;> simp
    | cons next rest ih =>
      intro directory names segment args
      unfold follow
      split
      · simp
      · split
        · simp
        · exact ih _ _ _ _
      · simp
  unfold resolve at h
  split at h
  · simp at h
  · simp at h
  · split at h
    · simp at h
    · split at h
      · rename_i hword
        simp only [Except.ok.injEq, Node.internal.injEq] at h
        rw [eq_text_of_internal?_eq_some hword, h.1, h.2]
      · unfold find at h
        split at h
        · simp at h
        · split at h
          · simp at h
          · exact absurd h (hfollow _ _ _ _ _)

/-! ## Children -/

/-- Whether a node comes before another, or has the same name. -/
def notAfter (config : Config) (a b : Node) : Bool :=
  !(b.name config).before (a.name config)

/-- Whether an entry can be reached by its name: at the top level the words of internal commands lead
elsewhere. -/
def isReachable (parents : List Text) (name : Text) : Bool :=
  !(parents.isEmpty && (Internal.ofWord? name).isSome)

/-- The commands in a directory to which some names lead, in order of names. -/
def childrenIn (config : Config) (files : FileTree) (parents : List Text) (directory : Path) :
    List Node :=
  (((entries files directory).filter (isReachable parents)).filterMap fun name =>
    (find config files ((parents ++ [name]).map .text)).toOption).mergeSort (notAfter config)

/-- The nodes to which one further word may lead. -/
def children (config : Config) (files : FileTree) : Node → List Node
  | topLevel =>
    childrenIn config files [] config.libexec ++
      Internal.listed.map fun command => .internal command []
  | directory names path => childrenIn config files names path
  | internal _ _ | file _ => []

end Node

end CommandTree
