import CommandTree.Node.Run
import CommandTree.Proofs.Node.Listing
import CommandTree.Proofs.Script.Loading

/-!
# The help of a directory of commands

The help of a directory, or of the top level, says what its README says and lists its commands.  Two things
are read for it that may be broken: the README, and for each command the block from which its summary is
taken.  Only the first is a failure (`Docs.ReadmeFails`).  A command of which no summary can be read is listed
by its name alone (`Node.Row`), and since each row is made from its own command, whatever is wrong with one
leaves the rows of all others as they are.

Files and links are described here by what the file system answers and by what `Block.read` makes of the
content; `Docs.readme_iff` and `Node.summarizes_iff` tie this to the functions that read them.
`Node.help_group` puts the help together.
-/

namespace CommandTree

/-! ## What a README says -/

namespace Docs

variable {files : FileTree} {path : Path} {docs : Docs} {failure : Failure}

/-- What the comment block of the file at a path says. -/
inductive Documents (files : FileTree) (path : Path) : Docs → Prop where
  | intro {mode : Nat} {content : List UInt8} {lines : List Text}
      (file : files.stat path = .ok (.file mode content)) (decoded : Block.read content = .ok lines) :
      Documents files path (ofLines lines)

/-- What the README at a path says; nothing where there is none or it is no file. -/
inductive Readme (files : FileTree) (path : Path) : Docs → Prop where
  | absent {reason : Errno} (nothing : files.stat path = .error reason) (absence : reason.isAbsence = true) :
      Readme files path none
  | noFile {found : FileTree.Node} (present : files.stat path = .ok found) (other : found.isFile = false) :
      Readme files path none
  | read {docs : Docs} (block : Documents files path docs) : Readme files path docs

/-- Why a README cannot be read: the file system refuses it, or a line of its block is not UTF-8. -/
inductive ReadmeFails (files : FileTree) (path : Path) : Failure → Prop where
  | refused {reason : Errno} (refused : files.stat path = .error reason) (presence : reason.isAbsence = false) :
      ReadmeFails files path (.refusal reason)
  | undecodable {mode line : Nat} {content : List UInt8} (file : files.stat path = .ok (.file mode content))
      (broken : Block.read content = .error line) :
      ReadmeFails files path (.cause (.undecodableLine path line))

theorem read_of_stat {mode : Nat} {content : List UInt8} (h : files.stat path = .ok (.file mode content)) :
    files.read path = .ok content := by
  rw [FileTree.read, h]

theorem ofFile_eq_error {content : List UInt8} {line : Nat} (hread : files.read path = .ok content)
    (hline : Block.read content = .error line) : ofFile files path = .error (.cause (.undecodableLine path line)) := by
  simp [ofFile, blockAt, hread, hline, Except.map]

theorem documents_iff : ofFile files path = .ok docs ↔ Documents files path docs := by
  constructor
  · intro h
    cases hstat : files.stat path with
    | error reason => cases reason <;> simp [ofFile, blockAt, FileTree.read, hstat, Except.map] at h
    | ok found =>
      cases found with
      | link target => simp [ofFile, blockAt, FileTree.read, hstat, Except.map] at h
      | directory entries => simp [ofFile, blockAt, FileTree.read, hstat, Except.map] at h
      | file mode content =>
        cases hlines : Block.read content with
        | error line => cases (ofFile_eq_error (read_of_stat hstat) hlines).symm.trans h
        | ok lines =>
          cases (ofFile_eq_ok (read_of_stat hstat) hlines).symm.trans h
          exact .intro hstat hlines
  · rintro ⟨hstat, hlines⟩
    exact ofFile_eq_ok (read_of_stat hstat) hlines

theorem Readme.ofFileIfAny_eq (h : Readme files path docs) : ofFileIfAny files path = .ok docs := by
  cases h with
  | absent nothing absence => simp [ofFileIfAny, FileTree.holdsAt, nothing, absence]
  | noFile present other => simp [ofFileIfAny, FileTree.holdsAt, present, other]
  | read block =>
    have hfile := documents_iff.mpr block
    obtain ⟨hstat, -⟩ := block
    rw [ofFileIfAny, FileTree.holdsAt, hstat]
    exact hfile

theorem ReadmeFails.ofFileIfAny_eq (h : ReadmeFails files path failure) :
    ofFileIfAny files path = .error failure := by
  cases h with
  | refused refused presence => simp [ofFileIfAny, FileTree.holdsAt, refused, presence]
  | undecodable file broken =>
    rw [ofFileIfAny, FileTree.holdsAt, file]
    exact ofFile_eq_error (read_of_stat file) broken

/-- A README says something, be it nothing, or cannot be read. -/
theorem readme_or_fails (files : FileTree) (path : Path) :
    (∃ docs, Readme files path docs) ∨ ∃ failure, ReadmeFails files path failure := by
  cases hstat : files.stat path with
  | error reason =>
    cases habsence : reason.isAbsence with
    | true => exact .inl ⟨_, .absent hstat habsence⟩
    | false => exact .inr ⟨_, .refused hstat habsence⟩
  | ok found =>
    cases found with
    | link target => exact .inl ⟨_, .noFile hstat rfl⟩
    | directory entries => exact .inl ⟨_, .noFile hstat rfl⟩
    | file mode content =>
      cases hread : Block.read content with
      | error line => exact .inr ⟨_, .undecodable hstat hread⟩
      | ok lines => exact .inl ⟨_, .read (.intro hstat hread)⟩

theorem readme_iff : ofFileIfAny files path = .ok docs ↔ Readme files path docs := by
  constructor
  · intro h
    rcases readme_or_fails files path with ⟨other, hreadme⟩ | ⟨failure, hfails⟩
    · rw [hreadme.ofFileIfAny_eq] at h
      cases h
      exact hreadme
    · cases hfails.ofFileIfAny_eq.symm.trans h
  · exact Readme.ofFileIfAny_eq

end Docs

namespace Node

open Docs (Documents Readme ReadmeFails)

variable {config : Config} {files : FileTree} {node child : Node} {directory : Path} {summary : Text}
  {docs : Docs} {failure : Failure}

/-! ## Summaries -/

/-- What the summary of a command is in a list, if it has one that can be read and is not empty. -/
inductive Summarizes (config : Config) (files : FileTree) : Node → Text → Prop where
  | internal (command : Internal) (args : List Datum) :
      Summarizes config files (.internal command args) command.summary
  | script {script : ScriptFile} {docs : Docs} {summary : Text} (block : Documents files script.path docs)
      (given : docs.summary = some summary) (nonempty : summary ≠ []) :
      Summarizes config files (.file script) summary
  | group {node : Node} {directory : Path} {docs : Docs} {summary : Text}
      (lies : node.directory? config = some directory) (guide : Readme files (directory.child readme) docs)
      (given : docs.summary = some summary) (nonempty : summary ≠ []) :
      Summarizes config files node summary

theorem about_group (hdirectory : node.directory? config = some directory) :
    node.about config files = (Docs.ofFileIfAny files (directory.child readme)).map About.ofDocs := by
  cases node with
  | topLevel =>
    cases hdirectory
    rfl
  | directory names path =>
    cases hdirectory
    rfl
  | internal command args => cases hdirectory
  | file script => cases hdirectory

/-- The summary of a node about which documentation is read. -/
theorem listedSummary_of_about {documentation : Except Failure Docs}
    (h : node.about config files = documentation.map About.ofDocs) :
    listedSummary config files node = summary ∧ summary ≠ [] ↔
      ∃ docs, documentation = .ok docs ∧ docs.summary = some summary ∧ summary ≠ [] := by
  rw [listedSummary, h]
  cases documentation with
  | error failure =>
    simp only [Except.map, reduceCtorEq, false_and, exists_false, iff_false, not_and, not_not]
    exact Eq.symm
  | ok docs =>
    simp only [Except.map, About.ofDocs, Except.ok.injEq, exists_eq_left']
    cases hsummary : docs.summary with
    | none =>
      simp only [Option.getD_none, reduceCtorEq, false_and, iff_false, not_and, not_not]
      exact Eq.symm
    | some text => simp

theorem summarizes_iff :
    Summarizes config files node summary ↔ listedSummary config files node = summary ∧ summary ≠ [] := by
  constructor
  · intro h
    cases h with
    | internal command args => exact ⟨rfl, by cases command <;> decide⟩
    | script block given nonempty =>
      rw [listedSummary_of_about rfl]
      exact ⟨_, Docs.documents_iff.mpr block, given, nonempty⟩
    | group lies guide given nonempty =>
      rw [listedSummary_of_about (about_group lies)]
      exact ⟨_, guide.ofFileIfAny_eq, given, nonempty⟩
  · intro h
    cases node with
    | topLevel =>
      obtain ⟨docs, hdocs, hgiven, hne⟩ := (listedSummary_of_about (about_group rfl)).mp h
      exact .group rfl (Docs.readme_iff.mp hdocs) hgiven hne
    | directory names path =>
      obtain ⟨docs, hdocs, hgiven, hne⟩ := (listedSummary_of_about (about_group rfl)).mp h
      exact .group rfl (Docs.readme_iff.mp hdocs) hgiven hne
    | file script =>
      obtain ⟨docs, hdocs, hgiven, hne⟩ := (listedSummary_of_about rfl).mp h
      exact .script (Docs.documents_iff.mp hdocs) hgiven hne
    | internal command args =>
      obtain ⟨rfl, -⟩ := h
      exact .internal command args

/-! ## Lists -/

/-- The row of a command in a list: its name, and from a column on its summary if it has one. -/
inductive Row (config : Config) (files : FileTree) (column : Nat) (child : Node) : Styled → Prop where
  | summarized {summary : Text} (summarizes : Summarizes config files child summary) :
      Row config files column child (Styled.bare "\n    " ++
        Styled.span labelStyle ((child.name config).padTo column) ++ Styled.bare summary)
  | alone (unsummarized : ∀ summary, ¬Summarizes config files child summary) :
      Row config files column child (Styled.bare "\n    " ++ Styled.span labelStyle (child.name config))

theorem row_listLine (column : Nat) (child : Node) :
    Row config files column child (listLine config files column child) := by
  unfold listLine
  split
  · rename_i hnone
    refine .alone fun summary hsummary => ?_
    obtain ⟨heq, hne⟩ := summarizes_iff.mp hsummary
    exact hne (heq.symm.trans hnone)
  · rename_i hsome
    exact .summarized (summarizes_iff.mpr ⟨rfl, hsome⟩)

/-- The list of the commands of a node, with a row for each of its children, in their order, and the pointer
to their help; there is none where there are no children. -/
inductive ListsChildren (config : Config) (files : FileTree) (node : Node) : List Styled → Prop where
  | childless (empty : node.children config files = []) : ListsChildren config files node []
  | listed {column : Nat} {rows : List Styled} (nonempty : node.children config files ≠ [])
      (wide : ∀ child ∈ node.children config files, (child.name config).length + listGap ≤ column)
      (each : List.Forall₂ (Row config files column) (node.children config files) rows) :
      ListsChildren config files node
        [Styled.bare "Available subcommands:" ++ rows.flatten, Styled.span footerStyle (node.listFooter config)]

theorem le_foldl_max (lengths : List Nat) (start : Nat) :
    start ≤ lengths.foldl max start ∧ ∀ n ∈ lengths, n ≤ lengths.foldl max start := by
  induction lengths generalizing start with
  | nil => exact ⟨le_rfl, nofun⟩
  | cons n lengths ih =>
    obtain ⟨hstart, hrest⟩ := ih (max start n)
    exact ⟨(le_max_left start n).trans hstart, List.forall_mem_cons.mpr ⟨(le_max_right start n).trans hstart, hrest⟩⟩

/-- The summaries start to the right of all names. -/
theorem le_summaryColumn {children : List Node} (h : child ∈ children) :
    (child.name config).length + listGap ≤ summaryColumn config children := by
  apply Nat.add_le_add_right
  exact (le_foldl_max _ 0).2 _ (List.mem_map_of_mem h)

theorem listsChildren_listing (config : Config) (files : FileTree) (node : Node) :
    ListsChildren config files node (node.listing config files) := by
  unfold listing
  split
  · rename_i hnone
    exact .childless hnone
  · rename_i hsome
    rw [List.flatMap_def]
    refine .listed hsome (fun child => le_summaryColumn) ?_
    rw [List.forall₂_map_right_iff, List.forall₂_same]
    exact fun child _ => row_listLine _ child

/-! ## The help -/

/-- The help of a group of commands, from its documentation and the list of its commands. -/
def groupHelp (config : Config) (node : Node) (docs : Docs) (list : List Styled) : Styled :=
  Styled.join (Styled.bare "\n\n")
    (node.fixedUsage config groupArguments :: paragraph "bold" (docs.summary.getD []) ++
      paragraph paragraphStyle (docs.description.getD []) ++ list)

theorem help_eq (hdirectory : node.directory? config = some directory) :
    node.help config files = do
      let about ← Action.ofExcept (node.about config files)
      return Styled.join (Styled.bare "\n\n") (node.paragraphs config files groupArguments about) := by
  cases node with
  | topLevel => rfl
  | directory names path => rfl
  | internal command args => cases hdirectory
  | file script => cases hdirectory

theorem invoke_eq_printHelp {host : Host} (hdirectory : node.directory? config = some directory) :
    node.invoke config host = node.printHelp config host := by
  cases node with
  | topLevel => rfl
  | directory names path => rfl
  | internal command args => cases hdirectory
  | file script => cases hdirectory

theorem perform_help_of_readme (hdirectory : node.directory? config = some directory)
    (h : Readme files (directory.child readme) docs) (journal : Journal) :
    (node.help config files).perform journal =
      (.ok (node.groupHelp config docs (node.listing config files)), journal) := by
  rw [help_eq hdirectory, about_group hdirectory, h.ofFileIfAny_eq]
  rfl

theorem perform_help_of_fails (hdirectory : node.directory? config = some directory)
    (h : ReadmeFails files (directory.child readme) failure) (journal : Journal) :
    (node.help config files).perform journal = (.error failure, journal) := by
  rw [help_eq hdirectory, about_group hdirectory, h.ofFileIfAny_eq]
  rfl

/-- The help of a directory, or of the top level, fails exactly if its own README cannot be read, and running
it then prints nothing.  Otherwise running it prints the help, in which each child has a row of its own. -/
theorem help_group (host : Host) (hdirectory : node.directory? config = some directory) (journal : Journal) :
    ((∃ docs, Readme host.files (directory.child readme) docs) ∨
      ∃ failure, ReadmeFails host.files (directory.child readme) failure) ∧
    (∀ docs, Readme host.files (directory.child readme) docs →
      ∃ list, ListsChildren config host.files node list ∧
        (node.help config host.files).perform journal = (.ok (node.groupHelp config docs list), journal) ∧
        (node.invoke config host).perform journal =
          (.ok 0, { journal with
            out := journal.out ++ config.console.print (node.groupHelp config docs list) })) ∧
    ∀ failure, ReadmeFails host.files (directory.child readme) failure →
      (node.help config host.files).perform journal = (.error failure, journal) ∧
      (node.invoke config host).perform journal = (.error failure, journal) := by
  refine ⟨Docs.readme_or_fails _ _, fun docs hreadme => ?_, fun failure hfails => ?_⟩
  · have hhelp := perform_help_of_readme hdirectory hreadme journal
    refine ⟨_, listsChildren_listing config host.files node, hhelp, ?_⟩
    rw [invoke_eq_printHelp hdirectory, printHelp, Action.perform_bind, hhelp]
    rfl
  · have hhelp := perform_help_of_fails hdirectory hfails journal
    refine ⟨hhelp, ?_⟩
    rw [invoke_eq_printHelp hdirectory, printHelp, Action.perform_bind, hhelp]

/-- A tree with a script whose block is not UTF-8 and one with a summary. -/
def mixedFiles : FileTree :=
  (FileTree.empty.write ⟨.root, ["cmd", "libexec", "bad"]⟩ 0o755 [0x23, 0xFF]).write
    ⟨.root, ["cmd", "libexec", "good"]⟩ 0o755 (Text.toBytes "# Summary: Greets")

/-- Such a tree with a README that is not UTF-8 either. -/
def mixedFilesUnreadable : FileTree :=
  mixedFiles.write ⟨.root, ["cmd", "libexec", "README"]⟩ 0o644 [0x23, 0xFF]

theorem help_group_mixed :
    (∃ list, ListsChildren sampleConfig mixedFiles .topLevel list ∧
      (invoke sampleConfig ⟨mixedFiles, [], .root, .root⟩ .topLevel).perform (Journal.start []) =
        (.ok 0, { Journal.start [] with
          out := sampleConfig.console.print (groupHelp sampleConfig .topLevel Docs.none list) })) ∧
    (invoke sampleConfig ⟨mixedFilesUnreadable, [], .root, .root⟩ .topLevel).perform (Journal.start []) =
      (.error (.cause (.undecodableLine (sampleConfig.libexec.child readme) 1)), Journal.start []) := by
  have habsent : Readme mixedFiles (sampleConfig.libexec.child readme) Docs.none :=
    .absent (by cbv) rfl
  have hfails : ReadmeFails mixedFilesUnreadable (sampleConfig.libexec.child readme)
      (.cause (.undecodableLine (sampleConfig.libexec.child readme) 1)) :=
    .undecodable (by cbv) (by cbv)
  have htop : Node.topLevel.directory? sampleConfig = some sampleConfig.libexec := rfl
  have hhelp := (help_group ⟨mixedFiles, [], .root, .root⟩ htop (Journal.start [])).2.1
  have hnone := (help_group ⟨mixedFilesUnreadable, [], .root, .root⟩ htop (Journal.start [])).2.2
  obtain ⟨list, hlist, -, hinvoke⟩ := hhelp _ habsent
  exact ⟨⟨list, hlist, hinvoke⟩, (hnone _ hfails).2⟩

end Node

end CommandTree
