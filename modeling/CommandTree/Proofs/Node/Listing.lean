import CommandTree.Node.Resolve
import CommandTree.Proofs.FileTree.Walk
import CommandTree.Proofs.Text.Order
import Mathlib

/-!
# Listing and finding agree

`Node.children` reads a directory and `Node.resolve` follows words; they share little code.  Here it is
shown that they agree.  The first part describes finding: a node in whose directory commands lie is found
by its own names and by no other words (`find_eq_group`), and one word more is looked up in its
directory (`resolve_snoc_iff`).  The second part describes listing by what one more word leads to
(`mem_childrenIn_iff`).  That every word which leads somewhere is listed is a property of file trees: a
path with one more name leads somewhere only if the directory names the entry (`mem_entries_of_probe`).

`Node.children_listing` puts them together: the children of a node are the nodes to which one more word
leads, each once and in order of words, and after them the internal commands at the top level.

The library is imported whole because `cbv` takes the equations of core functions from it where it runs
the definitions on `sampleFiles`, here and in the modules that follow.
-/

namespace CommandTree

namespace Node

variable {config : Config} {files : FileTree} {node child : Node} {directory : Path} {segment : Text}
  {words : List Datum}

/-- A node of the file system: a directory or a script. -/
inductive IsFound : Node → Prop where
  | directory (names : List Text) (path : Path) : IsFound (.directory names path)
  | file (script : ScriptFile) : IsFound (.file script)

/-- The internal commands that are listed after the children of a node in the file system. -/
def internals : Node → List Node
  | .topLevel => [.internal .help [], .internal .commands []]
  | .internal _ _ | .directory _ _ | .file _ => []

/-- What a segment leads to that names some node. -/
def stepTo : FileTree.Node → Option Step
  | .directory _ => some .directory
  | found => if found.isExecutable then some .script else none

/-- The node to which names lead of which the last is a step from a directory. -/
def Step.nodeAt (names : List Text) (path : Path) : Step → Node
  | .directory => .directory names path
  | .script => .file ⟨names, path, [], none⟩

theorem Step.isFound_nodeAt (names : List Text) (path : Path) (step : Step) : (step.nodeAt names path).IsFound := by
  cases step with
  | directory => exact .directory names path
  | script => exact .file _

theorem Step.names_nodeAt (names : List Text) (path : Path) (step : Step) : (step.nodeAt names path).names = names := by
  cases step <;> rfl

/-! ## Finding -/

theorem probe_eq_ok_iff {step : Step} :
    probe files directory segment = .ok step ↔
      isSegment segment = true ∧
        ∃ found, files.stat (directory.child segment) = .ok found ∧ stepTo found = some step := by
  unfold probe
  split
  · rename_i hsegment
    split
    · rename_i reason hstat
      split <;> simp [hstat]
    · rename_i entries hstat
      simp [hsegment, hstat, stepTo]
    · rename_i found hnot hstat
      have hstep : stepTo found = if found.isExecutable then some .script else none := by
        cases found with
        | directory entries => exact absurd rfl (hnot entries)
        | file mode content => rfl
        | link target => rfl
      split <;> rename_i hexecutable <;> simp [hsegment, hstat, hstep, hexecutable]
  · rename_i hsegment
    simp [hsegment]

/-- The last of the words that are followed leads to what its segment leads to. -/
theorem follow_nil (files : FileTree) (directory : Path) (names : List Text) (segment : Text) :
    follow files directory names segment [] =
      (probe files directory segment).map (Step.nodeAt (names ++ [segment]) (directory.child segment)) := by
  unfold follow
  cases probe files directory segment with
  | error failure => rfl
  | ok step => cases step <;> rfl

theorem follow_nil_eq_ok_iff {names : List Text} :
    follow files directory names segment [] = .ok child ↔ ∃ step, probe files directory segment = .ok step ∧
      child = step.nodeAt (names ++ [segment]) (directory.child segment) := by
  rw [follow_nil]
  cases probe files directory segment with
  | error failure => simp [Except.map]
  | ok step => simp [Except.map, eq_comm]

theorem eq_text_of_segmentOf {word : Datum} (h : segmentOf word = .ok segment) : word = .text segment := by
  unfold segmentOf at h
  split at h
  · cases h
    rfl
  · split at h <;> cases h

/-- The word after the segment of a directory is followed from this directory. -/
theorem follow_of_directory {next : Text} {word : Datum}
    (hprobe : probe files directory segment = .ok .directory) (hnext : segmentOf word = .ok next)
    (names : List Text) (rest : List Datum) :
    follow files directory names segment (word :: rest) =
      follow files (directory.child segment) (names ++ [segment]) next rest := by
  rw [follow, hprobe]
  simp only [hnext]

/-- Words that are followed to a node are followed to a directory or to a script. -/
theorem isFound_of_follow {start : Path} {before : List Text} {rest : List Datum}
    (h : follow files start before segment rest = .ok child) : child.IsFound := by
  induction rest generalizing start before segment with
  | nil =>
    obtain ⟨step, -, rfl⟩ := follow_nil_eq_ok_iff.mp h
    exact step.isFound_nodeAt _ _
  | cons word rest ih =>
    rw [follow] at h
    split at h
    · cases h
    · split at h
      · cases h
      · exact ih h
    · cases h
      exact .file _

/-- Words that are followed to a directory are the names of the directory, and one more word is followed
from there. -/
theorem follow_eq_directory {start path : Path} {before names : List Text} {rest : List Datum}
    (h : follow files start before segment rest = .ok (.directory names path)) :
    names.map Datum.text = before.map .text ++ .text segment :: rest ∧
      (∃ entries, files.stat path = .ok (.directory entries)) ∧
      ∀ next, follow files start before segment (rest ++ [.text next]) = follow files path names next [] := by
  induction rest generalizing start before segment with
  | nil =>
    obtain ⟨step, hprobe, hnode⟩ := follow_nil_eq_ok_iff.mp h
    cases step with
    | script => cases hnode
    | directory =>
      cases hnode
      refine ⟨by simp, ?_, fun next => follow_of_directory hprobe rfl before []⟩
      obtain ⟨-, found, hstat, hstep⟩ := probe_eq_ok_iff.mp hprobe
      cases found with
      | directory entries => exact ⟨entries, hstat⟩
      | file mode content => simp [stepTo] at hstep
      | link target => simp [stepTo] at hstep
  | cons word rest ih =>
    rw [follow] at h
    split at h
    · cases h
    · rename_i hprobe
      split at h
      · cases h
      · rename_i next hnext
        obtain ⟨hnames, hstat, hmore⟩ := ih h
        refine ⟨?_, hstat, fun more => ?_⟩
        · rw [hnames, eq_text_of_segmentOf hnext]
          simp
        · rw [List.cons_append, follow_of_directory hprobe hnext]
          exact hmore more
    · cases h

theorem stat_of_holdsAt (h : files.holdsAt directory FileTree.Node.isDirectory = .ok true) :
    ∃ entries, files.stat directory = .ok (.directory entries) := by
  unfold FileTree.holdsAt at h
  split at h
  · rename_i found hstat
    cases found with
    | directory entries => exact ⟨entries, hstat⟩
    | file mode content => cases h
    | link target => cases h
  · split at h <;> cases h

/-- What is found is found in the directory of scripts, and not by the word of an internal command. -/
theorem resolve_eq_found (h : resolve config files words = .ok node)
    (hdirectory : node.directory? config = some directory) :
    files.holdsAt config.libexec FileTree.Node.isDirectory = .ok true ∧ find config files words = .ok node ∧
      ∀ word ∈ words.head?, internal? word = none := by
  unfold resolve at h
  split at h
  · cases h
  · cases h
  · rename_i hlibexec
    split at h
    · exact ⟨hlibexec, h, fun word hword => nomatch hword⟩
    · split at h
      · cases h
        cases hdirectory
      · rename_i word rest hword
        refine ⟨hlibexec, h, ?_⟩
        rintro word ⟨⟩
        exact hword

/-- A node in whose directory commands lie is found by its own names and by no other words; one word more
is followed from its directory. -/
theorem find_eq_group (h : resolve config files words = .ok node)
    (hdirectory : node.directory? config = some directory) :
    words = node.names.map .text ∧ (∃ entries, files.stat directory = .ok (.directory entries)) ∧
      ∀ next, find config files (words ++ [.text next]) = follow files directory node.names next [] := by
  obtain ⟨hlibexec, hfind, -⟩ := resolve_eq_found h hdirectory
  unfold find at hfind
  split at hfind
  · cases hfind
    cases hdirectory
    exact ⟨rfl, stat_of_holdsAt hlibexec, fun next => rfl⟩
  · rename_i word rest
    split at hfind
    · cases hfind
    · rename_i segment hsegment
      rw [eq_text_of_segmentOf hsegment]
      have hfound : node.IsFound := isFound_of_follow hfind
      cases hfound with
      | file script => cases hdirectory
      | directory names path =>
        cases hdirectory
        obtain ⟨hnames, hstat, hmore⟩ := follow_eq_directory hfind
        exact ⟨hnames.symm, hstat, hmore⟩

theorem resolve_cons (hlibexec : files.holdsAt config.libexec FileTree.Node.isDirectory = .ok true)
    (word : Datum) (rest : List Datum) :
    resolve config files (word :: rest) =
      match internal? word with
      | some command => .ok (.internal command rest)
      | none => find config files (word :: rest) := by
  cases hword : internal? word <;> simp only [resolve, hlibexec, hword]

/-- One word more leads from a node to what it is followed to, except that at the top level the words of
internal commands lead to these. -/
theorem resolve_snoc_iff (h : resolve config files words = .ok node)
    (hdirectory : node.directory? config = some directory) :
    (resolve config files ((node.names ++ [segment]).map .text) = .ok child ∧ child.IsFound) ↔
      isReachable node.names segment = true ∧ follow files directory node.names segment [] = .ok child := by
  obtain ⟨hlibexec, -, hhead⟩ := resolve_eq_found h hdirectory
  obtain ⟨hwords, -, hmore⟩ := find_eq_group h hdirectory
  rw [hwords] at hhead hmore
  have hfound : find config files (node.names.map .text ++ [.text segment]) = .ok child → child.IsFound := by
    rw [hmore]
    exact isFound_of_follow
  rw [← hmore, List.map_append, List.map_singleton]
  cases hnames : node.names with
  | nil =>
    rw [hnames] at hfound
    rw [List.map_nil, List.nil_append] at hfound ⊢
    have hreachable : isReachable [] segment = (internal? (.text segment)).isNone := by
      simp [isReachable, internal?]
    rw [resolve_cons hlibexec, hreachable]
    cases internal? (.text segment) with
    | none => simpa using hfound
    | some command =>
      refine ⟨?_, fun hreach => nomatch hreach.1⟩
      rintro ⟨⟨⟩, hchild⟩
      cases hchild
  | cons first rest =>
    rw [hnames] at hfound hhead
    rw [List.map_cons, List.cons_append] at hfound ⊢
    rw [resolve_cons hlibexec, hhead _ rfl]
    simpa [isReachable] using hfound

/-! ## Listing -/

theorem isSegment_iff :
    isSegment segment = true ↔ segment ≠ [] ∧ isHidden segment = false ∧ Path.slash ∉ segment := by
  simp [isSegment, and_assoc]

/-- A segment that leads somewhere from a directory is the name of an entry which is not hidden. -/
theorem mem_entries_of_probe {step : Step} {listed : List (Text × FileTree.Node)}
    (hdirectory : files.stat directory = .ok (.directory listed))
    (hprobe : probe files directory segment = .ok step) : segment ∈ entries files directory := by
  obtain ⟨hsegment, found, hfound, -⟩ := probe_eq_ok_iff.mp hprobe
  obtain ⟨hne, hhidden, -⟩ := isSegment_iff.mp hsegment
  obtain ⟨here, hhere, hlisted⟩ := FileTree.stat_eq_ok_iff.mp hdirectory
  obtain ⟨location, hlocation, -⟩ := FileTree.stat_eq_ok_iff.mp hfound
  obtain ⟨parent, hparent, -, hopens⟩ :=
    FileTree.leadsTo_child_iff.mp (FileTree.leadsTo_of_locate hlocation)
  obtain rfl : here = parent := (FileTree.leadsTo_of_locate hhere).unique hparent
  have hhere : segment ≠ Path.here := by
    rintro rfl
    exact absurd hhidden (by decide)
  have hup : segment ≠ Path.up := by
    rintro rfl
    exact absurd hhidden (by decide)
  obtain ⟨names, hnames, hmem⟩ := hopens.mem_keys hne hhere hup
  have hsame : names = listed := by
    have hnode : files.node? here = some (.directory names) := hnames
    rw [hlisted] at hnode
    cases hnode
    rfl
  rw [entries, FileTree.list, hdirectory]
  exact List.mem_filter.mpr ⟨hsame ▸ hmem, by simp [hhidden]⟩

/-- The names of a directory that are listed are different. -/
theorem nodup_entries (files : FileTree) (directory : Path) : (entries files directory).Nodup := by
  unfold entries FileTree.list
  cases hstat : files.stat directory with
  | error reason => exact List.nodup_nil
  | ok found =>
    cases found with
    | file mode content => exact List.nodup_nil
    | link target => exact List.nodup_nil
    | directory listed =>
      obtain ⟨location, -, hlisted⟩ := FileTree.stat_eq_ok_iff.mp hstat
      exact (FileTree.nodup_of_node? hlisted).filter _

/-- The children of a node in whose directory commands lie. -/
theorem children_eq_append (hdirectory : node.directory? config = some directory) :
    node.children config files = childrenIn config files node.names directory ++ node.internals := by
  cases node with
  | topLevel =>
    cases hdirectory
    rfl
  | directory names path =>
    cases hdirectory
    exact (List.append_nil _).symm
  | internal command args => cases hdirectory
  | file script => cases hdirectory

/-- A node in whose directory no commands lie has no children. -/
theorem children_eq_nil (hdirectory : node.directory? config = none) : node.children config files = [] := by
  cases node with
  | topLevel => cases hdirectory
  | directory names path => cases hdirectory
  | internal command args => rfl
  | file script => rfl

theorem toOption_eq_some_iff {α : Type} {result : Except Failure α} {value : α} :
    result.toOption = some value ↔ result = .ok value := by
  cases result <;> simp [Except.toOption]

theorem names_of_follow {names : List Text} (h : follow files directory names segment [] = .ok child) :
    child.names = names ++ [segment] := by
  obtain ⟨step, -, rfl⟩ := follow_nil_eq_ok_iff.mp h
  exact step.names_nodeAt _ _

theorem name_of_names (config : Config) {names : List Text} (h : child.names = names ++ [segment]) :
    child.name config = segment := by
  rw [name, h, List.getLast?_concat, Option.getD_some]

section

variable (h : resolve config files words = .ok node) (hdirectory : node.directory? config = some directory)

include h hdirectory

theorem find_snoc (segment : Text) :
    find config files ((node.names ++ [segment]).map .text) = follow files directory node.names segment [] := by
  obtain ⟨hwords, -, hmore⟩ := find_eq_group h hdirectory
  rw [List.map_append, ← hwords]
  exact hmore segment

theorem mem_childrenIn_iff :
    child ∈ childrenIn config files node.names directory ↔
      ∃ segment, resolve config files ((node.names ++ [segment]).map .text) = .ok child ∧ child.IsFound := by
  obtain ⟨-, ⟨listed, hstat⟩, -⟩ := find_eq_group h hdirectory
  have hlisted : ∀ segment, follow files directory node.names segment [] = .ok child →
      segment ∈ entries files directory := by
    intro segment hfollow
    obtain ⟨step, hprobe, -⟩ := follow_nil_eq_ok_iff.mp hfollow
    exact mem_entries_of_probe hstat hprobe
  simp only [childrenIn, List.mem_mergeSort, List.mem_filterMap, List.mem_filter, find_snoc h hdirectory,
    resolve_snoc_iff h hdirectory, toOption_eq_some_iff]
  constructor
  · rintro ⟨segment, ⟨-, hreachable⟩, hchild⟩
    exact ⟨segment, hreachable, hchild⟩
  · rintro ⟨segment, hreachable, hchild⟩
    exact ⟨segment, ⟨hlisted segment hchild, hreachable⟩, hchild⟩

/-- The children in a directory are sorted by name, and have different names. -/
theorem pairwise_childrenIn :
    (childrenIn config files node.names directory).Pairwise fun a b =>
      (a.name config).codes < (b.name config).codes := by
  have hle : ∀ a b, notAfter config a b = true ↔ (a.name config).codes ≤ (b.name config).codes :=
    fun a b => Text.not_before_iff
  have htrans : ∀ a b c, notAfter config a b = true → notAfter config b c = true →
      notAfter config a c = true := by
    intro a b c hab hbc
    rw [hle] at hab hbc ⊢
    exact hab.trans hbc
  have htotal : ∀ a b, (notAfter config a b || notAfter config b a) = true := by
    intro a b
    rw [Bool.or_eq_true, hle, hle]
    exact le_total _ _
  have hsorted := List.pairwise_mergeSort htrans htotal
    (((entries files directory).filter (isReachable node.names)).filterMap fun segment =>
      (find config files ((node.names ++ [segment]).map .text)).toOption)
  have hdifferent : (childrenIn config files node.names directory).Pairwise fun a b =>
      a.name config ≠ b.name config := by
    rw [childrenIn, (List.mergeSort_perm _ _).pairwise_iff Ne.symm, List.pairwise_filterMap]
    refine ((nodup_entries files directory).filter _).imp ?_
    intro a b hab child hchild other hother
    rw [toOption_eq_some_iff, find_snoc h hdirectory] at hchild hother
    rw [name_of_names config (names_of_follow hchild), name_of_names config (names_of_follow hother)]
    exact hab
  refine (hsorted.and hdifferent).imp ?_
  rintro a b ⟨hab, hne⟩
  exact lt_of_le_of_ne ((hle a b).mp hab) fun hcodes => hne (Text.codes_injective hcodes)

end

/-- What the children of a node are: the nodes to which one more word leads, in strictly increasing order
of these words, and after them the internal commands that are listed. -/
structure Lists (config : Config) (files : FileTree) (node : Node) (listed : List (Text × Node)) : Prop where
  children_eq : node.children config files = listed.map Prod.snd ++ node.internals
  increasing : listed.Pairwise fun a b => a.1.codes < b.1.codes
  mem_iff : ∀ segment child, (segment, child) ∈ listed ↔
    resolve config files ((node.names ++ [segment]).map .text) = .ok child ∧ child.IsFound

/-- Listing and finding agree: the children of a node in whose directory commands lie are the directories
and scripts to which one more word leads, each once and in increasing order of words.  At the top level
the listed internal commands follow. -/
theorem children_listing (h : resolve config files words = .ok node)
    (hgroup : (node.directory? config).isSome) : ∃ listed, Lists config files node listed := by
  obtain ⟨directory, hdirectory⟩ := Option.isSome_iff_exists.mp hgroup
  have hname : ∀ segment child, resolve config files ((node.names ++ [segment]).map .text) = .ok child →
      child.IsFound → child.name config = segment := by
    intro segment child hchild hfound
    obtain ⟨-, hfollow⟩ := (resolve_snoc_iff h hdirectory).mp ⟨hchild, hfound⟩
    exact name_of_names config (names_of_follow hfollow)
  refine ⟨(childrenIn config files node.names directory).map fun child => (child.name config, child), ?_, ?_, ?_⟩
  · rw [children_eq_append hdirectory, List.map_map]
    exact congrArg (· ++ _) (List.map_id _).symm
  · rw [List.pairwise_map]
    exact pairwise_childrenIn h hdirectory
  · intro segment child
    simp only [List.mem_map, Prod.mk.injEq, mem_childrenIn_iff h hdirectory]
    constructor
    · rintro ⟨child, ⟨segment, hchild, hfound⟩, rfl, rfl⟩
      rw [hname segment child hchild hfound]
      exact ⟨hchild, hfound⟩
    · rintro ⟨hchild, hfound⟩
      exact ⟨child, ⟨segment, hchild, hfound⟩, hname segment child hchild hfound, rfl⟩

/-- A configuration with the scripts below `/cmd/libexec`. -/
def sampleConfig : Config :=
  ⟨"cmd", ⟨.root, ["cmd"]⟩, ⟨.root, ["cache"]⟩, .auto, false, by decide⟩

/-- A tree with a script in a directory and a link to the directory. -/
def sampleFiles : FileTree :=
  (FileTree.empty.write ⟨.root, ["cmd", "libexec", "tools", "copy"]⟩ 0o755 []).makeLink
    ⟨.root, ["cmd", "libexec", "also"]⟩ "tools"

theorem children_listing_sample :
    (∃ listed, Lists sampleConfig sampleFiles .topLevel listed) ∧
      ∃ listed, Lists sampleConfig sampleFiles
        (.directory ["also"] ⟨.root, ["cmd", "libexec", "also"]⟩) listed :=
  have htop : resolve sampleConfig sampleFiles [] = .ok .topLevel := by cbv
  have halso : resolve sampleConfig sampleFiles [.text "also"] =
      .ok (.directory ["also"] ⟨.root, ["cmd", "libexec", "also"]⟩) := by cbv
  ⟨children_listing htop rfl, children_listing halso rfl⟩

end Node

end CommandTree
