import CommandTree.Node.Validate
import CommandTree.Proofs.Node.Listing
import Mathlib.Order.Filter.Finite

/-!
# Nodes of a tree without a limit on links

How many links a path may pass through is a number of the file tree, and a chain of commands can be longer
than any number allows.  What holds without a limit is written here as what holds for every limit from some
limit on, `∀ᶠ limit in atTop`.

A node is *known* if it is found by its own names (`Node.Known`), and then its children are
(`Known.of_hasChild`).  The children of a known node do not depend on the limit, once it is high enough
(`Known.eventually_children`), and they depend on the location of its directory and not on the path by which
the directory was reached (`Known.hasChild_iff`, `Tells.congr`).
-/

namespace CommandTree

namespace Node

open Filter

variable {config : Config} {tree : FileTree} {node child : Node} {directory : Path} {segment : Text}
  {location : List Text}

/-- A step from a directory is named by a segment, however many links lie on the way. -/
def Tells (tree : FileTree) (directory : Path) (segment : Text) (step : Step) : Prop :=
  isSegment segment = true ∧
    ∃ found, tree.Finds (directory.child segment) found ∧ stepTo found = some step

/-- A node is found by its own names. -/
def Known (config : Config) (tree : FileTree) (node : Node) : Prop :=
  ∀ᶠ limit in atTop, resolve config (tree.withLimit limit) (node.names.map .text) = .ok node

/-- A node is among the children of another. -/
def HasChild (config : Config) (tree : FileTree) (node child : Node) : Prop :=
  ∀ᶠ limit in atTop, child ∈ node.children config (tree.withLimit limit)

/-- The commands of a node lie in the directory at a location. -/
def Lies (config : Config) (tree : FileTree) (node : Node) (location : List Text) : Prop :=
  ∃ directory, node.directory? config = some directory ∧ tree.LeadsTo directory location ∧
    ∃ entries, tree.node? location = some (.directory entries)

/-! ## Steps -/

theorem tells_of_probe {limit : Nat} {step : Step}
    (h : probe (tree.withLimit limit) directory segment = .ok step) : Tells tree directory segment step := by
  obtain ⟨hsegment, found, hstat, hstep⟩ := probe_eq_ok_iff.mp h
  have hfound : (tree.withLimit limit).Finds (directory.child segment) found := FileTree.finds_of_stat hstat
  exact ⟨hsegment, found, hfound, hstep⟩

namespace Tells

variable {step : Step}

theorem eventually_probe (h : Tells tree directory segment step) :
    ∀ᶠ limit in atTop, probe (tree.withLimit limit) directory segment = .ok step := by
  obtain ⟨hsegment, found, hfound, hstep⟩ := h
  filter_upwards [hfound.eventually_stat] with limit hstat
  exact probe_eq_ok_iff.mpr ⟨hsegment, found, hstat, hstep⟩

/-- What a segment names in a directory does not depend on the path of the directory. -/
theorem congr {other : Path} (h : tree.LeadsTo directory location) (hother : tree.LeadsTo other location) :
    Tells tree directory segment step ↔ Tells tree other segment step := by
  simp only [Tells, FileTree.Finds.child_iff h hother]

theorem unique {other : Step} (h : Tells tree directory segment step)
    (hother : Tells tree directory segment other) : step = other := by
  obtain ⟨-, found, hfound, hstep⟩ := h
  obtain ⟨-, found', hfound', hstep'⟩ := hother
  rw [hfound.unique hfound', hstep'] at hstep
  exact (Option.some.inj hstep).symm

end Tells

/-! ## Children -/

/-- The children of a node in whose directory commands lie, as what segments name in the directory. -/
theorem mem_children_iff_probe (h : resolve config tree (node.names.map .text) = .ok node)
    (hdirectory : node.directory? config = some directory) :
    child ∈ node.children config tree ↔
      child ∈ node.internals ∨ ∃ segment step, isReachable node.names segment = true ∧
        probe tree directory segment = .ok step ∧
          child = step.nodeAt (node.names ++ [segment]) (directory.child segment) := by
  simp only [children_eq_append hdirectory, List.mem_append, mem_childrenIn_iff h hdirectory,
    resolve_snoc_iff h hdirectory, follow_nil_eq_ok_iff, ← exists_and_left]
  exact or_comm

/-- The children of a node that is found by its own names are found by theirs. -/
theorem resolve_of_mem_children (h : resolve config tree (node.names.map .text) = .ok node)
    (hchild : child ∈ node.children config tree) :
    resolve config tree (child.names.map .text) = .ok child := by
  cases hdirectory : node.directory? config with
  | none =>
    rw [children_eq_nil hdirectory] at hchild
    cases hchild
  | some directory =>
    rw [children_eq_append hdirectory, List.mem_append] at hchild
    rcases hchild with hfound | hinternal
    · obtain ⟨segment, hsegment⟩ := (mem_childrenIn_iff h hdirectory).mp hfound
      have hnames := names_of_follow ((resolve_snoc_iff h hdirectory).mp hsegment).2
      rw [hnames]
      exact hsegment.1
    · obtain ⟨hlibexec, -, -⟩ := resolve_eq_found h hdirectory
      cases node with
      | topLevel =>
        rcases List.mem_pair.mp hinternal with rfl | rfl
        · exact resolve_cons hlibexec _ _
        · exact resolve_cons hlibexec _ _
      | internal command args => cases hinternal
      | directory names path => cases hinternal
      | file script => cases hinternal

theorem Lies.unique {other : List Text} (h : Lies config tree node location)
    (hother : Lies config tree node other) : location = other := by
  obtain ⟨directory, hdirectory, hleads, -⟩ := h
  obtain ⟨directory', hdirectory', hleads', -⟩ := hother
  rw [hdirectory] at hdirectory'
  cases hdirectory'
  exact hleads.unique hleads'

theorem Lies.eventually_location (h : Lies config tree node location) :
    ∀ᶠ limit in atTop, node.location? config (tree.withLimit limit) = some location := by
  obtain ⟨directory, hdirectory, hleads, entries, hentries⟩ := h
  filter_upwards [hleads.eventually_locate] with limit hlocate
  have hnode : (tree.withLimit limit).node? location = some (.directory entries) := hentries
  rw [location?, hdirectory, Option.bind_some, FileTree.directory?, hlocate]
  simp only [hnode]

theorem Lies.mem_directories (h : Lies config tree node location) : location ∈ tree.directories := by
  obtain ⟨limit, hlimit⟩ := h.eventually_location.exists
  have hmem : location ∈ (tree.withLimit limit).directories := mem_directories_of_location? hlimit
  exact hmem

namespace Known

theorem of_hasChild (h : Known config tree node) (hchild : HasChild config tree node child) :
    Known config tree child := by
  filter_upwards [h, hchild] with limit hnode hmem
  exact resolve_of_mem_children hnode hmem

theorem exists_lies (h : Known config tree node) (hdirectory : node.directory? config = some directory) :
    ∃ location, Lies config tree node location := by
  obtain ⟨limit, hlimit⟩ := h.exists
  obtain ⟨-, ⟨entries, hstat⟩, -⟩ := find_eq_group hlimit hdirectory
  obtain ⟨location, hleads, hentries⟩ := FileTree.finds_of_stat hstat
  exact ⟨location, directory, hdirectory, hleads, entries, hentries⟩

/-- The children of a known node, as what segments name in its directory. -/
theorem hasChild_iff (h : Known config tree node) (hdirectory : node.directory? config = some directory) :
    HasChild config tree node child ↔
      child ∈ node.internals ∨ ∃ segment step, isReachable node.names segment = true ∧
        Tells tree directory segment step ∧
          child = step.nodeAt (node.names ++ [segment]) (directory.child segment) := by
  constructor
  · intro hchild
    obtain ⟨limit, hnode, hmem⟩ := (h.and hchild).exists
    rcases (mem_children_iff_probe hnode hdirectory).mp hmem with
      hinternal | ⟨segment, step, hreachable, hprobe, hsame⟩
    · exact .inl hinternal
    · exact .inr ⟨segment, step, hreachable, tells_of_probe hprobe, hsame⟩
  · rintro (hinternal | ⟨segment, step, hreachable, htells, hsame⟩)
    · filter_upwards [h] with limit hnode
      exact (mem_children_iff_probe hnode hdirectory).mpr (.inl hinternal)
    · filter_upwards [h, htells.eventually_probe] with limit hnode hprobe
      exact (mem_children_iff_probe hnode hdirectory).mpr (.inr ⟨segment, step, hreachable, hprobe, hsame⟩)

/-- One further word leads from a known node to the same whatever the limit is, once it is high enough. -/
theorem eventually_find (h : Known config tree node) (hdirectory : node.directory? config = some directory)
    (segment : Text) :
    ∃ found, ∀ᶠ limit in atTop,
      (find config (tree.withLimit limit) ((node.names ++ [segment]).map .text)).toOption = found := by
  by_cases hstep : ∃ step, Tells tree directory segment step
  · obtain ⟨step, htells⟩ := hstep
    refine ⟨some (step.nodeAt (node.names ++ [segment]) (directory.child segment)), ?_⟩
    filter_upwards [h, htells.eventually_probe] with limit hnode hprobe
    rw [find_snoc hnode hdirectory, follow_nil, hprobe]
    rfl
  · refine ⟨none, ?_⟩
    filter_upwards [h] with limit hnode
    rw [find_snoc hnode hdirectory, follow_nil]
    cases hprobe : probe (tree.withLimit limit) directory segment with
    | error failure => rfl
    | ok step => exact absurd ⟨step, tells_of_probe hprobe⟩ hstep

theorem eventually_entries (h : Known config tree node) (hdirectory : node.directory? config = some directory) :
    ∃ names, ∀ᶠ limit in atTop, entries (tree.withLimit limit) directory = names := by
  obtain ⟨location, directory', hdirectory', hleads, listed, hlisted⟩ := h.exists_lies hdirectory
  rw [hdirectory] at hdirectory'
  cases hdirectory'
  have hfinds : tree.Finds directory (.directory listed) := ⟨location, hleads, hlisted⟩
  refine ⟨(listed.map Prod.fst).filter fun name => !isHidden name, ?_⟩
  filter_upwards [hfinds.eventually_stat] with limit hstat
  rw [entries, FileTree.list, hstat]

/-- The children of a known node are the same whatever the limit is, once it is high enough. -/
theorem eventually_children (h : Known config tree node) :
    ∃ kids, ∀ᶠ limit in atTop, node.children config (tree.withLimit limit) = kids := by
  cases hdirectory : node.directory? config with
  | none => exact ⟨[], .of_forall fun limit => children_eq_nil hdirectory⟩
  | some directory =>
    obtain ⟨names, hnames⟩ := h.eventually_entries hdirectory
    choose found hfound using h.eventually_find hdirectory
    -- finitely many names are listed, so that one limit is high enough for all of them
    have hall : ∀ᶠ limit in atTop, ∀ segment ∈ names,
        (find config (tree.withLimit limit) ((node.names ++ [segment]).map .text)).toOption = found segment :=
      (eventually_all_finite names.finite_toSet).mpr fun segment _ => hfound segment
    refine ⟨((names.filter (isReachable node.names)).filterMap found).mergeSort (notAfter config) ++
      node.internals, ?_⟩
    filter_upwards [hnames, hall] with limit hentries hsame
    rw [children_eq_append hdirectory, childrenIn, hentries]
    congr 2
    apply List.filterMap_congr
    intro segment hsegment
    exact hsame segment (List.mem_filter.mp hsegment).1

end Known

end Node

end CommandTree
