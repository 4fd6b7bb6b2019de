import CommandTree.FileTree.Directories
import Mathlib.Order.Filter.AtTopBot.Basic

/-!
# Where paths lead

`Node.Leads` says where names lead from a location, as a relation that counts no links.  It is what
`FileTree.walk` finds, given enough links (`leads_of_walk`, `Node.Leads.walk_eq_ok`): a walk fails for want
of links or finds the same location whatever their number is.  So `FileTree.LeadsTo`, the location of a
path, is that of `FileTree.locate` for every limit from some limit on (`LeadsTo.eventually_locate`), which is
how a statement is written here that assumes no limit on links.

A path may be followed in two pieces (`Node.Leads.split`, `Node.Leads.append`); the location of an entry is therefore
determined by that of its directory and its name, by whatever path the directory was reached
(`leadsTo_child_iff`).
-/

namespace CommandTree

namespace FileTree

open Filter

variable {tree : FileTree} {top : Node} {here rest location : List Text} {name : Text} {path : Path}

/-- Whether a name is looked up among the entries of a directory. -/
structure IsLookedUp (name : Text) : Prop where
  ne_nil : name ≠ []
  ne_here : name ≠ Path.here
  ne_up : name ≠ Path.up
  length_le : name.toBytes.length ≤ nameLimit

theorem Node.descend_append_iff {found : Node} :
    top.descend (here ++ rest) = some found ↔
      ∃ middle, top.descend here = some middle ∧ middle.descend rest = some found := by
  induction here generalizing top with
  | nil => simp [descend]
  | cons first here ih =>
    cases top with
    | file mode content => simp [descend]
    | link target => simp [descend]
    | directory entries => cases hfirst : List.lookup first entries <;> simp [descend, hfirst, ih]

theorem Node.descend_append_singleton_iff {found : Node} :
    top.descend (here ++ [name]) = some found ↔
      ∃ entries, top.descend here = some (.directory entries) ∧ List.lookup name entries = some found := by
  rw [descend_append_iff]
  constructor
  · rintro ⟨middle, hmiddle, hfound⟩
    cases middle with
    | file mode content => cases hfound
    | link target => cases hfound
    | directory entries =>
      cases hname : List.lookup name entries with
      | none => simp [descend, hname] at hfound
      | some child => exact ⟨entries, hmiddle, by simpa [descend, hname] using hfound⟩
  · rintro ⟨entries, hinside, hfound⟩
    exact ⟨_, hinside, by simp [descend, hfound]⟩

theorem Node.descend_dropLast {entries : List (Text × Node)}
    (h : top.descend here = some (.directory entries)) :
    ∃ entries, top.descend here.dropLast = some (.directory entries) := by
  rcases List.eq_nil_or_concat here with rfl | ⟨above, name, rfl⟩
  · exact ⟨entries, h⟩
  · obtain ⟨entries, habove, -⟩ := descend_append_singleton_iff.mp (List.concat_eq_append ▸ h)
    exact ⟨entries, by simpa using habove⟩

/-- Where the target of a link starts that is met at a location. -/
def startOf (here : List Text) (target : Text) : List Text :=
  if (Path.ofText target).isAbsolute then [] else here

/-- What following one name does, below the node at the root: where it goes on, and the names that are
followed before those that are left. -/
inductive Node.Turns (top : Node) (here : List Text) : (name : Text) → (next pushed : List Text) → Prop where
  | stay {name : Text} {entries : List (Text × Node)}
      (inside : top.descend here = some (.directory entries)) (dot : name = [] ∨ name = Path.here) :
      Turns top here name here []
  | up {entries : List (Text × Node)} (inside : top.descend here = some (.directory entries)) :
      Turns top here Path.up here.dropLast []
  | link {name target : Text} {entries : List (Text × Node)}
      (inside : top.descend here = some (.directory entries)) (named : IsLookedUp name)
      (found : List.lookup name entries = some (.link target)) :
      Turns top here name (startOf here target) (Text.splitAt Path.slash target)
  | enter {name : Text} {entries : List (Text × Node)} {node : Node}
      (inside : top.descend here = some (.directory entries)) (named : IsLookedUp name)
      (found : List.lookup name entries = some node) (notLink : ∀ target, node ≠ .link target) :
      Turns top here name (here ++ [name]) []

/-- Names lead from one location to another, below the node at the root. -/
inductive Node.Leads (top : Node) : (here rest location : List Text) → Prop where
  | done (here : List Text) : Leads top here [] here
  | turn {here next pushed rest location : List Text} {name : Text}
      (first : top.Turns here name next pushed) (onward : Leads top next (pushed ++ rest) location) :
      Leads top here (name :: rest) location

/-- What a walk finds is where its names lead. -/
theorem leads_of_walk {links : Nat} (h : tree.walk links here rest = .ok location) :
    tree.top.Leads here rest location := by
  fun_induction walk tree links here rest with
  | case1 links here =>
    cases h
    exact .done _
  | case2 links here name rest entries hinside hdot ih => exact .turn (.stay hinside hdot) (ih h)
  | case3 links here rest entries hinside hdot ih => exact .turn (.up hinside) (ih h)
  | case4 => cases h
  | case5 => cases h
  | case6 => cases h
  | case7 here name rest entries hinside hdot hup hlength target hfound links ih =>
    rw [not_or] at hdot
    exact .turn (.link hinside ⟨hdot.1, hdot.2, hup, not_lt.mp hlength⟩ hfound) (ih h)
  | case8 links here name rest entries hinside hdot hup hlength node hnotLink hfound ih =>
    rw [not_or] at hdot
    exact .turn (.enter hinside ⟨hdot.1, hdot.2, hup, not_lt.mp hlength⟩ hfound hnotLink) (ih h)
  | case9 => cases h

/-- An entry that is no link needs none. -/
theorem walk_entry {entries : List (Text × Node)} {node : Node} (inside : tree.node? here = some (.directory entries))
    (named : IsLookedUp name) (found : List.lookup name entries = some node)
    (notLink : ∀ target, node ≠ .link target) (links : Nat) (rest : List Text) :
    tree.walk links here (name :: rest) = tree.walk links (here ++ [name]) rest := by
  have hdot : ¬(name = [] ∨ name = Path.here) := not_or.mpr ⟨named.ne_nil, named.ne_here⟩
  simp only [walk, inside, if_neg hdot, if_neg named.ne_up, if_neg (not_lt.mpr named.length_le), found]

/-- A walk follows the first of its names and needs at most one link for it. -/
theorem Node.Turns.walk_cons {next pushed : List Text} (h : tree.top.Turns here name next pushed)
    (links : Nat) (rest : List Text) :
    ∃ left, links ≤ left ∧
      tree.walk (links + 1) here (name :: rest) = tree.walk left next (pushed ++ rest) := by
  cases h with
  | stay inside dot =>
    refine ⟨links + 1, Nat.le_succ links, ?_⟩
    simp only [walk, node?, inside, if_pos dot, List.nil_append]
  | up inside =>
    have hdot : ¬(Path.up = [] ∨ Path.up = Path.here) := by decide
    refine ⟨links + 1, Nat.le_succ links, ?_⟩
    simp only [walk, node?, inside, if_neg hdot, if_true, List.nil_append]
  | link inside named found =>
    have hdot : ¬(name = [] ∨ name = Path.here) := not_or.mpr ⟨named.ne_nil, named.ne_here⟩
    refine ⟨links, Nat.le_refl links, ?_⟩
    simp only [walk, node?, inside, if_neg hdot, if_neg named.ne_up, if_neg (not_lt.mpr named.length_le),
      found, startOf]
  | enter inside named found notLink =>
    exact ⟨links + 1, Nat.le_succ links, walk_entry inside named found notLink (links + 1) rest⟩

namespace Node.Leads

/-- A walk finds where its names lead, if it may pass through links enough. -/
theorem walk_eq_ok (h : top.Leads here rest location) :
    ∃ enough, ∀ tree : FileTree, tree.top = top → ∀ links, enough ≤ links →
      tree.walk links here rest = .ok location := by
  induction h with
  | done here => exact ⟨0, fun tree _ links _ => by rw [walk]⟩
  | @turn here next pushed rest location name first _ ih =>
    obtain ⟨enough, hwalk⟩ := ih
    refine ⟨enough + 1, fun tree htop links hlinks => ?_⟩
    obtain ⟨more, rfl⟩ : ∃ more, links = more + 1 := ⟨links - 1, by omega⟩
    obtain ⟨left, hleft, hstep⟩ := (htop ▸ first : tree.top.Turns here name next pushed).walk_cons more rest
    rw [hstep]
    exact hwalk tree htop left (by omega)

/-- From a node that is no link, names lead to a node that is none. -/
theorem notLink (h : top.Leads here rest location) (htop : ∀ target, top ≠ .link target)
    (hhere : ∃ node, top.descend here = some node ∧ ∀ target, node ≠ .link target) :
    ∃ node, top.descend location = some node ∧ ∀ target, node ≠ .link target := by
  induction h with
  | done here => exact hhere
  | turn first _ ih =>
    apply ih
    cases first with
    | stay inside dot => exact hhere
    | up inside =>
      obtain ⟨entries, hparent⟩ := descend_dropLast inside
      exact ⟨_, hparent, fun target => by simp⟩
    | link inside named found =>
      rw [startOf]
      split
      · exact ⟨top, rfl, htop⟩
      · exact hhere
    | enter inside named found isNoLink =>
      exact ⟨_, descend_append_singleton_iff.mpr ⟨_, inside, found⟩, isNoLink⟩

theorem unique {other : List Text} (h : tree.top.Leads here rest location)
    (hother : tree.top.Leads here rest other) : location = other := by
  obtain ⟨enough, hwalk⟩ := h.walk_eq_ok
  obtain ⟨enough', hwalk'⟩ := hother.walk_eq_ok
  have hlocation := hwalk tree rfl (max enough enough') (le_max_left _ _)
  have hsame := hwalk' tree rfl (max enough enough') (le_max_right _ _)
  exact Except.ok.inj (hlocation.symm.trans hsame)

theorem append {middle more : List Text} (h : top.Leads here rest middle)
    (hmore : top.Leads middle more location) : top.Leads here (rest ++ more) location := by
  induction h with
  | done => exact hmore
  | turn first _ ih => exact .turn first (List.append_assoc .. ▸ ih hmore)

/-- Names may be followed in two pieces. -/
theorem split {more : List Text} (h : top.Leads here (rest ++ more) location) :
    ∃ middle, top.Leads here rest middle ∧ top.Leads middle more location := by
  generalize hall : rest ++ more = all at h
  -- after a link the first piece goes on with the names of its target
  induction h generalizing rest with
  | done here =>
    obtain ⟨rfl, rfl⟩ := List.append_eq_nil_iff.mp hall
    exact ⟨here, .done here, .done here⟩
  | @turn here next pushed left location name first onward ih =>
    cases rest with
    | nil =>
      rw [List.nil_append] at hall
      exact ⟨here, .done here, hall ▸ .turn first onward⟩
    | cons _ rest =>
      obtain ⟨rfl, hleft⟩ := List.cons.inj hall
      have hrest : (pushed ++ rest) ++ more = pushed ++ left := by
        rw [List.append_assoc]
        exact congrArg _ hleft
      obtain ⟨middle, hfirst, hsecond⟩ := ih hrest
      exact ⟨middle, .turn first hfirst, hsecond⟩

end Node.Leads

/-- The name of an entry leads somewhere only if there is such an entry. -/
theorem Node.Leads.mem_keys (h : top.Leads here [name] location) (hne : name ≠ []) (hhere : name ≠ Path.here)
    (hup : name ≠ Path.up) :
    ∃ entries, top.descend here = some (.directory entries) ∧ name ∈ entries.map Prod.fst := by
  have hmem : ∀ {entries : List (Text × Node)} {node : Node}, List.lookup name entries = some node →
      name ∈ entries.map Prod.fst := by
    intro entries node hfound
    have hsome : (List.lookup name entries).isSome := by rw [hfound]; rfl
    obtain ⟨entry, hentry, hkey⟩ := List.lookup_isSome_iff.mp hsome
    exact List.mem_map.mpr ⟨entry, hentry, (eq_of_beq hkey).symm⟩
  rcases h with _ | ⟨first, -⟩
  cases first with
  | stay inside dot => exact absurd dot (not_or.mpr ⟨hne, hhere⟩)
  | up inside => exact absurd rfl hup
  | link inside named found => exact ⟨_, inside, hmem found⟩
  | enter inside named found notLink => exact ⟨_, inside, hmem found⟩

/-! ## Locations of paths -/

theorem stat_eq_ok_iff {node : Node} :
    tree.stat path = .ok node ↔ ∃ location, tree.locate path = .ok location ∧ tree.node? location = some node := by
  unfold stat
  split
  · rename_i reason hlocate
    simp [hlocate]
  · rename_i location hlocate
    cases hnode : tree.node? location <;> simp [hlocate, hnode]

/-- The tree in which a path may pass through some number of links. -/
def withLimit (tree : FileTree) (limit : Nat) : FileTree :=
  { tree with linkLimit := limit }

/-- A path leads to a location, however many links lie on the way. -/
def LeadsTo (tree : FileTree) (path : Path) (location : List Text) : Prop :=
  unspeakable path = false ∧ tree.top.Leads [] path.names location

theorem leadsTo_of_locate (h : tree.locate path = .ok location) : tree.LeadsTo path location := by
  unfold locate at h
  split at h
  · cases h
  · rename_i hspeakable
    exact ⟨Bool.not_eq_true _ ▸ hspeakable, leads_of_walk h⟩

namespace LeadsTo

theorem unique {other : List Text} (h : tree.LeadsTo path location) (hother : tree.LeadsTo path other) :
    location = other :=
  h.2.unique hother.2

theorem eventually_locate (h : tree.LeadsTo path location) :
    ∀ᶠ limit in atTop, (tree.withLimit limit).locate path = .ok location := by
  obtain ⟨enough, hwalk⟩ := h.2.walk_eq_ok
  filter_upwards [eventually_ge_atTop enough] with limit hlimit
  rw [locate, h.1]
  exact hwalk (tree.withLimit limit) rfl limit hlimit

end LeadsTo

/-- A path leads to a location if it is found there for every limit from some limit on. -/
theorem leadsTo_iff_eventually_locate :
    tree.LeadsTo path location ↔ ∀ᶠ limit in atTop, (tree.withLimit limit).locate path = .ok location := by
  refine ⟨LeadsTo.eventually_locate, fun h => ?_⟩
  obtain ⟨limit, hlimit⟩ := h.exists
  have hleads : (tree.withLimit limit).LeadsTo path location := leadsTo_of_locate hlimit
  exact hleads

/-- What a name leads to from a directory. -/
def Opens (tree : FileTree) (directory : List Text) (name : Text) (location : List Text) : Prop :=
  Glyph.char '\x00' ∉ name ∧ tree.top.Leads directory [name] location

theorem leadsTo_child_iff :
    tree.LeadsTo (path.child name) location ↔
      ∃ directory, tree.LeadsTo path directory ∧ tree.Opens directory name location := by
  have hspeakable : unspeakable (path.child name) = false ↔
      unspeakable path = false ∧ Glyph.char '\x00' ∉ name := by
    simp [unspeakable, Path.child]
  constructor
  · rintro ⟨hchild, hleads⟩
    obtain ⟨hpath, hname⟩ := hspeakable.mp hchild
    obtain ⟨directory, hdirectory, hentry⟩ := hleads.split
    exact ⟨directory, ⟨hpath, hdirectory⟩, hname, hentry⟩
  · rintro ⟨directory, ⟨hpath, hdirectory⟩, hname, hentry⟩
    exact ⟨hspeakable.mpr ⟨hpath, hname⟩, hdirectory.append hentry⟩

/-- By whatever path a directory was reached, a name leads to the same location from there. -/
theorem LeadsTo.child_iff {other : Path} {directory : List Text} (h : tree.LeadsTo path directory)
    (hother : tree.LeadsTo other directory) :
    tree.LeadsTo (path.child name) location ↔ tree.LeadsTo (other.child name) location := by
  have hopens : ∀ {path : Path}, tree.LeadsTo path directory →
      (tree.LeadsTo (path.child name) location ↔ tree.Opens directory name location) := by
    intro path hpath
    rw [leadsTo_child_iff]
    constructor
    · rintro ⟨same, hsame, hentry⟩
      exact hpath.unique hsame ▸ hentry
    · exact fun hentry => ⟨directory, hpath, hentry⟩
  rw [hopens h, hopens hother]

/-! ## Nodes at paths -/

/-- A path leads to a node, however many links lie on the way. -/
def Finds (tree : FileTree) (path : Path) (found : Node) : Prop :=
  ∃ location, tree.LeadsTo path location ∧ tree.node? location = some found

theorem finds_of_stat {found : Node} (h : tree.stat path = .ok found) : tree.Finds path found := by
  obtain ⟨location, hlocation, hfound⟩ := stat_eq_ok_iff.mp h
  exact ⟨location, leadsTo_of_locate hlocation, hfound⟩

namespace Finds

variable {found : Node}

theorem unique {other : Node} (h : tree.Finds path found) (hother : tree.Finds path other) : found = other := by
  obtain ⟨location, hlocation, hfound⟩ := h
  obtain ⟨location', hlocation', hfound'⟩ := hother
  rw [← hlocation.unique hlocation', hfound] at hfound'
  exact Option.some.inj hfound'

theorem eventually_stat (h : tree.Finds path found) :
    ∀ᶠ limit in atTop, (tree.withLimit limit).stat path = .ok found := by
  obtain ⟨location, hlocation, hfound⟩ := h
  filter_upwards [hlocation.eventually_locate] with limit hlocate
  exact stat_eq_ok_iff.mpr ⟨location, hlocate, hfound⟩

theorem ne_link (h : tree.Finds path found) (target : Text) : found ≠ .link target := by
  obtain ⟨location, ⟨-, hleads⟩, hfound⟩ := h
  have htop : ∀ target, tree.top ≠ .link target := fun target => by simp [top]
  obtain ⟨node, hnode, hnotLink⟩ := hleads.notLink htop ⟨tree.top, rfl, htop⟩
  have hsame : some node = some found := hnode.symm.trans hfound
  rw [← Option.some.inj hsame]
  exact hnotLink target

/-- By whatever path a directory was reached, its entries are the same. -/
theorem child_iff {other : Path} {directory : List Text} (h : tree.LeadsTo path directory)
    (hother : tree.LeadsTo other directory) :
    tree.Finds (path.child name) found ↔ tree.Finds (other.child name) found := by
  simp only [Finds, h.child_iff hother]

end Finds

/-- The content of a file is read for every limit from some limit on, if there is a file at its path. -/
theorem eventually_read_iff {content : List UInt8} :
    (∀ᶠ limit in atTop, (tree.withLimit limit).read path = .ok content) ↔
      ∃ mode, tree.Finds path (.file mode content) := by
  constructor
  · intro h
    obtain ⟨limit, hread⟩ := h.exists
    unfold read at hread
    split at hread
    · rename_i mode same hstat
      cases hread
      have hfinds : (tree.withLimit limit).Finds path (.file mode content) := finds_of_stat hstat
      exact ⟨mode, hfinds⟩
    · cases hread
    · cases hread
  · rintro ⟨mode, hfinds⟩
    filter_upwards [hfinds.eventually_stat] with limit hstat
    rw [read, hstat]

end FileTree

end CommandTree
