import CommandTree.Proofs.FileTree.Walk

/-!
# Reading what was written

A path of plain names leads through directories only, so it arrives where `Node.descend` does
(`stat_eq_of_node?`).  A file that is written at a path whose first name is new gets the directories that
it needs, and is then read at that path (`read_write_of_new`).
-/

namespace CommandTree

namespace FileTree

variable {tree : FileTree} {path : Path} {here rest : List Text} {first : Text} {node : Node}

instance : DecidablePred IsLookedUp := fun name =>
  decidable_of_iff
    (name ≠ [] ∧ name ≠ Path.here ∧ name ≠ Path.up ∧ name.toBytes.length ≤ nameLimit)
    ⟨fun h => ⟨h.1, h.2.1, h.2.2.1, h.2.2.2⟩, fun h => ⟨h.ne_nil, h.ne_here, h.ne_up, h.length_le⟩⟩

/-- A path of which every name is looked up. -/
def IsPlain (path : Path) : Prop :=
  ∀ name ∈ path.names, IsLookedUp name ∧ .char '\x00' ∉ name

instance : DecidablePred IsPlain := fun path =>
  inferInstanceAs (Decidable (∀ name ∈ path.names, IsLookedUp name ∧ .char '\x00' ∉ name))

theorem IsPlain.locate_eq (h : IsPlain path) : tree.locate path = tree.walk tree.linkLimit [] path.names := by
  refine if_neg ?_
  simp only [unspeakable, List.any_eq_true, List.contains_eq_mem, decide_eq_true_iff, not_exists, not_and]
  exact fun name hname => (h name hname).2

/-! ## Names without links -/

theorem walk_of_node? (hnames : ∀ name ∈ rest, IsLookedUp name) (hnode : tree.node? (here ++ rest) = some node)
    (hnotLink : ∀ target, node ≠ .link target) (links : Nat) :
    tree.walk links here rest = .ok (here ++ rest) := by
  induction rest generalizing here with
  | nil => rw [walk, List.append_nil]
  | cons name rest ih =>
    have hall : here ++ name :: rest = here ++ [name] ++ rest := by simp
    rw [hall] at hnode
    obtain ⟨child, hchild, hrest⟩ := Node.descend_append_iff.mp hnode
    obtain ⟨entries, hinside, hfound⟩ := Node.descend_append_singleton_iff.mp hchild
    have hchildNotLink : ∀ target, child ≠ .link target := by
      rintro target rfl
      cases rest with
      | nil => exact hnotLink target (Option.some.inj hrest).symm
      | cons _ _ => cases hrest
    obtain ⟨hname, hrestNames⟩ := List.forall_mem_cons.mp hnames
    rw [walk_entry hinside hname hfound hchildNotLink, hall]
    exact ih hrestNames hnode

/-- A path of plain names finds the node to which they lead, unless it is a link. -/
theorem stat_eq_of_node? (h : IsPlain path) (hnode : tree.node? path.names = some node)
    (hnotLink : ∀ target, node ≠ .link target) : tree.stat path = .ok node := by
  have hwalk : tree.walk tree.linkLimit [] path.names = .ok ([] ++ path.names) :=
    walk_of_node? (fun name hname => (h name hname).1) hnode hnotLink tree.linkLimit
  exact stat_eq_ok_iff.mpr ⟨path.names, h.locate_eq.trans hwalk, hnode⟩

/-! ## Writing -/

/-- What is put at names where nothing is, is found there. -/
theorem Node.descend_change_none (done : Change) (hdone : done.apply none = some node) (names : List Text) :
    ∃ top, Node.change done names none = some top ∧ top.descend names = some node := by
  induction names with
  | nil => exact ⟨node, hdone, rfl⟩
  | cons name rest ih =>
    obtain ⟨child, hchild, hfound⟩ := ih
    exact ⟨.directory [(name, child)], by rw [Node.change, hchild]; rfl, by simp [descend, hfound]⟩

/-- A new path names the place where something is written itself. -/
theorem target_of_new (h : IsPlain path) (hnames : path.names = first :: rest)
    (hnew : List.lookup first tree.entries = none) : tree.target path = path.names := by
  have habsent : ∀ more, tree.walk tree.linkLimit [] (first :: more) = .error .noEntry := fun more => by
    obtain ⟨hfirst, -⟩ := h first (hnames ▸ List.mem_cons_self)
    have hdot : ¬(first = [] ∨ first = Path.here) := not_or.mpr ⟨hfirst.ne_nil, hfirst.ne_here⟩
    have htop : tree.node? [] = some (.directory tree.entries) := rfl
    simp only [walk, htop, if_neg hdot, if_neg hfirst.ne_up, if_neg (not_lt.mpr hfirst.length_le), hnew]
  have hparent : tree.locate path.parent = tree.walk tree.linkLimit [] path.names.dropLast :=
    IsPlain.locate_eq fun name hname => h name (List.dropLast_subset _ hname)
  have hlocate : tree.locate path = .error .noEntry := by rw [h.locate_eq, hnames, habsent]
  rw [target, hlocate]
  cases rest with
  | nil =>
    rw [hnames, List.dropLast_singleton, walk] at hparent
    simp [place, hparent, hnames]
  | cons second rest =>
    rw [hnames, List.dropLast_cons_cons, habsent] at hparent
    simp [place, hparent]

/-- A file that is written at a path whose first name is new is read there. -/
theorem read_write_of_new {mode : Nat} {content : List UInt8} (h : IsPlain path)
    (hnames : path.names = first :: rest) (hnew : List.lookup first tree.entries = none) :
    (tree.write path mode content).read path = .ok content := by
  let done : Change := .put (.file mode content) (.file mode content)
  have hdone : done.apply none = some (.file mode content) := rfl
  obtain ⟨child, hchild, hfound⟩ := Node.descend_change_none done hdone rest
  have hentries : (tree.write path mode content).entries = Assoc.insert first child tree.entries := by
    have hplace : tree.write path mode content = tree.change (first :: rest) done := by
      rw [write, target_of_new h hnames hnew, hnames]
    simp only [hplace, change, entriesAfter, top, Node.change, hnew, hchild]
  have hnode : (tree.write path mode content).node? path.names = some (.file mode content) := by
    rw [node?, top, hentries, hnames, Node.descend, Assoc.lookup_insert, if_pos rfl]
    exact hfound
  rw [read, stat_eq_of_node? h hnode fun target => by simp]

end FileTree

end CommandTree
