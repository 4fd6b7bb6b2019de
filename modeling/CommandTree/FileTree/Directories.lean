import CommandTree.FileTree.Basic

/-!
# Directories of a file tree

The locations of all directories of a tree.  There are finitely many, and whatever directory a path leads
to is among them (`FileTree.mem_directories`): a search that enters each location once comes to an end.
-/

namespace CommandTree

namespace FileTree

mutual

/-- The locations of the directories below a node, itself included. -/
def Node.directories : Node → List (List Text)
  | .file _ _ => []
  | .link _ => []
  | .directory entries => [] :: directoriesIn entries

/-- The locations of the directories among some entries and below them. -/
def Node.directoriesIn : List (Text × Node) → List (List Text)
  | [] => []
  | (name, node) :: rest => (node.directories.map fun names => name :: names) ++ directoriesIn rest

end

/-- The locations of all directories. -/
def directories (tree : FileTree) : List (List Text) :=
  tree.top.directories

/-- The location of the directory at a path. -/
def directory? (tree : FileTree) (path : Path) : Option (List Text) :=
  match tree.locate path with
  | .error _ => none
  | .ok location =>
    match tree.node? location with
    | some (.directory _) => some location
    | _ => none

theorem Node.mem_directoriesIn {entries : List (Text × Node)} {name : Text} {child : Node}
    {names : List Text} (hlookup : List.lookup name entries = some child)
    (hnames : names ∈ child.directories) : name :: names ∈ directoriesIn entries := by
  induction entries with
  | nil => simp at hlookup
  | cons entry rest ih =>
    obtain ⟨key, node⟩ := entry
    simp only [directoriesIn, List.mem_append, List.mem_map]
    by_cases h : name = key
    · subst h
      simp only [List.lookup_cons_self, Option.some.injEq] at hlookup
      subst hlookup
      exact Or.inl ⟨names, hnames, rfl⟩
    · rw [List.lookup_cons, beq_false_of_ne h] at hlookup
      exact Or.inr (ih hlookup)

theorem Node.mem_directories {node : Node} {location : List Text} {entries : List (Text × Node)}
    (h : node.descend location = some (.directory entries)) : location ∈ node.directories := by
  induction location generalizing node with
  | nil =>
    simp only [descend, Option.some.injEq] at h
    subst h
    simp [directories]
  | cons name rest ih =>
    cases node with
    | file mode content => simp [descend] at h
    | link target => simp [descend] at h
    | directory entries =>
      simp only [descend] at h
      split at h
      · rename_i child hchild
        simp only [directories, List.mem_cons]
        exact Or.inr (mem_directoriesIn hchild (ih h))
      · simp at h

/-- Whatever directory a path leads to is among the directories of the tree. -/
theorem mem_directories {tree : FileTree} {path : Path} {location : List Text}
    (h : tree.directory? path = some location) : location ∈ tree.directories := by
  unfold directory? at h
  split at h
  · simp at h
  · split at h
    · rename_i hnode
      simp only [Option.some.injEq] at h
      subst h
      exact Node.mem_directories hnode
    · simp at h

end FileTree

end CommandTree
