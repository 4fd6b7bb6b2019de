import CommandTree.FileTree.Directories
import CommandTree.Node.Describe

/-!
# Checking all scripts below a node

`Node.validate` collects what is wrong with the annotations of a script, or of all scripts below a
directory: usage lines and option lines that cannot be read, and comment blocks that are not UTF-8.

Links may lead to one directory by several ways, or back to a directory above.  The search keeps a list
of the nodes that are left (`todo`) and the locations of the directories it has entered (`seen`), and
enters each location once.  Each step either takes a node away or enters one more of the finitely many
directories of the tree, which is why the search ends.
-/

namespace CommandTree

namespace Node

/-- A script by its path, and something that is wrong with it. -/
abbrev Problem := Path × Cause

/-- What is wrong with the annotations of a script. -/
def problemsOf (files : FileTree) (file : ScriptFile) : Except Failure (List Problem) :=
  match file.read files with
  | .ok script => .ok (script.problems.map fun cause => (file.path, cause))
  | .error (.cause cause) => .ok [(file.path, cause)]
  | .error failure => .error failure

/-- The location of the directory in which the commands of a node lie. -/
def location? (config : Config) (files : FileTree) (node : Node) : Option (List Text) :=
  (node.directory? config).bind files.directory?

theorem mem_directories_of_location? {config : Config} {files : FileTree} {node : Node}
    {location : List Text} (h : node.location? config files = some location) :
    location ∈ files.directories := by
  obtain ⟨path, _, hpath⟩ := Option.bind_eq_some_iff.mp h
  exact FileTree.mem_directories hpath

/-- How many directories of a tree have not been entered. -/
def unseen (files : FileTree) (seen : List (List Text)) : Nat :=
  files.directories.countP fun location => decide (location ∉ seen)

/-- A condition that holds less often, and not of a member of which another holds, is counted less
often. -/
theorem countP_lt_countP {α : Type} {p q : α → Bool} {l : List α} {a : α}
    (hle : ∀ x, q x = true → p x = true) (ha : a ∈ l) (hp : p a = true) (hq : q a = false) :
    l.countP q < l.countP p := by
  induction l with
  | nil => simp at ha
  | cons x rest ih =>
    have hmono : rest.countP q ≤ rest.countP p := List.countP_mono_left fun y _ => hle y
    rcases List.mem_cons.mp ha with rfl | hrest
    · simp [hp, hq]
      omega
    · have := ih hrest
      have hx := hle x
      rw [List.countP_cons, List.countP_cons]
      by_cases hqx : q x = true
      · simp [hqx, hx hqx]
        omega
      · simp [hqx]
        omega

/-- Entering a directory leaves fewer to enter. -/
theorem unseen_cons_lt {files : FileTree} {seen : List (List Text)} {location : List Text}
    (hmem : location ∈ files.directories) (hseen : location ∉ seen) :
    unseen files (location :: seen) < unseen files seen := by
  refine countP_lt_countP ?_ hmem (by simpa using hseen) (by simp)
  intro other hother
  simp only [List.mem_cons, not_or, decide_eq_true_eq] at hother ⊢
  exact hother.2

/-- What is wrong with the scripts among the nodes `todo` and below them; directories at the locations
`seen` are not entered. -/
def search (config : Config) (files : FileTree) (seen : List (List Text)) :
    (todo : List Node) → Except Failure (List Problem)
  | [] => .ok []
  | .internal _ _ :: todo => search config files seen todo
  | .file script :: todo =>
    match problemsOf files script with
    | .error failure => .error failure
    | .ok found => (search config files seen todo).map fun more => found ++ more
  | node :: todo =>
    match _h : node.location? config files with
    | none => search config files seen todo
    | some location =>
      if _hseen : location ∈ seen then search config files seen todo
      else search config files (location :: seen) (node.children config files ++ todo)
termination_by todo => (unseen files seen, todo.length)
decreasing_by
  · exact Prod.Lex.right _ (Nat.lt_succ_self _)
  · exact Prod.Lex.right _ (Nat.lt_succ_self _)
  · exact Prod.Lex.right _ (Nat.lt_succ_self _)
  · exact Prod.Lex.right _ (Nat.lt_succ_self _)
  · exact Prod.Lex.left _ _ (unseen_cons_lt (mem_directories_of_location? _h) _hseen)

/-- What is wrong with the scripts below a node. -/
def validate (config : Config) (files : FileTree) (node : Node) : Except Failure (List Problem) :=
  search config files [] [node]

end Node

end CommandTree
