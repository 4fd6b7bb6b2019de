import CommandTree.Assoc
import CommandTree.Text.Basic

/-!
# Nodes of a file tree

A node is a file with its bytes and permission bits, a symbolic link with the text of its target, or a
directory with its entries.

A directory is a list of names with nodes, and nothing in the list keeps a name from standing twice.  A
file system has no such directory: `Node.Distinct` says so of a node and of all that is below it.  What is
done at a place of a tree is a `Change`, which keeps nodes distinct; so does a change at any depth
(`Node.distinct_change`).
-/

namespace CommandTree

namespace FileTree

/-- An entry of a directory, or the root directory itself. -/
inductive Node where
  | file (mode : Nat) (content : List UInt8)
  | link (target : Text)
  | directory (entries : List (Text × Node))

namespace Node

/-- A node of any kind. -/
def isAny (_ : Node) : Bool := true

/-- A directory. -/
def isDirectory : Node → Bool
  | directory _ => true
  | _ => false

/-- A file. -/
def isFile : Node → Bool
  | file _ _ => true
  | _ => false

/-- Whether anybody may execute the node. -/
def isExecutable : Node → Bool
  | file mode _ => mode &&& 0o111 ≠ 0
  | _ => true

/-- The node that some names lead to from a node, without following links. -/
def descend : Node → List Text → Option Node
  | node, [] => some node
  | .directory entries, name :: rest =>
    match List.lookup name entries with
    | some child => child.descend rest
    | none => none
  | _, _ :: _ => none

/-- A node in which every directory names each of its entries once. -/
inductive Distinct : Node → Prop where
  | file (mode : Nat) (content : List UInt8) : Distinct (.file mode content)
  | link (target : Text) : Distinct (.link target)
  | directory {entries : List (Text × Node)} (names : (entries.map Prod.fst).Nodup)
      (below : ∀ entry ∈ entries, Distinct entry.2) : Distinct (.directory entries)

theorem distinct_empty : (directory []).Distinct :=
  .directory List.nodup_nil fun _ h => nomatch h

theorem Distinct.of_lookup {entries : List (Text × Node)} {name : Text} {child : Node}
    (h : ∀ entry ∈ entries, entry.2.Distinct) (hchild : List.lookup name entries = some child) :
    child.Distinct := by
  rw [List.lookup_eq_some_iff] at hchild
  obtain ⟨before, after, hentries, -⟩ := hchild
  exact h (name, child) (by simp [hentries])

/-- What is below a distinct node is distinct. -/
theorem Distinct.descend {node found : Node} {location : List Text} (h : node.Distinct)
    (hfound : node.descend location = some found) : found.Distinct := by
  induction location generalizing node with
  | nil =>
    cases hfound
    exact h
  | cons name rest ih =>
    cases h with
    | file mode content => cases hfound
    | link target => cases hfound
    | directory names below =>
      rw [Node.descend] at hfound
      split at hfound
      · rename_i child hchild
        exact ih (.of_lookup below hchild) hfound
      · cases hfound

end Node

/-! ## Changing a node -/

/-- What is done at a place of a tree, which may hold a node or none, and may so afterwards. -/
structure Change where
  apply : Option Node → Option Node
  distinct : ∀ place, (∀ node ∈ place, node.Distinct) → ∀ node ∈ apply place, node.Distinct

namespace Node

/-- A node with the place at some names changed.  Missing directories on the way are made; an entry
that is changed to nothing is taken out. -/
def change (done : Change) : List Text → Option Node → Option Node
  | [], node => done.apply node
  | name :: rest, some (.directory entries) =>
    match Node.change done rest (List.lookup name entries) with
    | some child => some (.directory (Assoc.insert name child entries))
    | none => some (.directory (entries.filter fun entry => entry.1 ≠ name))
  | name :: rest, none =>
    (Node.change done rest none).map fun child => .directory [(name, child)]
  | _ :: _, some other => some other

theorem distinct_change (done : Change) (location : List Text) {place : Option Node}
    (h : ∀ node ∈ place, node.Distinct) : ∀ node ∈ Node.change done location place, node.Distinct := by
  have hnone : ∀ node ∈ (none : Option Node), node.Distinct := fun _ hnode => nomatch hnode
  induction location generalizing place with
  | nil => exact done.distinct place h
  | cons name rest ih =>
    match place with
    | none =>
      intro node hnode
      obtain ⟨child, hchild, rfl⟩ := Option.map_eq_some_iff.mp hnode
      refine .directory (List.pairwise_singleton _ name) fun entry hentry => ?_
      rw [List.mem_singleton.mp hentry]
      exact ih hnone child hchild
    | some (.file mode content) => exact h
    | some (.link target) => exact h
    | some (.directory entries) =>
      have hdirectory : (Node.directory entries).Distinct := h _ rfl
      cases hdirectory with
      | directory names below =>
        intro node hnode
        rw [Node.change] at hnode
        split at hnode
        · rename_i child hchild
          cases hnode
          have hplace : child.Distinct := ih (fun node hnode => .of_lookup below hnode) child hchild
          refine .directory (Assoc.nodup_keys_insert names) fun entry hentry => ?_
          rcases Assoc.mem_insert hentry with rfl | hold
          · exact hplace
          · exact below entry hold
        · cases hnode
          exact .directory (names.sublist (List.filter_sublist.map _)) fun entry hentry =>
            below entry (List.mem_filter.mp hentry).1

end Node

namespace Change

/-- A node is put in place of whatever is there. -/
def put (node : Node) (h : node.Distinct) : Change where
  apply _ := some node
  distinct _ _ := by
    rintro _ ⟨⟩
    exact h

/-- A directory is made; one that is there is kept. -/
def makeDirectory : Change where
  apply
    | some (.directory entries) => some (.directory entries)
    | _ => some (.directory [])
  distinct place hplace node hnode := by
    split at hnode
    · exact hplace node hnode
    · cases hnode
      exact Node.distinct_empty

/-- The permission bits of a file are set. -/
def setMode (mode : Nat) : Change where
  apply
    | some (.file _ content) => some (.file mode content)
    | other => other
  distinct place hplace node hnode := by
    split at hnode
    · cases hnode
      exact .file mode _
    · exact hplace node hnode

/-- Whatever is there is taken out. -/
def remove : Change where
  apply _ := none
  distinct _ _ := fun _ hnode => nomatch hnode

end Change

end FileTree

end CommandTree
