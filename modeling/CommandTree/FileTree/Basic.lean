import CommandTree.FileTree.Node
import CommandTree.FileTree.Path
import CommandTree.Text.Utf8

/-!
# File trees

A file tree is a directory whose entries are files, symbolic links and directories; no directory of it
names an entry twice.

`FileTree.locate` follows a path: it passes from directory to directory, takes two dots for the
directory above, and continues at its target where it meets a link.  It arrives at a *location*, the
names on the way from the root that passes through no link, or it fails for one of the reasons that
`Errno` lists.  A path may pass through `linkLimit` links at most; this also is why following a path
ends.  A name may have `nameLimit` bytes; the limit that a system sets to the bytes of a path as a whole
is left out, so that a path of any length is followed.

The remaining functions change a tree.  They make the directories that a new entry needs.
-/

namespace CommandTree

/-- A tree of files: the entries of its root directory, and how many links one path may pass through. -/
structure FileTree where
  entries : List (Text × FileTree.Node)
  linkLimit : Nat
  distinct : (FileTree.Node.directory entries).Distinct

/-- Why a path leads nowhere, or not to what was asked for. -/
inductive Errno where
  | noEntry
  | notDirectory
  | isDirectory
  | nameTooLong
  | tooManyLinks
deriving DecidableEq

namespace Errno

/-- The number of a reason. -/
def number : Errno → Int
  | noEntry => 2
  | notDirectory => 20
  | isDirectory => 21
  | nameTooLong => 36
  | tooManyLinks => 40

/-- The wording of a reason. -/
def reason : Errno → Text
  | noEntry => "No such file or directory"
  | notDirectory => "Not a directory"
  | isDirectory => "Is a directory"
  | nameTooLong => "File name too long"
  | tooManyLinks => "Too many levels of symbolic links"

/-- Whether the reason means that there is nothing at the path. -/
def isAbsence : Errno → Bool
  | noEntry | notDirectory | tooManyLinks => true
  | isDirectory | nameTooLong => false

end Errno

namespace FileTree

/-- How many links one path may usually pass through. -/
def usualLinkLimit : Nat := 40

/-- How many bytes a name may have. -/
def nameLimit : Nat := 255

/-- A tree without entries. -/
def empty : FileTree := ⟨[], usualLinkLimit, Node.distinct_empty⟩

/-- The root directory. -/
def top (tree : FileTree) : Node := .directory tree.entries

/-- The node at a location. -/
def node? (tree : FileTree) (location : List Text) : Option Node :=
  tree.top.descend location

theorem nodup_of_node? {tree : FileTree} {location : List Text} {entries : List (Text × Node)}
    (h : tree.node? location = some (.directory entries)) : (entries.map Prod.fst).Nodup := by
  cases tree.distinct.descend h with
  | directory names below => exact names

/-- The location to which the names `rest` lead from the location `here`, if at most `links` links lie
on the way.  Names are measured one by one, the path as a whole is not. -/
def walk (tree : FileTree) (links : Nat) (here : List Text) :
    (rest : List Text) → Except Errno (List Text)
  | [] => .ok here
  | name :: rest =>
    match tree.node? here with
    | some (.directory entries) =>
      if name = [] ∨ name = Path.here then tree.walk links here rest
      else if name = Path.up then tree.walk links here.dropLast rest
      else if nameLimit < name.toBytes.length then .error .nameTooLong
      else
        match List.lookup name entries with
        | none => .error .noEntry
        | some (.link target) =>
          match links with
          | 0 => .error .tooManyLinks
          | links + 1 =>
            tree.walk links (if (Path.ofText target).isAbsolute then [] else here)
              (Text.splitAt Path.slash target ++ rest)
        | some _ => tree.walk links (here ++ [name]) rest
    | _ => .error .notDirectory
termination_by rest => (links, rest.length)

/-- Whether a path holds the glyph that ends a path for the operating system, so that nothing can be at
it. -/
def unspeakable (path : Path) : Bool :=
  path.names.any fun name => name.contains (.char '\x00')

/-- The location of a path. -/
def locate (tree : FileTree) (path : Path) : Except Errno (List Text) :=
  if unspeakable path then .error .noEntry else tree.walk tree.linkLimit [] path.names

/-- The node at a path, links followed. -/
def stat (tree : FileTree) (path : Path) : Except Errno Node :=
  match tree.locate path with
  | .error reason => .error reason
  | .ok location =>
    match tree.node? location with
    | some node => .ok node
    | none => .error .noEntry

/-- Whether a condition holds of the node at a path; it does not where there is none. -/
def holdsAt (tree : FileTree) (path : Path) (condition : Node → Bool) : Except Errno Bool :=
  match tree.stat path with
  | .ok node => .ok (condition node)
  | .error reason => if reason.isAbsence then .ok false else .error reason

/-- The names in the directory at a path. -/
def list (tree : FileTree) (path : Path) : Except Errno (List Text) :=
  match tree.stat path with
  | .ok (.directory entries) => .ok (entries.map Prod.fst)
  | .ok _ => .error .notDirectory
  | .error reason => .error reason

/-- The bytes of the file at a path. -/
def read (tree : FileTree) (path : Path) : Except Errno (List UInt8) :=
  match tree.stat path with
  | .ok (.file _ content) => .ok content
  | .ok _ => .error .isDirectory
  | .error reason => .error reason

/-! ## Changing a tree -/

/-- The entries of the root directory once the place at a location is changed. -/
def entriesAfter (tree : FileTree) (location : List Text) (done : Change) : List (Text × Node) :=
  match Node.change done location (some tree.top) with
  | some (.directory entries) => entries
  | _ => tree.entries

theorem distinct_entriesAfter (tree : FileTree) (location : List Text) (done : Change) :
    (Node.directory (tree.entriesAfter location done)).Distinct := by
  have htop : ∀ node ∈ some tree.top, node.Distinct := by
    rintro node ⟨⟩
    exact tree.distinct
  rw [entriesAfter]
  split
  · rename_i entries hchanged
    exact Node.distinct_change done location htop _ hchanged
  · exact tree.distinct

/-- The tree with the place at a location changed. -/
def change (tree : FileTree) (location : List Text) (done : Change) : FileTree :=
  { tree with
    entries := tree.entriesAfter location done
    distinct := tree.distinct_entriesAfter location done }

/-- The location of an entry: that of its directory, as far as there is one, and its name. -/
def place (tree : FileTree) (path : Path) : List Text :=
  match tree.locate path.parent with
  | .ok location => location ++ path.names.getLast?.toList
  | .error _ => path.names

/-- The location to which something is written: that of the target where a link is in place. -/
def target (tree : FileTree) (path : Path) : List Text :=
  match tree.locate path with
  | .ok location => location
  | .error _ => tree.place path

/-- The tree with a file written. -/
def write (tree : FileTree) (path : Path) (mode : Nat) (content : List UInt8) : FileTree :=
  tree.change (tree.target path) (.put (.file mode content) (.file mode content))

/-- The tree with a directory made; one that is there is kept. -/
def makeDirectory (tree : FileTree) (path : Path) : FileTree :=
  tree.change (tree.target path) .makeDirectory

/-- The tree with a link made. -/
def makeLink (tree : FileTree) (path : Path) (target : Text) : FileTree :=
  tree.change (tree.place path) (.put (.link target) (.link target))

/-- The tree with the permission bits of a file set. -/
def setMode (tree : FileTree) (path : Path) (mode : Nat) : FileTree :=
  tree.change (tree.target path) (.setMode mode)

/-- The tree without the entry at a path and what is below it. -/
def remove (tree : FileTree) (path : Path) : FileTree :=
  tree.change (tree.place path) .remove

end FileTree

end CommandTree
