import CommandTree.Docs.Basic
import CommandTree.Docs.Block
import CommandTree.Failure

/-!
# Documentation of files

Reading the comment block at the top of a file, and the documentation in it.  A file that is not there
is a failure of the caller; one that is there and cannot be read, or whose block is not UTF-8, is a
cause of which a user is told.
-/

namespace CommandTree

namespace Docs

/-- The comment block of the file at a path. -/
def blockAt (tree : FileTree) (path : Path) : Except Failure (List Text) :=
  match tree.read path with
  | .error .noEntry => .error (.refusal .noEntry)
  | .error reason => .error (.cause (.unreadable path (.ofErrno reason)))
  | .ok content =>
    match Block.read content with
    | .error line => .error (.cause (.undecodableLine path line))
    | .ok lines => .ok lines

/-- The documentation of the file at a path. -/
def ofFile (tree : FileTree) (path : Path) : Except Failure Docs :=
  (blockAt tree path).map ofLines

/-- The documentation of the file at a path; a file that is not there says nothing. -/
def ofFileIfAny (tree : FileTree) (path : Path) : Except Failure Docs :=
  match tree.holdsAt path FileTree.Node.isFile with
  | .error reason => .error (.refusal reason)
  | .ok false => .ok none
  | .ok true => ofFile tree path

end Docs

end CommandTree
