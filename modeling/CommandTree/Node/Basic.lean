import CommandTree.Config.Basic
import CommandTree.Internal
import CommandTree.Script

/-!
# Nodes of a command tree

The words of a command line lead to a node of the command tree: the top level, an internal command, a
directory of commands, or a file, which is a script with the words that are left for it.
-/

namespace CommandTree

/-- A script that a command line leads to, and the words that are left for it, of whatever kind. -/
structure ScriptFile where
  /-- The words that lead to the script. -/
  names : List Text
  path : Path
  args : List Datum
  /-- The script itself, where it has been read already. -/
  loaded : Option Script
deriving DecidableEq

/-- A node of a command tree. -/
inductive Node where
  | topLevel
  | internal (command : Internal) (args : List Datum)
  | directory (names : List Text) (path : Path)
  | file (script : ScriptFile)
deriving DecidableEq

namespace Node

/-- The words that lead to a node. -/
def names : Node → List Text
  | topLevel => []
  | internal command _ => [command.word]
  | directory names _ => names
  | file script => script.names

/-- The last word that leads to a node; that of the top level is the name of the command line. -/
def name (config : Config) (node : Node) : Text :=
  node.names.getLast?.getD config.name

/-- The command line that leads to a node. -/
def prog (config : Config) (node : Node) : Text :=
  Text.join " " (config.name :: node.names)

/-- The directory of a node whose commands lie in one. -/
def directory? (config : Config) : Node → Option Path
  | topLevel => some config.libexec
  | directory _ path => some path
  | internal _ _ | file _ => none

/-- The file that documents a directory. -/
def readme : Text := "README"

/-- What is said about a node. -/
structure About where
  summary : Text
  description : Text
deriving DecidableEq

/-- What documentation says about a node. -/
def About.ofDocs (docs : Docs) : About :=
  ⟨docs.summary.getD [], docs.description.getD []⟩

/-- What is said about a node: by its comment block, by the one of the README in its directory, or, for
an internal command, by the program. -/
def about (config : Config) (files : FileTree) : Node → Except Failure About
  | topLevel => (Docs.ofFileIfAny files (config.libexec.child readme)).map About.ofDocs
  | directory _ path => (Docs.ofFileIfAny files (path.child readme)).map About.ofDocs
  | file script => (Docs.ofFile files script.path).map About.ofDocs
  | internal command _ => .ok ⟨command.summary, command.description⟩

end Node

end CommandTree
