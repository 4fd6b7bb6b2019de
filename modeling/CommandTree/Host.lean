import CommandTree.Child
import CommandTree.FileTree.Basic

/-!
# Hosts

What is there when a program runs: the files, the environment, the home directory of the user, and the
directory in which the program was called.
-/

namespace CommandTree

/-- What is there when a program runs. -/
structure Host where
  files : FileTree
  environment : Environment
  home : Path
  directory : Path

end CommandTree
