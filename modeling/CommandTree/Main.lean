import CommandTree.FrontEnd.Serve

/-!
# The program

The command line of the program.  The files below the root directory are read first, then the program
runs, and what it printed and reported is written to the two output streams.

This host starts no processes: a script that is to be run is refused with the reason that the system
gives for what it does not do.  It does not tell which files may be executed either, so that every file
counts as a script.
-/

namespace CommandTree

namespace Host

/-- The permission bits of a file when nothing is known about them. -/
def usualMode : Nat := 0o755

/-- The reason for not starting a process. -/
def noProcesses : OsError := .coded 38 "Function not implemented"

/-- The characters of a text. -/
def characters (text : Text) : String :=
  String.ofList (text.filterMap fun | .char c => some c | .stray _ => none)

/-- A tree with what is below a directory added. -/
partial def addEntries (tree : FileTree) (path : Path) : IO FileTree := do
  let directory ← IO.FS.realPath (characters path.toText)
  (← directory.readDir).foldlM (fun tree entry => do
    let place := path.child (Text.lit entry.fileName)
    match (← entry.path.symlinkMetadata).type with
    | .dir => addEntries (tree.makeDirectory place) place
    | .symlink =>
      try return tree.makeLink place (Text.lit (← IO.FS.realPath entry.path).toString)
      catch _ => return tree
    | .file => return tree.write place usualMode (← IO.FS.readBinFile entry.path).toList
    | .other => return tree) tree

/-- The files below a directory, as a tree; none if it cannot be read. -/
def readTree (root : Path) : IO FileTree := do
  try addEntries (FileTree.empty.makeDirectory root) root
  catch _ => return .empty

/-- The host on which the program runs, with the files below the root directory that its arguments
name. -/
def current (args : List Text) : IO Host := do
  let directory := Path.ofText (Text.lit (← IO.currentDir).toString)
  let home := Path.ofText (Text.lit ((← IO.getEnv "HOME").getD "/"))
  let cache := (← IO.getEnv "XDG_CACHE_HOME").toList.map fun value =>
    (Config.cacheVariable, Text.lit value)
  let root := (FrontEnd.signature.parse args).toOption.bind fun values =>
    (FrontEnd.rootOf directory values.data).toOption
  let files ← match root with
    | some root => readTree root
    | none => pure .empty
  return ⟨files, cache, home, directory⟩

end Host

/-- Writes what was printed and reported. -/
def Journal.write (journal : Journal) : IO Unit := do
  let out ← IO.getStdout
  let err ← IO.getStderr
  out.write (ByteArray.mk journal.out.toBytes.toArray)
  err.write (ByteArray.mk journal.err.toBytes.toArray)
  out.flush
  err.flush

end CommandTree

open CommandTree in
/-- Runs the program with the arguments that it was called with. -/
def main (args : List String) : IO UInt32 := do
  let words := args.map Text.lit
  let host ← Host.current words
  let action := FrontEnd.run host (words.map .text)
  let (result, journal) := action.perform (.start (List.replicate 2 (.refused Host.noProcesses)))
  journal.write
  return match result with
    | .ok code => code.toUInt32
    | .error _ => 1
