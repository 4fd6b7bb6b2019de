import CommandTree.FileTree.Basic

/-!
# Refusals of the operating system

What the operating system gives as a reason when it refuses to open a file or to start a program.
-/

namespace CommandTree

/-- A refusal of the operating system: one with a number and a reason, or one that is only a text. -/
inductive OsError where
  | coded (number : Int) (reason : Text)
  | plain (text : Text)
deriving DecidableEq

namespace OsError

/-- The refusal that a reason of a file tree is. -/
def ofErrno (reason : Errno) : OsError :=
  coded reason.number reason.reason

/-- The number of a refusal, if it has one. -/
def number? : OsError → Option Int
  | coded number _ => some number
  | plain _ => none

/-- How a message names a refusal: by its reason, or by its number where the reason is empty. -/
def describe : OsError → Text
  | coded number [] => "[Errno " ++ Text.ofInt number ++ "] "
  | coded _ reason => reason
  | plain text => text

end OsError

end CommandTree
