import CommandTree.Fault.Cause

/-!
# Failures

An operation fails with a `Cause`, of which a user is told; or for a reason that is not the user's: the
operating system refuses, or the caller asks for something that there is not.
-/

namespace CommandTree

/-- What a caller asks for that there is not. -/
inductive Misuse where
  | unknownInternal (name : Datum)
  | unknownMode (mode : Datum)
  | notNode (value : Datum)
  /-- A usage line that is no text. -/
  | usageNotText
  /-- An option line that is no text. -/
  | optionNotText
  /-- The annotations of a node that is no file. -/
  | noScript
  /-- A configuration of a command line without a name. -/
  | noName
  /-- A path that is no text. -/
  | notPath
  /-- A word that is looked into and is no text. -/
  | notWord
  /-- Words that are joined and are not all texts. -/
  | notWords
  /-- An extension that is no text. -/
  | notExtension
  /-- A key that may not be one. -/
  | notKey
  /-- A child that cannot be passed on to the operating system. -/
  | unfitChild

/-- The wording of a misuse; the last eight have none. -/
def Misuse.message : Misuse → Text
  | unknownInternal name => "unknown internal command " ++ name.quoted
  | unknownMode mode => "unknown mode " ++ mode.quoted
  | notNode value => "unexpected command node " ++ value.quoted
  | usageNotText => "parse_usage() argument must be a string"
  | optionNotText => "parse_option() argument must be a string"
  | noScript | noName | notPath | notWord | notWords | notExtension | notKey | unfitChild => []

/-- Why an operation fails. -/
inductive Failure where
  | cause (cause : Cause)
  | refusal (reason : Errno)
  | declaration (defect : Declaration.Draft.Defect)
  | signature (defect : Signature.Defect)
  | config (defect : Config.Defect)
  | misuse (misuse : Misuse)

/-- Whether a failure is one that a user is told of. -/
def Failure.isCause : Failure → Bool
  | cause _ => true
  | _ => false

end CommandTree
