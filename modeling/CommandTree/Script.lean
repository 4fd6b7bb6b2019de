import CommandTree.Docs.Source
import CommandTree.OptionLine.Index
import CommandTree.Usage.Parser

/-!
# Scripts

A `Script` is a file with what its comment block says.  What the annotations mean is read off it: the
usage line (`Script.usage`), the option lines, and the completion index.  Annotations that cannot be
read are no obstacle to loading a script; they are kept as causes.

`Script.signature` is the signature that the usage line states.  Each token of the line becomes a
declaration, the rest capture a greedy cardinal, and descriptions come from the option lines.  The
declarations are checked like any others; that a usage line which can be read always passes the check is
a theorem about the two grammars and not an assumption made here.
-/

namespace CommandTree

/-- A file and what its comment block says. -/
structure Script where
  path : Path
  docs : Docs
deriving DecidableEq

namespace Script

/-- The script at a path. -/
def load (tree : FileTree) (path : Path) : Except Failure Script :=
  (Docs.ofFile tree path).map fun docs => ⟨path, docs⟩

/-- What reading the usage line gives, where there is one. -/
def reading (script : Script) : Option (Except (List Usage.Problem) Usage) :=
  script.docs.usage.map Usage.parse?

/-- The usage that the usage line states, where it can be read. -/
def usage (script : Script) : Option Usage :=
  script.reading.bind Except.toOption

/-- What is wrong with the usage line. -/
def usageCause (script : Script) : Option Cause :=
  script.docs.usage.bind fun line =>
    match Usage.parse? line with
    | .ok _ => none
    | .error problems => some (.invalidUsage line problems (some script.path))

/-- Whether there is a usage line. -/
def hasUsage (script : Script) : Bool :=
  script.docs.usage.isSome

/-- The option lines that can be read. -/
def options (script : Script) : List OptionLine :=
  OptionLine.accepted script.docs.options

/-- The option lines that cannot be read. -/
def skipped (script : Script) : List OptionLine.Skipped :=
  OptionLine.skipped script.docs.options

/-- What is wrong with the option lines that cannot be read. -/
def optionCauses (script : Script) : List Cause :=
  script.skipped.map fun line => .invalidOption line (some script.path)

/-- Where the values of the arguments are found. -/
def index (script : Script) : CompletionIndex :=
  .build script.options

/-- All that is wrong with the annotations, the usage line first. -/
def problems (script : Script) : List Cause :=
  script.usageCause.toList ++ script.optionCauses

/-! ## Signatures -/

/-- The description of a key: that of the last option line of this name which has one. -/
def description? (lines : List OptionLine) (key : Text) : Option Text :=
  lines.reverse.findSome? fun line => if line.name = key then line.description else none

/-- A description that a draft may have. -/
def describe (lines : List OptionLine) (key : Text) : Datum :=
  ((description? lines key).map Datum.text).getD .unset

/-- The draft for an argument of a usage line. -/
def draftOf (lines : List OptionLine) (argument : Usage.Argument) : Declaration.Draft :=
  let draft (kind : Declaration.Draft.Kind) (name : Text) (metavar : Option Datum) :
      Declaration.Draft :=
    { kind
      name := .text name
      metavar
      required := .bool argument.required
      exclusive := .bool argument.exclusive
      greedy := .bool false
      description := describe lines argument.key }
  match argument.form with
  | .positional name => draft .cardinal name none
  | .short letter => draft .flag (.char '-' :: letter) none
  | .long name none => draft .flag (Text.lit "--" ++ name) none
  | .long name (some value) => draft .option (Text.lit "--" ++ name) (some (.text value))

/-- The draft for the rest capture of a usage line. -/
def draftOfRest (lines : List OptionLine) (name : Text) : Declaration.Draft :=
  { kind := .cardinal
    name := .text name
    metavar := none
    required := .bool false
    exclusive := .bool false
    greedy := .bool true
    description := describe lines name }

/-- The drafts for what a usage line states. -/
def drafts (lines : List OptionLine) (usage : Usage) : List Declaration.Draft :=
  usage.arguments.map (draftOf lines) ++ usage.rest.toList.map (draftOfRest lines)

/-- The declaration of a draft, as an entry of a signature. -/
def entryOf (draft : Declaration.Draft) : Except Failure Signature.Entry :=
  match h : draft.check with
  | .ok d => .ok (.declaration d (Declaration.Draft.valid_of_check h))
  | .error defect => .error (.declaration defect)

/-- A text that may be absent, as a datum. -/
def optional (text : Option Text) : Datum :=
  (text.map Datum.text).getD .unset

/-- The signature that the usage line states, for the command line `prog`.  Without a usage line that can
be read it has no arguments. -/
def signature (script : Script) (prog : Text) (infer : Bool) : Except Failure Signature :=
  match ((script.usage.map (drafts script.options)).getD []).mapM entryOf with
  | .error failure => .error failure
  | .ok entries =>
    match Signature.make (.text prog) entries (optional script.docs.summary)
        (optional script.docs.description) infer with
    | .error defect => .error (.signature defect)
    | .ok sig => .ok sig

end Script

end CommandTree
