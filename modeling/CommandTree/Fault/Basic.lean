import CommandTree.Datum.Basic
import CommandTree.Declaration
import CommandTree.Fault.Kind
import CommandTree.OsError
import CommandTree.Usage.Basic

/-!
# Faults

A fault has a kind, a message of one sentence, and a context: named details that say what the fault is
about (`name`, `path`, `argument`, …) or how it is to be reported (`prog`, `hint`, `details`, …).

`Fault.extend` changes the context and `Fault.get` reads it, together with what every fault has.
-/

namespace CommandTree

mutual

/-- What a fault says about one point of its context. -/
inductive Fault.Detail where
  | datum (value : Datum)
  | declaration (declaration : Declaration)
  | declarations (declarations : List Declaration)
  | problems (problems : List Usage.Problem)
  | refusal (reason : OsError)
  /-- Bytes that are not UTF-8. -/
  | undecodable
  /-- A text that is not UTF-8. -/
  | unencodable
  | fault (fault : Fault)

/-- An error or a warning, with what is known about it. -/
inductive Fault where
  | of (kind : Fault.Kind) (message : Text) (context : List (Text × Fault.Detail))

end

namespace Fault

/-- What a fault is told with. -/
abbrev Context := Assoc Text Detail

/-- The kind of a fault. -/
def kind : Fault → Kind
  | of kind _ _ => kind

/-- The sentence that a fault is reported with. -/
def message : Fault → Text
  | of _ message _ => message

/-- What is known about a fault. -/
def context : Fault → Context
  | of _ _ context => context

/-- The fault with more known about it. -/
def extend (fault : Fault) (more : Context) : Fault :=
  of fault.kind fault.message (Assoc.insertAll fault.context more)

/-- The datum of a name in the context of a fault. -/
def datum? (fault : Fault) (name : Text) : Option Datum :=
  match List.lookup name fault.context with
  | some (.datum value) => some value
  | _ => none

/-- Whether the context of a fault says something that is true under a name. -/
def affirms (fault : Fault) (name : Text) (byDefault : Bool) : Bool :=
  match List.lookup name fault.context with
  | some (.datum value) => value.truthy
  | some (.declarations []) | some (.problems []) => false
  | some _ => true
  | none => byDefault

/-- What a fault has under a name. -/
inductive Attribute where
  | code (code : Option Nat)
  | quiet (quiet : Bool)
  | message (message : Text)
  | arguments (arguments : List Text)
  | context (context : Context)
  | detail (detail : Detail)

/-- Whether a name is reserved. -/
def isReserved (name : Text) : Bool :=
  Text.startsWith "__" name

/-- Why a fault has nothing under a name; a reserved name is refused without a word. -/
inductive Missing where
  | reserved
  | option (kind : Kind) (name : Text)
deriving DecidableEq

/-- The wording of a refusal. -/
def Missing.message : Missing → Text
  | reserved => []
  | option kind name => kind.name.quoted ++ " " ++ kind.word ++ " has no option " ++ name.quoted

/-- What is known about the raising of a fault that was not raised: nothing caused it, and it was nowhere. -/
def raising? (name : Text) : Option Datum :=
  if name = "__cause__" || name = "__context__" || name = "__traceback__" then some .none
  else if name = "__suppress_context__" then some (.bool false)
  else none

/-- What every fault has.  Only the kinds without a code are described. -/
def ownAttribute? (fault : Fault) (name : Text) : Option Attribute :=
  if name = "code" then some (.code (fault.kind.code?.map Prod.snd))
  else if name = "quiet" then some (.quiet fault.kind.isQuiet)
  else if name = "message" then some (.message fault.message)
  else if name = "args" then some (.arguments [fault.message])
  else if name = "options" then some (.context fault.context)
  else if name = "__doc__" && fault.kind.code?.isSome then some (.detail (.datum .none))
  else (raising? name).map fun datum => .detail (.datum datum)

/-- What a fault has under a name: what every fault has comes before its context. -/
def get (fault : Fault) (name : Text) : Except Missing Attribute :=
  match fault.ownAttribute? name with
  | some own => .ok own
  | none =>
    if isReserved name then .error .reserved
    else
      match List.lookup name fault.context with
      | some detail => .ok (.detail detail)
      | none => .error (.option fault.kind name)

end Fault

end CommandTree
