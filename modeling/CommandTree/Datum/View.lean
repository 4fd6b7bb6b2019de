import CommandTree.Datum.Members

/-!
# Views of data

An attribute that may only be read gives a view of what it holds: a list is seen as a tuple, a record and
a set as ones that cannot be changed, and all else as it is.

`Datum.view?` is the view of a datum.  `Naming` says how a function is given a name, and what is wrong with
a request to do so.
-/

namespace CommandTree

namespace Datum

/-- The word for the kind of the view of a datum. -/
def viewWord : Datum → Text
  | none => "NoneType"
  | unset => "UnsetType"
  | bool _ => "bool"
  | int _ => "int"
  | decimal _ _ _ => "float"
  | text _ => "str"
  | styled _ _ => "Text"
  | list _ => "tuple"
  | set _ => "frozenset"
  | record _ => "mappingproxy"

/-- The view of a datum, the members of a set in order; a set whose members have no order has none. -/
def view? : Datum → Option Datum
  | set items => (members? items).map list
  | other => some other

/-! ## Kinds -/

/-- The word for the kind of the datum that was not given. -/
def unsetWord : Text := "sub.utils.UnsetType"

/-- How the choice between a datum as a kind and the kind of the datum that was not given is shown, if
there is one: only nothing and the datum that was not given stand for kinds. -/
def choice? (unsetFirst : Bool) : Datum → Option Text
  | none => some (if unsetFirst then unsetWord ++ " | None" else "None | " ++ unsetWord)
  | unset => some ("<class '" ++ unsetWord ++ "'>")
  | _ => Option.none

/-- Whether a datum is a text or was not given. -/
def isTextOrUnset : Datum → Bool
  | text _ | unset => true
  | _ => false

/-- Whether a datum is a whole number, as conditions are, or was not given. -/
def isIntOrUnset : Datum → Bool
  | int _ | bool _ | unset => true
  | _ => false

/-- The wording of the refusal to build on the kind of the datum that was not given. -/
def unsetKindMessage : Text := "type 'UnsetType' is not an acceptable base type"

/-- The wording for an attribute whose name is no text. -/
def attributeNameMessage : Text := "mirror() argument must be a string"

end Datum

/-- What a request to name a function consists of. -/
inductive Naming.Part where
  | function
  | datum (value : Datum)

namespace Naming

/-- What is wrong with a request to name a function. -/
inductive Defect where
  | count (n : Nat)
  | loneNotText
  | notFunction
  | nameNotText
deriving DecidableEq

/-- The wording of a defect. -/
def Defect.message : Defect → Text
  | count n => "rename takes 1 to 2 arguments but " ++ Text.ofNat n ++ " were given"
  | loneNotText => "@rename() argument must be a string"
  | notFunction => "rename() first argument must be callable"
  | nameNotText => "rename() second argument must be a string"

/-- The name that a function is given by a request: a name alone, or a function and a name. -/
def resolve : List Part → Except Defect Text
  | [.datum (.text name)] => .ok name
  | [_] => .error .loneNotText
  | [.function, .datum (.text name)] => .ok name
  | [.function, _] => .error .nameNotText
  | [_, _] => .error .notFunction
  | parts => .error (.count parts.length)

end Naming

end CommandTree
