import CommandTree.Binary
import CommandTree.Datum.Basic

/-!
# Sets and tables of data

Some data are numbers, conditions among them, and compare by size; texts compare as names are listed.  Two
data that compare as equal are one and the same member of a set, and one and the same key of a table.

* `Datum.members?` lists the members of a set: each one once, in order.
* `Datum.table?` makes a table of entries: a key that is written again keeps its place and its spelling.
-/

namespace CommandTree

namespace Datum

/-- The number that a datum is, as a fraction; a condition counts as zero or one, and a decimal number as
what is held in its place. -/
def number? : Datum → Option (Int × Nat)
  | bool value => some (if value then 1 else 0, 1)
  | int value => some (value, 1)
  | decimal negative digits places =>
    let (size, unit) := Binary.nearest digits (Nat.pow 10 places)
    some (if negative then -size else size, unit)
  | _ => Option.none

/-- How two data compare, if they can be compared: numbers by size, texts as names are listed. -/
def compare? (a b : Datum) : Option Ordering :=
  match number? a, number? b, a, b with
  | some (m, d), some (n, e), _, _ => some (compare (m * e) (n * d))
  | _, _, text s, text t => some (if s.before t then .lt else if t.before s then .gt else .eq)
  | _, _, _, _ => Option.none

/-- Whether two members of a set are one and the same. -/
def isSame : Datum → Datum → Bool
  | none, none | unset, unset => true
  | a, b => compare? a b = some .eq

/-- Whether a datum may be a member of a set or the key of a table: what may change may not. -/
def mayBeMember : Datum → Bool
  | styled _ _ | list _ | set _ | record _ => false
  | _ => true

/-! ## Sets -/

/-- Data without those that are the same as one before them. -/
def distinct : List Datum → List Datum
  | [] => []
  | datum :: rest => datum :: (distinct rest).filter fun other => !isSame datum other

/-- A datum at its place among others in order, if it can be compared with those before it and with the
first one after it. -/
def place? (datum : Datum) : List Datum → Option (List Datum)
  | [] => some [datum]
  | other :: rest =>
    match compare? datum other with
    | some .gt => (place? datum rest).map fun placed => other :: placed
    | some _ => some (datum :: other :: rest)
    | Option.none => Option.none

/-- Data in order, if they can be compared. -/
def arrange? : List Datum → Option (List Datum)
  | [] => some []
  | datum :: rest => (arrange? rest).bind (place? datum)

/-- The members of the set of some data in order, if they may be members and can be compared. -/
def members? (items : List Datum) : Option (List Datum) :=
  if items.all mayBeMember then arrange? (distinct items) else Option.none

/-! ## Tables -/

/-- A table of data with an entry written: a key that is there keeps its place and its spelling. -/
def write (key value : Datum) : List (Datum × Datum) → List (Datum × Datum)
  | [] => [(key, value)]
  | (k, v) :: rest => if isSame k key then (k, value) :: rest else (k, v) :: write key value rest

/-- The table of some entries, if their keys may be keys. -/
def table? (entries : List (Datum × Datum)) : Option (List (Datum × Datum)) :=
  if entries.all fun entry => mayBeMember entry.1 then
    some (entries.foldl (fun table entry => write entry.1 entry.2 table) [])
  else Option.none

end Datum

end CommandTree
