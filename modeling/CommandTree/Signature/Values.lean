import CommandTree.Datum.Equality
import CommandTree.Text.Utf8

/-!
# Values of arguments

What a command line gives to the arguments of a command, by their keys: a flag is on, an option or a
cardinal has a text, and a greedy cardinal has the texts that it captured.

Scripts receive their values as one line of keys with quoted values.  Inside the quotes the double quote
and the backslash are preceded by a backslash.  A value that is not UTF-8 cannot be passed on.
-/

namespace CommandTree

/-- The value of an argument. -/
inductive Value where
  | on
  | text (text : Text)
  | captured (texts : List Text)
deriving DecidableEq

/-- The values of some arguments by key, in the order of their declarations. -/
abbrev Values := List (Text × Value)

namespace Value

/-- The value as one text: `true` for a flag that is on, a space between captured texts. -/
def flatten : Value → Text
  | on => "true"
  | text t => t
  | captured ts => Text.join " " ts

/-- The value as a datum. -/
def datum : Value → Datum
  | on => .bool true
  | text t => .text t
  | captured ts => .list (ts.map .text)

/-- Why a datum is not the value of an argument. -/
inductive Mismatch where
  /-- It is no text. -/
  | notText
  /-- It is a list that does not consist of texts. -/
  | notTexts
deriving DecidableEq

/-- The value that a datum is. -/
def ofDatum : Datum → Except Mismatch Value
  | .bool true => .ok on
  | .text t => .ok (text t)
  | .list items =>
    match items.mapM Datum.text? with
    | some ts => .ok (captured ts)
    | none => .error .notTexts
  | _ => .error .notText

end Value

namespace Values

/-- The values as data. -/
def data (values : Values) : Assoc Text Datum :=
  values.map fun entry => (entry.1, entry.2.datum)

theorem keys_data (values : Values) : Assoc.keys values.data = Assoc.keys values := by
  simp [Assoc.keys, data, Function.comp_def]

theorem lookup_data (values : Values) (key : Text) :
    List.lookup key values.data = (List.lookup key values).map Value.datum := by
  induction values with
  | nil => rfl
  | cons entry rest ih =>
    obtain ⟨first, value⟩ := entry
    by_cases h : key = first
    · simp [data, h]
    · simpa [data, List.lookup_cons, beq_false_of_ne h] using ih

/-- A glyph between double quotes. -/
def escape (g : Glyph) : Text :=
  if g = .char '\\' ∨ g = .char '"' then [.char '\\', g] else [g]

/-- A value between double quotes. -/
def enclose (value : Text) : Text :=
  .char '"' :: value.flatMap escape ++ [.char '"']

/-- A key with its value. -/
def writeEntry (key value : Text) : Text :=
  key ++ " " ++ enclose value

/-- The line in which a script receives its values. -/
def write (entries : List (Text × Text)) : Text :=
  Text.join " " (entries.map fun entry => writeEntry entry.1 entry.2)

/-- The values with each one flattened. -/
def flattened (values : Values) : List (Text × Text) :=
  values.map fun entry => (entry.1, entry.2.flatten)

/-- The first key whose value is not UTF-8. -/
def firstUnencodable? (values : Values) : Option Text :=
  (values.flattened.find? fun entry => !entry.2.isEncodable).map Prod.fst

/-- The line in which a script receives its values; the first key whose value is not UTF-8 where there
is one. -/
def serialize (values : Values) : Except Text Text :=
  match values.firstUnencodable? with
  | some key => .error key
  | none => .ok (write values.flattened)

/-! ## Data -/

/-- Why data cannot be serialized. -/
inductive Refusal where
  | notUtf8 (key : Datum)
  | mismatch (reason : Value.Mismatch)
deriving DecidableEq

/-- The texts that data with keys of any kind are, as long as they can be written. -/
def ofData : List (Datum × Datum) → Except Refusal (List (Text × Text))
  | [] => .ok []
  | (key, datum) :: rest =>
    match Value.ofDatum datum with
    | .error reason => .error (.mismatch reason)
    | .ok value =>
      if value.flatten.isEncodable then
        (ofData rest).map fun entries => (key.display, value.flatten) :: entries
      else .error (.notUtf8 key)

/-- The line that data of any kind give, or the first thing that is wrong with them. -/
def serializeData (data : List (Datum × Datum)) : Except Refusal Text :=
  (ofData data).map write

theorem ofDatum_datum (value : Value) : Value.ofDatum value.datum = .ok value := by
  cases value with
  | on => rfl
  | text t => rfl
  | captured ts => simp only [Value.ofDatum, Value.datum, Datum.mapM_text?_text]

/-- Values are serialized the same way as the data that they are. -/
theorem serializeData_data (values : Values) :
    serializeData (values.data.map fun entry => (.text entry.1, entry.2)) =
      values.serialize.mapError fun key => .notUtf8 (.text key) := by
  have hdata : ofData (values.data.map fun entry => (.text entry.1, entry.2)) =
      match values.firstUnencodable? with
      | some key => .error (.notUtf8 (.text key))
      | none => .ok values.flattened := by
    induction values with
    | nil => rfl
    | cons entry rest ih =>
      simp only [data, List.map_cons, ofData, ofDatum_datum]
      simp only [data] at ih
      by_cases h : entry.2.flatten.isEncodable = true
      · rw [if_pos h, ih]
        simp only [firstUnencodable?, flattened, List.map_cons, List.find?_cons, h, Bool.not_true]
        cases (List.find? (fun entry => !entry.2.isEncodable)
          (List.map (fun entry => (entry.1, entry.2.flatten)) rest)) <;> rfl
      · simp [h, firstUnencodable?, flattened]
  rw [serializeData, hdata, serialize]
  cases values.firstUnencodable? <;> rfl

end Values

end CommandTree
