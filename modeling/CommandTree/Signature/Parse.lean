import CommandTree.Signature.Fault
import CommandTree.Signature.Values
import CommandTree.Text.Similarity

/-!
# Reading the words of a command line

The words given to a command are read one at a time, from left to right.  A `Walk` is what is known
after some of them: how many were read, the values so far, the cardinals that have none yet, and the
`Mode` in which the next word is read.

* *free*: a word that starts with a dash is a switch, `--` ends the switches, any other word goes to the
  next cardinal;
* *awaiting*: the word is the value of the option before it;
* *words*: after `--`, every word goes to the next cardinal;
* *capturing*: every word goes to the greedy cardinal.

Since a step looks at one word only, `Walk.run` of `xs ++ ys` is that of `ys` from where `xs` leads
(`Walk.run_append`): a fault depends on no word after the one at which it is met.

`Signature.parse` walks over all words and then checks them as a whole: an exclusive argument must be
alone, and without one every required argument must be there.
-/

namespace CommandTree

/-- The glyph that introduces a switch. -/
def dash : Glyph := .char '-'

/-- The word that ends the switches. -/
def terminator : Text := [dash, dash]

/-- Whether a word is read as a switch: it starts with a dash and is not a dash alone. -/
def looksLikeSwitch (word : Text) : Bool :=
  word.head? = some dash && word ≠ [dash]

/-- How the next word is read. -/
inductive Walk.Mode where
  | free
  | awaiting (option : Declaration) (index : Nat)
  | words
  | capturing (key : Text)
deriving DecidableEq

/-- What is known after some words. -/
structure Walk where
  read : Nat
  values : Values
  cardinals : List Declaration
  mode : Walk.Mode
deriving DecidableEq

namespace Signature

/-! ## Finding switches -/

/-- The names of the switches that start with `--` and the given text, in order of texts. -/
def completionsOf (sig : Signature) (name : Text) : List Text :=
  if sig.infer ∧ name ≠ [] then
    ((sig.switches.map Declaration.name).filter (Text.startsWith (terminator ++ name))).mergeSort
      fun a b => !b.before a
  else []

/-- How many similar names are suggested for an unknown switch. -/
def suggestionLimit : Nat := 5

/-- The switch that a long name stands for, in the word of the given index: the one of that name, or
the only one that starts with it where names may be shortened. -/
def findLong (sig : Signature) (name : Text) (index : Nat) : Except ArgumentFault Declaration :=
  let full := terminator ++ name
  match sig.switch? full with
  | some d => .ok d
  | none =>
    match sig.completionsOf name with
    | [only] =>
      match sig.switch? only with
      | some d => .ok d
      | none => .error (.unknownLong full index [])
    | [] =>
      .error (.unknownLong full index
        (Similarity.closest suggestionLimit full (sig.switches.map Declaration.name)))
    | candidates => .error (.ambiguous full index candidates)

end Signature

namespace Walk

/-- The walk before the first word. -/
def start (sig : Signature) : Walk :=
  ⟨0, [], sig.cardinals, .free⟩

/-- The keys that have a value. -/
def keys (walk : Walk) : List Text :=
  walk.values.map Prod.fst

/-- A value for a switch; a switch is given once. -/
def record (walk : Walk) (d : Declaration) (value : Value) (index : Nat) :
    Except ArgumentFault Walk :=
  if d.key ∈ walk.keys then .error (.duplicated d index)
  else .ok { walk with values := walk.values ++ [(d.key, value)] }

/-- A word for the next cardinal. -/
def takeWord (walk : Walk) (word : Text) : Except ArgumentFault Walk :=
  match walk.cardinals with
  | [] => .error (.unexpected (.text word) walk.read)
  | d :: rest =>
    if d.isGreedy then
      .ok { walk with
        values := walk.values ++ [(d.key, .captured [word])], mode := .capturing d.key }
    else .ok { walk with values := walk.values ++ [(d.key, .text word)], cardinals := rest }

/-- One more text for the argument that captures. -/
def appendTo (key word : Text) (values : Values) : Values :=
  values.map fun
    | (k, .captured texts) => if k = key then (k, .captured (texts ++ [word])) else (k, .captured texts)
    | other => other

/-- A long switch, its dashes taken off: a name and, after `=`, a value. -/
def takeLong (sig : Signature) (walk : Walk) (body : Text) : Except ArgumentFault Walk :=
  let (name, inline) := Text.cutAt (.char '=') body
  match sig.findLong name walk.read with
  | .error fault => .error fault
  | .ok d =>
    if d.isOption then
      match inline with
      | none => .ok { walk with mode := .awaiting d walk.read }
      | some [] => .error (.valueEmpty d walk.read)
      | some value => walk.record d (.text value) walk.read
    else
      match inline with
      | some _ => .error (.assigned d walk.read)
      | none => walk.record d .on walk.read

/-- The letters of short flags in one word; `assigned` says that `=` follows the last one. -/
def takeLetters (sig : Signature) (assigned : Bool) (walk : Walk) :
    Text → Except ArgumentFault Walk
  | [] => .ok walk
  | letter :: rest =>
    match sig.switch? [dash, letter] with
    | none => .error (.unknownShort [dash, letter] walk.read)
    | some d =>
      if assigned ∧ rest = [] then .error (.assigned d walk.read)
      else
        match walk.record d .on walk.read with
        | .error fault => .error fault
        | .ok next => takeLetters sig assigned next rest

/-- A word that is read as a switch if it looks like one. -/
def takeFree (sig : Signature) (walk : Walk) (word : Text) : Except ArgumentFault Walk :=
  if word = terminator then .ok { walk with mode := .words }
  else
    match Text.after? terminator word with
    | some body => takeLong sig walk body
    | none =>
      if looksLikeSwitch word then
        let (letters, inline) := Text.cutAt (.char '=') (word.drop 1)
        takeLetters sig inline.isSome walk letters
      else walk.takeWord word

/-- The next word. -/
def step (sig : Signature) (before : Walk) (word : Text) : Except ArgumentFault Walk :=
  let walk := { before with read := before.read + 1 }
  match before.mode with
  | .free => takeFree sig walk word
  | .awaiting d index =>
    if looksLikeSwitch word then .error (.valueMissing d index)
    else { walk with mode := .free }.record d (.text word) index
  | .words => walk.takeWord word
  | .capturing key => .ok { walk with values := appendTo key word walk.values }

/-- Some words, one after the other. -/
def run (sig : Signature) (walk : Walk) (words : List Text) : Except ArgumentFault Walk :=
  words.foldlM (step sig) walk

/-- The values after the last word; no option may be left without its value. -/
def finish (walk : Walk) : Except ArgumentFault Values :=
  match walk.mode with
  | .awaiting d index => .error (.valueMissing d index)
  | _ => .ok walk.values

theorem run_append (sig : Signature) (walk : Walk) (xs ys : List Text) :
    run sig walk (xs ++ ys) = run sig walk xs >>= fun w => run sig w ys := by
  simp [run, List.foldlM_append]

end Walk

namespace Signature

/-- The values that some words give, before they are checked as a whole. -/
def walk (sig : Signature) (words : List Text) : Except ArgumentFault Values :=
  match Walk.run sig (.start sig) words with
  | .error fault => .error fault
  | .ok last => last.finish

/-- The declarations whose keys have a value, in order. -/
def present (sig : Signature) (keys : List Text) : List Declaration :=
  sig.declarations.filter fun d => d.key ∈ keys

/-- The first required argument whose key has no value. -/
def firstMissing? (sig : Signature) (keys : List Text) : Option Declaration :=
  sig.declarations.find? fun d => d.required && !decide (d.key ∈ keys)

/-- What is wrong with values for some keys as a whole. -/
def objectionTo? (sig : Signature) (keys : List Text) : Option ArgumentFault :=
  let present := sig.present keys
  match present.filter Declaration.exclusive with
  | [] => (sig.firstMissing? keys).map .missing
  | d :: _ =>
    if 1 < present.length then some (.notAlone d (present.filter fun other => other.key ≠ d.key))
    else none

/-- The values in the order of the declarations. -/
def arrange {α : Type} (sig : Signature) (values : Assoc Text α) : Assoc Text α :=
  sig.declarations.filterMap fun d => (List.lookup d.key values).map fun value => (d.key, value)

/-- The values that the words of a command line give to the arguments of a command. -/
def parse (sig : Signature) (words : List Text) : Except ArgumentFault Values :=
  match sig.walk words with
  | .error fault => .error fault
  | .ok values =>
    match sig.objectionTo? (Assoc.keys values) with
    | some fault => .error fault
    | none => .ok (sig.arrange values)

end Signature

end CommandTree
