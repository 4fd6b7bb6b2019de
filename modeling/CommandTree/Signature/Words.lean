import CommandTree.Signature.Parse

/-!
# Words of any kind

Whoever hands in the words of a command line may hand in other data among them.  A word that only goes to a
cardinal may be any datum; a word that is looked into, because it might be a switch or the value of an
option, must be a text.

Once the walk meets a word that is no text, no later word is looked into: the walk fails there, or `--` came
before, or the greedy cardinal captures.  `Signature.parseData` therefore walks over the texts at the start
and gives the rest to the cardinals that are left.

`Signature.parseData_text` states that words which are all texts are read as `Signature.parse` reads them.
-/

namespace CommandTree

/-- Words up to the first one that is no text, and the others. -/
def Datum.leadingTexts : List Datum → List Text × List Datum
  | .text word :: rest => (word :: (leadingTexts rest).1, (leadingTexts rest).2)
  | rest => ([], rest)

theorem Datum.leadingTexts_text (words : List Text) : leadingTexts (words.map text) = (words, []) := by
  induction words with
  | nil => rfl
  | cons word rest ih => simp [leadingTexts, ih]

/-- Why words of any kind are refused. -/
inductive Signature.Refusal where
  | fault (fault : ArgumentFault)
  /-- A word that is looked into is no text. -/
  | notText
deriving DecidableEq

namespace Walk

/-- The values of cardinals to which words are given in order, after some words that were read. -/
def assign (cardinals : List Declaration) (read : Nat) : List Datum → Except ArgumentFault (Assoc Text Datum)
  | [] => .ok []
  | word :: rest =>
    match cardinals with
    | [] => .error (.unexpected word (read + 1))
    | d :: more =>
      if d.isGreedy then .ok [(d.key, .list (word :: rest))]
      else (assign more (read + 1) rest).map fun values => (d.key, word) :: values

/-- Further data for the argument that captures. -/
def appendData (key : Text) (data : List Datum) (values : Assoc Text Datum) : Assoc Text Datum :=
  values.map fun
    | (k, .list items) => if k = key then (k, .list (items ++ data)) else (k, .list items)
    | other => other

/-- The values after the last word, where the words from the first one that is no text on are still to be
read. -/
def conclude (walk : Walk) : List Datum → Except Signature.Refusal (Assoc Text Datum)
  | [] => (walk.finish.mapError Signature.Refusal.fault).map Values.data
  | word :: rest =>
    match walk.mode with
    | .free | .awaiting _ _ => .error .notText
    | .words =>
      match assign walk.cardinals walk.read (word :: rest) with
      | .error fault => .error (.fault fault)
      | .ok more => .ok (walk.values.data ++ more)
    | .capturing key => .ok (appendData key (word :: rest) walk.values.data)

end Walk

namespace Signature

/-- The values that words of any kind give, before they are checked as a whole. -/
def walkData (sig : Signature) (words : List Datum) : Except Refusal (Assoc Text Datum) :=
  match Walk.run sig (.start sig) (Datum.leadingTexts words).1 with
  | .error fault => .error (.fault fault)
  | .ok walk => walk.conclude (Datum.leadingTexts words).2

/-- The values that words of any kind give to the arguments of a command. -/
def parseData (sig : Signature) (words : List Datum) : Except Refusal (Assoc Text Datum) :=
  match sig.walkData words with
  | .error refusal => .error refusal
  | .ok values =>
    match sig.objectionTo? (Assoc.keys values) with
    | some fault => .error (.fault fault)
    | none => .ok (sig.arrange values)

theorem arrange_data (sig : Signature) (values : Values) :
    sig.arrange values.data = Values.data (sig.arrange values) := by
  simp only [arrange, Values.lookup_data]
  simp [Values.data, List.map_filterMap, Function.comp_def]

/-- Words that are all texts are read as a command line is. -/
theorem parseData_text (sig : Signature) (words : List Text) :
    sig.parseData (words.map .text) = ((sig.parse words).mapError Refusal.fault).map Values.data := by
  simp only [parseData, walkData, parse, walk, Datum.leadingTexts_text, Walk.conclude]
  cases Walk.run sig (.start sig) words with
  | error fault => rfl
  | ok last =>
    simp only
    cases last.finish with
    | error fault => rfl
    | ok values =>
      have hread : (Except.mapError Refusal.fault (.ok values)).map Values.data = .ok values.data := rfl
      simp only [hread, Values.keys_data]
      cases sig.objectionTo? (Assoc.keys values) with
      | some fault => rfl
      | none =>
        simp only [arrange_data]
        rfl

end Signature

end CommandTree
