import CommandTree.Proofs.Signature.Assignment
import CommandTree.Proofs.Signature.Steps

/-!
# Layouts of command lines

A command line that is read without a fault falls into pieces: long flags, clusters of short flags,
options with their values, words for cardinals, and words that are read and dropped.  A `Layout` is such
a division.  Its front holds the pieces up to the terminator or to the first word for the greedy
cardinal; the tail holds the words from there on, which all go to cardinals.

`Layout.Reads` states the conditions under which the division is the one that is read: the pieces fit
the signature, no cardinal that the front reaches is greedy, a tail without a terminator starts with a
word for the greedy cardinal, there is a cardinal for every word, and no key is given twice.

`Layout.reads_push_switch` and `Layout.reads_push_word` say when a piece may be put in front, and so
reduce the conditions of a layout to those of its pieces.
-/

namespace CommandTree

/-- What one or two words of a command line stand for.  A long name is the one that was written, its
dashes taken off. -/
inductive Piece where
  | flag (d : Declaration) (name : Text)
  | cluster (flags : List Declaration)
  | inline (d : Declaration) (name value : Text)
  | separate (d : Declaration) (name value : Text)
  | word (text : Text)
  /-- A dash, an equals sign, and anything after it. -/
  | idle (rest : Text)

namespace Piece

/-- The words that are written for a piece. -/
def written : Piece → List Text
  | flag _ name => [terminator ++ name]
  | cluster flags => [dash :: flags.flatMap Declaration.key]
  | inline _ name value => [terminator ++ (name ++ .char '=' :: value)]
  | separate _ name value => [terminator ++ name, value]
  | word text => [text]
  | idle rest => [idleOpening ++ rest]

/-- The values that a piece gives to switches. -/
def entries : Piece → Values
  | flag d _ => [(d.key, .on)]
  | cluster flags => flags.map fun d => (d.key, .on)
  | inline d _ value => [(d.key, .text value)]
  | separate d _ value => [(d.key, .text value)]
  | word _ => []
  | idle _ => []

/-- The words of a piece that go to cardinals. -/
def words : Piece → List Text
  | word text => [text]
  | _ => []

/-- Whether a piece is read and dropped. -/
def isIdle : Piece → Bool
  | idle _ => true
  | _ => false

theorem keys_cluster (flags : List Declaration) :
    Assoc.keys (cluster flags).entries = flags.map Declaration.key := by
  simp [entries, Assoc.keys, Function.comp_def]

/-- Whether a piece is what it says under a signature. -/
def Fits (sig : Signature) : Piece → Prop
  | flag d name => sig.Names name d ∧ d.isOption = false
  | cluster flags => flags ≠ [] ∧ ∀ d ∈ flags, d ∈ sig.switches ∧ d.name = dash :: d.key
  | inline d name value => sig.Names name d ∧ d.isOption = true ∧ value ≠ []
  | separate d name value => sig.Names name d ∧ d.isOption = true ∧ looksLikeSwitch value = false
  | word text => looksLikeSwitch text = false
  | idle _ => True

end Piece

/-- A division of a command line. -/
structure Layout where
  front : List Piece
  /-- Whether the terminator stands between the front and the tail. -/
  terminated : Bool
  tail : List Text

namespace Layout

/-- The command line that is divided. -/
def line (layout : Layout) : List Text :=
  layout.front.flatMap Piece.written ++
    ((if layout.terminated then [terminator] else []) ++ layout.tail)

/-- The values that are given to switches. -/
def entries (layout : Layout) : Values :=
  layout.front.flatMap Piece.entries

/-- The words of the front that go to cardinals. -/
def frontWords (layout : Layout) : List Text :=
  layout.front.flatMap Piece.words

/-- All words that go to cardinals. -/
def words (layout : Layout) : List Text :=
  layout.frontWords ++ layout.tail

/-- Where the words of a layout stand with respect to the cardinals that they go to: those of the front
go to cardinals that take one word, and a tail that no terminator precedes starts with a word that opens
the greedy one. -/
structure Stands (layout : Layout) (cardinals : List Declaration) : Prop where
  plain : ∀ d ∈ cardinals.take layout.frontWords.length, d.isGreedy = false
  opening : layout.terminated = false → ∀ word ∈ layout.tail.head?,
    looksLikeSwitch word = false ∧
      ∃ d ∈ (cardinals.drop layout.frontWords.length).head?, d.isGreedy = true

/-- The conditions under which a walk that still has some cardinals and holds some keys goes over a
layout; `dealt` is what the cardinals are given. -/
structure Reads (layout : Layout) (sig : Signature) (cardinals : List Declaration) (keys : List Text)
    (dealt : Values) : Prop where
  fits : ∀ piece ∈ layout.front, piece.Fits sig
  stands : layout.Stands cardinals
  deals : Signature.deal? cardinals layout.words = some dealt
  distinct : (keys ++ Assoc.keys layout.entries ++ Assoc.keys dealt).Nodup

/-- The layout with one more piece in front. -/
def push (piece : Piece) (layout : Layout) : Layout :=
  { layout with front := piece :: layout.front }

@[simp] theorem line_push (piece : Piece) (layout : Layout) :
    (layout.push piece).line = piece.written ++ layout.line := by
  simp only [line, push, List.flatMap_cons, List.append_assoc]
  rfl

@[simp] theorem entries_push (piece : Piece) (layout : Layout) :
    (layout.push piece).entries = piece.entries ++ layout.entries := by
  simp [entries, push]

@[simp] theorem frontWords_push (piece : Piece) (layout : Layout) :
    (layout.push piece).frontWords = piece.words ++ layout.frontWords := by
  simp [frontWords, push]

@[simp] theorem words_push (piece : Piece) (layout : Layout) :
    (layout.push piece).words = piece.words ++ layout.words := by
  simp [words, push, frontWords]

variable {layout : Layout} {sig : Signature} {cardinals : List Declaration} {keys : List Text}
  {dealt : Values}

/-- A layout without pieces deals out its tail. -/
theorem reads_nil {terminated : Bool} {tail : List Text} :
    (⟨[], terminated, tail⟩ : Layout).Reads sig cardinals keys dealt ↔
      (terminated = false → ∀ word ∈ tail.head?,
        looksLikeSwitch word = false ∧ ∃ d ∈ cardinals.head?, d.isGreedy = true) ∧
        Signature.deal? cardinals tail = some dealt ∧ (keys ++ Assoc.keys dealt).Nodup := by
  constructor
  · rintro ⟨-, ⟨-, hopening⟩, hdeals, hdistinct⟩
    exact ⟨hopening, hdeals, by simpa [entries, Assoc.keys] using hdistinct⟩
  · rintro ⟨hopening, hdeals, hdistinct⟩
    exact ⟨by simp, ⟨by simp [frontWords], hopening⟩, hdeals,
      by simpa [entries, Assoc.keys] using hdistinct⟩

/-- A piece for switches may be put in front where its keys are new. -/
theorem reads_push_switch {piece : Piece} (hwords : piece.words = []) :
    (layout.push piece).Reads sig cardinals keys dealt ↔
      piece.Fits sig ∧ layout.Reads sig cardinals (keys ++ Assoc.keys piece.entries) dealt := by
  have hkeys : keys ++ Assoc.keys (layout.push piece).entries ++ Assoc.keys dealt =
      keys ++ Assoc.keys piece.entries ++ Assoc.keys layout.entries ++ Assoc.keys dealt := by
    simp [Assoc.keys]
  constructor
  · rintro ⟨hfits, ⟨hplain, hopening⟩, hdeals, hdistinct⟩
    rw [frontWords_push, hwords, List.nil_append] at hplain hopening
    rw [words_push, hwords, List.nil_append] at hdeals
    rw [hkeys] at hdistinct
    exact ⟨hfits piece (by simp [push]), fun p hp => hfits p (by simp [push, hp]),
      ⟨hplain, hopening⟩, hdeals, hdistinct⟩
  · rintro ⟨hpiece, hfits, ⟨hplain, hopening⟩, hdeals, hdistinct⟩
    refine ⟨?_, ⟨?_, ?_⟩, ?_, hkeys ▸ hdistinct⟩
    · intro p hp
      rcases List.mem_cons.mp hp with rfl | hp
      · exact hpiece
      · exact hfits p hp
    · rwa [frontWords_push, hwords, List.nil_append]
    · rwa [frontWords_push, hwords, List.nil_append]
    · rwa [words_push, hwords, List.nil_append]

/-- A word may be put in front where the next cardinal takes one word. -/
theorem reads_push_word {word : Text} :
    (layout.push (.word word)).Reads sig cardinals keys dealt ↔
      looksLikeSwitch word = false ∧ ∃ d rest more, cardinals = d :: rest ∧ d.isGreedy = false ∧
        dealt = (d.key, .text word) :: more ∧ layout.Reads sig rest (keys ++ [d.key]) more := by
  have hkeys : ∀ (d : Declaration) (more : Values),
      (keys ++ Assoc.keys (layout.push (.word word)).entries ++
        Assoc.keys ((d.key, Value.text word) :: more)).Perm
        (keys ++ [d.key] ++ Assoc.keys layout.entries ++ Assoc.keys more) := by
    intro d more
    simp only [entries_push, Piece.entries, List.nil_append, Assoc.keys, List.map_cons,
      List.append_assoc, List.cons_append]
    exact List.perm_middle.append_left _
  constructor
  · rintro ⟨hfits, ⟨hplain, hopening⟩, hdeals, hdistinct⟩
    have hword : looksLikeSwitch word = false := hfits (.word word) (by simp [push])
    rw [words_push] at hdeals
    cases cardinals with
    | nil => cases hdeals
    | cons d rest =>
      have hg : d.isGreedy = false := hplain d (by simp [Piece.words])
      obtain ⟨more, hmore, rfl⟩ := Option.map_eq_some_iff.mp
        ((Signature.deal?_plain hg word layout.words).symm.trans hdeals)
      refine ⟨hword, d, rest, more, rfl, hg, rfl, fun p hp => hfits p (by simp [push, hp]),
        ⟨?_, ?_⟩, hmore, (hkeys d more).nodup_iff.mp hdistinct⟩
      · intro e he
        exact hplain e (by simp [Piece.words, he])
      · intro hterminated next hnext
        simpa [Piece.words] using hopening hterminated next hnext
  · rintro ⟨hword, d, rest, more, rfl, hg, rfl, hfits, ⟨hplain, hopening⟩, hdeals, hdistinct⟩
    refine ⟨?_, ⟨?_, ?_⟩, ?_, (hkeys d more).nodup_iff.mpr hdistinct⟩
    · intro p hp
      rcases List.mem_cons.mp hp with rfl | hp
      · exact hword
      · exact hfits p hp
    · intro e he
      rcases List.mem_cons.mp (by simpa [Piece.words] using he) with rfl | he
      · exact hg
      · exact hplain e he
    · intro hterminated next hnext
      simpa [Piece.words] using hopening hterminated next hnext
    · rw [words_push]
      exact (Signature.deal?_plain hg word layout.words).trans (by rw [hdeals]; rfl)

end Layout

/-- Whatever a fitting piece gives is given to a switch that accepts it. -/
theorem Piece.Fits.given {sig : Signature} {piece : Piece} (h : piece.Fits sig) :
    ∀ entry ∈ piece.entries, ∃ d ∈ sig.switches, d.key = entry.1 ∧ d.Accepts entry.2 := by
  have hflag : ∀ d ∈ sig.switches, d.isOption = false → d.Accepts .on := fun d hd hkind =>
    (Declaration.accepts_flag_iff (Signature.mem_switches.mp hd).2 hkind).mpr rfl
  have hoption : ∀ {d : Declaration} (value : Text), d.isOption = true → d.Accepts (.text value) :=
    fun value hkind => (Declaration.accepts_option_iff hkind).mpr ⟨value, rfl⟩
  intro entry hentry
  cases piece with
  | flag d name =>
    obtain rfl := List.mem_singleton.mp hentry
    exact ⟨d, h.1.1, rfl, hflag d h.1.1 h.2⟩
  | cluster flags =>
    obtain ⟨d, hd, rfl⟩ := List.mem_map.mp hentry
    obtain ⟨hmem, hname⟩ := h.2 d hd
    obtain ⟨g, -, hkey⟩ := Signature.key_of_short hmem hname
    exact ⟨d, hmem, rfl, hflag d hmem (Signature.key_of_name hmem (hname.trans (by rw [hkey]))).2⟩
  | inline d name value =>
    obtain rfl := List.mem_singleton.mp hentry
    exact ⟨d, h.1.1, rfl, hoption value h.2.1⟩
  | separate d name value =>
    obtain rfl := List.mem_singleton.mp hentry
    exact ⟨d, h.1.1, rfl, hoption value h.2.1⟩
  | word text => cases hentry
  | idle rest => cases hentry

end CommandTree
