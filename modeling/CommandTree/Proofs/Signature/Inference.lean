import CommandTree.Fault.Cause
import CommandTree.Proofs.Signature.Spelling

/-!
# Shortened names

Where names may be shortened, a long switch may be written by any text that starts only its name.  That
extends what can be written and changes nothing else.

In one direction, a walk without shortened names fails with an unknown switch or goes as the walk with
them does (`Walk.run_extends`), because only the search for a long name differs.  In the other, what a
walk with shortened names does is done by one without them over the words in which the names are written
in full (`Walk.run_fullWords`).  Which words these are depends on the walk: a word that looks like a
switch may be the value of an option, or be captured.  In terms of layouts, `Walk.fullWords_line` states
that only the long names of pieces are replaced.

`Signature.parse_inferring` puts both directions together.
-/

namespace CommandTree

/-! ## Names in full -/

namespace Piece

/-- The piece with its long name, if it has one, written in full. -/
def full : Piece → Piece
  | flag d _ => flag d d.key
  | inline d _ value => inline d d.key value
  | separate d _ value => separate d d.key value
  | piece => piece

end Piece

/-- The layout with all long names written in full. -/
def Layout.full (layout : Layout) : Layout :=
  { layout with front := layout.front.map Piece.full }

namespace Signature

variable {sig : Signature} {d : Declaration} {name word : Text}

/-- The signature with names that may be shortened, or may not. -/
def inferring (sig : Signature) (infer : Bool) : Signature :=
  { sig with infer }

/-- The name of a switch in full stands for it, whether or not names may be shortened. -/
theorem Names.full (h : sig.Names name d) (infer : Bool) : (sig.inferring infer).Names d.key d :=
  ⟨h.1, .inl h.long.2⟩

/-- A word with the name of a long switch, where it stands for one, written in full. -/
def fullWord (sig : Signature) (word : Text) : Text :=
  match Text.after? terminator word with
  | none => word
  | some body =>
    let name := (Text.cutAt (.char '=') body).1
    match sig.findLong name 0 with
    | .ok d => d.name ++ body.drop name.length
    | .error _ => word

theorem fullWord_name (h : sig.Names name d) : sig.fullWord (terminator ++ name) = terminator ++ d.key := by
  have hfind : sig.findLong name 0 = .ok d := findLong_eq_ok_iff.mpr h
  simp [fullWord, Text.cutAt_eq_self h.clean.2, hfind, h.long.2]

/-- What follows a name is kept. -/
theorem fullWord_inline (h : sig.Names name d) (value : Text) :
    sig.fullWord (terminator ++ (name ++ .char '=' :: value)) =
      terminator ++ (d.key ++ .char '=' :: value) := by
  have hfind : sig.findLong name 0 = .ok d := findLong_eq_ok_iff.mpr h
  simp [fullWord, Text.cutAt_append h.clean.2, hfind, h.long.2]

/-- No switch has an empty name. -/
theorem fullWord_terminator : sig.fullWord terminator = terminator := by
  have hafter : Text.after? terminator terminator = some [] := by decide
  cases hfind : sig.findLong [] 0 with
  | ok d => exact absurd rfl (findLong_eq_ok_iff.mp hfind).clean.1
  | error fault => simp [fullWord, hafter, Text.cutAt, hfind]

/-- A word that does not start with two dashes is written as it is. -/
theorem fullWord_other (h : Text.after? terminator word = none) : sig.fullWord word = word := by
  simp [fullWord, h]

theorem fullWord_cluster {flags : List Declaration}
    (hshort : ∀ d ∈ flags, d ∈ sig.switches ∧ d.name = dash :: d.key) :
    sig.fullWord (dash :: flags.flatMap Declaration.key) = dash :: flags.flatMap Declaration.key := by
  obtain ⟨-, hletters⟩ := letters_of_cluster hshort
  refine fullWord_other ?_
  cases htext : flags.flatMap Declaration.key with
  | nil => rfl
  | cons g rest =>
    refine after?_terminator_short ?_ rest
    rintro rfl
    rw [htext] at hletters
    exact absurd (hletters dash (by simp)) (by decide)

theorem fullWord_idle (rest : Text) : sig.fullWord (idleOpening ++ rest) = idleOpening ++ rest :=
  fullWord_other (after?_terminator_short (by decide : Glyph.char '=' ≠ dash) rest)

theorem fullWord_of_not_switch (h : looksLikeSwitch word = false) : sig.fullWord word = word :=
  fullWord_other (after?_terminator_of_not_switch h)

end Signature

namespace Walk

open Signature (fullWord)

variable {sig : Signature} {walk next last : Walk} {word : Text} {words : List Text}

/-- Some words with the names that the walk looks up written in full: those of long switches, where a
switch may stand.  All other words are as they were. -/
def fullWords (sig : Signature) (walk : Walk) : List Text → List Text
  | [] => []
  | word :: rest =>
    (if walk.mode = .free then fullWord sig word else word) ::
      match step sig walk word with
      | .ok next => fullWords sig next rest
      | .error _ => rest

theorem fullWords_cons (h : step sig walk word = .ok next) (rest : List Text) :
    fullWords sig walk (word :: rest) =
      (if walk.mode = .free then fullWord sig word else word) :: fullWords sig next rest := by
  simp only [fullWords, h]

/-! ### Walks over words in full -/

/-- What a word does where a switch may stand, the word with its name in full does as well, and for that
names need not be shortened. -/
theorem FreeStep.full (h : FreeStep (sig.inferring true) walk word next) :
    FreeStep (sig.inferring false) walk (fullWord (sig.inferring true) word) next := by
  cases h with
  | terminator =>
    rw [Signature.fullWord_terminator]
    exact .terminator
  | flag names kind new =>
    rw [Signature.fullWord_name names]
    exact .flag (names.full false) kind new
  | option names kind =>
    rw [Signature.fullWord_name names]
    exact .option (names.full false) kind
  | inline names kind nonempty new =>
    rw [Signature.fullWord_inline names]
    exact .inline (names.full false) kind nonempty new
  | cluster nonempty cluster =>
    rw [Signature.fullWord_cluster cluster.short]
    exact .cluster nonempty ⟨cluster.short, cluster.distinct, cluster.new⟩
  | idle rest =>
    rw [Signature.fullWord_idle]
    exact .idle rest
  | word cardinals plain noSwitch =>
    rw [Signature.fullWord_of_not_switch noSwitch]
    exact .word cardinals plain noSwitch
  | capture cardinals greedy noSwitch =>
    rw [Signature.fullWord_of_not_switch noSwitch]
    exact .capture cardinals greedy noSwitch

theorem step_full (h : step (sig.inferring true) walk word = .ok next) :
    step (sig.inferring false) walk
      (if walk.mode = .free then fullWord (sig.inferring true) word else word) = .ok next := by
  by_cases hmode : walk.mode = .free
  · rw [if_pos hmode]
    exact (step_free_eq_ok_iff hmode).mpr ((step_free_eq_ok_iff hmode).mp h).full
  · -- no other mode looks a name up
    rw [if_neg hmode, ← h]
    cases hcase : walk.mode with
    | free => exact absurd hcase hmode
    | _ => simp only [step, hcase]

/-- Over the words in full, a walk without shortened names goes where one with them goes. -/
theorem run_fullWords (h : run (sig.inferring true) walk words = .ok last) :
    run (sig.inferring false) walk (fullWords (sig.inferring true) walk words) = .ok last := by
  induction words generalizing walk with
  | nil => exact h
  | cons word rest ih =>
    obtain ⟨next, hstep, hrest⟩ := run_cons_eq_ok_iff.mp h
    rw [fullWords_cons hstep]
    exact run_cons_eq_ok_iff.mpr ⟨next, step_full hstep, ih hrest⟩

/-! ### Layouts of words in full -/

theorem fullWords_append {front : List Text} (h : run sig walk front = .ok next) (rest : List Text) :
    fullWords sig walk (front ++ rest) = fullWords sig walk front ++ fullWords sig next rest := by
  induction front generalizing walk with
  | nil =>
    cases h
    rfl
  | cons word front ih =>
    obtain ⟨middle, hstep, hfront⟩ := run_cons_eq_ok_iff.mp h
    rw [List.cons_append, fullWords_cons hstep, fullWords_cons hstep, ih hfront, List.cons_append]

theorem fullWords_of_closed (h : walk.Closed) (words : List Text) : fullWords sig walk words = words := by
  induction words generalizing walk with
  | nil => rfl
  | cons word rest ih =>
    cases hstep : step sig walk word with
    | error fault => simp [fullWords, h.mode_ne, hstep]
    | ok next => rw [fullWords_cons hstep, if_neg h.mode_ne, ih (h.of_step hstep)]

/-- Of a piece, the long name is written in full. -/
theorem fullWords_written {piece : Piece} (hmode : walk.mode = .free) (hfits : piece.Fits sig) :
    fullWords sig walk piece.written = piece.full.written := by
  have hone : ∀ {word full : Text}, fullWord sig word = full → fullWords sig walk [word] = [full] := by
    rintro word _ rfl
    rw [fullWords, if_pos hmode]
    split <;> rfl
  cases piece with
  | flag d name => exact hone (Signature.fullWord_name hfits.1)
  | cluster flags => exact hone (Signature.fullWord_cluster hfits.2)
  | inline d name value => exact hone (Signature.fullWord_inline hfits.1 value)
  | separate d name value =>
    have hstep := (step_free_eq_ok_iff hmode).mpr (.option hfits.1 hfits.2.1)
    rw [Piece.written, fullWords_cons hstep, if_pos hmode, Signature.fullWord_name hfits.1]
    -- the value is read in a mode that looks no name up
    rw [fullWords, if_neg (by simp)]
    split <;> rfl
  | word text => exact hone (Signature.fullWord_of_not_switch hfits)
  | idle rest => exact hone (Signature.fullWord_idle rest)

/-- The tail of a layout holds no names that are looked up. -/
theorem fullWords_tail {terminated : Bool} {tail : List Text} {dealt : Values} (hmode : walk.mode = .free)
    (h : (⟨[], terminated, tail⟩ : Layout).Reads sig walk.cardinals walk.keys dealt) :
    fullWords sig walk (⟨[], terminated, tail⟩ : Layout).line =
      (⟨[], terminated, tail⟩ : Layout).line := by
  cases hline : (⟨[], terminated, tail⟩ : Layout).line with
  | nil => rfl
  | cons first rest =>
    obtain ⟨hfirst, next, hstep, hclosed⟩ := closed_of_tail hmode h hline
    have hfull : fullWord sig first = first := by
      split at hfirst
      · rw [hfirst, Signature.fullWord_terminator]
      · exact Signature.fullWord_of_not_switch hfirst
    rw [fullWords_cons hstep, if_pos hmode, hfull, fullWords_of_closed hclosed]

/-- Over a layout that reads from a walk, the words in full are those of the layout in full. -/
theorem fullWords_line (walk : Walk) {layout : Layout} {dealt : Values} (hmode : walk.mode = .free)
    (h : layout.Reads sig walk.cardinals walk.keys dealt) :
    fullWords sig walk layout.line = layout.full.line := by
  obtain ⟨front, terminated, tail⟩ := layout
  -- each piece is read as a whole and leaves a walk from which the other pieces read
  induction front generalizing walk dealt with
  | nil => exact fullWords_tail hmode h
  | cons piece front ih =>
    have hpush : (⟨piece :: front, terminated, tail⟩ : Layout) =
        (⟨front, terminated, tail⟩ : Layout).push piece := rfl
    rw [hpush] at h ⊢
    obtain ⟨next, more, hpiece, hfree, hreads, -⟩ := run_push hmode h
    have hfits : piece.Fits sig := h.fits piece (List.mem_cons_self ..)
    rw [Layout.line_push, fullWords_append hpiece, fullWords_written hmode hfits, ih next hfree hreads]
    exact (Layout.line_push piece.full _).symm

/-! ## Walks without shortened names -/

/-- Whether a result is the exact one, that without shortened names, unless the exact one is a fault about
an unknown switch. -/
def Extends {α : Type} (result exact : Except ArgumentFault α) : Prop :=
  (∀ fault, exact = .error fault → fault.kind ≠ .unknownSwitch) → result = exact

/-- What goes on in the same way from results that extend exact ones extends the exact one. -/
theorem Extends.bind {α β : Type} {result exact : Except ArgumentFault α}
    {f g : α → Except ArgumentFault β} (h : Extends result exact) (hnext : ∀ a, Extends (f a) (g a)) :
    Extends (result >>= f) (exact >>= g) := by
  intro hknown
  have hfirst : result = exact := by
    refine h fun fault hfault => hknown fault ?_
    rw [hfault]
    rfl
  rw [hfirst]
  cases exact with
  | error fault => rfl
  | ok a => exact hnext a hknown

theorem findLong_extends (sig : Signature) (name : Text) (index : Nat) :
    Extends ((sig.inferring true).findLong name index) ((sig.inferring false).findLong name index) := by
  intro hknown
  have hnone : (sig.inferring false).completionsOf name = [] := by
    simp [Signature.completionsOf, Signature.inferring]
  have hswitch : ∀ infer full, (sig.inferring infer).switch? full = sig.switch? full := fun _ _ => rfl
  simp only [Signature.findLong, hnone, hswitch] at hknown ⊢
  cases hfound : sig.switch? (terminator ++ name) with
  | some d => rfl
  | none =>
    simp only [hfound] at hknown
    exact absurd rfl (hknown _ rfl)

theorem takeLong_extends (sig : Signature) (walk : Walk) (body : Text) :
    Extends (takeLong (sig.inferring true) walk body) (takeLong (sig.inferring false) walk body) := by
  intro hknown
  have hfound : (sig.inferring true).findLong (Text.cutAt (.char '=') body).1 walk.read =
      (sig.inferring false).findLong (Text.cutAt (.char '=') body).1 walk.read :=
    findLong_extends sig _ _ fun fault hfault => hknown fault (by simp only [takeLong, hfault])
  simp only [takeLong, hfound]

theorem takeLetters_inferring (infer assigned : Bool) (walk : Walk) (letters : Text) :
    takeLetters (sig.inferring infer) assigned walk letters = takeLetters sig assigned walk letters := by
  induction letters generalizing walk with
  | nil => rfl
  | cons letter rest ih =>
    have hswitch : ∀ full, (sig.inferring infer).switch? full = sig.switch? full := fun _ => rfl
    simp only [takeLetters, hswitch, ih]

theorem step_extends (sig : Signature) (walk : Walk) (word : Text) :
    Extends (step (sig.inferring true) walk word) (step (sig.inferring false) walk word) := by
  cases hmode : walk.mode with
  | free =>
    simp only [step, hmode, takeFree, takeLetters_inferring]
    split
    · exact fun _ => rfl
    cases Text.after? terminator word with
    | none => exact fun _ => rfl
    | some body => exact takeLong_extends sig _ body
  | _ =>
    simp only [step, hmode]
    exact fun _ => rfl

theorem run_extends (sig : Signature) (walk : Walk) (words : List Text) :
    Extends (run (sig.inferring true) walk words) (run (sig.inferring false) walk words) := by
  induction words generalizing walk with
  | nil => exact fun _ => rfl
  | cons word rest ih =>
    rw [run_cons, run_cons]
    exact (step_extends sig walk word).bind ih

end Walk

namespace Signature

variable {sig : Signature} {words : List Text}

theorem walk_extends (sig : Signature) (words : List Text) :
    Walk.Extends ((sig.inferring true).walk words) ((sig.inferring false).walk words) := by
  have hbind : ∀ infer, (sig.inferring infer).walk words =
      Walk.run (sig.inferring infer) (.start sig) words >>= Walk.finish := by
    intro infer
    have hstart : Walk.start (sig.inferring infer) = .start sig := rfl
    simp only [walk, hstart]
    cases Walk.run (sig.inferring infer) (.start sig) words <;> rfl
  rw [hbind, hbind]
  exact (Walk.run_extends sig _ words).bind fun last _ => rfl

/-- What a walk gives is checked in the same way whether or not names may be shortened. -/
theorem parse_extends (sig : Signature) (words : List Text) :
    Walk.Extends ((sig.inferring true).parse words) ((sig.inferring false).parse words) := by
  intro hknown
  have hwalk : (sig.inferring true).walk words = (sig.inferring false).walk words :=
    walk_extends sig words fun fault hfault => hknown fault (by simp only [parse, hfault])
  simp only [parse, hwalk]
  rfl

/-- The words of a command line with the names of long switches written in full. -/
def fullWords (sig : Signature) (words : List Text) : List Text :=
  Walk.fullWords sig (.start sig) words

theorem parse_fullWords {values : Values} (h : (sig.inferring true).parse words = .ok values) :
    (sig.inferring false).parse ((sig.inferring true).fullWords words) = .ok values := by
  obtain ⟨raw, hwalk, hobjection, hvalues⟩ := parse_eq_ok_iff_walk.mp h
  obtain ⟨last, hrun, hfinish⟩ := walk_eq_ok_iff.mp hwalk
  have hfull := Walk.run_fullWords hrun
  exact parse_eq_ok_iff_walk.mpr ⟨raw, walk_eq_ok_iff.mpr ⟨last, hfull, hfinish⟩, hobjection, hvalues⟩

/-- Shortened names extend what is parsed.  Unless a command line has an unknown switch without them, it is
parsed alike, and fails alike, with them; and a command line that is parsed with them is parsed to the
same values without them once the names of its long switches are written in full.  Of the pieces of the
line, that leaves all but the names as they are. -/
theorem parse_inferring (sig : Signature) (words : List Text) :
    ((∀ fault, (sig.inferring false).parse words = .error fault → fault.kind ≠ .unknownSwitch) →
        (sig.inferring true).parse words = (sig.inferring false).parse words) ∧
      ∀ values, (sig.inferring true).parse words = .ok values →
        (sig.inferring false).parse ((sig.inferring true).fullWords words) = .ok values ∧
          ∃ layout : Layout, layout.line = words ∧ layout.Spells (sig.inferring true) values ∧
            (sig.inferring true).fullWords words = layout.full.line := by
  refine ⟨parse_extends sig words, fun values h => ⟨parse_fullWords h, ?_⟩⟩
  obtain ⟨hadmissible, layout, rfl, hspells⟩ := spelling_of_parse h
  have hreads := hadmissible.reads_of_spells hspells
  exact ⟨layout, rfl, hspells, Walk.fullWords_line (.start _) rfl hreads⟩

theorem parse_inferring_copying :
    let values : Values := [("count", .text "--cou"), ("source", .text "here"), ("rest", .captured ["--co"])]
    (copying.inferring true).parse ["--co=--cou", "here", "--", "--co"] = .ok values ∧
      (copying.inferring true).fullWords ["--co=--cou", "here", "--", "--co"] =
        ["--count=--cou", "here", "--", "--co"] ∧
      (copying.inferring false).parse ["--count=--cou", "here", "--", "--co"] = .ok values ∧
      (copying.inferring true).parse ["-v", "-v"] = (copying.inferring false).parse ["-v", "-v"] := by
  intro values
  have hparse : (copying.inferring true).parse ["--co=--cou", "here", "--", "--co"] = .ok values := by
    decide +kernel
  have hwords : (copying.inferring true).fullWords ["--co=--cou", "here", "--", "--co"] =
      ["--count=--cou", "here", "--", "--co"] := by
    decide +kernel
  have hfull := ((parse_inferring copying _).2 values hparse).1
  rw [hwords] at hfull
  -- a switch that is given twice is known
  have htwice : (copying.inferring false).parse ["-v", "-v"] =
      .error (.duplicated ⟨.flag, "-v", false, false, none⟩ 2) := by
    decide +kernel
  refine ⟨hparse, hwords, hfull, (parse_inferring copying _).1 fun fault hfault => ?_⟩
  rw [htwice, Except.error.injEq] at hfault
  subst hfault
  decide

end Signature

end CommandTree
