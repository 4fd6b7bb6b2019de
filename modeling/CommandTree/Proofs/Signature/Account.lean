import CommandTree.Proofs.Signature.Spelling

/-!
# What becomes of every word

A command line that is parsed is divided into pieces, and the pieces say what each word did.  All of
them give something to an argument or end the switches, save one kind: a dash followed by an equals sign
is read as a cluster of no letters, and is dropped without a fault.

`Signature.Accounts` is a division without such words.  `Signature.accounts_iff` states exactly which
lines have one: those where no word that is read while a switch may stand (`Walk.freeWords`) opens with
a dash and an equals sign.
-/

namespace CommandTree

namespace Piece

variable {sig : Signature} {piece : Piece}

/-! ## The words of a piece -/

/-- The terminator belongs to no piece. -/
theorem Fits.terminator_not_mem (h : piece.Fits sig) : terminator ∉ piece.written := by
  have hlong : ∀ body : Text, body ≠ [] → terminator ≠ terminator ++ body := by
    intro body hbody heq
    exact hbody (List.self_eq_append_right.mp heq)
  have hword : ∀ word : Text, looksLikeSwitch word = false → terminator ≠ word := by
    rintro _ hno rfl
    cases hno
  cases piece with
  | flag d name => simpa [written] using hlong name h.1.clean.1
  | cluster flags =>
    intro hmem
    have hletters : flags.flatMap Declaration.key = [dash] := by
      simpa [written, terminator, eq_comm] using hmem
    have hdash := (Signature.letters_of_cluster h.2).2 dash (by simp [hletters])
    exact absurd hdash (by decide)
  | inline d name value => simp [written]
  | separate d name value => simpa [written] using ⟨h.1.clean.1, hword value h.2.2⟩
  | word text => simpa [written] using hword text h
  | idle rest => simp [written, terminator, idleOpening, dash]

/-- A piece opens with a switch of no letters exactly if it is read and dropped. -/
theorem Fits.idle_iff (h : piece.Fits sig) :
    (∃ word ∈ piece.written.take 1, idleOpening <+: word) ↔ piece.isIdle = true := by
  have hlong : ∀ body : Text, ¬idleOpening <+: terminator ++ body := by
    intro body
    simp [idleOpening, terminator, dash]
  cases piece with
  | flag d name => simpa [written, isIdle] using hlong name
  | cluster flags =>
    have hletters : ¬idleOpening <+: dash :: flags.flatMap Declaration.key := by
      rintro ⟨rest, hrest⟩
      have hequals : Glyph.char '=' ∈ flags.flatMap Declaration.key := by
        rw [← (List.cons.inj hrest).2]
        exact List.mem_cons_self
      exact absurd ((Signature.letters_of_cluster h.2).2 _ hequals) (by decide)
    simpa [written, isIdle] using hletters
  | inline d name value => simpa [written, isIdle] using hlong (name ++ .char '=' :: value)
  | separate d name value => simpa [written, isIdle] using hlong name
  | word text =>
    have hword : ¬idleOpening <+: text := by
      rintro ⟨rest, rfl⟩
      cases h
    simpa [written, isIdle] using hword
  | idle rest => simp [written, isIdle]

end Piece

namespace Walk

variable {sig : Signature} {walk next : Walk}

/-! ## Words that are read while a switch may stand -/

/-- The words that are met while a switch may stand, up to the first fault. -/
def freeWords (sig : Signature) (walk : Walk) : List Text → List Text
  | [] => []
  | word :: rest =>
    (if walk.mode = .free then [word] else []) ++
      match step sig walk word with
      | .ok next => freeWords sig next rest
      | .error _ => []

theorem freeWords_cons {word : Text} (hstep : step sig walk word = .ok next) (rest : List Text) :
    freeWords sig walk (word :: rest) =
      (if walk.mode = .free then [word] else []) ++ freeWords sig next rest := by
  simp [freeWords, hstep]

theorem freeWords_append {front : List Text} (hrun : run sig walk front = .ok next) (rest : List Text) :
    freeWords sig walk (front ++ rest) = freeWords sig walk front ++ freeWords sig next rest := by
  induction front generalizing walk with
  | nil =>
    cases hrun
    rfl
  | cons word front ih =>
    obtain ⟨middle, hstep, hfront⟩ := run_cons_eq_ok_iff.mp hrun
    rw [List.cons_append, freeWords_cons hstep, freeWords_cons hstep, ih hfront, List.append_assoc]

theorem freeWords_eq_nil (h : walk.Closed) (words : List Text) : freeWords sig walk words = [] := by
  induction words generalizing walk with
  | nil => rfl
  | cons word words ih =>
    cases hstep : step sig walk word with
    | error fault => simp [freeWords, h.mode_ne, hstep]
    | ok next => rw [freeWords_cons hstep, if_neg h.mode_ne, List.nil_append, ih (h.of_step hstep)]

/-- Only the first word of a piece is met while a switch may stand. -/
theorem freeWords_written {piece : Piece} (hmode : walk.mode = .free)
    (hrun : run sig walk piece.written = .ok next) (hfits : piece.Fits sig) :
    freeWords sig walk piece.written = piece.written.take 1 := by
  cases piece with
  | separate d name value =>
    -- the second word is met while the option waits for it
    have hname := (step_free_eq_ok_iff hmode).mpr (.option hfits.1 hfits.2.1)
    obtain ⟨middle, hstep, hvalue⟩ := run_cons_eq_ok_iff.mp hrun
    obtain rfl := Except.ok.inj (hname.symm.trans hstep)
    obtain ⟨_, hsecond, -⟩ := run_cons_eq_ok_iff.mp hvalue
    rw [Piece.written, freeWords_cons hname, if_pos hmode, freeWords_cons hsecond]
    rfl
  | _ =>
    obtain ⟨_, hstep, -⟩ := run_cons_eq_ok_iff.mp hrun
    rw [Piece.written, freeWords_cons hstep, if_pos hmode]
    rfl

/-- The words of a tail that are met while a switch may stand: the terminator, or the first word for the
greedy cardinal. -/
theorem freeWords_tail {terminated : Bool} {tail : List Text} {dealt : Values} (hmode : walk.mode = .free)
    (h : (⟨[], terminated, tail⟩ : Layout).Reads sig walk.cardinals walk.keys dealt) :
    freeWords sig walk (⟨[], terminated, tail⟩ : Layout).line =
      if terminated then [terminator] else tail.take 1 := by
  have hfirst : ∀ first rest, (⟨[], terminated, tail⟩ : Layout).line = first :: rest →
      freeWords sig walk (first :: rest) = [first] := by
    intro first rest hline
    obtain ⟨-, next, hstep, hclosed⟩ := closed_of_tail hmode h hline
    rw [freeWords_cons hstep, if_pos hmode, freeWords_eq_nil hclosed, List.append_nil]
  cases terminated with
  | true => exact hfirst terminator tail rfl
  | false =>
    cases tail with
    | nil => rfl
    | cons word words => exact hfirst word words rfl

/-- Of a line with a layout, the first words of the pieces are met while a switch may stand, and those
of the tail that are said above. -/
theorem freeWords_line {layout : Layout} {dealt : Values} (hmode : walk.mode = .free)
    (h : layout.Reads sig walk.cardinals walk.keys dealt) :
    freeWords sig walk layout.line = (layout.front.flatMap fun piece => piece.written.take 1) ++
      if layout.terminated then [terminator] else layout.tail.take 1 := by
  obtain ⟨front, terminated, tail⟩ := layout
  induction front generalizing walk dealt with
  | nil => exact freeWords_tail hmode h
  | cons piece front ih =>
    have hpush : (⟨piece :: front, terminated, tail⟩ : Layout) =
        (⟨front, terminated, tail⟩ : Layout).push piece := rfl
    have hfits : piece.Fits sig := h.fits piece (by simp)
    rw [hpush] at h ⊢
    obtain ⟨next, more, hpiece, hfree, hreads, -⟩ := run_push hmode h
    rw [Layout.line_push, freeWords_append hpiece, freeWords_written hmode hpiece hfits, ih hfree hreads,
      ← List.append_assoc]
    rfl

end Walk

namespace Signature

variable {sig : Signature} {layout : Layout} {words : List Text} {values : Values}

/-! ## Lines of which every word counts -/

/-- Whether a division into pieces without idle ones accounts for every word of a line by what it gives
to some argument, or as the first terminator. -/
def Accounts (sig : Signature) (words : List Text) (values : Values) : Prop :=
  ∃ layout : Layout, layout.line = words ∧ layout.Spells sig values ∧
    (∀ piece ∈ layout.front, piece.isIdle = false) ∧ terminator ∉ layout.front.flatMap Piece.written

/-- No piece is idle exactly if no word that is met while a switch may stand opens with a switch of no
letters. -/
theorem freeWords_line_iff {dealt : Values} (h : layout.Reads sig sig.cardinals [] dealt) :
    (∀ word ∈ Walk.freeWords sig (.start sig) layout.line, ¬idleOpening <+: word) ↔
      ∀ piece ∈ layout.front, piece.isIdle = false := by
  have hfree : (Walk.start sig).mode = .free := rfl
  rw [Walk.freeWords_line hfree h]
  constructor
  · intro hall piece hpiece
    rw [Bool.eq_false_iff, ne_eq, ← (h.fits piece hpiece).idle_iff]
    rintro ⟨word, hword, hidle⟩
    exact hall word (List.mem_append_left _ (List.mem_flatMap.mpr ⟨piece, hpiece, hword⟩)) hidle
  · intro hall word hword hidle
    rcases List.mem_append.mp hword with hword | hword
    · obtain ⟨piece, hpiece, hword⟩ := List.mem_flatMap.mp hword
      have hpiece_idle := (h.fits piece hpiece).idle_iff.mp ⟨word, hword, hidle⟩
      rw [hall piece hpiece] at hpiece_idle
      cases hpiece_idle
    · -- neither the terminator nor a word that is no switch opens so
      split at hword
      · rw [List.mem_singleton.mp hword] at hidle
        exact absurd hidle (by decide)
      · rename_i hterminated
        obtain ⟨rest, rfl⟩ := hidle
        have hhead : idleOpening ++ rest ∈ layout.tail.head? := by
          cases htail : layout.tail <;> simp_all
        have hno := (h.stands.opening (by simpa using hterminated) _ hhead).1
        cases hno

/-- A line accounts for what it is parsed to if and only if no word is idle where a switch may stand. -/
theorem accounts_iff_of_admissible (hadmissible : sig.Admissible values)
    (hspelled : ∃ layout : Layout, layout.line = words ∧ layout.Spells sig values) :
    sig.Accounts words values ↔
      ∀ word ∈ Walk.freeWords sig (.start sig) words, ¬idleOpening <+: word := by
  constructor
  · rintro ⟨layout, rfl, hspells, hidle, -⟩
    exact (freeWords_line_iff (hadmissible.reads_of_spells hspells)).mpr hidle
  · obtain ⟨layout, rfl, hspells⟩ := hspelled
    intro hfree
    refine ⟨layout, rfl, hspells,
      (freeWords_line_iff (hadmissible.reads_of_spells hspells)).mp hfree, fun hmem => ?_⟩
    obtain ⟨piece, hpiece, hmem⟩ := List.mem_flatMap.mp hmem
    exact (hspells.fits piece hpiece).terminator_not_mem hmem

/-- A line that is parsed spells what it is parsed to.  It accounts for every word exactly if no word
that is met while a switch may stand opens with a switch of no letters. -/
theorem accounts_iff (h : sig.parse words = .ok values) :
    (∃ layout : Layout, layout.line = words ∧ layout.Spells sig values) ∧
      (sig.Accounts words values ↔
        ∀ word ∈ Walk.freeWords sig (.start sig) words, ¬idleOpening <+: word) := by
  obtain ⟨hadmissible, hspelled⟩ := spelling_of_parse h
  exact ⟨hspelled, accounts_iff_of_admissible hadmissible hspelled⟩

theorem accounts_iff_copying :
    copying.Accounts ["-v", "here", "there", "-=", "--"]
      [("v", .on), ("source", .text "here"), ("rest", .captured ["there", "-=", "--"])] := by
  refine (accounts_iff ?_).2.mpr ?_
  · decide
  · decide

/-- A word that is read and dropped: it makes no difference to the values. -/
theorem not_accounts_idle :
    (bare "x").parse [idleOpening] = .ok [] ∧ ¬(bare "x").Accounts [idleOpening] [] := by
  refine ⟨by decide, fun haccounts => ?_⟩
  have hparse : (bare "x").parse [idleOpening] = .ok [] := by decide
  obtain ⟨hadmissible, hspelled⟩ := spelling_of_parse hparse
  exact (accounts_iff_of_admissible hadmissible hspelled).mp haccounts idleOpening (by decide) (by decide)

end Signature

end CommandTree
