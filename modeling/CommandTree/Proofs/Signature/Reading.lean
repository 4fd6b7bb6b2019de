import CommandTree.Proofs.Signature.Layout

/-!
# Walks over layouts

A walk that may meet a switch succeeds exactly where the words have a layout that reads from it.  One
direction, `Walk.run_layout`, is by induction on the front and uses that the first piece is read as a
whole (`Walk.run_push`).  The other, `Walk.readable_of_run`, is by induction on the number of words,
since an option may take two of them; it needs that no key is met twice (`Walk.Sound`), which each word
preserves.
-/

namespace CommandTree

namespace Walk

variable {sig : Signature} {walk next last : Walk}

/-! ## Steps and runs -/

@[simp] theorem run_nil (sig : Signature) (walk : Walk) : run sig walk [] = .ok walk := rfl

theorem run_cons (sig : Signature) (walk : Walk) (word : Text) (rest : List Text) :
    run sig walk (word :: rest) = step sig walk word >>= fun next => run sig next rest := by
  simp [run]

theorem run_cons_eq_ok_iff {word : Text} {rest : List Text} :
    run sig walk (word :: rest) = .ok last ↔
      ∃ next, step sig walk word = .ok next ∧ run sig next rest = .ok last := by
  rw [run_cons]
  cases hstep : step sig walk word with
  | error fault => simp [bind, Except.bind]
  | ok next => simp [bind, Except.bind]

theorem run_append_eq_ok_iff {front rest : List Text} :
    run sig walk (front ++ rest) = .ok last ↔
      ∃ next, run sig walk front = .ok next ∧ run sig next rest = .ok last := by
  rw [run_append]
  cases hrun : run sig walk front with
  | error fault => simp [bind, Except.bind]
  | ok next => simp [bind, Except.bind]

theorem step_free_eq_ok_iff {word : Text} (h : walk.mode = .free) :
    step sig walk word = .ok next ↔ FreeStep sig { walk with read := walk.read + 1 } word next := by
  rw [← takeFree_eq_ok_iff]
  simp [step, h]

theorem step_words (h : walk.mode = .words) (word : Text) :
    step sig walk word = takeWord { walk with read := walk.read + 1 } word := by
  simp [step, h]

/-- The value of an option is a word that is no switch, for an option that was not given before. -/
theorem step_awaiting_eq_ok_iff {d : Declaration} {index : Nat} {word : Text}
    (h : walk.mode = .awaiting d index) :
    step sig walk word = .ok next ↔
      looksLikeSwitch word = false ∧ d.key ∉ walk.keys ∧
        { walk.give [(d.key, .text word)] with read := walk.read + 1, mode := .free } = next := by
  simp only [step, h]
  split
  · rename_i hswitch
    simp [hswitch]
  · rename_i hswitch
    rw [record_eq_ok_iff]
    simp only [Bool.not_eq_true] at hswitch
    simp only [hswitch, true_and]
    rfl

theorem step_capturing {key : Text} (h : walk.mode = .capturing key) (word : Text) :
    step sig walk word =
      .ok { walk with read := walk.read + 1, values := appendTo key word walk.values } := by
  simp [step, h]

/-- Whether no switch may stand any more: after the terminator, or once the greedy cardinal captures. -/
def Closed (walk : Walk) : Prop :=
  walk.mode = .words ∨ ∃ key, walk.mode = .capturing key

theorem Closed.mode_ne (h : walk.Closed) : walk.mode ≠ .free := by
  rcases h with hmode | ⟨key, hmode⟩ <;> simp [hmode]

theorem Closed.of_step {word : Text} (h : walk.Closed) (hstep : step sig walk word = .ok next) :
    next.Closed := by
  rcases h with hmode | ⟨key, hmode⟩
  · rw [step_words hmode] at hstep
    obtain ⟨d, rest, -, ⟨-, rfl⟩ | ⟨-, rfl⟩⟩ := takeWord_eq_ok_iff.mp hstep
    · exact .inl hmode
    · exact .inr ⟨d.key, rfl⟩
  · rw [step_capturing hmode, Except.ok.injEq] at hstep
    subst hstep
    exact .inr ⟨key, hmode⟩

/-! ## The tail -/

theorem appendTo_append {key word : Text} {prior : Values} {captured : List Text}
    (h : key ∉ Assoc.keys prior) :
    appendTo key word (prior ++ [(key, .captured captured)]) =
      prior ++ [(key, .captured (captured ++ [word]))] := by
  have hprior : appendTo key word prior = prior := by
    refine (List.map_congr_left fun entry hmem => ?_).trans (List.map_id prior)
    obtain ⟨k, value⟩ := entry
    have hk : k ≠ key := by
      rintro rfl
      exact h (List.mem_map_of_mem hmem)
    cases value <;> simp [hk]
  calc
    appendTo key word (prior ++ [(key, .captured captured)])
        = appendTo key word prior ++ [(key, .captured (captured ++ [word]))] := by simp [appendTo]
    _ = prior ++ [(key, .captured (captured ++ [word]))] := by rw [hprior]

/-- Once the greedy cardinal captures, it takes all words. -/
theorem run_capturing (walk : Walk) {key : Text} {prior : Values} {captured : List Text}
    (hmode : walk.mode = .capturing key) (hvalues : walk.values = prior ++ [(key, .captured captured)])
    (hnew : key ∉ Assoc.keys prior) (words : List Text) :
    ∃ last, run sig walk words = .ok last ∧
      last.finish = .ok (prior ++ [(key, .captured (captured ++ words))]) := by
  induction words generalizing walk captured with
  | nil => exact ⟨walk, rfl, by simp [finish, hmode, hvalues]⟩
  | cons word words ih =>
    have hstep : step sig walk word = .ok
        { walk with
          read := walk.read + 1, values := prior ++ [(key, .captured (captured ++ [word]))] } := by
      rw [step_capturing hmode, hvalues, appendTo_append hnew]
    obtain ⟨last, hrun, hlast⟩ := ih
      { walk with read := walk.read + 1, values := prior ++ [(key, .captured (captured ++ [word]))] }
      hmode rfl
    refine ⟨last, run_cons_eq_ok_iff.mpr ⟨_, hstep, hrun⟩, ?_⟩
    rw [hlast, List.append_assoc, List.singleton_append]

/-- After a word that opens the greedy cardinal, the walk ends with all words in its value. -/
theorem run_of_capture {d : Declaration} {word : Text} {words : List Text}
    (hstep : step sig walk word = .ok
      { walk.give [(d.key, .captured [word])] with
        read := walk.read + 1, mode := .capturing d.key })
    (hnew : d.key ∉ walk.keys) :
    ∃ last, run sig walk (word :: words) = .ok last ∧
      last.finish = .ok (walk.values ++ [(d.key, .captured (word :: words))]) := by
  obtain ⟨last, hrun, hlast⟩ := run_capturing
    { walk.give [(d.key, .captured [word])] with read := walk.read + 1, mode := .capturing d.key }
    rfl rfl hnew words
  exact ⟨last, run_cons_eq_ok_iff.mpr ⟨_, hstep, hrun⟩, hlast⟩

/-- After the terminator every word is dealt out. -/
theorem run_words (walk : Walk) {words : List Text} {dealt : Values} (hmode : walk.mode = .words)
    (hdeals : Signature.deal? walk.cardinals words = some dealt)
    (hdistinct : (walk.keys ++ Assoc.keys dealt).Nodup) :
    ∃ last, run sig walk words = .ok last ∧ last.finish = .ok (walk.values ++ dealt) := by
  induction words generalizing walk dealt with
  | nil =>
    have hnil : dealt = [] := by simpa using hdeals.symm
    exact ⟨walk, rfl, by simp [finish, hmode, hnil]⟩
  | cons word words ih =>
    cases hcards : walk.cardinals with
    | nil => simp [hcards, Signature.deal?] at hdeals
    | cons d rest =>
      rw [hcards] at hdeals
      cases hg : d.isGreedy with
      | true =>
        rw [Signature.deal?_greedy hg] at hdeals
        cases hdeals
        have hnew : d.key ∉ walk.keys := fun hmem =>
          (List.nodup_append.mp hdistinct).2.2 _ hmem _ (List.mem_singleton_self _) rfl
        refine run_of_capture ?_ hnew
        rw [step_words hmode, takeWord_eq_ok_iff]
        exact ⟨d, rest, hcards, .inr ⟨hg, rfl⟩⟩
      | false =>
        rw [Signature.deal?_plain hg, Option.map_eq_some_iff] at hdeals
        obtain ⟨more, hmore, rfl⟩ := hdeals
        have hstep : step sig walk word = .ok
            { walk.give [(d.key, .text word)] with read := walk.read + 1, cardinals := rest } := by
          rw [step_words hmode, takeWord_eq_ok_iff]
          exact ⟨d, rest, hcards, .inl ⟨hg, rfl⟩⟩
        obtain ⟨last, hrun, hlast⟩ := ih
          { walk.give [(d.key, .text word)] with read := walk.read + 1, cardinals := rest }
          hmode hmore (by simpa [keys, Assoc.keys, give] using hdistinct)
        refine ⟨last, run_cons_eq_ok_iff.mpr ⟨_, hstep, hrun⟩, ?_⟩
        simpa using hlast

/-- Where a walk over words for cardinals succeeds, there was a cardinal for each. -/
theorem deal?_of_run (walk : Walk) {words : List Text} (hmode : walk.mode = .words)
    (hrun : run sig walk words = .ok last) :
    ∃ dealt, Signature.deal? walk.cardinals words = some dealt := by
  induction words generalizing walk with
  | nil => exact ⟨[], Signature.deal?_nil _⟩
  | cons word words ih =>
    obtain ⟨next, hstep, hrest⟩ := run_cons_eq_ok_iff.mp hrun
    rw [step_words hmode] at hstep
    obtain ⟨d, rest, hcards, ⟨hg, rfl⟩ | ⟨hg, rfl⟩⟩ := takeWord_eq_ok_iff.mp hstep
    · obtain ⟨dealt, hdealt⟩ := ih
        { walk.give [(d.key, .text word)] with read := walk.read + 1, cardinals := rest } hmode hrest
      refine ⟨(d.key, .text word) :: dealt, ?_⟩
      rw [show walk.cardinals = d :: rest from hcards, Signature.deal?_plain hg]
      exact congrArg (Option.map _) hdealt
    · refine ⟨[(d.key, .captured (word :: words))], ?_⟩
      rw [show walk.cardinals = d :: rest from hcards]
      exact Signature.deal?_greedy hg word words

/-! ## From a layout to a walk -/

/-- A piece that gives nothing to cardinals is read as a whole. -/
theorem run_written {piece : Piece} (hmode : walk.mode = .free) (hfits : piece.Fits sig)
    (hwords : piece.words = []) (hdistinct : (walk.keys ++ Assoc.keys piece.entries).Nodup) :
    run sig walk piece.written =
      .ok { walk.give piece.entries with read := walk.read + piece.written.length } := by
  obtain ⟨-, hpiece, hapart⟩ := List.nodup_append.mp hdistinct
  have hnew : ∀ key ∈ Assoc.keys piece.entries, key ∉ walk.keys := fun key hkey hmem =>
    hapart key hmem key hkey rfl
  have hone : ∀ {word : Text} {next : Walk},
      FreeStep sig { walk with read := walk.read + 1 } word next → run sig walk [word] = .ok next :=
    fun hstep => run_cons_eq_ok_iff.mpr ⟨_, (step_free_eq_ok_iff hmode).mpr hstep, rfl⟩
  cases piece with
  | flag d name => exact hone (.flag hfits.1 hfits.2 (hnew d.key (by simp [Piece.entries, Assoc.keys])))
  | cluster flags =>
    rw [Piece.keys_cluster] at hpiece hnew
    exact hone (.cluster hfits.1 ⟨hfits.2, hpiece, fun d hd => hnew d.key (List.mem_map_of_mem hd)⟩)
  | inline d name value =>
    exact hone (.inline hfits.1 hfits.2.1 hfits.2.2 (hnew d.key (by simp [Piece.entries, Assoc.keys])))
  | separate d name value =>
    have hname := (step_free_eq_ok_iff hmode).mpr (.option hfits.1 hfits.2.1)
    refine run_cons_eq_ok_iff.mpr ⟨_, hname, run_cons_eq_ok_iff.mpr ⟨_, ?_, rfl⟩⟩
    have hkey : d.key ∉ walk.keys := hnew d.key (by simp [Piece.entries, Assoc.keys])
    refine (step_awaiting_eq_ok_iff rfl).mpr ⟨hfits.2.2, hkey, ?_⟩
    simp [give, Piece.entries, Piece.written, hmode]
  | word text => cases hwords
  | idle rest =>
    refine (hone (.idle rest)).trans ?_
    simp [Piece.entries, Piece.written]

/-- A walk over a layout without pieces: after the terminator the words are dealt out, and otherwise the
greedy cardinal takes them. -/
theorem run_tail {terminated : Bool} {tail : List Text} {dealt : Values} (hmode : walk.mode = .free)
    (h : (⟨[], terminated, tail⟩ : Layout).Reads sig walk.cardinals walk.keys dealt) :
    ∃ last, run sig walk (⟨[], terminated, tail⟩ : Layout).line = .ok last ∧
      last.finish = .ok (walk.values ++ dealt) := by
  obtain ⟨hopening, hdeals, hdistinct⟩ := Layout.reads_nil.mp h
  cases terminated with
  | true =>
    obtain ⟨last, hrun, hlast⟩ := run_words
      { walk with read := walk.read + 1, mode := .words } rfl hdeals hdistinct
    exact ⟨last, run_cons_eq_ok_iff.mpr ⟨_, (step_free_eq_ok_iff hmode).mpr .terminator, hrun⟩, hlast⟩
  | false =>
    cases tail with
    | nil =>
      have hnil : dealt = [] := by simpa using hdeals.symm
      exact ⟨walk, rfl, by simp [finish, hmode, hnil]⟩
    | cons word words =>
      obtain ⟨hword, d, hd, hgreedy⟩ := hopening rfl word rfl
      obtain ⟨rest, hcards⟩ : ∃ rest, walk.cardinals = d :: rest :=
        ⟨walk.cardinals.tail, List.eq_cons_of_mem_head? hd⟩
      rw [hcards, Signature.deal?_greedy hgreedy] at hdeals
      cases hdeals
      have hnew : d.key ∉ walk.keys := fun hmem =>
        (List.nodup_append.mp hdistinct).2.2 _ hmem _ (List.mem_singleton_self _) rfl
      exact run_of_capture ((step_free_eq_ok_iff hmode).mpr (.capture hcards hgreedy hword)) hnew

/-- The first word of a layout without pieces is the terminator or one for the greedy cardinal, and none
after it may be a switch. -/
theorem closed_of_tail {terminated : Bool} {tail rest : List Text} {first : Text} {dealt : Values}
    (hmode : walk.mode = .free)
    (h : (⟨[], terminated, tail⟩ : Layout).Reads sig walk.cardinals walk.keys dealt)
    (hline : (⟨[], terminated, tail⟩ : Layout).line = first :: rest) :
    (if terminated then first = terminator else looksLikeSwitch first = false) ∧
      ∃ next, step sig walk first = .ok next ∧ next.Closed := by
  obtain ⟨hopening, -, -⟩ := Layout.reads_nil.mp h
  cases terminated with
  | true =>
    obtain rfl : terminator = first := (List.cons.inj hline).1
    exact ⟨rfl, _, (step_free_eq_ok_iff hmode).mpr .terminator, .inl rfl⟩
  | false =>
    have htail : tail = first :: rest := hline
    obtain ⟨hfirst, d, hd, hgreedy⟩ := hopening rfl first (by simp [htail])
    have hcards : walk.cardinals = d :: walk.cardinals.tail := List.eq_cons_of_mem_head? hd
    exact ⟨hfirst, _, (step_free_eq_ok_iff hmode).mpr (.capture hcards hgreedy hfirst), .inr ⟨d.key, rfl⟩⟩

/-- The first piece of a layout is read as a whole, and what is left of the layout reads from there. -/
theorem run_push {piece : Piece} {layout : Layout} {dealt : Values} (hmode : walk.mode = .free)
    (h : (layout.push piece).Reads sig walk.cardinals walk.keys dealt) :
    ∃ (next : Walk) (more : Values), run sig walk piece.written = .ok next ∧ next.mode = .free ∧
      layout.Reads sig next.cardinals next.keys more ∧
      (next.values ++ (layout.entries ++ more)).Perm
        (walk.values ++ ((layout.push piece).entries ++ dealt)) := by
  by_cases hwords : piece.words = []
  · obtain ⟨hfits, hrest⟩ := (Layout.reads_push_switch hwords).mp h
    have hwritten := run_written hmode hfits hwords (List.nodup_append.mp hrest.distinct).1.of_append_left
    refine ⟨_, dealt, hwritten, hmode, by simpa [keys, Assoc.keys, give] using hrest, ?_⟩
    simp
  · obtain ⟨word, rfl⟩ : ∃ word, piece = .word word := by
      cases piece with
      | word text => exact ⟨text, rfl⟩
      | _ => exact absurd rfl hwords
    obtain ⟨hword, d, cards, more, hcards, hplain, rfl, hrest⟩ := Layout.reads_push_word.mp h
    refine ⟨_, more, run_cons_eq_ok_iff.mpr
      ⟨_, (step_free_eq_ok_iff hmode).mpr (.word hcards hplain hword), rfl⟩, hmode,
      by simpa [keys, Assoc.keys, give] using hrest, ?_⟩
    -- the value of the cardinal moves behind those of the switches
    have hmove : ((d.key, Value.text word) :: (layout.entries ++ more)).Perm
        (layout.entries ++ (d.key, Value.text word) :: more) := List.perm_middle.symm
    simpa [Piece.entries] using hmove.append_left walk.values

/-- A walk over a layout goes well, and gives what the layout gives to switches and deals out to
cardinals. -/
theorem run_layout (walk : Walk) {layout : Layout} {dealt : Values} (hmode : walk.mode = .free)
    (h : layout.Reads sig walk.cardinals walk.keys dealt) :
    ∃ last values, run sig walk layout.line = .ok last ∧ last.finish = .ok values ∧
      values.Perm (walk.values ++ (layout.entries ++ dealt)) := by
  obtain ⟨front, terminated, tail⟩ := layout
  induction front generalizing walk dealt with
  | nil =>
    obtain ⟨last, hrun, hlast⟩ := run_tail hmode h
    exact ⟨last, _, hrun, hlast, .refl _⟩
  | cons piece front ih =>
    have hpush : (⟨piece :: front, terminated, tail⟩ : Layout) =
        (⟨front, terminated, tail⟩ : Layout).push piece := rfl
    rw [hpush] at h ⊢
    obtain ⟨next, more, hpiece, hfree, hreads, hgives⟩ := run_push hmode h
    obtain ⟨last, values, hrun, hlast, hperm⟩ := ih next hfree hreads
    rw [Layout.line_push]
    exact ⟨last, values, run_append_eq_ok_iff.mpr ⟨next, hpiece, hrun⟩, hlast, hperm.trans hgives⟩

/-! ## From a walk to a layout -/

/-- No key occurs twice, among those that have a value and those of the cardinals that have none yet. -/
structure Sound (sig : Signature) (walk : Walk) : Prop where
  distinct : (walk.keys ++ walk.cardinals.map Declaration.key).Nodup
  remaining : walk.cardinals ⊆ sig.cardinals

theorem sound_start (sig : Signature) : Sound sig (start sig) :=
  { distinct := by simpa [start, keys] using sig.nodup_cardinal_keys
    remaining := List.Subset.refl _ }

/-- Keys of switches are not those of cardinals. -/
theorem Sound.not_mem_cardinals (h : Sound sig walk) {d : Declaration} (hd : d ∈ sig.switches) :
    d.key ∉ walk.cardinals.map Declaration.key := by
  intro hmem
  obtain ⟨e, he, hkey⟩ := List.mem_map.mp hmem
  exact Signature.key_ne_of_switch hd (h.remaining he) hkey.symm

theorem keys_after (walk : Walk) (piece : Piece) (read : Nat) (mode : Mode) :
    ({ walk.give piece.entries with read := read, mode := mode } : Walk).keys =
      walk.keys ++ Assoc.keys piece.entries :=
  keys_give walk piece.entries

/-- New keys of switches keep a walk sound. -/
theorem Sound.give (h : Sound sig walk) {piece : Piece} {read : Nat} {mode : Mode}
    (hfits : piece.Fits sig) (hpiece : (Assoc.keys piece.entries).Nodup)
    (hnew : ∀ key ∈ Assoc.keys piece.entries, key ∉ walk.keys) :
    Sound sig { walk.give piece.entries with read := read, mode := mode } := by
  refine ⟨?_, h.remaining⟩
  obtain ⟨hwalk, hcards, hold⟩ := List.nodup_append.mp h.distinct
  have hapart : ∀ key ∈ Assoc.keys piece.entries, key ∉ walk.cardinals.map Declaration.key := by
    intro key hkey
    obtain ⟨entry, hentry, rfl⟩ := List.mem_map.mp hkey
    obtain ⟨d, hd, hkey, -⟩ := hfits.given entry hentry
    exact hkey ▸ h.not_mem_cardinals hd
  rw [keys_after]
  refine List.nodup_append.mpr ⟨List.nodup_append.mpr ⟨hwalk, hpiece, ?_⟩, hcards, ?_⟩
  · rintro key hkey _ hother rfl
    exact hnew key hother hkey
  · rintro key hkey _ hother rfl
    rcases List.mem_append.mp hkey with hkey | hkey
    · exact hold key hkey key hother rfl
    · exact hapart key hkey hother

/-- A word for the next cardinal keeps a walk sound. -/
theorem Sound.word (h : Sound sig walk) {d : Declaration} {rest : List Declaration} {value : Value}
    {read : Nat} (hcards : walk.cardinals = d :: rest) :
    Sound sig { walk.give [(d.key, value)] with read := read, cardinals := rest } := by
  obtain ⟨hdistinct, hremaining⟩ := h
  rw [hcards] at hdistinct hremaining
  refine ⟨?_, fun e he => hremaining (List.mem_cons_of_mem d he)⟩
  simpa [keys, Assoc.keys, give] using hdistinct

/-- What is dealt out to the cardinals that are left is new. -/
theorem Sound.distinct_deal (h : Sound sig walk) {words : List Text} {dealt : Values}
    (hdeals : Signature.deal? walk.cardinals words = some dealt) :
    (walk.keys ++ Assoc.keys dealt).Nodup :=
  ((Signature.keys_of_deal? hdeals).sublist.append_left walk.keys).nodup h.distinct

/-- An option that waits for its value is given the next word, which is no switch. -/
theorem run_awaiting {d : Declaration} {index : Nat} {words : List Text} {values : Values}
    (hmode : walk.mode = .awaiting d index) (hrun : run sig walk words = .ok last)
    (hfinish : last.finish = .ok values) :
    ∃ value rest, words = value :: rest ∧ looksLikeSwitch value = false ∧ d.key ∉ walk.keys ∧
      run sig { walk.give [(d.key, .text value)] with read := walk.read + 1, mode := .free } rest =
        .ok last := by
  cases words with
  | nil =>
    cases hrun
    simp [finish, hmode] at hfinish
  | cons value rest =>
    obtain ⟨next, hstep, hrest⟩ := run_cons_eq_ok_iff.mp hrun
    obtain ⟨hvalue, hnew, rfl⟩ := (step_awaiting_eq_ok_iff hmode).mp hstep
    exact ⟨value, rest, rfl, hvalue, hnew, hrest⟩

/-- Whether there is a layout of some words that reads from a walk. -/
def Readable (sig : Signature) (walk : Walk) (words : List Text) : Prop :=
  ∃ (layout : Layout) (dealt : Values),
    layout.line = words ∧ layout.Reads sig walk.cardinals walk.keys dealt

/-- A piece for switches may be put in front of words that are readable after it. -/
theorem Readable.switch {piece : Piece} {words : List Text} {read : Nat} {mode : Mode}
    (hwords : piece.words = []) (hfits : piece.Fits sig)
    (h : Readable sig { walk.give piece.entries with read := read, mode := mode } words) :
    Readable sig walk (piece.written ++ words) := by
  obtain ⟨layout, dealt, rfl, hreads⟩ := h
  refine ⟨layout.push piece, dealt, layout.line_push piece, ?_⟩
  exact (Layout.reads_push_switch hwords).mpr ⟨hfits, keys_after walk piece read mode ▸ hreads⟩

/-- A walk that goes well has gone over a layout. -/
theorem readable_of_run {words : List Text} {values : Values} (hsound : Sound sig walk)
    (hmode : walk.mode = .free) (hrun : run sig walk words = .ok last)
    (hfinish : last.finish = .ok values) : Readable sig walk words := by
  -- by the number of words, since an option may take two of them
  induction hlength : words.length using Nat.strongRecOn generalizing words walk with
  | _ n ih =>
  cases words with
  | nil =>
    have hdeals := Signature.deal?_nil walk.cardinals
    exact ⟨⟨[], false, []⟩, [], rfl,
      Layout.reads_nil.mpr ⟨by simp, hdeals, hsound.distinct_deal hdeals⟩⟩
  | cons word rest =>
    have hshorter : rest.length < n := by
      rw [← hlength]
      exact Nat.lt_succ_self _
    obtain ⟨next, hstep, hrest⟩ := run_cons_eq_ok_iff.mp hrun
    -- all pieces of one word that go to switches are alike
    have hswitch : ∀ piece : Piece, piece.words = [] → piece.Fits sig → piece.written = [word] →
        (Assoc.keys piece.entries).Nodup → (∀ key ∈ Assoc.keys piece.entries, key ∉ walk.keys) →
        { walk.give piece.entries with read := walk.read + 1 } = next →
        Readable sig walk (word :: rest) := by
      rintro piece hwords hfits hwritten hpiece hnew rfl
      have hafter := ih rest.length hshorter (hsound.give hfits hpiece hnew) hmode hrest rfl
      have hput := Readable.switch hwords hfits hafter
      rwa [hwritten] at hput
    cases (step_free_eq_ok_iff hmode).mp hstep with
    | terminator =>
      obtain ⟨dealt, hdeals⟩ := deal?_of_run
        { walk with read := walk.read + 1, mode := .words } rfl hrest
      exact ⟨⟨[], true, rest⟩, dealt, rfl,
        Layout.reads_nil.mpr ⟨by simp, hdeals, hsound.distinct_deal hdeals⟩⟩
    | @flag name d hnames hkind hnew =>
      exact hswitch (.flag d name) rfl ⟨hnames, hkind⟩ rfl (List.nodup_singleton d.key)
        (List.forall_mem_singleton.mpr hnew) rfl
    | @option name d hnames hkind =>
      obtain ⟨value, more, rfl, hvalue, hnew, hfollowing⟩ := run_awaiting rfl hrest hfinish
      have hfits : (Piece.separate d name value).Fits sig := ⟨hnames, hkind, hvalue⟩
      have hafter := ih more.length (Nat.lt_trans (Nat.lt_succ_self _) hshorter)
        (hsound.give hfits (List.nodup_singleton d.key) (List.forall_mem_singleton.mpr hnew))
        rfl hfollowing rfl
      exact Readable.switch rfl hfits hafter
    | @inline name value d hnames hkind hvalue hnew =>
      exact hswitch (.inline d name value) rfl ⟨hnames, hkind, hvalue⟩ rfl (List.nodup_singleton d.key)
        (List.forall_mem_singleton.mpr hnew) rfl
    | @cluster flags hne hflags =>
      have hkeys := Piece.keys_cluster flags
      refine hswitch (.cluster flags) rfl ⟨hne, hflags.short⟩ rfl (hkeys ▸ hflags.distinct) ?_ rfl
      rw [hkeys]
      intro key hkey
      obtain ⟨d, hd, rfl⟩ := List.mem_map.mp hkey
      exact hflags.new d hd
    | idle tail =>
      exact hswitch (.idle tail) rfl trivial rfl List.nodup_nil (List.forall_mem_nil _)
        (by simp [Piece.entries])
    | @word _ d cards hcards hplain hword =>
      obtain ⟨layout, dealt, rfl, hreads⟩ := ih rest.length hshorter (hsound.word hcards) hmode hrest rfl
      refine ⟨layout.push (.word word), (d.key, .text word) :: dealt, layout.line_push _, ?_⟩
      exact Layout.reads_push_word.mpr ⟨hword, d, cards, dealt, hcards, hplain, rfl,
        by simpa [keys, Assoc.keys, give] using hreads⟩
    | @capture _ d cards hcards hgreedy hword =>
      have hcards : walk.cardinals = d :: cards := hcards
      have hdeals : Signature.deal? walk.cardinals (word :: rest) =
          some [(d.key, .captured (word :: rest))] := by
        rw [hcards]
        exact Signature.deal?_greedy hgreedy word rest
      refine ⟨⟨[], false, word :: rest⟩, _, rfl,
        Layout.reads_nil.mpr ⟨?_, hdeals, hsound.distinct_deal hdeals⟩⟩
      intro _ first hfirst
      obtain rfl : word = first := by simpa using hfirst
      exact ⟨hword, d, by simp [hcards], hgreedy⟩

end Walk

namespace Signature

variable {sig : Signature} {words : List Text} {raw : Values}

/-! ## Whole command lines -/

theorem walk_eq_ok_iff :
    sig.walk words = .ok raw ↔
      ∃ last, Walk.run sig (.start sig) words = .ok last ∧ last.finish = .ok raw := by
  unfold walk
  cases hrun : Walk.run sig (.start sig) words <;> simp

/-- A command line with a layout gives what the layout gives to switches and deals out to cardinals. -/
theorem walk_line {layout : Layout} {dealt : Values} (h : layout.Reads sig sig.cardinals [] dealt) :
    ∃ raw, sig.walk layout.line = .ok raw ∧ raw.Perm (layout.entries ++ dealt) := by
  obtain ⟨last, raw, hrun, hlast, hperm⟩ := Walk.run_layout (.start sig) rfl h
  exact ⟨raw, walk_eq_ok_iff.mpr ⟨last, hrun, hlast⟩, hperm⟩

/-- A command line that is read without a fault has a layout. -/
theorem exists_layout_of_walk (h : sig.walk words = .ok raw) :
    ∃ (layout : Layout) (dealt : Values), layout.line = words ∧
      layout.Reads sig sig.cardinals [] dealt ∧ raw.Perm (layout.entries ++ dealt) := by
  obtain ⟨last, hrun, hlast⟩ := walk_eq_ok_iff.mp h
  obtain ⟨layout, dealt, rfl, hreads⟩ := Walk.readable_of_run (Walk.sound_start sig) rfl hrun hlast
  obtain ⟨raw', hwalk, hperm⟩ := walk_line hreads
  obtain rfl : raw' = raw := by simpa [h] using hwalk.symm
  exact ⟨layout, dealt, rfl, hreads, hperm⟩

end Signature

end CommandTree
