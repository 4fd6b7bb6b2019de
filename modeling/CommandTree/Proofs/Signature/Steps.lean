import CommandTree.Proofs.Signature.Switches

/-!
# What a word does to a walk

A word is of one of three shapes: two dashes and a body, a dash and something that does not start with a
dash, or no switch at all (`word_shape`).  The equations `Walk.takeFree_long`, `Walk.takeFree_short` and
`Walk.takeFree_word` say how each is read where a switch may stand.

`Walk.FreeStep` lists everything that such a word can do to a walk, with the conditions under which it
does so, and `Walk.takeFree_eq_ok_iff` states that the list is complete.  A dash followed by an equals
sign is the one kind of word that is read and changes nothing.
-/

namespace CommandTree

/-- The word that opens with a switch of no letters. -/
def idleOpening : Text := [dash, .char '=']

/-! ## The shapes of words -/

/-- A word is a long switch or the terminator, a short switch, or none. -/
theorem word_shape (word : Text) :
    (∃ body, word = terminator ++ body) ∨
      (∃ g rest, g ≠ dash ∧ word = dash :: g :: rest) ∨ looksLikeSwitch word = false := by
  match word with
  | [] => exact .inr (.inr rfl)
  | [g] =>
    by_cases hg : g = dash
    · exact .inr (.inr (by simp [looksLikeSwitch, hg]))
    · exact .inr (.inr (by simp [looksLikeSwitch, hg]))
  | g :: h :: rest =>
    by_cases hg : g = dash
    · subst hg
      by_cases hh : h = dash
      · subst hh
        exact .inl ⟨rest, rfl⟩
      · exact .inr (.inl ⟨h, rest, hh, rfl⟩)
    · exact .inr (.inr (by simp [looksLikeSwitch, hg]))

theorem looksLikeSwitch_long (body : Text) : looksLikeSwitch (terminator ++ body) = true := by
  simp [looksLikeSwitch, terminator]

theorem looksLikeSwitch_short (g : Glyph) (rest : Text) :
    looksLikeSwitch (dash :: g :: rest) = true := by
  simp [looksLikeSwitch]

theorem after?_terminator_short {g : Glyph} (h : g ≠ dash) (rest : Text) :
    Text.after? terminator (dash :: g :: rest) = none := by
  simp [Text.after?, terminator, h.symm]

theorem after?_terminator_of_not_switch {word : Text} (h : looksLikeSwitch word = false) :
    Text.after? terminator word = none := by
  cases hafter : Text.after? terminator word with
  | none => rfl
  | some body =>
    rw [Text.after?_eq_some_iff.mp hafter, looksLikeSwitch_long] at h
    cases h

namespace Walk

variable {sig : Signature} {walk next : Walk} {word : Text}

/-- The walk with further values. -/
def give (walk : Walk) (entries : Values) : Walk :=
  { walk with values := walk.values ++ entries }

@[simp] theorem give_values (walk : Walk) (entries : Values) :
    (walk.give entries).values = walk.values ++ entries := rfl

@[simp] theorem give_cardinals (walk : Walk) (entries : Values) :
    (walk.give entries).cardinals = walk.cardinals := rfl

@[simp] theorem give_mode (walk : Walk) (entries : Values) : (walk.give entries).mode = walk.mode := rfl

@[simp] theorem give_read (walk : Walk) (entries : Values) : (walk.give entries).read = walk.read := rfl

@[simp] theorem give_nil (walk : Walk) : walk.give [] = walk := by
  simp [give]

@[simp] theorem give_give (walk : Walk) (entries more : Values) :
    (walk.give entries).give more = walk.give (entries ++ more) := by
  simp [give]

@[simp] theorem keys_give (walk : Walk) (entries : Values) :
    (walk.give entries).keys = walk.keys ++ Assoc.keys entries := by
  simp [give, keys, Assoc.keys]

/-! ## Recording -/

theorem record_eq_ok_iff {d : Declaration} {value : Value} {index : Nat} :
    walk.record d value index = .ok next ↔ d.key ∉ walk.keys ∧ walk.give [(d.key, value)] = next := by
  unfold record
  split
  · rename_i h
    simp [h]
  · rename_i h
    simp [h, give]

/-- A word for a cardinal. -/
theorem takeWord_eq_ok_iff :
    walk.takeWord word = .ok next ↔
      ∃ d rest, walk.cardinals = d :: rest ∧
        ((d.isGreedy = false ∧ { walk.give [(d.key, .text word)] with cardinals := rest } = next) ∨
          (d.isGreedy = true ∧
            { walk.give [(d.key, .captured [word])] with mode := .capturing d.key } = next)) := by
  unfold takeWord
  cases hcards : walk.cardinals with
  | nil => simp
  | cons d rest =>
    cases hg : d.isGreedy with
    | true => simp [hg, give, hcards]
    | false => simp [hg, give]

/-! ## Clusters of letters -/

/-- One letter: it names a short flag that was not given before, and no equals sign follows it. -/
theorem takeLetters_cons_eq_ok_iff {assigned : Bool} {letter : Glyph} {rest : Text} :
    takeLetters sig assigned walk (letter :: rest) = .ok next ↔
      ∃ d ∈ sig.switches, d.name = [dash, letter] ∧ ¬(assigned = true ∧ rest = []) ∧ d.key ∉ walk.keys ∧
        takeLetters sig assigned (walk.give [(d.key, .on)]) rest = .ok next := by
  constructor
  · intro h
    simp only [takeLetters] at h
    split at h
    · cases h
    rename_i d hd
    obtain ⟨hmem, hname⟩ := Signature.switch?_eq_some_iff.mp hd
    split at h
    · cases h
    rename_i hassigned
    split at h
    · cases h
    rename_i hrecord
    obtain ⟨hnew, rfl⟩ := record_eq_ok_iff.mp hrecord
    exact ⟨d, hmem, hname, hassigned, hnew, h⟩
  · rintro ⟨d, hmem, hname, hassigned, hnew, h⟩
    have hswitch : sig.switch? [dash, letter] = some d := Signature.switch?_eq_some_iff.mpr ⟨hmem, hname⟩
    have hrecord : walk.record d .on walk.read = .ok (walk.give [(d.key, .on)]) :=
      record_eq_ok_iff.mpr ⟨hnew, rfl⟩
    simp only [takeLetters, hswitch, hassigned, if_false, hrecord]
    exact h

/-- What a cluster asks of its flags: they are short, none is there twice, and none was given before. -/
structure ClusterOf (sig : Signature) (walk : Walk) (flags : List Declaration) : Prop where
  short : ∀ d ∈ flags, d ∈ sig.switches ∧ d.name = dash :: d.key
  distinct : (flags.map Declaration.key).Nodup
  new : ∀ d ∈ flags, d.key ∉ walk.keys

theorem clusterOf_nil (sig : Signature) (walk : Walk) : ClusterOf sig walk [] :=
  { short := by simp
    distinct := List.nodup_nil
    new := by simp }

theorem clusterOf_cons {d : Declaration} {flags : List Declaration} :
    ClusterOf sig walk (d :: flags) ↔
      (d ∈ sig.switches ∧ d.name = dash :: d.key) ∧ d.key ∉ walk.keys ∧
        ClusterOf sig (walk.give [(d.key, .on)]) flags := by
  have hkeys : ∀ e : Declaration, e.key ∉ (walk.give [(d.key, .on)]).keys ↔
      e.key ∉ walk.keys ∧ e.key ≠ d.key := by
    intro e
    rw [keys_give, List.mem_append, not_or]
    simp [Assoc.keys]
  constructor
  · rintro ⟨hshort, hdistinct, hnew⟩
    obtain ⟨hother, hdistinct⟩ := List.nodup_cons.mp hdistinct
    refine ⟨hshort d (by simp), hnew d (by simp), fun e he => hshort e (by simp [he]), hdistinct,
      fun e he => (hkeys e).mpr ⟨hnew e (by simp [he]), fun heq => hother ?_⟩⟩
    exact heq ▸ List.mem_map_of_mem he
  · rintro ⟨hd, hdnew, hshort, hdistinct, hnew⟩
    refine ⟨List.forall_mem_cons.mpr ⟨hd, hshort⟩, List.nodup_cons.mpr ⟨fun hmem => ?_, hdistinct⟩,
      List.forall_mem_cons.mpr ⟨hdnew, fun e he => ((hkeys e).mp (hnew e he)).1⟩⟩
    obtain ⟨e, he, hkey⟩ := List.mem_map.mp hmem
    exact ((hkeys e).mp (hnew e he)).2 hkey

/-- What the letters of a word do: they spell a cluster, and no equals sign follows unless there are no
letters. -/
theorem takeLetters_eq_ok_iff {assigned : Bool} {letters : Text} :
    takeLetters sig assigned walk letters = .ok next ↔
      ∃ flags : List Declaration, letters = flags.flatMap Declaration.key ∧ ClusterOf sig walk flags ∧
        (assigned = true → flags = []) ∧ walk.give (flags.map fun d => (d.key, .on)) = next := by
  induction letters generalizing walk with
  | nil =>
    simp only [takeLetters, Except.ok.injEq]
    constructor
    · rintro rfl
      exact ⟨[], rfl, clusterOf_nil sig walk, fun _ => rfl, by simp⟩
    · rintro ⟨flags, hletters, hflags, -, rfl⟩
      rw [(Signature.letters_of_cluster hflags.short).1 hletters.symm]
      simp
  | cons letter rest ih =>
    rw [takeLetters_cons_eq_ok_iff]
    constructor
    · rintro ⟨d, hmem, hname, hassigned, hnew, hrest⟩
      obtain ⟨hkey, -⟩ := Signature.key_of_name hmem hname
      obtain ⟨flags, rfl, hflags, hnone, rfl⟩ := ih.mp hrest
      refine ⟨d :: flags, by simp [hkey], clusterOf_cons.mpr ⟨⟨hmem, by rw [hname, hkey]⟩, hnew, hflags⟩,
        fun hass => ?_, by simp⟩
      exact absurd ⟨hass, by simp [hnone hass]⟩ hassigned
    · rintro ⟨flags, hletters, hflags, hnone, rfl⟩
      cases flags with
      | nil => cases hletters
      | cons d flags =>
        obtain ⟨⟨hmem, hname⟩, hnew, hmore⟩ := clusterOf_cons.mp hflags
        obtain ⟨g, -, hkey⟩ := Signature.key_of_short hmem hname
        rw [List.flatMap_cons, hkey] at hletters
        obtain ⟨rfl, rfl⟩ : letter = g ∧ rest = flags.flatMap Declaration.key := by simpa using hletters
        have hfree : assigned ≠ true := fun hass => by cases hnone hass
        exact ⟨d, hmem, by rw [hname, hkey], fun h => hfree h.1, hnew,
          ih.mpr ⟨flags, rfl, hmore, fun hass => absurd hass hfree, by simp⟩⟩

/-! ## Words where a switch may stand -/

/-- Everything that a word can do where a switch may stand.  The last two give a value to a cardinal;
`idle` is the only one that leaves the walk as it is. -/
inductive FreeStep (sig : Signature) (walk : Walk) : Text → Walk → Prop
  /-- `--` -/
  | terminator : FreeStep sig walk terminator { walk with mode := .words }
  /-- `--name`, for a flag -/
  | flag {name : Text} {d : Declaration} (names : sig.Names name d) (kind : d.isOption = false)
      (new : d.key ∉ walk.keys) :
      FreeStep sig walk (CommandTree.terminator ++ name) (walk.give [(d.key, .on)])
  /-- `--name`, for an option whose value is to follow -/
  | option {name : Text} {d : Declaration} (names : sig.Names name d) (kind : d.isOption = true) :
      FreeStep sig walk (CommandTree.terminator ++ name) { walk with mode := .awaiting d walk.read }
  /-- `--name=value` -/
  | inline {name value : Text} {d : Declaration} (names : sig.Names name d) (kind : d.isOption = true)
      (nonempty : value ≠ []) (new : d.key ∉ walk.keys) :
      FreeStep sig walk (CommandTree.terminator ++ (name ++ .char '=' :: value))
        (walk.give [(d.key, .text value)])
  /-- `-abc` -/
  | cluster {flags : List Declaration} (nonempty : flags ≠ []) (cluster : ClusterOf sig walk flags) :
      FreeStep sig walk (dash :: flags.flatMap Declaration.key)
        (walk.give (flags.map fun d => (d.key, .on)))
  /-- `-=`, with anything after it -/
  | idle (rest : Text) : FreeStep sig walk (idleOpening ++ rest) walk
  /-- A word for a cardinal that takes one. -/
  | word {word : Text} {d : Declaration} {rest : List Declaration}
      (cardinals : walk.cardinals = d :: rest) (plain : d.isGreedy = false) (noSwitch : looksLikeSwitch word = false) :
      FreeStep sig walk word { walk.give [(d.key, .text word)] with cardinals := rest }
  /-- The first word for a cardinal that takes all. -/
  | capture {word : Text} {d : Declaration} {rest : List Declaration}
      (cardinals : walk.cardinals = d :: rest) (greedy : d.isGreedy = true)
      (noSwitch : looksLikeSwitch word = false) :
      FreeStep sig walk word { walk.give [(d.key, .captured [word])] with mode := .capturing d.key }

theorem takeFree_terminator :
    takeFree sig walk terminator = .ok { walk with mode := .words } := by
  simp [takeFree]

theorem takeFree_long {body : Text} (h : body ≠ []) :
    takeFree sig walk (terminator ++ body) = takeLong sig walk body := by
  have hne : terminator ++ body ≠ terminator := by simpa using h
  simp [takeFree, hne]

theorem takeFree_short {g : Glyph} (h : g ≠ dash) (rest : Text) :
    takeFree sig walk (dash :: g :: rest) =
      takeLetters sig (Text.cutAt (.char '=') (g :: rest)).2.isSome walk
        (Text.cutAt (.char '=') (g :: rest)).1 := by
  have hne : dash :: g :: rest ≠ terminator := by simp [terminator, h]
  simp [takeFree, hne, after?_terminator_short h, looksLikeSwitch_short]

theorem takeFree_word (h : looksLikeSwitch word = false) :
    takeFree sig walk word = walk.takeWord word := by
  have hne : word ≠ terminator := by
    rintro rfl
    cases h
  simp [takeFree, hne, after?_terminator_of_not_switch h, h]

/-- A long switch without an equals sign is a flag, or an option that waits for its value. -/
theorem takeLong_bare {name : Text} (h : Glyph.char '=' ∉ name) :
    takeLong sig walk name = .ok next ↔
      ∃ d, sig.Names name d ∧
        ((d.isOption = true ∧ { walk with mode := .awaiting d walk.read } = next) ∨
          (d.isOption = false ∧ d.key ∉ walk.keys ∧ walk.give [(d.key, .on)] = next)) := by
  simp only [takeLong, Text.cutAt_eq_self h]
  cases hfind : sig.findLong name walk.read with
  | error fault =>
    have hnone : ∀ d, ¬sig.Names name d := fun d hd => by
      rw [Signature.findLong_eq_ok_iff.mpr hd] at hfind
      cases hfind
    simp [hnone]
  | ok d =>
    have hnames := Signature.findLong_eq_ok_iff.mp hfind
    have honly : ∀ e, sig.Names name e ↔ e = d := fun e =>
      ⟨fun he => he.unique hnames, fun he => he ▸ hnames⟩
    cases hkind : d.isOption <;> simp [honly, hkind, record_eq_ok_iff]

/-- A long switch with an equals sign is an option with a value that is not empty. -/
theorem takeLong_inline {name value : Text} (h : Glyph.char '=' ∉ name) :
    takeLong sig walk (name ++ .char '=' :: value) = .ok next ↔
      ∃ d, sig.Names name d ∧ d.isOption = true ∧ value ≠ [] ∧ d.key ∉ walk.keys ∧
        walk.give [(d.key, .text value)] = next := by
  simp only [takeLong, Text.cutAt_append h]
  cases hfind : sig.findLong name walk.read with
  | error fault =>
    have hnone : ∀ d, ¬sig.Names name d := fun d hd => by
      rw [Signature.findLong_eq_ok_iff.mpr hd] at hfind
      cases hfind
    simp [hnone]
  | ok d =>
    have hnames := Signature.findLong_eq_ok_iff.mp hfind
    have honly : ∀ e, sig.Names name e ↔ e = d := fun e =>
      ⟨fun he => he.unique hnames, fun he => he ▸ hnames⟩
    cases hkind : d.isOption with
    | false => simp [honly, hkind]
    | true => cases value <;> simp [honly, hkind, record_eq_ok_iff]

/-- The list of what a word can do is complete. -/
theorem freeStep_of_takeFree (h : takeFree sig walk word = .ok next) : FreeStep sig walk word next := by
  rcases word_shape word with ⟨body, rfl⟩ | ⟨g, rest, hg, rfl⟩ | hword
  · by_cases hbody : body = []
    · subst hbody
      rw [List.append_nil, takeFree_terminator] at h
      cases h
      exact .terminator
    rw [takeFree_long hbody] at h
    rcases Text.cutAt_cases (.char '=') body with ⟨hclean, -⟩ | ⟨name, value, hclean, rfl, -⟩
    · obtain ⟨d, hnames, ⟨hkind, rfl⟩ | ⟨hkind, hnew, rfl⟩⟩ := (takeLong_bare hclean).mp h
      · exact .option hnames hkind
      · exact .flag hnames hkind hnew
    · obtain ⟨d, hnames, hkind, hvalue, hnew, rfl⟩ := (takeLong_inline hclean).mp h
      exact .inline hnames hkind hvalue hnew
  · rw [takeFree_short hg] at h
    obtain ⟨flags, hletters, hflags, hnone, rfl⟩ := takeLetters_eq_ok_iff.mp h
    rcases Text.cutAt_cases (.char '=') (g :: rest) with ⟨-, hcut⟩ | ⟨letters, value, -, htext, hcut⟩
    · have hword : g :: rest = flags.flatMap Declaration.key := by simpa [hcut] using hletters
      rw [hword]
      refine .cluster ?_ hflags
      rintro rfl
      cases hword
    · -- an equals sign is only read after no letters at all
      have hempty : flags = [] := hnone (by rw [hcut]; rfl)
      subst hempty
      have hempty : letters = [] := by simpa [hcut] using hletters
      subst hempty
      rw [htext, List.map_nil, give_nil]
      exact .idle value
  · rw [takeFree_word hword] at h
    obtain ⟨d, rest, hcards, ⟨hplain, rfl⟩ | ⟨hgreedy, rfl⟩⟩ := takeWord_eq_ok_iff.mp h
    · exact .word hcards hplain hword
    · exact .capture hcards hgreedy hword

/-- Everything on the list does happen. -/
theorem takeFree_of_freeStep (h : FreeStep sig walk word next) : takeFree sig walk word = .ok next := by
  cases h with
  | terminator => exact takeFree_terminator
  | @flag name d hnames hkind hnew =>
    rw [takeFree_long hnames.clean.1, takeLong_bare hnames.clean.2]
    exact ⟨d, hnames, .inr ⟨hkind, hnew, rfl⟩⟩
  | @option name d hnames hkind =>
    rw [takeFree_long hnames.clean.1, takeLong_bare hnames.clean.2]
    exact ⟨d, hnames, .inl ⟨hkind, rfl⟩⟩
  | @inline name value d hnames hkind hvalue hnew =>
    rw [takeFree_long (by simp), takeLong_inline hnames.clean.2]
    exact ⟨d, hnames, hkind, hvalue, hnew, rfl⟩
  | @cluster flags hne hflags =>
    obtain ⟨hempty, hletters⟩ := Signature.letters_of_cluster hflags.short
    cases htext : flags.flatMap Declaration.key with
    | nil => exact absurd (hempty htext) hne
    | cons g rest =>
      rw [htext] at hletters
      have hg : g ≠ dash := by
        rintro rfl
        exact absurd (hletters dash (by simp)) (by decide)
      have hclean : Glyph.char '=' ∉ g :: rest := fun hmem =>
        absurd (hletters _ hmem) (by decide)
      rw [takeFree_short hg, Text.cutAt_eq_self hclean]
      exact takeLetters_eq_ok_iff.mpr ⟨flags, htext.symm, hflags, by simp, rfl⟩
  | idle rest =>
    have hne : Glyph.char '=' ≠ dash := by decide
    have hshort : takeFree sig walk (idleOpening ++ rest) = _ := takeFree_short hne rest
    simpa [Text.cutAt, takeLetters] using hshort
  | word hcards hplain hword =>
    rw [takeFree_word hword]
    exact takeWord_eq_ok_iff.mpr ⟨_, _, hcards, .inl ⟨hplain, rfl⟩⟩
  | capture hcards hgreedy hword =>
    rw [takeFree_word hword]
    exact takeWord_eq_ok_iff.mpr ⟨_, _, hcards, .inr ⟨hgreedy, rfl⟩⟩

theorem takeFree_eq_ok_iff : takeFree sig walk word = .ok next ↔ FreeStep sig walk word next :=
  ⟨freeStep_of_takeFree, takeFree_of_freeStep⟩

end Walk

end CommandTree
