import CommandTree.Proofs.Usage.Words

/-!
# The grammar of usage lines

`Usage.States` says which lines state a usage: blanks, the header, blanks, the command, then the words
of the usage with blanks before each, and blanks.  No two of the words have the same key.

The reader notes what became of each word and goes on.  What it notes is all tokens exactly if the text
is a run of words (`Usage.outcomes_eq_map_ok_iff`), by induction on the tokens, where `Progress.Admits`
carries what the tokens so far demand of the ones that follow.  From this it follows that a line is read
as a usage exactly if it states it, and that there is a problem to report in every other line
(`Usage.parse?_iff_states`).
-/

namespace CommandTree

namespace Usage

variable {text rest line : Text} {usage : Usage} {progress : Progress} {read : Token} {reads : List Token}

/-- The tokens of a usage, in the order in which they are written. -/
def asTokens (usage : Usage) : List Token :=
  usage.arguments.map .argument ++ usage.rest.toList.map .rest

/-- What may be written for some tokens: a word for each, after at least one blank. -/
inductive Words : List Token → Text → Prop
  | nil : Words [] []
  | cons {read : Token} {reads : List Token} {blanks w body : Text} (apart : blanks ≠ [])
      (blank : blanks.IsBlank) (word : Word read w) (more : Words reads body) : Words (read :: reads) (blanks ++ w ++ body)

/-- Whether a line states a usage. -/
def States (line : Text) (usage : Usage) : Prop :=
  ∃ lead gap body trail : Text, lead.IsBlank ∧ gap.IsBlank ∧ trail.IsBlank ∧
    line = lead ++ header ++ gap ++ command ++ body ++ trail ∧ Words usage.asTokens body ∧
    usage.keys.Nodup

/-! ## Tokens and usages -/

theorem keys_asTokens (usage : Usage) : usage.asTokens.map Token.key = usage.keys := by
  simp [asTokens, keys, Function.comp_def, Token.key]

theorem ofTokens_asTokens (usage : Usage) : ofTokens usage.asTokens = usage := by
  obtain ⟨arguments, capture⟩ := usage
  have harguments : ∀ arguments : List Argument,
      (arguments.map Token.argument).filterMap Token.argument? = arguments := by
    intro arguments
    simp [List.filterMap_map, Function.comp_def, Token.argument?]
  have hnone : (arguments.map Token.argument).findSome? Token.rest? = none := by
    simp [Token.rest?]
  cases capture with
  | none => simp [ofTokens, asTokens, harguments, hnone]
  | some name => simp [ofTokens, asTokens, harguments, hnone, Token.argument?, Token.rest?]

theorem rest?_of_mem_dropLast (usage : Usage) : ∀ read ∈ usage.asTokens.dropLast, read.rest? = none := by
  intro read hread
  have hmem : read ∈ usage.arguments.map Token.argument := by
    obtain ⟨arguments, capture⟩ := usage
    cases capture with
    | none => simpa [asTokens] using List.dropLast_subset _ hread
    | some name => simpa [asTokens] using hread
  obtain ⟨argument, -, rfl⟩ := List.mem_map.mp hmem
  rfl

/-- Where no token but the last is a rest capture, the tokens are those of a usage. -/
theorem asTokens_ofTokens (h : ∀ read ∈ reads.dropLast, read.rest? = none) :
    (ofTokens reads).asTokens = reads := by
  induction reads with
  | nil => rfl
  | cons read reads ih =>
    cases read with
    | argument a =>
      have hrest : ∀ read ∈ reads.dropLast, read.rest? = none := by
        intro read hread
        refine h read ?_
        cases reads with
        | nil => simp at hread
        | cons next more => exact List.mem_cons_of_mem _ hread
      have hcons : (ofTokens (.argument a :: reads)).asTokens =
          .argument a :: (ofTokens reads).asTokens := rfl
      rw [hcons, ih hrest]
    | rest name =>
      cases reads with
      | nil => rfl
      | cons next more => exact absurd (h (.rest name) (by simp)) (by simp [Token.rest?])

/-! ## What became of each word -/

theorem outcomes_eq_nil_iff : outcomes progress text = [] ↔ text.IsBlank := by
  rw [← Text.trimStart_eq_nil_iff]
  unfold outcomes
  split
  · rename_i hstart
    simp [hstart]
  · rename_i g more hstart
    simp only [hstart, reduceCtorEq, iff_false]
    split
    · simp
    · split
      · simp
      · split <;> simp

theorem outcomes_eq_cons_ok_iff {results : List (Except Problem Token)} :
    outcomes progress text = .ok read :: results ↔
      progress.rest = none ∧ progress.seen.lookup read.key = none ∧
        ∃ after, token text.trimStart = .ok (read, after) ∧
          outcomes (progress.accept text.trimStart read) after = results := by
  constructor
  · intro h
    rw [outcomes] at h
    split at h
    · cases h
    rename_i g more hstart
    rw [hstart]
    split at h
    · cases h
    rename_i hrest
    split at h
    · cases h
    rename_i got after htoken
    split at h
    · cases h
    rename_i hseen
    obtain ⟨hgot, hresults⟩ := List.cons.inj h
    obtain rfl := Except.ok.inj hgot
    exact ⟨hrest, hseen, after, htoken, hresults⟩
  · rintro ⟨hrest, hseen, after, htoken, hresults⟩
    rw [outcomes]
    split
    · rename_i hstart
      rw [hstart] at htoken
      cases htoken
    rename_i g more hstart
    rw [hstart] at htoken hresults
    simp only [hrest]
    split
    · rename_i hstop
      rw [htoken] at hstop
      cases hstop
    · rename_i hgot
      rw [htoken] at hgot
      cases hgot
      simp only [hseen, hresults]

/-- What the words so far demand of the tokens that follow: none follows the rest capture, which is the
last one, and no key is met twice. -/
structure Progress.Admits (progress : Progress) (reads : List Token) : Prop where
  free : reads ≠ [] → progress.rest = none
  restLast : ∀ read ∈ reads.dropLast, read.rest? = none
  distinct : (reads.map Token.key).Nodup
  new : ∀ read ∈ reads, progress.seen.lookup read.key = none

theorem Progress.admits_nil (progress : Progress) : progress.Admits [] :=
  { free := fun h => absurd rfl h
    restLast := by simp
    distinct := List.nodup_nil
    new := by simp }

theorem Progress.admits_cons (left : Text) :
    progress.Admits (read :: reads) ↔
      progress.rest = none ∧ progress.seen.lookup read.key = none ∧
        (progress.accept left read).Admits reads := by
  have hlookup : ∀ key : Text, (progress.accept left read).seen.lookup key = none ↔
      key ≠ read.key ∧ progress.seen.lookup key = none := by
    intro key
    by_cases hkey : key = read.key
    · simp [accept, hkey]
    · have hskip : (progress.accept left read).seen.lookup key = progress.seen.lookup key := by
        simp only [accept, List.lookup_cons, beq_false_of_ne hkey]
      rw [hskip]
      exact ⟨fun h => ⟨hkey, h⟩, fun h => h.2⟩
  constructor
  · rintro ⟨hfree, hlast, hdistinct, hnew⟩
    obtain ⟨hfirst, hrest⟩ := List.nodup_cons.mp hdistinct
    refine ⟨hfree (List.cons_ne_nil _ _), hnew read List.mem_cons_self, fun hne => ?_,
      fun next hnext => ?_, hrest, fun next hnext => ?_⟩
    · exact hlast read (by simp [List.dropLast_cons_of_ne_nil hne])
    · refine hlast next ?_
      have hne : reads ≠ [] := by
        rintro rfl
        cases hnext
      rw [List.dropLast_cons_of_ne_nil hne]
      exact List.mem_cons_of_mem _ hnext
    · refine (hlookup next.key).mpr ⟨fun heq => hfirst ?_, hnew next (List.mem_cons_of_mem _ hnext)⟩
      exact heq ▸ List.mem_map_of_mem hnext
  · rintro ⟨hfree, hnew, hstill, hlast, hdistinct, hrest⟩
    refine ⟨fun _ => hfree, fun next hnext => ?_, List.nodup_cons.mpr ⟨fun hmem => ?_, hdistinct⟩,
      fun next hnext => ?_⟩
    · cases reads with
      | nil => cases hnext
      | cons second more =>
        rcases List.mem_cons.mp hnext with rfl | hnext
        · exact hstill (List.cons_ne_nil _ _)
        · exact hlast next hnext
    · obtain ⟨next, hnext, hkey⟩ := List.mem_map.mp hmem
      exact ((hlookup next.key).mp (hrest next hnext)).1 hkey
    · rcases List.mem_cons.mp hnext with rfl | hnext
      · exact hnew
      · exact ((hlookup next.key).mp (hrest next hnext)).2

theorem Words.gap {body trail : Text} (h : Words reads body) (htrail : trail.IsBlank) :
    Gap (body ++ trail) := by
  cases h with
  | nil =>
    intro g hg
    exact htrail g (List.mem_of_mem_head? hg)
  | @cons read reads blanks w body apart blank word more =>
    intro g hg
    cases blanks with
    | nil => exact absurd rfl apart
    | cons first blanks =>
      obtain rfl : first = g := by simpa using hg
      exact blank first List.mem_cons_self

theorem Word.ne_nil {w : Text} (h : Word read w) : w ≠ [] := by
  cases h with
  | @required form hform =>
    cases form with
    | long name value => cases value <;> simp [Form.render, Text.lit]
    | _ => simp [Form.render, Text.lit]
  | optional => simp [Text.lit]
  | rest => simp [Text.lit]

/-- A word starts with no blank. -/
theorem Word.head_not_isBlank {w : Text} (h : Word read w) :
    ∀ g ∈ (w ++ rest).head?, g.isBlank = false := by
  have hbracket : ∀ more : Text, ∀ g ∈ (Text.lit "[" ++ more).head?, g.isBlank = false := by
    intro more g hg
    obtain rfl : .char '[' = g := by simpa [Text.lit] using hg
    decide
  cases h with
  | required hform => exact hform.head_not_isBlank true
  | optional => simpa only [List.append_assoc] using hbracket _
  | rest => simpa only [List.append_assoc] using hbracket _

/-- Every word is a token, and nothing is left but blanks, exactly if the text is a run of words that
are admitted one after the other. -/
theorem outcomes_eq_map_ok_iff (hgap : Gap text) :
    outcomes progress text = reads.map .ok ↔
      (∃ body trail, text = body ++ trail ∧ trail.IsBlank ∧ Words reads body) ∧
        progress.Admits reads := by
  induction reads generalizing progress text with
  | nil =>
    rw [List.map_nil, outcomes_eq_nil_iff]
    constructor
    · intro hblank
      exact ⟨⟨[], text, rfl, hblank, .nil⟩, progress.admits_nil⟩
    · rintro ⟨⟨body, trail, rfl, htrail, hwords⟩, -⟩
      cases hwords
      exact htrail
  | cons read reads ih =>
    rw [List.map_cons, outcomes_eq_cons_ok_iff, Progress.admits_cons text.trimStart]
    constructor
    · rintro ⟨hfree, hnew, after, htoken, hmore⟩
      obtain ⟨w, hword, hstart, hafter⟩ := token_eq_ok_iff.mp htoken
      obtain ⟨⟨body, trail, rfl, htrail, hwords⟩, hadmits⟩ := (ih hafter).mp hmore
      obtain ⟨⟨blanks, hblanks, rfl⟩, -⟩ := Text.trimStart_eq_iff.mp hstart
      refine ⟨⟨blanks ++ w ++ body, trail, by simp, htrail, .cons ?_ hblanks hword hwords⟩,
        hfree, hnew, hadmits⟩
      -- a word starts with no blank, so that the gap before it is not empty
      rintro rfl
      obtain ⟨g, more, rfl⟩ := List.exists_cons_of_ne_nil hword.ne_nil
      have hblank := hgap g (by simp)
      rw [@Word.head_not_isBlank [] read (g :: more) hword g (by simp)] at hblank
      cases hblank
    · rintro ⟨⟨body, trail, rfl, htrail, hwords⟩, hfree, hnew, hadmits⟩
      cases hwords with
      | @cons _ _ blanks w body apart hblanks hword hmore =>
        have hstart : (blanks ++ w ++ body ++ trail).trimStart = w ++ (body ++ trail) :=
          Text.trimStart_eq_iff.mpr ⟨⟨blanks, hblanks, by simp⟩, hword.head_not_isBlank⟩
        rw [hstart] at hadmits ⊢
        have hafter := hmore.gap htrail
        refine ⟨hfree, hnew, body ++ trail, token_eq_ok_iff.mpr ⟨w, hword, rfl, hafter⟩, ?_⟩
        exact (ih hafter).mpr ⟨⟨body, trail, rfl, htrail, hmore⟩, hadmits⟩

/-! ## Lines -/

theorem problems_eq_nil_iff {results : List (Except Problem Token)} :
    problems results = [] ↔ ∃ reads : List Token, results = reads.map .ok := by
  induction results with
  | nil => exact ⟨fun _ => ⟨[], rfl⟩, fun _ => rfl⟩
  | cons result results ih =>
    cases result with
    | error problem =>
      constructor
      · intro h
        cases h
      · rintro ⟨reads, hreads⟩
        cases reads <;> cases hreads
    | ok read =>
      refine Iff.trans ih ⟨?_, ?_⟩
      · rintro ⟨reads, rfl⟩
        exact ⟨read :: reads, rfl⟩
      · rintro ⟨reads, hreads⟩
        cases reads with
        | nil => cases hreads
        | cons first reads =>
          obtain ⟨-, hresults⟩ := List.cons.inj hreads
          exact ⟨reads, hresults⟩

theorem tokens_map_ok (reads : List Token) : tokens (reads.map .ok) = reads := by
  simp [tokens, Function.comp_def, Except.toOption]

/-- The head of a line is read exactly up to what follows the command. -/
theorem afterCommand_eq_ok_iff :
    afterCommand line = .ok rest ↔
      ∃ lead gap : Text, lead.IsBlank ∧ gap.IsBlank ∧ line = lead ++ header ++ gap ++ command ++ rest ∧
        Gap rest := by
  have hheader : ∀ more : Text, ∀ g ∈ (header ++ more).head?, g.isBlank = false := by
    intro more g hg
    obtain rfl : .char '#' = g := by simpa [header, Text.lit] using hg
    decide
  have hcommand : ∀ more : Text, ∀ g ∈ (command ++ more).head?, g.isBlank = false := by
    intro more g hg
    obtain rfl : .char '\x7b' = g := by simpa [command, Text.lit] using hg
    decide
  constructor
  · intro h
    simp only [afterCommand] at h
    split at h
    · cases h
    rename_i afterHeader hhead
    split at h
    · cases h
    rename_i left hcmd
    split at h
    · cases h
    rename_i hgap
    cases h
    obtain ⟨-, rfl, hrest⟩ := thenGap_eq_ok_iff.mp hgap
    obtain ⟨⟨lead, hlead, rfl⟩, -⟩ := Text.trimStart_eq_iff.mp (Text.after?_eq_some_iff.mp hhead)
    obtain ⟨⟨gap, hgapBlank, rfl⟩, -⟩ := Text.trimStart_eq_iff.mp (Text.after?_eq_some_iff.mp hcmd)
    exact ⟨lead, gap, hlead, hgapBlank, by simp, hrest⟩
  · rintro ⟨lead, gap, hlead, hgap, rfl, hrest⟩
    have hfirst : (lead ++ header ++ gap ++ command ++ rest).trimStart =
        header ++ (gap ++ (command ++ rest)) :=
      Text.trimStart_eq_iff.mpr ⟨⟨lead, hlead, by simp⟩, hheader _⟩
    have hsecond : (gap ++ (command ++ rest)).trimStart = command ++ rest :=
      Text.trimStart_eq_iff.mpr ⟨⟨gap, hgap, rfl⟩, hcommand _⟩
    have hthird : thenGap () rest = .ok ((), rest) := thenGap_eq_ok_iff.mpr ⟨rfl, rfl, hrest⟩
    simp only [afterCommand, hfirst, hsecond, Text.after?_append, hthird]

/-- The tokens of a usage are admitted from the start exactly if no key is met twice. -/
theorem admits_asTokens_iff {length : Nat} :
    (⟨length, [], none⟩ : Progress).Admits usage.asTokens ↔ usage.keys.Nodup := by
  constructor
  · intro h
    exact keys_asTokens usage ▸ h.distinct
  · intro h
    exact ⟨fun _ => rfl, rest?_of_mem_dropLast usage, (keys_asTokens usage).symm ▸ h, fun _ _ => rfl⟩

/-- A line is read as a usage exactly if it states it. -/
theorem parse?_eq_ok_iff_states : parse? line = .ok usage ↔ States line usage := by
  constructor
  · intro h
    simp only [parse?] at h
    split at h
    · cases h
    rename_i left hleft
    split at h
    · rename_i hnone
      cases h
      obtain ⟨reads, hreads⟩ := problems_eq_nil_iff.mp hnone
      obtain ⟨lead, gap, hlead, hgap, rfl, hrest⟩ := afterCommand_eq_ok_iff.mp hleft
      obtain ⟨⟨body, trail, rfl, htrail, hwords⟩, hadmits⟩ := (outcomes_eq_map_ok_iff hrest).mp hreads
      have hasTokens := asTokens_ofTokens hadmits.restLast
      rw [hreads, tokens_map_ok]
      refine ⟨lead, gap, body, trail, hlead, hgap, htrail, by simp, hasTokens.symm ▸ hwords, ?_⟩
      exact admits_asTokens_iff.mp (hasTokens.symm ▸ hadmits)
    · cases h
  · rintro ⟨lead, gap, body, trail, hlead, hgap, htrail, rfl, hwords, hkeys⟩
    have hrest := hwords.gap htrail
    have hleft : afterCommand (lead ++ header ++ gap ++ command ++ body ++ trail) = .ok (body ++ trail) :=
      afterCommand_eq_ok_iff.mpr ⟨lead, gap, hlead, hgap, by simp, hrest⟩
    have houtcomes : ∀ length, outcomes ⟨length, [], none⟩ (body ++ trail) = usage.asTokens.map .ok :=
      fun _ => (outcomes_eq_map_ok_iff hrest).mpr
        ⟨⟨body, trail, rfl, htrail, hwords⟩, admits_asTokens_iff.mpr hkeys⟩
    simp only [parse?, hleft, houtcomes, problems_eq_nil_iff.mpr ⟨usage.asTokens, rfl⟩, tokens_map_ok,
      ofTokens_asTokens]

/-- The reader accepts exactly the lines that state a usage, and reads the usage that they state.  For
every other line it reports at least one problem. -/
theorem parse?_iff_states (line : Text) :
    (∀ usage, parse? line = .ok usage ↔ States line usage) ∧
      ((∃ problem more, parse? line = .error (problem :: more)) ↔ ¬∃ usage, States line usage) := by
  refine ⟨fun usage => parse?_eq_ok_iff_states, ?_⟩
  have hproblem : ∀ found, parse? line = .error found → found ≠ [] := by
    rintro found h rfl
    simp only [parse?] at h
    split at h
    · cases h
    · split at h
      · cases h
      · rename_i hsome
        exact hsome (Except.error.inj h)
  simp only [← parse?_eq_ok_iff_states]
  cases hparse : parse? line with
  | ok usage => simp
  | error found =>
    obtain ⟨problem, more, rfl⟩ := List.exists_cons_of_ne_nil (hproblem found hparse)
    simp

end Usage

end CommandTree
