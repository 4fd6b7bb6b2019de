import CommandTree.Proofs.Usage.Grammar

/-!
# Writing usage lines and reading them back

The line that is written for a usage states it exactly if the usage is well formed.  One direction
follows the words as they are written; the other holds of any line, since whatever a line states is well
formed (`Usage.wellFormed_of_states`).  So reading back what was written gives the usage again exactly
if it is well formed, and a usage that was read survives being written
(`Usage.parse?_render_iff_wellFormed`).
-/

namespace CommandTree

namespace Usage

variable {line : Text} {usage : Usage} {read : Token} {reads : List Token}

/-! ## What a line states is well formed -/

theorem Words.exists_word {body : Text} (h : Words reads body) : ∀ read ∈ reads, ∃ w, Word read w := by
  induction h with
  | nil => simp
  | cons apart blank word more ih =>
    intro read hread
    rcases List.mem_cons.mp hread with rfl | hread
    · exact ⟨_, word⟩
    · exact ih read hread

theorem Word.wellFormed {argument : Argument} {w : Text} (h : Word (.argument argument) w) :
    argument.WellFormed := by
  cases h with
  | required wellFormed => exact ⟨wellFormed, by simp⟩
  | optional wellFormed => exact ⟨wellFormed, by simp⟩

theorem Word.isIdent {name w : Text} (h : Word (.rest name) w) : name.IsIdent := by
  cases h with
  | rest isIdent => exact isIdent

/-- Only well-formed usages are stated. -/
theorem wellFormed_of_states (h : States line usage) : usage.WellFormed := by
  obtain ⟨-, -, body, -, -, -, -, -, hwords, hkeys⟩ := h
  refine ⟨fun argument hargument => ?_, fun name hname => ?_, hkeys⟩
  · have hread : Token.argument argument ∈ usage.asTokens := by simp [asTokens, hargument]
    obtain ⟨w, hword⟩ := hwords.exists_word _ hread
    exact hword.wellFormed
  · have hread : Token.rest name ∈ usage.asTokens := by
      rw [Option.mem_def] at hname
      simp [asTokens, hname]
    obtain ⟨w, hword⟩ := hwords.exists_word _ hread
    exact hword.isIdent

/-! ## What is written for a well-formed usage states it -/

theorem isBlank_space : Text.IsBlank (Text.lit " ") := by
  intro g hg
  obtain rfl : g = .char ' ' := by simpa [Text.lit] using hg
  decide

theorem isBlank_nil : Text.IsBlank [] := by
  simp [Text.IsBlank]

/-- A token as it is written in the line of a usage. -/
def Token.render : Token → Text
  | argument a => a.render
  | rest name => renderRest name

theorem word_render_argument {argument : Argument} (h : argument.WellFormed) :
    Word (.argument argument) argument.render := by
  obtain ⟨form, required, exclusive⟩ := argument
  obtain ⟨hform, hboth⟩ := h
  cases required with
  | true =>
    obtain rfl : exclusive = false := by simpa using hboth
    exact .required hform
  | false =>
    have hword := Word.optional hform isBlank_nil isBlank_nil exclusive
    simpa [Argument.render, exclusiveMark] using hword

theorem word_render_rest {name : Text} (h : name.IsIdent) : Word (.rest name) (renderRest name) := by
  have hword := Word.rest h isBlank_nil isBlank_nil
  simpa [renderRest] using hword

/-- The words of a line with one space before each. -/
theorem words_render (h : ∀ read ∈ reads, Word read read.render) :
    Words reads (reads.flatMap fun read => Text.lit " " ++ read.render) := by
  induction reads with
  | nil => exact .nil
  | cons read reads ih =>
    have hmore := ih fun next hnext => h next (List.mem_cons_of_mem _ hnext)
    exact .cons (by simp [Text.lit]) isBlank_space (h read List.mem_cons_self) hmore

theorem render_eq (usage : Usage) :
    usage.render = header ++ Text.lit " " ++ command ++
      usage.asTokens.flatMap fun read => Text.lit " " ++ read.render := by
  have hwords : usage.arguments.map Argument.render ++ usage.rest.toList.map renderRest =
      usage.asTokens.map Token.render := by
    simp [asTokens, Function.comp_def, Token.render]
  rw [render, List.cons_append, List.cons_append, hwords, Text.join_cons]
  simp [List.flatMap_map]

theorem states_render (h : usage.WellFormed) : States usage.render usage := by
  obtain ⟨harguments, hrest, hkeys⟩ := h
  have hwords : ∀ read ∈ usage.asTokens, Word read read.render := by
    intro read hread
    rcases List.mem_append.mp hread with hread | hread
    · obtain ⟨argument, hargument, rfl⟩ := List.mem_map.mp hread
      exact word_render_argument (harguments argument hargument)
    · obtain ⟨name, hname, rfl⟩ := List.mem_map.mp hread
      exact word_render_rest (hrest name (by simpa using hname))
  exact ⟨[], Text.lit " ", _, [], isBlank_nil, isBlank_space, isBlank_nil,
    by rw [render_eq]; simp, words_render hwords, hkeys⟩

/-- Reading what is written for a usage gives it back exactly if it is well formed.  So a usage that was
read is read again from what is written for it. -/
theorem parse?_render_iff_wellFormed :
    (∀ usage : Usage, parse? usage.render = .ok usage ↔ usage.WellFormed) ∧
      ∀ line : Text, (parse? line >>= fun usage => parse? usage.render) = parse? line := by
  have hback : ∀ usage : Usage, usage.WellFormed → parse? usage.render = .ok usage := fun usage h =>
    parse?_eq_ok_iff_states.mpr (states_render h)
  refine ⟨fun usage => ⟨fun h => ?_, hback usage⟩, fun line => ?_⟩
  · exact wellFormed_of_states (parse?_eq_ok_iff_states.mp h)
  · cases hparse : parse? line with
    | error found => rfl
    | ok usage => exact hback usage (wellFormed_of_states (parse?_eq_ok_iff_states.mp hparse))

end Usage

end CommandTree
