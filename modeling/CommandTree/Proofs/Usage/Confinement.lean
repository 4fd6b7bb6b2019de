import CommandTree.Proofs.Usage.Words

/-!
# Readers stay in their word

A word of a usage line that holds no blank is read, or refused, without a look at what follows it, but for
the one glyph that ends it.  A reader that is given a word and the rest of a line leaves a text that ends
with this rest and is an end of what it was given (`Usage.Confined`), and this is so of every part of a
word, up to `Usage.token`.

Only brackets allow blanks inside them.  A reader that is looking for the end of a bracket would pass over
the end of the word, and therefore a word that opens a bracket must also close one.

`Usage.token_word` says what follows: the word is a token by itself and is taken whole, or it is none, and
the reader stops in it.
-/

namespace CommandTree

namespace Text

/-- Whether a text holds no blank. -/
def IsSolid (text : Text) : Prop :=
  ∀ g ∈ text, g.isBlank = false

theorem IsSolid.trimStart_append {text : Text} (h : text.IsSolid) (hne : text ≠ []) (rest : Text) :
    trimStart (text ++ rest) = text ++ rest := by
  cases text with
  | nil => exact absurd rfl hne
  | cons first more =>
    refine trimStart_eq_self fun g hg => ?_
    obtain rfl : first = g := by simpa using hg
    exact h first List.mem_cons_self

end Text

namespace Usage

variable {text rest left w : Text} {form : Form}

/-! ## The glyphs of a form -/

/-- What is written for a form is made of letters and the tails of identifiers, and of brackets and an
equals sign. -/
theorem Form.WellFormed.of_mem_render {required : Bool} {g : Glyph} (hform : form.WellFormed)
    (hg : g ∈ form.render required) :
    g.isIdentTail = true ∨ g.isLetter = true ∨ g = .char '<' ∨ g = .char '>' ∨ g = .char '=' := by
  have hident : ∀ name : Text, name.IsIdent → ∀ x ∈ name, x.isIdentTail = true := by
    intro name hname x hx
    cases name with
    | nil => cases hx
    | cons first more =>
      rcases List.mem_cons.mp hx with rfl | hx
      · exact Glyph.isIdentTail_of_isAsciiLetter hname.1
      · exact hname.2 x hx
  have hdash : (Glyph.char '-').isIdentTail = true := by decide
  cases form with
  | positional name =>
    have hname := hident name hform
    cases required with
    | false => exact .inl (hname g hg)
    | true =>
      have hg : g = .char '<' ∨ g ∈ name ∨ g = .char '>' := by simpa [render, Text.lit] using hg
      rcases hg with rfl | hg | rfl
      · simp
      · exact .inl (hname g hg)
      · simp
  | short letter =>
    obtain ⟨only, rfl, hletter⟩ := hform
    have hg : g = .char '-' ∨ g = only := by simpa [render, Text.lit] using hg
    rcases hg with rfl | rfl
    · exact .inl hdash
    · exact .inr (.inl hletter)
  | long name value =>
    have hname := hident name hform.1
    cases value with
    | none =>
      have hg : g = .char '-' ∨ g ∈ name := by simpa [render, Text.lit] using hg
      rcases hg with rfl | hg
      · exact .inl hdash
      · exact .inl (hname g hg)
    | some value =>
      have hg : g = .char '-' ∨ g ∈ name ∨ g = .char '=' ∨ g ∈ value := by
        simpa [render, Text.lit] using hg
      rcases hg with rfl | hg | rfl | hg
      · exact .inl hdash
      · exact .inl (hname g hg)
      · simp
      · have hupper := (hform.2 value rfl).2 g hg
        exact .inl (Glyph.isIdentTail_of_isAsciiLetter (Glyph.isAsciiLetter_of_isAsciiUpper hupper))

theorem Form.WellFormed.bracket_not_mem_render (hform : form.WellFormed) (required : Bool) :
    Glyph.char ']' ∉ form.render required := by
  intro hmem
  rcases hform.of_mem_render hmem with h | h | h | h | h <;> exact absurd h (by decide)

/-! ## Parts of a word -/

/-- What a reader leaves of a text, or where it stops: at an end of the text that ends with `rest`. -/
def Confined {α : Type} (rest text : Text) : Except (Cause × Text) (α × Text) → Prop
  | .ok (_, left) => rest <:+ left ∧ left <:+ text
  | .error (_, stop) => rest <:+ stop ∧ stop <:+ text

theorem Confined.mono {α : Type} {part : Text} {result : Except (Cause × Text) (α × Text)}
    (h : Confined rest part result) (hpart : part <:+ text) : Confined rest text result := by
  cases result with
  | ok read => exact ⟨h.1, h.2.trans hpart⟩
  | error stop => exact ⟨h.1, h.2.trans hpart⟩

section

variable (hgap : Gap rest)

include hgap

/-- A glyph that is no blank does not belong to what follows a word. -/
theorem suffix_of_cons {g : Glyph} (hg : g.isBlank = false) (h : rest <:+ g :: left) : rest <:+ left := by
  rcases List.suffix_cons_iff.mp h with rfl | h
  · rw [hgap g (by simp)] at hg
    cases hg
  · exact h

theorem suffix_of_append {read : Text} (hread : read.IsSolid) (h : rest <:+ read ++ left) :
    rest <:+ left := by
  induction read with
  | nil => exact h
  | cons g read ih =>
    have hg := hread g List.mem_cons_self
    exact ih (fun x hx => hread x (List.mem_cons_of_mem _ hx)) (suffix_of_cons hgap hg h)

theorem ident_confined (after : Text) (h : rest <:+ text) : Confined rest text (ident after text) := by
  unfold ident
  split
  · rename_i read hspan
    obtain ⟨name, left⟩ := read
    obtain ⟨rfl, hname, -⟩ := Ident.span?_sound hspan
    exact ⟨suffix_of_append hgap hname.isBlank h, List.suffix_append name left⟩
  · exact ⟨h, List.suffix_rfl⟩

theorem placeholder_confined (name : Text) (h : rest <:+ text) :
    Confined rest text (placeholder name text) := by
  have hstop : Confined rest text (.error (.expectedValue name text.head?, text) :
      Except (Cause × Text) (Text × Text)) := ⟨h, List.suffix_rfl⟩
  cases hread : placeholder name text with
  | ok read =>
    obtain ⟨value, left⟩ := read
    obtain ⟨rfl, -, hupper⟩ := placeholder_sound hread
    have hsolid : value.IsSolid := fun g hg =>
      Glyph.isBlank_of_isIdentTail
        (Glyph.isIdentTail_of_isAsciiLetter (Glyph.isAsciiLetter_of_isAsciiUpper (hupper g hg)))
    exact ⟨suffix_of_append hgap hsolid h, List.suffix_append value left⟩
  | error stop =>
    unfold placeholder at hread
    split at hread
    · cases hread
      exact hstop
    · cases hread

theorem longSwitch_confined (h : rest <:+ text) : Confined rest text (longSwitch text) := by
  have hident := ident_confined hgap "--" h
  unfold longSwitch
  split
  · rename_i stop hstop
    rw [hstop] at hident
    exact hident
  · rename_i name left hname
    rw [hname] at hident
    have hleft : left <:+ text := (List.suffix_cons _ left).trans hident.2
    have hvalue := (placeholder_confined hgap name (suffix_of_cons hgap (by decide) hident.1)).mono hleft
    split
    · rename_i stop hstop
      rw [hstop] at hvalue
      exact hvalue
    · rename_i value after hok
      rw [hok] at hvalue
      exact hvalue
  · rename_i name left _ hname
    rw [hname] at hident
    exact hident

theorem shortSwitch_confined (h : rest <:+ text) : Confined rest text (shortSwitch text) := by
  cases text with
  | nil => exact ⟨h, List.suffix_rfl⟩
  | cons g left =>
    simp only [shortSwitch]
    split
    · rename_i hletter
      exact ⟨suffix_of_cons hgap (Glyph.isBlank_of_isLetter hletter) h, List.suffix_cons g left⟩
    · exact ⟨h, List.suffix_rfl⟩

theorem switchOr_confined {otherwise : Scan Form} (h : rest <:+ text)
    (hother : Confined rest text (otherwise text)) : Confined rest text (switchOr otherwise text) := by
  have hdash : (Glyph.char '-').isBlank = false := by decide
  unfold switchOr
  split
  · rename_i left
    have hleft := suffix_of_cons hgap hdash (suffix_of_cons hgap hdash h)
    exact (longSwitch_confined hgap hleft).mono ((List.suffix_cons _ _).trans (List.suffix_cons _ _))
  · exact (shortSwitch_confined hgap (suffix_of_cons hgap hdash h)).mono (List.suffix_cons _ _)
  · exact hother

theorem bracketedName_confined (h : rest <:+ text) : Confined rest text (bracketedName text) := by
  have hident := ident_confined hgap "<" h
  unfold bracketedName
  split
  · rename_i stop hstop
    rw [hstop] at hident
    exact hident
  · rename_i name left hname
    rw [hname] at hident
    exact ⟨suffix_of_cons hgap (by decide) hident.1, (List.suffix_cons _ left).trans hident.2⟩
  · rename_i name left _ hname
    rw [hname] at hident
    exact hident

theorem requiredForm_confined (h : rest <:+ text) : Confined rest text (requiredForm text) := by
  refine switchOr_confined hgap h ?_
  split
  · exact (bracketedName_confined hgap (suffix_of_cons hgap (by decide) h)).mono (List.suffix_cons _ _)
  · exact ⟨h, List.suffix_rfl⟩

theorem optionalForm_confined (h : rest <:+ text) : Confined rest text (optionalForm text) := by
  refine switchOr_confined hgap h ?_
  split
  · rename_i name left hspan
    obtain ⟨rfl, hname, -⟩ := Ident.span?_sound hspan
    exact ⟨suffix_of_append hgap hname.isBlank h, List.suffix_append name left⟩
  · exact ⟨h, List.suffix_rfl⟩

omit hgap in
theorem thenGap_confined {α : Type} (read : α) (h : rest <:+ text) :
    Confined rest text (thenGap read text) := by
  cases text with
  | nil => exact ⟨h, List.suffix_rfl⟩
  | cons g left =>
    simp only [thenGap]
    split <;> exact ⟨h, List.suffix_rfl⟩

theorem closing_confined (form : Form) (h : rest <:+ text) : Confined rest text (closing form text) := by
  have hdot : (Glyph.char '.').isBlank = false := by decide
  unfold closing
  split
  · rename_i left
    split
    · have hleft := suffix_of_cons hgap hdot (suffix_of_cons hgap hdot (suffix_of_cons hgap hdot h))
      exact (thenGap_confined _ hleft).mono
        ((List.suffix_cons _ _).trans ((List.suffix_cons _ _).trans (List.suffix_cons _ _)))
    · exact ⟨h, List.suffix_rfl⟩
  · exact (thenGap_confined _ (suffix_of_cons hgap (by decide) h)).mono (List.suffix_cons _ _)
  · exact thenGap_confined _ h

/-! ## Words -/

theorem requiredToken_confined (h : rest <:+ text) : Confined rest text (requiredToken text) := by
  have hform := requiredForm_confined hgap h
  unfold requiredToken
  split
  · rename_i stop hstop
    rw [hstop] at hform
    exact hform
  · rename_i form left hread
    rw [hread] at hform
    exact (thenGap_confined _ hform.1).mono hform.2

/-- A bracket that is closed in the word keeps the reader in the word: it comes to the closing bracket or
to something else that is no blank. -/
theorem bracketedToken_confined (hsolid : w.IsSolid) (hclosed : .char ']' ∈ w) :
    Confined rest (w ++ rest) (bracketedToken (w ++ rest)) := by
  have hform := optionalForm_confined hgap (List.suffix_append w rest)
  unfold bracketedToken
  rw [hsolid.trimStart_append (List.ne_nil_of_mem hclosed)]
  split
  · rename_i stop hstop
    rw [hstop] at hform
    exact hform
  · rename_i form left hread
    rw [hread] at hform
    obtain ⟨⟨more, rfl⟩, hmore⟩ := hform
    obtain ⟨hwell, htext⟩ := optionalForm_sound hread
    have hw : w = form.render false ++ more := by simpa [← List.append_assoc] using htext
    have hmem : .char ']' ∈ more := by
      rw [hw] at hclosed
      exact (List.mem_append.mp hclosed).resolve_left (hwell.bracket_not_mem_render false)
    have hmoreSolid : Text.IsSolid more := fun g hg => hsolid g (hw ▸ List.mem_append_right _ hg)
    rw [hmoreSolid.trimStart_append (List.ne_nil_of_mem hmem)]
    split
    · rename_i left hleft
      rw [hleft] at hmore
      have hrest : rest <:+ .char ']' :: left := hleft ▸ List.suffix_append more rest
      exact (closing_confined hgap form (suffix_of_cons hgap (by decide) hrest)).mono
        ((List.suffix_cons _ left).trans hmore)
    · exact ⟨List.suffix_append more rest, hmore⟩

/-- A token is read without a look at what follows its word. -/
theorem token_confined (hsolid : w.IsSolid) (hclosed : w.head? = some (.char '[') → .char ']' ∈ w) :
    Confined rest (w ++ rest) (token (w ++ rest)) := by
  unfold token
  split
  · rename_i text heq
    cases w with
    | nil =>
      have hblank := hgap (.char '[') (by simpa using congrArg List.head? heq)
      exact absurd hblank (by decide)
    | cons g body =>
      obtain ⟨rfl, rfl⟩ := List.cons.inj heq
      have hbody : .char ']' ∈ body := by simpa using hclosed rfl
      have hbodySolid : Text.IsSolid body := fun g hg => hsolid g (List.mem_cons_of_mem _ hg)
      exact (bracketedToken_confined hgap hbodySolid hbody).mono (List.suffix_cons _ _)
  · exact requiredToken_confined hgap (List.suffix_append w rest)

/-- A word without blanks is taken whole if it is a token by itself.  Otherwise the reader stops in it. -/
theorem token_word (hsolid : w.IsSolid) (hclosed : w.head? = some (.char '[') → .char ']' ∈ w) :
    (∃ read, Word read w ∧ token (w ++ rest) = .ok (read, rest)) ∨
      (∀ read, ¬Word read w) ∧
        ∃ cause left, left <:+ w ∧ token (w ++ rest) = .error (cause, left ++ rest) := by
  have hconfined := token_confined hgap hsolid hclosed
  cases htoken : token (w ++ rest) with
  | ok result =>
    obtain ⟨read, left⟩ := result
    rw [htoken] at hconfined
    obtain ⟨⟨more, rfl⟩, -⟩ := hconfined
    obtain ⟨taken, hword, htext, hmore⟩ := token_sound htoken
    have hw : w = taken ++ more := by simpa [← List.append_assoc] using htext
    -- what is left of the word would start with a blank
    have hnone : more = [] := by
      cases more with
      | nil => rfl
      | cons g more =>
        have hblank := hmore g (by simp)
        rw [hsolid g (by simp [hw])] at hblank
        cases hblank
    rw [hnone, List.append_nil] at hw
    subst hw hnone
    exact .inl ⟨read, hword, rfl⟩
  | error result =>
    obtain ⟨cause, stop⟩ := result
    rw [htoken] at hconfined
    obtain ⟨⟨left, rfl⟩, hstop⟩ := hconfined
    refine .inr ⟨fun read hword => ?_, cause, left, (List.suffix_append_self_iff).mp hstop, rfl⟩
    rw [token_append hword hgap] at htoken
    cases htoken

end

end Usage

end CommandTree
