import CommandTree.Proofs.Text.Blank
import CommandTree.Usage.Parser

/-!
# The words of a usage line

`Usage.Word` says what may be written for a token: a required form as it is, an optional one in brackets
with blanks inside them, and an exclamation mark or three dots where the token asks for them.

A form is read up to where it ends, not to where the word does, so that the reader is followed part by
part: for each part, one lemma says that what was read was written (`…_sound`), and one that what was
written is read back where the next glyph does not continue it (`…_append`).  Such a text is `Clear`.
`Usage.token_eq_ok_iff` puts the parts together.
-/

namespace CommandTree

namespace Usage

variable {text rest name value : Text} {form : Form}

/-- What follows a word: nothing, or a blank. -/
def Gap (rest : Text) : Prop :=
  ∀ g ∈ rest.head?, g.isBlank = true

/-- What continues no form: nothing, a blank, or the bracket that closes it. -/
def Clear (rest : Text) : Prop :=
  ∀ g ∈ rest.head?, g.isBlank = true ∨ g = .char ']'

theorem Gap.clear (h : Gap rest) : Clear rest :=
  fun g hg => .inl (h g hg)

theorem clear_bracket (rest : Text) : Clear (.char ']' :: rest) := by
  simp [Clear]

theorem Clear.blanks {blanks : Text} (hblanks : blanks.IsBlank) (h : Clear rest) :
    Clear (blanks ++ rest) := by
  cases blanks with
  | nil => exact h
  | cons g more =>
    intro first hfirst
    obtain rfl : g = first := by simpa using hfirst
    exact .inl (hblanks g List.mem_cons_self)

theorem Clear.not_isIdentTail (h : Clear rest) : ∀ g ∈ rest.head?, g.isIdentTail = false := by
  intro g hg
  rcases h g hg with hblank | rfl
  · exact Glyph.isIdentTail_of_isBlank hblank
  · decide

theorem Clear.not_isAsciiUpper (h : Clear rest) : ∀ g ∈ rest.head?, g.isAsciiUpper = false := by
  intro g hg
  have htail := h.not_isIdentTail g hg
  cases hupper : g.isAsciiUpper with
  | false => rfl
  | true =>
    rw [Glyph.isIdentTail_of_isAsciiLetter (Glyph.isAsciiLetter_of_isAsciiUpper hupper)] at htail
    cases htail

theorem Clear.ne_equals (h : Clear rest) (more : Text) : rest ≠ .char '=' :: more := by
  rintro rfl
  rcases h (.char '=') (by simp) with hblank | heq
  · exact absurd hblank (by decide)
  · exact absurd heq (by decide)

/-! ## Switches -/

theorem ident_eq_ok_iff {after : Text} :
    ident after text = .ok (name, rest) ↔ Ident.span? text = some (name, rest) := by
  unfold ident
  cases hspan : Ident.span? text <;> simp

theorem placeholder_sound (h : placeholder name text = .ok (value, rest)) :
    text = value ++ rest ∧ value ≠ [] ∧ ∀ g ∈ value, g.isAsciiUpper = true := by
  have hsplit : text.takeWhile Glyph.isAsciiUpper ++ text.dropWhile Glyph.isAsciiUpper = text :=
    List.takeWhile_append_dropWhile
  have hupper : ∀ g ∈ text.takeWhile Glyph.isAsciiUpper, g.isAsciiUpper = true := fun g hg =>
    List.all_eq_true.mp (List.all_takeWhile (p := Glyph.isAsciiUpper)) g hg
  unfold placeholder at h
  split at h
  · cases h
  · rename_i g more htake
    cases h
    rw [htake] at hsplit hupper
    exact ⟨hsplit.symm, List.cons_ne_nil g more, hupper⟩

theorem placeholder_append (hne : value ≠ []) (hupper : ∀ g ∈ value, g.isAsciiUpper = true)
    (hrest : Clear rest) : placeholder name (value ++ rest) = .ok (value, rest) := by
  have hstop : rest.takeWhile Glyph.isAsciiUpper = [] ∧ rest.dropWhile Glyph.isAsciiUpper = rest := by
    cases rest with
    | nil => exact ⟨rfl, rfl⟩
    | cons g more => simp [hrest.not_isAsciiUpper g (by simp)]
  have htake : (value ++ rest).takeWhile Glyph.isAsciiUpper = value := by
    rw [List.takeWhile_append_of_pos hupper, hstop.1, List.append_nil]
  have hdrop : (value ++ rest).dropWhile Glyph.isAsciiUpper = rest := by
    rw [List.dropWhile_append_of_pos hupper, hstop.2]
  unfold placeholder
  rw [htake, hdrop]
  cases value with
  | nil => exact absurd rfl hne
  | cons g more => rfl

theorem longSwitch_sound (h : longSwitch text = .ok (form, rest)) (required : Bool) :
    form.WellFormed ∧ .char '-' :: .char '-' :: text = form.render required ++ rest := by
  unfold longSwitch at h
  split at h
  · cases h
  · rename_i name after hident
    obtain ⟨rfl, hname, -⟩ := Ident.span?_sound (ident_eq_ok_iff.mp hident)
    split at h
    · cases h
    · rename_i value after' hvalue
      cases h
      obtain ⟨rfl, hne, hupper⟩ := placeholder_sound hvalue
      refine ⟨⟨hname, ?_⟩, ?_⟩
      · rintro v ⟨⟩
        exact ⟨hne, hupper⟩
      · simp [Form.render, Text.lit]
  · rename_i name after _ hident
    cases h
    obtain ⟨rfl, hname, -⟩ := Ident.span?_sound (ident_eq_ok_iff.mp hident)
    exact ⟨⟨hname, by simp⟩, by simp [Form.render, Text.lit]⟩

theorem longSwitch_append {value : Option Text} (h : (Form.long name value).WellFormed)
    (hrest : Clear rest) (required : Bool) :
    ∃ body, (Form.long name value).render required ++ rest = .char '-' :: .char '-' :: body ∧
      longSwitch body = .ok (.long name value, rest) := by
  obtain ⟨hname, hvalue⟩ := h
  cases value with
  | none =>
    have hident : ident "--" (name ++ rest) = .ok (name, rest) :=
      ident_eq_ok_iff.mpr (Ident.span?_append hname hrest.not_isIdentTail)
    refine ⟨name ++ rest, by simp [Form.render, Text.lit], ?_⟩
    unfold longSwitch
    rw [hident]
    cases rest with
    | nil => rfl
    | cons g more =>
      split
      · rename_i heq
        cases heq
      · rename_i heq
        cases heq
        exact absurd rfl (hrest.ne_equals more)
      · rename_i heq
        cases heq
        rfl
  | some value =>
    obtain ⟨hne, hupper⟩ := hvalue value rfl
    have hident : ident "--" (name ++ .char '=' :: (value ++ rest)) =
        .ok (name, .char '=' :: (value ++ rest)) :=
      ident_eq_ok_iff.mpr (Ident.span?_append hname (by
        intro g hg
        obtain rfl : .char '=' = g := by simpa using hg
        decide))
    refine ⟨name ++ .char '=' :: (value ++ rest), by simp [Form.render, Text.lit], ?_⟩
    simp only [longSwitch, hident, placeholder_append hne hupper hrest]

theorem shortSwitch_sound (h : shortSwitch text = .ok (form, rest)) (required : Bool) :
    form.WellFormed ∧ .char '-' :: text = form.render required ++ rest := by
  cases text with
  | nil => cases h
  | cons g more =>
    simp only [shortSwitch] at h
    split at h
    · rename_i hletter
      cases h
      exact ⟨⟨g, rfl, hletter⟩, rfl⟩
    · cases h

theorem switchOr_sound {otherwise : Scan Form} (h : switchOr otherwise text = .ok (form, rest)) :
    (∀ required, form.WellFormed ∧ text = form.render required ++ rest) ∨
      otherwise text = .ok (form, rest) := by
  unfold switchOr at h
  split at h
  · exact .inl (longSwitch_sound h)
  · exact .inl (shortSwitch_sound h)
  · exact .inr h

theorem switchOr_other {otherwise : Scan Form} {g : Glyph} (h : g ≠ .char '-') :
    switchOr otherwise (g :: rest) = otherwise (g :: rest) := by
  unfold switchOr
  split
  · rename_i heq
    cases heq
    exact absurd rfl h
  · rename_i heq
    cases heq
    exact absurd rfl h
  · rfl

/-- A switch is read in either place, whatever else may be read there. -/
theorem switchOr_append (otherwise : Scan Form) (hform : form.WellFormed)
    (hswitch : ∀ name, form ≠ .positional name) (hrest : Clear rest) (required : Bool) :
    switchOr otherwise (form.render required ++ rest) = .ok (form, rest) := by
  cases form with
  | positional name => exact absurd rfl (hswitch name)
  | short letter =>
    obtain ⟨g, rfl, hletter⟩ := hform
    have hdash : g ≠ .char '-' := by
      rintro rfl
      exact absurd hletter (by decide)
    have hrender : (Form.short [g]).render required ++ rest = .char '-' :: g :: rest := rfl
    rw [hrender]
    unfold switchOr
    split
    · rename_i heq
      cases heq
      exact absurd rfl hdash
    · rename_i heq
      cases heq
      simp [shortSwitch, hletter]
    · rename_i hshort
      exact absurd rfl (hshort (g :: rest))
  | long name value =>
    obtain ⟨body, hbody, hlong⟩ := longSwitch_append hform hrest required
    rw [hbody]
    exact hlong

/-! ## Forms -/

theorem requiredForm_sound (h : requiredForm text = .ok (form, rest)) :
    form.WellFormed ∧ text = form.render true ++ rest := by
  rcases switchOr_sound h with hswitch | hother
  · exact hswitch true
  split at hother
  · rename_i more
    unfold bracketedName at hother
    split at hother
    · cases hother
    · rename_i name after hident
      cases hother
      obtain ⟨rfl, hname, -⟩ := Ident.span?_sound (ident_eq_ok_iff.mp hident)
      exact ⟨hname, by simp [Form.render, Text.lit]⟩
    · cases hother
  · cases hother

theorem requiredForm_append (hform : form.WellFormed) (hrest : Clear rest) :
    requiredForm (form.render true ++ rest) = .ok (form, rest) := by
  cases form with
  | positional name =>
    have hident : ident "<" (name ++ .char '>' :: rest) = .ok (name, .char '>' :: rest) :=
      ident_eq_ok_iff.mpr (Ident.span?_append hform (by
        intro g hg
        obtain rfl : .char '>' = g := by simpa using hg
        decide))
    have hrender : (Form.positional name).render true ++ rest =
        .char '<' :: (name ++ .char '>' :: rest) := by
      simp [Form.render, Text.lit]
    rw [hrender, requiredForm, switchOr_other (by decide)]
    simp only [bracketedName, hident]
  | _ => exact switchOr_append _ hform (by simp) hrest true

theorem optionalForm_sound (h : optionalForm text = .ok (form, rest)) :
    form.WellFormed ∧ text = form.render false ++ rest := by
  rcases switchOr_sound h with hswitch | hother
  · exact hswitch false
  split at hother
  · rename_i name after hspan
    cases hother
    obtain ⟨rfl, hname, -⟩ := Ident.span?_sound hspan
    exact ⟨hname, rfl⟩
  · cases hother

theorem optionalForm_append (hform : form.WellFormed) (hrest : Clear rest) :
    optionalForm (form.render false ++ rest) = .ok (form, rest) := by
  cases form with
  | positional name =>
    have hspan := Ident.span?_append hform hrest.not_isIdentTail
    cases name with
    | nil => exact absurd hform id
    | cons g more =>
      have hdash : g ≠ .char '-' := by
        rintro rfl
        exact absurd hform.1 (by decide)
      have hrender : (Form.positional (g :: more)).render false ++ rest = g :: (more ++ rest) := rfl
      rw [List.cons_append] at hspan
      rw [hrender, optionalForm, switchOr_other hdash]
      simp only [hspan]
  | _ => exact switchOr_append _ hform (by simp) hrest false

/-- What is written for a form starts with no blank. -/
theorem Form.WellFormed.head_not_isBlank (hform : form.WellFormed) (required : Bool) :
    ∀ g ∈ (form.render required ++ rest).head?, g.isBlank = false := by
  intro g hg
  cases form with
  | positional name =>
    cases name with
    | nil => exact absurd hform id
    | cons first more =>
      cases required with
      | true =>
        obtain rfl : .char '<' = g := by simpa [Form.render, Text.lit] using hg
        decide
      | false =>
        obtain rfl : first = g := by simpa [Form.render] using hg
        cases hblank : first.isBlank with
        | false => rfl
        | true =>
          have htail := Glyph.isIdentTail_of_isAsciiLetter hform.1
          rw [Glyph.isIdentTail_of_isBlank hblank] at htail
          cases htail
  | short letter =>
    obtain rfl : .char '-' = g := by simpa [Form.render, Text.lit] using hg
    decide
  | long name value =>
    obtain rfl : .char '-' = g := by cases value <;> simpa [Form.render, Text.lit] using hg
    decide

/-! ## Words -/

theorem thenGap_eq_ok_iff {α : Type} {read got : α} :
    thenGap read text = .ok (got, rest) ↔ read = got ∧ text = rest ∧ Gap rest := by
  cases text with
  | nil =>
    simp only [thenGap, Except.ok.injEq, Prod.mk.injEq]
    constructor
    · rintro ⟨rfl, rfl⟩
      exact ⟨rfl, rfl, by simp [Gap]⟩
    · rintro ⟨rfl, rfl, -⟩
      exact ⟨rfl, rfl⟩
  | cons g more =>
    simp only [thenGap]
    constructor
    · intro h
      split at h
      · rename_i hblank
        cases h
        exact ⟨rfl, rfl, by simpa [Gap] using hblank⟩
      · cases h
    · rintro ⟨rfl, rfl, hgap⟩
      rw [if_pos (hgap g (by simp))]

/-- What follows the brackets of an argument. -/
def exclusiveMark (exclusive : Bool) : Text :=
  if exclusive then "!" else []

/-- What may be written for a token. -/
inductive Word : Token → Text → Prop
  /-- `<name>`, `-x`, `--name` or `--name=VALUE` -/
  | required {form : Form} (wellFormed : form.WellFormed) :
      Word (.argument ⟨form, true, false⟩) (form.render true)
  /-- `[name]`, `[-x]`, `[--name]` or `[--name=VALUE]`, and an exclamation mark if the argument is
  exclusive -/
  | optional {form : Form} {lead trail : Text} (wellFormed : form.WellFormed) (leadBlank : lead.IsBlank)
      (trailBlank : trail.IsBlank) (exclusive : Bool) :
      Word (.argument ⟨form, false, exclusive⟩)
        ("[" ++ lead ++ form.render false ++ trail ++ "]" ++ exclusiveMark exclusive)
  /-- `[name]...` -/
  | rest {name lead trail : Text} (isIdent : name.IsIdent) (leadBlank : lead.IsBlank)
      (trailBlank : trail.IsBlank) :
      Word (.rest name) ("[" ++ lead ++ name ++ trail ++ "]" ++ ellipsis)

theorem closing_sound {read : Token} (h : closing form text = .ok (read, rest)) :
    Gap rest ∧ ((∃ name, form = .positional name ∧ read = .rest name ∧ text = ellipsis ++ rest) ∨
      ∃ exclusive, read = .argument ⟨form, false, exclusive⟩ ∧ text = exclusiveMark exclusive ++ rest) := by
  unfold closing at h
  split at h
  · split at h
    · obtain ⟨rfl, rfl, hgap⟩ := thenGap_eq_ok_iff.mp h
      exact ⟨hgap, .inl ⟨_, rfl, rfl, rfl⟩⟩
    · cases h
  · obtain ⟨rfl, rfl, hgap⟩ := thenGap_eq_ok_iff.mp h
    exact ⟨hgap, .inr ⟨true, rfl, rfl⟩⟩
  · obtain ⟨rfl, rfl, hgap⟩ := thenGap_eq_ok_iff.mp h
    exact ⟨hgap, .inr ⟨false, rfl, rfl⟩⟩

theorem closing_ellipsis (name : Text) (hgap : Gap rest) :
    closing (.positional name) (ellipsis ++ rest) = .ok (.rest name, rest) :=
  thenGap_eq_ok_iff.mpr ⟨rfl, rfl, hgap⟩

theorem closing_exclusiveMark (form : Form) (exclusive : Bool) (hgap : Gap rest) :
    closing form (exclusiveMark exclusive ++ rest) = .ok (.argument ⟨form, false, exclusive⟩, rest) := by
  cases exclusive with
  | true => exact thenGap_eq_ok_iff.mpr ⟨rfl, rfl, hgap⟩
  | false =>
    have hmark : exclusiveMark false ++ rest = rest := rfl
    have hplain : ∀ (g : Glyph) (more : Text), g.isBlank = false → rest ≠ g :: more := by
      rintro g more hno rfl
      rw [hgap g (by simp)] at hno
      cases hno
    rw [hmark]
    unfold closing
    split
    · exact absurd rfl (hplain (.char '.') _ (by decide))
    · exact absurd rfl (hplain (.char '!') _ (by decide))
    · exact thenGap_eq_ok_iff.mpr ⟨rfl, rfl, hgap⟩

theorem bracketedToken_sound {read : Token} (h : bracketedToken text = .ok (read, rest)) :
    ∃ w, Word read w ∧ .char '[' :: text = w ++ rest ∧ Gap rest := by
  unfold bracketedToken at h
  split at h
  · cases h
  rename_i form after hform
  obtain ⟨hwell, htext⟩ := optionalForm_sound hform
  obtain ⟨⟨lead, hlead, hleft⟩, -⟩ := Text.trimStart_eq_iff.mp htext
  split at h
  · rename_i tail hafter
    obtain ⟨⟨trail, htrail, hright⟩, -⟩ := Text.trimStart_eq_iff.mp hafter
    obtain ⟨hgap, ⟨name, rfl, rfl, hend⟩ | ⟨exclusive, rfl, hend⟩⟩ := closing_sound h
    · refine ⟨_, .rest hwell hlead htrail, ?_, hgap⟩
      rw [hleft, hright, hend]
      simp [Form.render, Text.lit]
    · refine ⟨_, .optional hwell hlead htrail exclusive, ?_, hgap⟩
      rw [hleft, hright, hend]
      simp [Text.lit]
  · cases h

/-- A bracketed form is read through to what follows the closing bracket. -/
theorem bracketedToken_append {lead trail : Text} (hform : form.WellFormed) (hlead : lead.IsBlank)
    (htrail : trail.IsBlank) :
    bracketedToken (lead ++ (form.render false ++ (trail ++ .char ']' :: rest))) = closing form rest := by
  have hleft : (lead ++ (form.render false ++ (trail ++ .char ']' :: rest))).trimStart =
      form.render false ++ (trail ++ .char ']' :: rest) :=
    Text.trimStart_eq_iff.mpr ⟨⟨lead, hlead, rfl⟩, hform.head_not_isBlank false⟩
  have hright : (trail ++ .char ']' :: rest).trimStart = .char ']' :: rest := by
    refine Text.trimStart_eq_iff.mpr ⟨⟨trail, htrail, rfl⟩, fun g hg => ?_⟩
    obtain rfl : .char ']' = g := by simpa using hg
    decide
  unfold bracketedToken
  rw [hleft, optionalForm_append hform ((clear_bracket rest).blanks htrail)]
  simp only [hright]

theorem token_sound {read : Token} (h : token text = .ok (read, rest)) :
    ∃ w, Word read w ∧ text = w ++ rest ∧ Gap rest := by
  unfold token at h
  split at h
  · exact bracketedToken_sound h
  · unfold requiredToken at h
    split at h
    · cases h
    · rename_i form after hform
      obtain ⟨hwell, rfl⟩ := requiredForm_sound hform
      obtain ⟨rfl, rfl, hgap⟩ := thenGap_eq_ok_iff.mp h
      exact ⟨_, .required hwell, rfl, hgap⟩

theorem token_append {read : Token} {w : Text} (h : Word read w) (hgap : Gap rest) :
    token (w ++ rest) = .ok (read, rest) := by
  cases h with
  | @required form hform =>
    have hopen : token (form.render true ++ rest) = requiredToken (form.render true ++ rest) := by
      cases form with
      | long name value => cases value <;> rfl
      | _ => rfl
    rw [hopen]
    unfold requiredToken
    rw [requiredForm_append hform hgap.clear]
    exact thenGap_eq_ok_iff.mpr ⟨rfl, rfl, hgap⟩
  | @optional form lead trail hform hlead htrail exclusive =>
    have hword : "[" ++ lead ++ form.render false ++ trail ++ "]" ++ exclusiveMark exclusive ++ rest =
        .char '[' ::
          (lead ++ (form.render false ++ (trail ++ .char ']' :: (exclusiveMark exclusive ++ rest)))) := by
      simp [Text.lit]
    rw [hword]
    exact (bracketedToken_append hform hlead htrail).trans (closing_exclusiveMark form exclusive hgap)
  | @rest name lead trail hname hlead htrail =>
    have hword : "[" ++ lead ++ name ++ trail ++ "]" ++ ellipsis ++ rest =
        .char '[' :: (lead ++
          ((Form.positional name).render false ++ (trail ++ .char ']' :: (ellipsis ++ rest)))) := by
      simp [Text.lit, Form.render]
    have hform : (Form.positional name).WellFormed := hname
    rw [hword]
    exact (bracketedToken_append hform hlead htrail).trans (closing_ellipsis name hgap)

/-- The reader takes exactly what is written for a token, and only where a blank or nothing follows. -/
theorem token_eq_ok_iff {read : Token} :
    token text = .ok (read, rest) ↔ ∃ w, Word read w ∧ text = w ++ rest ∧ Gap rest := by
  constructor
  · exact token_sound
  · rintro ⟨w, hword, rfl, hgap⟩
    exact token_append hword hgap

end Usage

end CommandTree
