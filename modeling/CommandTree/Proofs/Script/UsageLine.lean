import CommandTree.Proofs.Script.Compilation
import CommandTree.Signature.Help
import Mathlib.Data.List.Basic

/-!
# The usage line of a signature

A usage is written twice: as the line that states it (`Usage.render`), and as the usage of the signature that was
made of it (`Signature.usage`), in styles and from declarations instead of tokens.  Without the styles the second is
the first but for the marks of exclusive arguments, which a signature does not show (`Usage.unmarked`).

The two are compared token by token (`Argument.WellFormed.plain_usageToken`, `plain_usageToken_rest`).  That no glyph
is lost on the way through a styled text is `Form.WellFormed.shown`: what may stand in a usage line is no control.

`Script.usage_eq_render` says that the two agree, and that what the signature shows reads as the usage again.
-/

namespace CommandTree

/-! ## Glyphs that are shown -/

namespace Styled

variable {g : Glyph} {text : Text}

theorem isShown_of_le_code (h : 14 ≤ g.code) : isShown g = true := by
  simp only [isShown, Bool.not_eq_true', Bool.or_eq_false_iff, beq_eq_false_iff_ne]
  omega

theorem plain_span_of_shown (style : Style) (h : ∀ g ∈ text, isShown g = true) : plain (span style text) = text := by
  rw [plain_span, List.filter_eq_self.mpr h]

theorem plain_bare (h : ∀ g ∈ text, isShown g = true) : plain (bare text) = text :=
  plain_span_of_shown [] h

theorem plain_flatMap {α : Type} (items : List α) (f : α → Styled) :
    plain (items.flatMap f) = items.flatMap fun item => plain (f item) :=
  List.map_flatMap

end Styled

namespace Glyph

variable {g : Glyph}

theorem isShown_of_isIdentTail (h : g.isIdentTail = true) : Styled.isShown g = true := by
  have hcode := code_of_isIdentTail h
  exact Styled.isShown_of_le_code (by omega)

theorem isShown_of_isLetter (h : g.isLetter = true) : Styled.isShown g = true := by
  simp only [isLetter, Bool.or_eq_true, Bool.and_eq_true, decide_eq_true_eq] at h
  rcases h with hascii | ⟨hcode, -⟩
  · exact isShown_of_isIdentTail (isIdentTail_of_isAsciiLetter hascii)
  · exact Styled.isShown_of_le_code (by omega)

theorem isShown_of_isAsciiUpper (h : g.isAsciiUpper = true) : Styled.isShown g = true :=
  isShown_of_isIdentTail (isIdentTail_of_isAsciiLetter (isAsciiLetter_of_isAsciiUpper h))

end Glyph

namespace Text

variable {text : Text}

theorem IsIdent.shown (h : text.IsIdent) : ∀ g ∈ text, Styled.isShown g = true := by
  cases text with
  | nil => exact absurd h id
  | cons first rest =>
    have hfirst := Glyph.isShown_of_isIdentTail (Glyph.isIdentTail_of_isAsciiLetter h.1)
    exact List.forall_mem_cons.mpr ⟨hfirst, fun g hg => Glyph.isShown_of_isIdentTail (h.2 g hg)⟩

end Text

/-! ## Declarations -/

namespace Declaration

variable {d : Declaration} {greedy : Bool}

theorem plain_nameSpan (hname : ∀ g ∈ d.name, Styled.isShown g = true) :
    Styled.plain (nameSpan greedy d.name) = d.name :=
  Styled.plain_span_of_shown _ hname

theorem plain_ellipsisSpan : Styled.plain (ellipsisSpan greedy) = if greedy then Usage.ellipsis else [] := by
  cases greedy <;> decide

theorem plain_usageToken_of_optional_cardinal (hname : ∀ g ∈ d.name, Styled.isShown g = true)
    (hkind : d.kind = .cardinal greedy) (hrequired : d.required = false) :
    Styled.plain d.usageToken = "[" ++ d.name ++ "]" ++ if greedy then Usage.ellipsis else [] := by
  unfold usageToken
  rw [hrequired, if_neg Bool.false_ne_true, hkind]
  simp (disch := decide) only [Styled.plain_append, Styled.plain_bare, plain_nameSpan hname, plain_ellipsisSpan]

theorem plain_usageToken_of_optional_switch (hkind : d.isCardinal = false) (hrequired : d.required = false) :
    Styled.plain d.usageToken = "[" ++ Styled.plain d.label ++ "]" := by
  have htoken : d.usageToken = Styled.bare "[" ++ d.label ++ Styled.bare "]" := by
    unfold usageToken
    rw [hrequired, if_neg Bool.false_ne_true]
    split
    · simp_all [isCardinal]
    · rfl
  simp (disch := decide) only [htoken, Styled.plain_append, Styled.plain_bare]

end Declaration

/-! ## Tokens -/

namespace Usage

variable {usage : Usage} {argument : Argument} {form : Form}

/-- The argument without its exclusive mark. -/
def Argument.unmarked (argument : Argument) : Argument :=
  { argument with exclusive := false }

/-- The usage with the exclusive marks of all arguments taken off. -/
def unmarked (usage : Usage) : Usage :=
  { usage with arguments := usage.arguments.map Argument.unmarked }

/-- The name that a form becomes is shown as it is. -/
theorem Form.WellFormed.shown (h : form.WellFormed) : ∀ g ∈ form.declaredName, Styled.isShown g = true := by
  have hdash : Styled.isShown (.char '-') = true := by decide
  cases form with
  | positional name => exact Text.IsIdent.shown h
  | short letter =>
    obtain ⟨only, rfl, hletter⟩ := h
    exact List.forall_mem_cons.mpr ⟨hdash, by simpa using Glyph.isShown_of_isLetter hletter⟩
  | long name value =>
    exact List.forall_mem_append.mpr ⟨by simpa [Text.lit] using hdash, Text.IsIdent.shown h.1⟩

/-- A declaration is labelled as its form is written where it is required. -/
theorem Form.WellFormed.plain_label (h : form.WellFormed) {d : Declaration} (hkind : d.kind = form.kind)
    (hname : d.name = form.declaredName) : Styled.plain d.label = form.render true := by
  have hspan : ∀ style, Styled.plain (Styled.span style d.name) = form.declaredName := fun style =>
    hname ▸ Styled.plain_span_of_shown style (hname ▸ h.shown)
  cases form with
  | positional name =>
    simp (disch := decide) only [Declaration.label, hkind, Form.kind, Declaration.nameSpan, Declaration.ellipsisSpan,
      Styled.plain_append, Styled.plain_bare, hspan]
    exact List.append_nil _
  | short letter =>
    simp only [Declaration.label, hkind, Form.kind, hspan]
    rfl
  | long name value =>
    cases value with
    | none =>
      simp only [Declaration.label, hkind, Form.kind, hspan]
      rfl
    | some metavar =>
      have hmetavar : ∀ g ∈ metavar, Styled.isShown g = true := fun g hg =>
        Glyph.isShown_of_isAsciiUpper ((h.2 metavar rfl).2 g hg)
      simp (disch := decide) only [Declaration.label, hkind, Form.kind, Styled.plain_append, Styled.plain_bare, hspan,
        Styled.plain_span_of_shown _ hmetavar]
      rfl

/-- An argument stands in both lines alike, but for its mark. -/
theorem Argument.WellFormed.plain_usageToken (h : argument.WellFormed) (lines : List OptionLine) :
    Styled.plain (argument.declaration lines).usageToken = argument.unmarked.render := by
  have hlabel := h.1.plain_label (d := argument.declaration lines) rfl rfl
  obtain ⟨form, required, exclusive⟩ := argument
  cases required with
  | true => exact hlabel
  | false =>
    cases form with
    | positional name =>
      have htoken := Declaration.plain_usageToken_of_optional_cardinal
        (d := Argument.declaration lines ⟨.positional name, false, exclusive⟩) h.1.shown rfl rfl
      exact htoken
    | short letter =>
      rw [Declaration.plain_usageToken_of_optional_switch rfl rfl, hlabel]
      exact (List.append_nil _).symm
    | long name value =>
      have hswitch : (Argument.declaration lines ⟨.long name value, false, exclusive⟩).isCardinal = false := by
        cases value <;> rfl
      rw [Declaration.plain_usageToken_of_optional_switch hswitch rfl, hlabel]
      cases value <;> exact (List.append_nil _).symm

theorem plain_usageToken_rest {name : Text} (h : name.IsIdent) (lines : List OptionLine) :
    Styled.plain (restDeclaration lines name).usageToken = renderRest name := by
  have htoken := Declaration.plain_usageToken_of_optional_cardinal (d := restDeclaration lines name) h.shown rfl rfl
  simpa [renderRest, restDeclaration] using htoken

/-! ## Lines -/

/-- The tokens of the declarations are those of the line. -/
theorem WellFormed.plain_declarations (h : usage.WellFormed) (lines : List OptionLine) :
    Styled.plain ((usage.declarations lines).flatMap fun d => Styled.bare " " ++ d.usageToken) =
      usage.unmarked.asTokens.flatMap fun read => Text.lit " " ++ read.render := by
  have hspace : Styled.plain (Styled.bare " ") = Text.lit " " := Styled.plain_bare (by decide)
  have harguments : ∀ argument ∈ usage.arguments,
      Styled.plain (argument.declaration lines).usageToken = (Token.argument argument.unmarked).render :=
    fun argument hargument => (h.1 argument hargument).plain_usageToken lines
  have hrest : ∀ name ∈ usage.rest.toList,
      Styled.plain (restDeclaration lines name).usageToken = (Token.rest name).render :=
    fun name hname => plain_usageToken_rest (h.2.1 name (by simpa using hname)) lines
  simp only [Styled.plain_flatMap, Styled.plain_append, hspace, declarations, asTokens, Usage.unmarked,
    List.flatMap_append, List.flatMap_map]
  congr 1
  · exact List.flatMap_congr fun argument hargument => congrArg _ (harguments argument hargument)
  · exact List.flatMap_congr fun name hname => congrArg _ (hrest name hname)

theorem WellFormed.plain_usage (h : usage.WellFormed) {sig : Signature} {lines : List OptionLine}
    (hprog : sig.prog = command) (hdeclarations : sig.declarations = usage.declarations lines) :
    "# " ++ Styled.plain sig.usage = usage.unmarked.render := by
  have hhead : Text.lit "# " ++ Styled.plain (Signature.usageHead command) = header ++ Text.lit " " ++ command := by
    decide
  rw [Signature.usage, hprog, hdeclarations, Styled.plain_append, h.plain_declarations, ← List.append_assoc, hhead,
    ← render_eq]

theorem WellFormed.unmarked (h : usage.WellFormed) : usage.unmarked.WellFormed := by
  obtain ⟨harguments, hrest, hkeys⟩ := h
  refine ⟨fun argument hargument => ?_, hrest, ?_⟩
  · obtain ⟨marked, hmarked, rfl⟩ := List.mem_map.mp hargument
    exact ⟨(harguments marked hmarked).1, by simp [Argument.unmarked]⟩
  · have hsame : usage.unmarked.keys = usage.keys := by
      simp [keys, Usage.unmarked, Function.comp_def, Argument.unmarked, Argument.key]
    rwa [hsame]

end Usage

/-! ## The contract -/

namespace Script

variable {script : Script} {line : Text} {usage : Usage}

/-- A usage that a usage line states is shown by the signature of the script, for the command itself, as it is written
when the marks of its exclusive arguments are taken off; so what is shown reads as this usage. -/
theorem usage_eq_render (hline : script.docs.usage = some line) (hparse : Usage.parse? line = .ok usage)
    (infer : Bool) : ∃ sig, script.signature Usage.command infer = .ok sig ∧
      "# " ++ Styled.plain sig.usage = usage.unmarked.render ∧
      Usage.parse? ("# " ++ Styled.plain sig.usage) = .ok usage.unmarked := by
  have husage : script.usage = some usage := by
    simp [Script.usage, reading, hline, hparse, Except.toOption]
  have hwellFormed := wellFormed_usage husage
  obtain ⟨sig, hsignature, hprog, hdeclarations⟩ : ∃ sig, script.signature Usage.command infer = .ok sig ∧
      sig.prog = Usage.command ∧ sig.declarations = usage.declarations script.options := by
    have hprog : Usage.command.trim = Usage.command := by decide
    have hnonempty : Usage.command.trim ≠ [] := by decide
    obtain ⟨wellMade, hsignature⟩ := script.signature_eq hnonempty infer
    exact ⟨_, hsignature, hprog, by simp [declarations, husage]⟩
  have hrender := hwellFormed.plain_usage hprog hdeclarations
  refine ⟨sig, hsignature, hrender, ?_⟩
  rw [hrender]
  exact Usage.parse?_eq_ok_iff_states.mpr (Usage.states_render hwellFormed.unmarked)

/-- A script whose usage line has every form of argument, blanks to spare, and two exclusive marks. -/
def formsLine : Text :=
  "# Usage:  \x7bcmd\x7d <a> [ b ]! -c [-d] --e --f=F [--g=G]! [h ]..."

/-- The usage that this line states. -/
def formsUsage : Usage where
  arguments := [⟨.positional "a", true, false⟩, ⟨.positional "b", false, true⟩, ⟨.short "c", true, false⟩,
    ⟨.short "d", false, false⟩, ⟨.long "e" none, true, false⟩, ⟨.long "f" (some "F"), true, false⟩,
    ⟨.long "g" (some "G"), false, true⟩]
  rest := some "h"

def formsScript : Script :=
  ⟨⟨.root, ["forms"]⟩, Docs.ofLines [formsLine]⟩

theorem usage_eq_render_forms : formsScript.docs.usage = some formsLine ∧ Usage.parse? formsLine = .ok formsUsage ∧
    ∃ sig, formsScript.signature Usage.command false = .ok sig ∧
      Text.lit "# " ++ Styled.plain sig.usage = "# Usage: \x7bcmd\x7d <a> [b] -c [-d] --e --f=F [--g=G] [h]..." ∧
      Usage.parse? "# Usage: \x7bcmd\x7d <a> [b] -c [-d] --e --f=F [--g=G] [h]..." = .ok formsUsage.unmarked := by
  have hline : formsScript.docs.usage = some formsLine := by decide +kernel
  have hparse : Usage.parse? formsLine = .ok formsUsage := by decide +kernel
  obtain ⟨sig, hsignature, hrender, hread⟩ := usage_eq_render hline hparse false
  have htext : formsUsage.unmarked.render = "# Usage: \x7bcmd\x7d <a> [b] -c [-d] --e --f=F [--g=G] [h]..." := by
    decide +kernel
  have hshown := hrender.trans htext
  exact ⟨hline, hparse, sig, hsignature, hshown, hshown ▸ hread⟩

end Script

end CommandTree
