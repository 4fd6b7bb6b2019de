import CommandTree.Proofs.Usage.RoundTrip
import CommandTree.Script
import Mathlib.Data.List.Nodup

/-!
# Signatures of usage lines

What a usage line states passes every check of a declaration and of a signature.  The two notions of a
name agree: a name or a letter that the line admits is trimmed and has the shape that its kind asks for
(`Usage.Form.WellFormed.admits`), and a usage has distinct keys and one rest capture, at its end
(`Usage.wellMade_declarations`).

`Script.signature_eq` therefore gives the signature of a script outright: there is one for every command
line that is not blank, and its declarations are those of the tokens, in order.
-/

namespace CommandTree

/-! ## Trimmed texts -/

namespace Text

variable {text : Text}

/-- A text without blanks is trimmed. -/
theorem trim_eq_self (h : ∀ g ∈ text, g.isBlank = false) : text.trim = text :=
  trim_eq_self_iff.mpr
    ⟨fun g hg => h g (List.mem_of_mem_head? hg), fun g hg => h g (List.mem_of_mem_getLast? hg)⟩

/-- Trimming leaves something of a text that holds more than blanks. -/
theorem trim_ne_nil {g : Glyph} (hmem : g ∈ text) (hg : g.isBlank = false) : text.trim ≠ [] := by
  intro htrim
  have hstart : text.trimStart.IsBlank := by
    intro x hx
    have hreverse : trimStart (List.reverse text.trimStart) = [] := by
      simpa [trim, trimEnd, dropEndWhile, trimStart] using htrim
    exact trimStart_eq_nil_iff.mp hreverse x (by simpa using hx)
  have hall : text.trimStart = [] := by
    cases hcons : text.trimStart with
    | nil => rfl
    | cons first rest =>
      have hfirst := head?_trimStart text first (by simp [hcons])
      rw [hstart first (by simp [hcons])] at hfirst
      cases hfirst
  rw [trimStart_eq_nil_iff.mp hall g hmem] at hg
  cases hg

end Text

/-! ## Descriptions of option lines -/

namespace OptionLine

/-- What an option line says is trimmed and not empty. -/
theorem trim_description {lines : List Text} {line : OptionLine} (h : line ∈ accepted lines)
    {description : Text} (hdescription : line.description = some description) :
    description.trim = description ∧ description ≠ [] := by
  obtain ⟨text, -, hparse⟩ := List.mem_filterMap.mp h
  cases hread : parse? text with
  | error problem =>
    rw [hread] at hparse
    cases hparse
  | ok read =>
    obtain rfl : read = line := by simpa [hread, Except.toOption] using hparse
    -- the description is what follows the colon, trimmed
    obtain ⟨rest, hrest⟩ : ∃ rest : Text, read.description = nonEmpty rest.trim := by
      unfold parse? at hread
      cases hline : wholeLine text with
      | error stop =>
        rw [hline] at hread
        cases hread
      | ok whole =>
        obtain rfl : whole = read := by simpa [hline] using hread
        simp only [wholeLine] at hline
        split at hline
        · cases hline
        · split at hline
          · cases hline
          · cases hline
            exact ⟨_, rfl⟩
          · cases hline
    rw [hrest, nonEmpty] at hdescription
    split at hdescription
    · cases hdescription
    · rename_i hne
      obtain rfl := Option.some.inj hdescription
      exact ⟨Text.trim_eq_self_iff.mpr (Text.isTrimmed_trim rest), hne⟩

end OptionLine

/-! ## The declarations of a usage -/

namespace Usage

variable {usage : Usage} {argument : Argument} {form : Form}

/-- The kind of the declaration that a form becomes. -/
def Form.kind : Form → Declaration.Kind
  | positional _ => .cardinal false
  | short _ => .flag
  | long _ none => .flag
  | long _ (some metavar) => .option metavar

/-- The name of the declaration that a form becomes, dashes included. -/
def Form.declaredName : Form → Text
  | positional name => name
  | short letter => .char '-' :: letter
  | long name _ => Text.lit "--" ++ name

/-- The declaration of an argument of a usage line. -/
def Argument.declaration (lines : List OptionLine) (argument : Argument) : Declaration where
  kind := argument.form.kind
  name := argument.form.declaredName
  required := argument.required
  exclusive := argument.exclusive
  description := (Script.description? lines argument.key).map .plain

/-- The declaration of a rest capture. -/
def restDeclaration (lines : List OptionLine) (name : Text) : Declaration where
  kind := .cardinal true
  name
  required := false
  exclusive := false
  description := (Script.description? lines name).map .plain

/-- The declarations that a usage line states: one for every token, in order. -/
def declarations (lines : List OptionLine) (usage : Usage) : List Declaration :=
  usage.arguments.map (Argument.declaration lines) ++ usage.rest.toList.map (restDeclaration lines)

theorem Form.WellFormed.isBlank_declaredName (h : form.WellFormed) :
    ∀ g ∈ form.declaredName, g.isBlank = false := by
  have hdash : (Glyph.char '-').isBlank = false := by decide
  intro g hg
  cases form with
  | positional name => exact Text.IsIdent.isBlank h g hg
  | short letter =>
    obtain ⟨only, rfl, hletter⟩ := h
    rcases List.mem_cons.mp hg with rfl | hg
    · exact hdash
    · rw [List.mem_singleton.mp hg]
      exact Glyph.isBlank_of_isLetter hletter
  | long name value =>
    rcases List.mem_append.mp hg with hg | hg
    · obtain rfl : g = .char '-' := by simpa [Text.lit] using hg
      exact hdash
    · exact Text.IsIdent.isBlank h.1 g hg

/-- The name that a form becomes has the shape that its kind asks for. -/
theorem Form.WellFormed.admits (h : form.WellFormed) : form.kind.admits form.declaredName = true := by
  cases form with
  | positional name => exact decide_eq_true h
  | short letter =>
    obtain ⟨only, rfl, hletter⟩ := h
    simp [Form.kind, Form.declaredName, Declaration.Kind.admits, Declaration.isShortName,
      Declaration.isFlagLetter, hletter]
  | long name value =>
    have hlong : Declaration.isLongName (Form.declaredName (.long name value)) = true :=
      decide_eq_true h.1
    cases value with
    | none => simp [Form.kind, Declaration.Kind.admits, hlong]
    | some metavar => exact hlong

/-- The placeholder of a value is one word. -/
theorem Form.WellFormed.isWord {name metavar : Text} (h : (Form.long name (some metavar)).WellFormed) :
    metavar.trim = metavar ∧ Declaration.isWord metavar = true := by
  obtain ⟨hne, hupper⟩ := h.2 metavar rfl
  have hblank : ∀ g ∈ metavar, g.isBlank = false := fun g hg =>
    Glyph.isBlank_of_isIdentTail
      (Glyph.isIdentTail_of_isAsciiLetter (Glyph.isAsciiLetter_of_isAsciiUpper (hupper g hg)))
  exact ⟨Text.trim_eq_self hblank, by simpa [Declaration.isWord, hne] using hblank⟩

theorem Argument.WellFormed.key_declaration (h : argument.WellFormed) (lines : List OptionLine) :
    (argument.declaration lines).key = argument.key := by
  obtain ⟨form, required, exclusive⟩ := argument
  have hform : form.WellFormed := h.1
  have hdrop : ∀ name : Text, (∀ g ∈ name.head?, g ≠ .char '-') →
      name.dropWhile (fun g => g = .char '-') = name := by
    intro name hname
    cases name with
    | nil => rfl
    | cons g rest => simp [hname g (by simp)]
  cases form with
  | positional name => rfl
  | short letter =>
    obtain ⟨only, rfl, hletter⟩ := hform
    have honly : only ≠ .char '-' := by
      rintro rfl
      exact absurd hletter (by decide)
    simpa [Argument.declaration, Declaration.key, Form.kind, Form.declaredName, Argument.key, Form.key]
      using hdrop [only] (by simpa using honly)
  | long name value =>
    cases value with
    | some metavar => rfl
    | none =>
      have hname : ∀ g ∈ name.head?, g ≠ .char '-' := by
        rintro g hg rfl
        cases name with
        | nil => simp at hg
        | cons first rest =>
          obtain rfl : first = .char '-' := by simpa using hg
          exact absurd hform.1.1 (by decide)
      simpa [Argument.declaration, Declaration.key, Form.kind, Form.declaredName, Argument.key, Form.key,
        Text.lit] using hdrop name hname

theorem WellFormed.keys_declarations (h : usage.WellFormed) (lines : List OptionLine) :
    (usage.declarations lines).map Declaration.key = usage.keys := by
  have harguments : usage.arguments.map (Declaration.key ∘ Argument.declaration lines) =
      usage.arguments.map Argument.key :=
    List.map_congr_left fun argument hargument => (h.1 argument hargument).key_declaration lines
  have hrest : Declaration.key ∘ restDeclaration lines = id := rfl
  simp [declarations, keys, harguments, hrest]

/-! ## Well-made declarations -/

/-- The declarations of a well-formed usage are well made, once each of them is valid. -/
theorem WellFormed.wellMade_declarations (h : usage.WellFormed) {lines : List OptionLine}
    (hvalid : ∀ d ∈ usage.declarations lines, d.Valid) :
    Signature.WellMade (usage.declarations lines) where
  valid := hvalid
  distinct := by
    rw [h.keys_declarations]
    exact h.2.2
  greedyLast := by
    -- only the rest capture is greedy, and nothing follows it
    have hplain : ∀ argument : Argument, (argument.declaration lines).isGreedy = false := by
      intro argument
      obtain ⟨form, required, exclusive⟩ := argument
      rcases form with name | letter | ⟨name, _ | metavar⟩ <;> rfl
    intro d hd
    have hmem : d ∈ (usage.arguments.map (Argument.declaration lines)).filter Declaration.isCardinal := by
      cases hrest : usage.rest with
      | none => simpa [declarations, hrest] using (List.dropLast_sublist _).subset hd
      | some name =>
        have hcardinal : (restDeclaration lines name).isCardinal = true := rfl
        rw [declarations, hrest, List.filter_append, Option.toList_some, List.map_singleton,
          List.filter_cons_of_pos hcardinal, List.filter_nil, List.dropLast_concat] at hd
        exact hd
    obtain ⟨argument, -, rfl⟩ := List.mem_map.mp (List.mem_filter.mp hmem).1
    exact hplain argument

end Usage

/-! ## Entries that are declarations -/

namespace Declaration.Draft

variable {draft : Draft} {name : Text}

theorem Kind.admits_nil (kind : Kind) : kind.admits [] = false := by
  cases kind <;> rfl

/-- A draft with a trimmed name of the right shape passes the check if its other fields do. -/
theorem check_eq_ok {description : Option Description} {kind : Declaration.Kind}
    (hname : draft.name = .text name) (htrim : name.trim = name)
    (hadmits : draft.kind.admits name = true) (hdescription : draft.checkDescription = .ok description)
    (hboth : (draft.required.truthy && draft.exclusive.truthy) = false)
    (hkind : draft.checkKind = .ok kind) :
    draft.check = .ok ⟨kind, name, draft.required.truthy, draft.exclusive.truthy, description⟩ := by
  have hne : name ≠ [] := by
    rintro rfl
    rw [Kind.admits_nil] at hadmits
    cases hadmits
  have hcheckName : draft.checkName = .ok name := by
    simp [checkName, hname, htrim, hne, hadmits]
  have hmetavar : ¬(draft.kind = .option ∧ draft.metavar.isNone = true) := by
    rintro ⟨hoption, hnone⟩
    rw [checkKind, hoption, checkMetavar, Option.isNone_iff_eq_none.mp hnone] at hkind
    cases hkind
  rw [check, if_neg hmetavar, hcheckName, hdescription]
  simp [hboth, hkind]

end Declaration.Draft

namespace Signature

/-- Entries that are declarations, in order. -/
inductive Entries : List Entry → List Declaration → Prop where
  | nil : Entries [] []
  | cons {d : Declaration} {entries : List Entry} {ds : List Declaration} (valid : d.Valid)
      (more : Entries entries ds) : Entries (.declaration d valid :: entries) (d :: ds)

theorem Entries.valid {entries : List Entry} {ds : List Declaration} (h : Entries entries ds) :
    ∀ d ∈ ds, d.Valid := by
  induction h with
  | nil => simp
  | cons valid more ih => simpa using ⟨valid, ih⟩

/-- The first declarations of well-made ones are well made. -/
theorem WellMade.append_left {earlier ds : List Declaration} (h : WellMade (earlier ++ ds)) :
    WellMade earlier where
  valid := fun d hd => h.valid d (List.mem_append_left ds hd)
  distinct := by
    have hdistinct := h.distinct
    rw [List.map_append] at hdistinct
    exact (List.nodup_append.mp hdistinct).1
  greedyLast := by
    intro d hd
    refine h.greedyLast d ?_
    rw [List.filter_append]
    cases hmore : ds.filter Declaration.isCardinal with
    | nil => simpa using hd
    | cons e more =>
      rw [List.dropLast_append_of_ne_nil (by simp)]
      exact List.mem_append_left _ ((List.dropLast_sublist _).subset hd)

/-- There is no objection to the next of well-made declarations. -/
theorem WellMade.objection?_eq_none {earlier : List Declaration} {d : Declaration}
    (h : WellMade (earlier ++ [d])) : objection? earlier d = none := by
  have hkey : d.key ∉ earlier.map Declaration.key := by
    have hdistinct := h.distinct
    rw [List.map_append, List.nodup_append] at hdistinct
    intro hmem
    exact hdistinct.2.2 _ hmem d.key (by simp) rfl
  rw [objection?, if_neg hkey]
  split
  · rename_i hcardinal
    rw [Option.map_eq_none_iff, lastGreedy?, Option.filter_eq_none_iff]
    intro last hlast
    have hgreedy := h.greedyLast last (by
      rw [List.filter_append, List.filter_cons_of_pos hcardinal, List.filter_nil, List.dropLast_concat]
      exact List.mem_of_getLast? hlast)
    simp [hgreedy]
  · rfl

/-- Well-made declarations are gathered without objection. -/
theorem gather_eq_ok {entries : List Entry} {earlier ds : List Declaration} (hds : Entries entries ds)
    (h : WellMade (earlier ++ ds)) : gather earlier entries = .ok (earlier ++ ds) := by
  induction hds generalizing earlier with
  | nil => simp [gather]
  | @cons d entries ds valid more ih =>
    have hsplit : earlier ++ d :: ds = earlier ++ [d] ++ ds := by simp
    rw [hsplit] at h ⊢
    rw [gather, h.append_left.objection?_eq_none]
    exact ih h

theorem make_eq_ok {entries : List Entry} {ds : List Declaration} {prog : Text}
    {summary description : Datum} {infer : Bool} (hds : Entries entries ds) (h : WellMade ds)
    (hprog : prog.trim ≠ []) :
    make (.text prog) entries summary description infer =
      .ok ⟨prog.trim, ds, summary.ifTrue, description.ifTrue, infer, h⟩ := by
  have hgather : gather [] entries = .ok ds := gather_eq_ok hds h
  rw [make, if_neg hprog]
  split
  · rename_i defect hdefect
    rw [hgather] at hdefect
    cases hdefect
  · rename_i declarations hdeclarations
    obtain rfl : ds = declarations := by simpa [hgather] using hdeclarations
    rfl

end Signature

namespace Script

variable {script : Script} {usage : Usage}

/-- What is said about a key is trimmed and not empty. -/
theorem trim_description? {key description : Text}
    (h : description? script.options key = some description) :
    description.trim = description ∧ description ≠ [] := by
  obtain ⟨line, hline, hfound⟩ := List.exists_of_findSome?_eq_some h
  split at hfound
  · exact OptionLine.trim_description (List.mem_reverse.mp hline) hfound
  · cases hfound

/-- The description of a key passes the check of any draft that has it. -/
theorem checkDescription_describe {draft : Declaration.Draft} {key : Text}
    (h : draft.description = describe script.options key) :
    draft.checkDescription = .ok ((description? script.options key).map .plain) := by
  rw [Declaration.Draft.checkDescription, h, describe]
  cases hdescription : description? script.options key with
  | none => rfl
  | some description =>
    obtain ⟨htrim, hne⟩ := trim_description? hdescription
    simp [htrim, hne]

/-- The draft of a well-formed argument passes the check. -/
theorem check_draftOf {argument : Usage.Argument} (h : argument.WellFormed) :
    (draftOf script.options argument).check = .ok (argument.declaration script.options) := by
  obtain ⟨form, required, exclusive⟩ := argument
  obtain ⟨hform, hboth⟩ := h
  have htrim := Text.trim_eq_self hform.isBlank_declaredName
  have hadmits := hform.admits
  have hnot : (required && exclusive) = false := by simpa using hboth
  cases form with
  | positional name =>
    exact Declaration.Draft.check_eq_ok rfl htrim hadmits (checkDescription_describe rfl) hnot rfl
  | short letter =>
    exact Declaration.Draft.check_eq_ok rfl htrim hadmits (checkDescription_describe rfl) hnot rfl
  | long name value =>
    cases value with
    | none =>
      exact Declaration.Draft.check_eq_ok rfl htrim hadmits (checkDescription_describe rfl) hnot rfl
    | some metavar =>
      obtain ⟨hmetavar, hword⟩ := hform.isWord
      refine Declaration.Draft.check_eq_ok rfl htrim hadmits (checkDescription_describe rfl) hnot ?_
      simp [draftOf, Declaration.Draft.checkKind, Declaration.Draft.checkMetavar, hmetavar, hword,
        Except.map, Usage.Form.kind]

/-- The draft of a rest capture passes the check. -/
theorem check_draftOfRest {name : Text} (h : name.IsIdent) :
    (draftOfRest script.options name).check = .ok (Usage.restDeclaration script.options name) :=
  Declaration.Draft.check_eq_ok rfl (Text.trim_eq_self h.isBlank) (decide_eq_true h)
    (checkDescription_describe rfl) rfl rfl

/-- The drafts of a well-formed usage pass their checks, one by one. -/
theorem check_drafts (h : usage.WellFormed) :
    (drafts script.options usage).map Declaration.Draft.check =
      (usage.declarations script.options).map .ok := by
  have harguments : usage.arguments.map (Declaration.Draft.check ∘ draftOf script.options) =
      usage.arguments.map (.ok ∘ Usage.Argument.declaration script.options) :=
    List.map_congr_left fun argument hargument => check_draftOf (h.1 argument hargument)
  have hrest : usage.rest.toList.map (Declaration.Draft.check ∘ draftOfRest script.options) =
      usage.rest.toList.map (.ok ∘ Usage.restDeclaration script.options) :=
    List.map_congr_left fun name hname => check_draftOfRest (h.2.1 name (by simpa using hname))
  simp [drafts, Usage.declarations, harguments, hrest]

theorem entryOf_of_check {draft : Declaration.Draft} {d : Declaration} (h : draft.check = .ok d) :
    entryOf draft = .ok (.declaration d (Declaration.Draft.valid_of_check h)) := by
  unfold entryOf
  split
  · rename_i e he
    obtain rfl : e = d := by simpa [he] using h
    rfl
  · rename_i defect hdefect
    rw [hdefect] at h
    cases h

/-- Drafts that pass their checks become the entries of their declarations. -/
theorem mapM_entryOf {drafts : List Declaration.Draft} {ds : List Declaration}
    (h : drafts.map Declaration.Draft.check = ds.map .ok) :
    ∃ entries, drafts.mapM entryOf = .ok entries ∧ Signature.Entries entries ds := by
  induction drafts generalizing ds with
  | nil =>
    obtain rfl : ds = [] := by simpa using h.symm
    exact ⟨[], rfl, .nil⟩
  | cons draft drafts ih =>
    cases ds with
    | nil => simp at h
    | cons d ds =>
      obtain ⟨hcheck, hmore⟩ := List.cons.inj h
      obtain ⟨entries, hentries, hds⟩ := ih hmore
      refine ⟨_, ?_, .cons (Declaration.Draft.valid_of_check hcheck) hds⟩
      simp [List.mapM_cons, entryOf_of_check hcheck, hentries, bind, Except.bind, pure, Except.pure]

/-! ## The signature of a script -/

/-- The declarations that the annotations of a script state. -/
def declarations (script : Script) : List Declaration :=
  (script.usage.map (Usage.declarations script.options)).getD []

theorem wellFormed_usage (h : script.usage = some usage) : usage.WellFormed := by
  obtain ⟨line, -, hparse⟩ : ∃ line, script.docs.usage = some line ∧ Usage.parse? line = .ok usage := by
    simp only [Script.usage, reading, Option.bind_eq_some_iff, Option.map_eq_some_iff] at h
    obtain ⟨_, ⟨line, hline, rfl⟩, hread⟩ := h
    cases hparse : Usage.parse? line with
    | error problems =>
      rw [hparse] at hread
      cases hread
    | ok read =>
      obtain rfl : read = usage := by simpa [hparse, Except.toOption] using hread
      exact ⟨line, hline, hparse⟩
  exact Usage.wellFormed_of_states (Usage.parse?_eq_ok_iff_states.mp hparse)

/-- Every script has a signature, for each command line that is not blank.  Its declarations are those
that the annotations state. -/
theorem signature_eq (script : Script) {prog : Text} (hprog : prog.trim ≠ []) (infer : Bool) :
    ∃ wellMade : Signature.WellMade script.declarations,
      script.signature prog infer =
        .ok ⟨prog.trim, script.declarations, (optional script.docs.summary).ifTrue,
          (optional script.docs.description).ifTrue, infer, wellMade⟩ := by
  obtain ⟨entries, hentries, hds, hwellMade⟩ : ∃ entries,
      ((script.usage.map (drafts script.options)).getD []).mapM entryOf = .ok entries ∧
        Signature.Entries entries script.declarations ∧ Signature.WellMade script.declarations := by
    unfold declarations
    cases husage : script.usage with
    | none => exact ⟨[], rfl, .nil, .nil⟩
    | some usage =>
      have hwellFormed := wellFormed_usage husage
      have hchecks := @check_drafts script usage hwellFormed
      obtain ⟨entries, hentries, hds⟩ := mapM_entryOf hchecks
      exact ⟨entries, hentries, hds, hwellFormed.wellMade_declarations hds.valid⟩
  refine ⟨hwellMade, ?_⟩
  simp only [signature, hentries, Signature.make_eq_ok hds hwellMade hprog]

end Script

end CommandTree
