import CommandTree.Datum.Basic
import CommandTree.Text.Blank
import CommandTree.Text.Ident
import CommandTree.Text.Letter

/-!
# Declarations of arguments

A command declares the arguments that it takes.  A *cardinal* is given by its place, an *option* is a
long switch with a value, and a *flag* is a short or long switch without one.  The last cardinal may be
*greedy*: it takes all words from its own on.

## Validity

`Declaration.Valid` is what every declaration in use satisfies: the name has the shape that its kind
asks for, nothing is both required and exclusive or both greedy and exclusive, and the label of an
option's value is one word.

## Drafts

A `Declaration.Draft` is what a caller asks for, with fields of any kind.  `Draft.check` turns it into a
declaration or says what is wrong with it (`Draft.Defect`), and `Draft.valid_of_check` states that what
passes is valid.
-/

namespace CommandTree

/-- What is said about an argument: a text, or a text in a style of its own. -/
inductive Description where
  | plain (text : Text)
  | styled (text : Text) (style : Style)
deriving DecidableEq

/-- The description as a datum. -/
def Description.datum : Description → Datum
  | plain text => .text text
  | styled text style => .styled text style

namespace Declaration

/-- The kinds of arguments. -/
inductive Kind where
  | cardinal (greedy : Bool)
  | option (metavar : Text)
  | flag
deriving DecidableEq

/-- The word for a kind. -/
def Kind.word : Kind → Text
  | cardinal _ => "cardinal"
  | option _ => "option"
  | flag => "flag"

end Declaration

/-- An argument that a command takes.  The name of a switch holds its dashes. -/
structure Declaration where
  kind : Declaration.Kind
  name : Text
  required : Bool
  exclusive : Bool
  description : Option Description
deriving DecidableEq

namespace Declaration

/-- The name without dashes, by which the argument is known everywhere else. -/
def key (d : Declaration) : Text :=
  match d.kind with
  | .cardinal _ => d.name
  | .option _ => d.name.drop 2
  | .flag => d.name.dropWhile fun g => g = .char '-'

/-- Whether the argument is given by its place. -/
def isCardinal (d : Declaration) : Bool :=
  match d.kind with
  | .cardinal _ => true
  | _ => false

/-- Whether the argument takes all words from its own on. -/
def isGreedy (d : Declaration) : Bool :=
  match d.kind with
  | .cardinal greedy => greedy
  | _ => false

/-- Whether the argument is a switch with a value. -/
def isOption (d : Declaration) : Bool :=
  match d.kind with
  | .option _ => true
  | _ => false

/-- The label of the value of an option; empty for other kinds. -/
def metavar (d : Declaration) : Text :=
  match d.kind with
  | .option metavar => metavar
  | _ => []

/-! ## Validity -/

/-- What may follow the dash of a short flag. -/
def isFlagLetter (g : Glyph) : Bool :=
  g.isLetter || g.isNumeral

/-- Two dashes and an identifier. -/
def isLongName : Text → Bool
  | .char '-' :: .char '-' :: name => decide (Text.IsIdent name)
  | _ => false

/-- A dash and one letter. -/
def isShortName : Text → Bool
  | [.char '-', g] => isFlagLetter g
  | _ => false

/-- Whether a name has the shape that a kind asks for. -/
def Kind.admits (kind : Kind) (name : Text) : Bool :=
  match kind with
  | cardinal _ => decide name.IsIdent
  | option _ => isLongName name
  | flag => isShortName name || isLongName name

/-- A label of one word. -/
def isWord (text : Text) : Bool :=
  !text.isEmpty && text.all fun g => !g.isBlank

/-- Whether the label of a value is one word, where there is one. -/
def Kind.hasWord : Kind → Bool
  | option metavar => isWord metavar
  | _ => true

/-- Whether a kind is the greedy one. -/
def Kind.isGreedy : Kind → Bool
  | cardinal greedy => greedy
  | _ => false

/-- What every declaration in use satisfies. -/
structure Valid (d : Declaration) : Prop where
  name : d.kind.admits d.name = true
  word : d.kind.hasWord = true
  notRequiredExclusive : ¬(d.required = true ∧ d.exclusive = true)
  notGreedyExclusive : ¬(d.kind.isGreedy = true ∧ d.exclusive = true)

/-! ## Showing declarations -/

/-- The fields that stand between the name and the shared ones. -/
def Kind.labelFields : Kind → List (Text × Datum)
  | option metavar => [(Text.lit "metavar", .text metavar)]
  | _ => []

/-- The fields that stand after the shared ones. -/
def Kind.greedyFields : Kind → List (Text × Datum)
  | cardinal greedy => [(Text.lit "greedy", .bool greedy)]
  | _ => []

/-- The fields of a declaration, in the order in which they are shown. -/
def fields (d : Declaration) : List (Text × Datum) :=
  (Text.lit "name", .text d.name) :: d.kind.labelFields ++
    (Text.lit "required", .bool d.required) :: (Text.lit "exclusive", .bool d.exclusive) ::
    d.kind.greedyFields ++
    [(Text.lit "descr", (d.description.map Description.datum).getD .none)]

/-- How a declaration is shown. -/
def display (d : Declaration) : Text :=
  d.kind.word ++ "(" ++
    Text.join ", " (d.fields.map fun field => field.1 ++ "=" ++ field.2.quoted) ++ ")"

/-! ## Drafts -/

/-- The kind that a draft is of. -/
inductive Draft.Kind where
  | cardinal
  | option
  | flag
deriving DecidableEq

/-- The word for the kind of a draft. -/
def Draft.Kind.word : Draft.Kind → Text
  | cardinal => "cardinal"
  | option => "option"
  | flag => "flag"

/-- What a caller asks for.  An option needs a label for its value; other kinds have none. -/
structure Draft where
  kind : Draft.Kind
  name : Datum
  metavar : Option Datum
  required : Datum
  exclusive : Datum
  greedy : Datum
  description : Datum

namespace Draft

/-- What is wrong with a draft. -/
inductive Defect where
  | nameNotText (kind : Kind)
  | nameEmpty (kind : Kind)
  | nameInvalid (kind : Kind) (name : Text)
  | descriptionNotText (kind : Kind)
  | descriptionEmpty (kind : Kind)
  | requiredExclusive (kind : Kind)
  | greedyExclusive
  | metavarMissing
  | metavarNotText
  | metavarNotWord
deriving DecidableEq

/-- The wording of a defect; a missing label has none. -/
def Defect.message : Defect → Text
  | nameNotText kind => kind.word ++ " name must be a string"
  | nameEmpty kind => kind.word ++ " name cannot be an empty-string"
  | nameInvalid kind name => kind.word ++ " name " ++ name.quoted ++ " is not valid"
  | descriptionNotText kind => kind.word ++ " 'descr' must be a string"
  | descriptionEmpty kind => kind.word ++ " 'descr' cannot be empty"
  | requiredExclusive kind => "required " ++ kind.word ++ " cannot be exclusive"
  | greedyExclusive => "greedy cardinal cannot be exclusive"
  | metavarMissing => []
  | metavarNotText => "option 'metavar' must be a string"
  | metavarNotWord => "option 'metavar' must be a non-empty word"

/-- Whether a defect is about the kind of a field and not about its value. -/
def Defect.isAboutKind : Defect → Bool
  | nameNotText _ | descriptionNotText _ | metavarMissing | metavarNotText => true
  | _ => false

/-- Whether a name has the shape that the kind of a draft asks for. -/
def Kind.admits : Kind → Text → Bool
  | cardinal, name => decide name.IsIdent
  | option, name => isLongName name
  | flag, name => isShortName name || isLongName name

/-- The name of a draft, trimmed. -/
def checkName (draft : Draft) : Except Defect Text :=
  match draft.name with
  | .text name =>
    if name.trim = [] then .error (.nameEmpty draft.kind)
    else if draft.kind.admits name.trim then .ok name.trim
    else .error (.nameInvalid draft.kind name.trim)
  | _ => .error (.nameNotText draft.kind)

/-- The description of a draft, a text trimmed. -/
def checkDescription (draft : Draft) : Except Defect (Option Description) :=
  match draft.description with
  | .unset => .ok none
  | .text text =>
    if text.trim = [] then .error (.descriptionEmpty draft.kind)
    else .ok (some (.plain text.trim))
  | .styled text style => .ok (some (.styled text style))
  | _ => .error (.descriptionNotText draft.kind)

/-- The label of the value of an option, trimmed. -/
def checkMetavar (draft : Draft) : Except Defect Text :=
  match draft.metavar with
  | some (.text metavar) =>
    if isWord metavar.trim then .ok metavar.trim else .error .metavarNotWord
  | some _ => .error .metavarNotText
  | none => .error .metavarMissing

/-- The kind of the declaration that a draft asks for. -/
def checkKind (draft : Draft) : Except Defect Declaration.Kind :=
  match draft.kind with
  | .cardinal =>
    if draft.greedy.truthy && draft.exclusive.truthy then .error .greedyExclusive
    else .ok (.cardinal draft.greedy.truthy)
  | .option => draft.checkMetavar.map .option
  | .flag => .ok .flag

/-- The declaration that a draft asks for, or the first thing that is wrong with it. -/
def check (draft : Draft) : Except Defect Declaration :=
  if draft.kind = .option ∧ draft.metavar.isNone then .error .metavarMissing
  else
    match draft.checkName with
    | .error defect => .error defect
    | .ok name =>
      match draft.checkDescription with
      | .error defect => .error defect
      | .ok description =>
        if draft.required.truthy && draft.exclusive.truthy then
          .error (.requiredExclusive draft.kind)
        else
          match draft.checkKind with
          | .error defect => .error defect
          | .ok kind =>
            .ok ⟨kind, name, draft.required.truthy, draft.exclusive.truthy, description⟩

theorem admits_of_checkKind {draft : Draft} {kind : Declaration.Kind}
    (h : draft.checkKind = .ok kind) (name : Text) :
    kind.admits name = draft.kind.admits name := by
  unfold checkKind at h
  split at h
  · split at h
    · simp at h
    · simp only [Except.ok.injEq] at h
      subst h
      rename_i hk _
      simp [Declaration.Kind.admits, Kind.admits, hk]
  · rename_i hk
    cases hm : draft.checkMetavar with
    | error defect => simp [hm, Except.map] at h
    | ok metavar =>
      simp only [hm, Except.map, Except.ok.injEq] at h
      subst h
      simp [Declaration.Kind.admits, Kind.admits, hk]
  · rename_i hk
    simp only [Except.ok.injEq] at h
    subst h
    simp [Declaration.Kind.admits, Kind.admits, hk]

theorem hasWord_of_checkKind {draft : Draft} {kind : Declaration.Kind}
    (h : draft.checkKind = .ok kind) : kind.hasWord = true := by
  unfold checkKind at h
  split at h
  · split at h
    · simp at h
    · simp only [Except.ok.injEq] at h
      subst h
      rfl
  · cases hm : draft.checkMetavar with
    | error defect => simp [hm, Except.map] at h
    | ok metavar =>
      simp only [hm, Except.map, Except.ok.injEq] at h
      subst h
      unfold checkMetavar at hm
      split at hm
      · split at hm
        · rename_i hw
          simp only [Except.ok.injEq] at hm
          subst hm
          exact hw
        · simp at hm
      · simp at hm
      · simp at hm
  · simp only [Except.ok.injEq] at h
    subst h
    rfl

theorem notGreedyExclusive_of_checkKind {draft : Draft} {kind : Declaration.Kind}
    (h : draft.checkKind = .ok kind) :
    ¬(kind.isGreedy = true ∧ draft.exclusive.truthy = true) := by
  unfold checkKind at h
  split at h
  · split at h
    · simp at h
    · rename_i hboth
      simp only [Except.ok.injEq] at h
      subst h
      simpa [Declaration.Kind.isGreedy] using hboth
  · cases hm : draft.checkMetavar with
    | error defect => simp [hm, Except.map] at h
    | ok metavar =>
      simp only [hm, Except.map, Except.ok.injEq] at h
      subst h
      simp [Declaration.Kind.isGreedy]
  · simp only [Except.ok.injEq] at h
    subst h
    simp [Declaration.Kind.isGreedy]

theorem admits_of_checkName {draft : Draft} {name : Text} (h : draft.checkName = .ok name) :
    draft.kind.admits name = true := by
  unfold checkName at h
  split at h
  · split at h
    · simp at h
    · split at h
      · rename_i hadmits
        simp only [Except.ok.injEq] at h
        subst h
        exact hadmits
      · simp at h
  · simp at h

/-- What passes the check is valid. -/
theorem valid_of_check {draft : Draft} {d : Declaration} (h : draft.check = .ok d) : d.Valid := by
  unfold check at h
  split at h
  · simp at h
  split at h
  · simp at h
  rename_i name hname
  split at h
  · simp at h
  split at h
  · simp at h
  rename_i hboth
  split at h
  · simp at h
  rename_i kind hkind
  simp only [Except.ok.injEq] at h
  subst h
  exact
    { name := (admits_of_checkKind hkind name).trans (admits_of_checkName hname)
      word := hasWord_of_checkKind hkind
      notRequiredExclusive := by simpa using hboth
      notGreedyExclusive := notGreedyExclusive_of_checkKind hkind }

end Draft

end Declaration

end CommandTree
