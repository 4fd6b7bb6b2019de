import CommandTree.Datum.Members
import CommandTree.Usage.Basic

/-!
# Drafts of usages

A `Usage.Draft` is a usage whose parts are of any kind.  It is written like a usage, with every part as it is
shown; but what follows a dash without a value must be a text.

`Draft.usage?` is the usage that a draft is, if its names are texts and its conditions are conditions.
`Draft.render?_of_usage?` states that it is written like the draft.
-/

namespace CommandTree

namespace Usage

/-- How an argument with parts of any kind is given on a command line. -/
inductive Draft.Form where
  | positional (name : Datum)
  | short (letter : Datum)
  | long (name value : Datum)

/-- An argument with parts of any kind. -/
structure Draft.Argument where
  form : Draft.Form
  required : Datum
  exclusive : Datum

/-- A usage with parts of any kind; nothing in place of a rest capture stands for none. -/
structure Draft where
  arguments : List Draft.Argument
  rest : Datum

namespace Draft

/-! ## Writing -/

/-- A form as it is written, if it can be. -/
def Form.render? (required : Bool) : Form → Option Text
  | positional name => some (if required then "<" ++ name.display ++ ">" else name.display)
  | short (.text letter) => some ("-" ++ letter)
  | short _ => none
  | long (.text name) .none => some ("--" ++ name)
  | long _ .none => none
  | long name value => some ("--" ++ name.display ++ "=" ++ value.display)

/-- An argument as it is written, if it can be. -/
def Argument.render? (argument : Argument) : Option Text :=
  if argument.required.truthy then argument.form.render? true
  else
    (argument.form.render? false).map fun form =>
      "[" ++ form ++ "]" ++ (if argument.exclusive.truthy then Text.lit "!" else [])

/-- The name of the rest capture, if there is one. -/
def restName? (draft : Draft) : Option Datum :=
  match draft.rest with
  | .none => none
  | name => some name

/-- The line that a draft gives, if it can be written. -/
def render? (draft : Draft) : Option Text :=
  (draft.arguments.mapM Argument.render?).map fun arguments =>
    Text.join " " (header :: command :: arguments ++
      draft.restName?.toList.map fun name => renderRest name.display)

/-! ## The usage of a draft -/

/-- The condition that a datum is. -/
def condition? (datum : Datum) : Option Bool :=
  if Datum.isSame datum (.bool datum.truthy) then some datum.truthy else none

/-- The placeholder for a value that a datum is; nothing stands for none. -/
def placeholder? : Datum → Option (Option Text)
  | .none => some none
  | .text value => some (some value)
  | _ => none

/-- The form that a form with parts of any kind is. -/
def Form.form? : Form → Option Usage.Form
  | positional name => name.text?.map .positional
  | short letter => letter.text?.map .short
  | long name value => name.text?.bind fun name => (placeholder? value).map fun value => .long name value

/-- The argument that an argument with parts of any kind is. -/
def Argument.argument? (argument : Argument) : Option Usage.Argument :=
  argument.form.form?.bind fun form =>
    (condition? argument.required).bind fun required =>
      (condition? argument.exclusive).map fun exclusive => ⟨form, required, exclusive⟩

/-- The usage that a draft is. -/
def usage? (draft : Draft) : Option Usage :=
  (draft.arguments.mapM Argument.argument?).bind fun arguments =>
    (placeholder? draft.rest).map fun rest => ⟨arguments, rest⟩

theorem eq_truthy_of_condition? {datum : Datum} {value : Bool} (h : condition? datum = some value) :
    datum.truthy = value := by
  unfold condition? at h
  split at h
  · exact Option.some.inj h
  · cases h

/-- A form is written like the form that it is. -/
theorem Form.render?_of_form? {draft : Form} {form : Usage.Form} (h : draft.form? = some form)
    (required : Bool) : draft.render? required = some (form.render required) := by
  cases draft with
  | positional name =>
    cases name with
    | text name => cases h; cases required <;> rfl
    | _ => cases h
  | short letter =>
    cases letter with
    | text letter => cases h; rfl
    | _ => cases h
  | long name value =>
    cases name with
    | text name =>
      cases value with
      | none => cases h; rfl
      | text value => cases h; rfl
      | _ => cases h
    | _ => cases h

/-- An argument is written like the argument that it is. -/
theorem Argument.render?_of_argument? {draft : Argument} {argument : Usage.Argument}
    (h : draft.argument? = some argument) : draft.render? = some argument.render := by
  simp only [argument?, Option.bind_eq_some_iff, Option.map_eq_some_iff] at h
  obtain ⟨form, hform, required, hrequired, exclusive, hexclusive, rfl⟩ := h
  have htext := Form.render?_of_form? hform
  simp only [render?, Usage.Argument.render, eq_truthy_of_condition? hrequired,
    eq_truthy_of_condition? hexclusive, htext]
  cases required <;> rfl

theorem render?_of_arguments? {drafts : List Argument} {arguments : List Usage.Argument}
    (h : drafts.mapM Argument.argument? = some arguments) :
    drafts.mapM Argument.render? = some (arguments.map Usage.Argument.render) := by
  induction drafts generalizing arguments with
  | nil =>
    cases h
    rfl
  | cons draft rest ih =>
    simp only [List.mapM_cons, Option.bind_eq_bind, Option.bind_eq_some_iff] at h
    obtain ⟨argument, hargument, more, hmore, hcons⟩ := h
    cases hcons
    simp [Argument.render?_of_argument? hargument, ih hmore]

/-- A draft is written like the usage that it is. -/
theorem render?_of_usage? {draft : Draft} {usage : Usage} (h : draft.usage? = some usage) :
    draft.render? = some usage.render := by
  simp only [usage?, Option.bind_eq_some_iff, Option.map_eq_some_iff] at h
  obtain ⟨arguments, harguments, rest, hrest, rfl⟩ := h
  rw [render?, render?_of_arguments? harguments, restName?]
  cases hdatum : draft.rest <;> rw [hdatum] at hrest <;> cases hrest <;> rfl

end Draft

end Usage

end CommandTree
