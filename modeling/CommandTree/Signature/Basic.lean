import CommandTree.Declaration

/-!
# Signatures

The signature of a command is the list of its declarations, in order, with the command line by which
it is called (`prog`) and what help says about it.

A `Signature` is well made by construction: its declarations are valid, no two share a key, and only
the last cardinal may be greedy.  `Signature.make` builds one from what a caller hands in, or names the
first `Signature.Defect`.
-/

namespace CommandTree

namespace Signature

/-- Only the last cardinal may be greedy. -/
def GreedyLast (declarations : List Declaration) : Prop :=
  ∀ d ∈ (declarations.filter Declaration.isCardinal).dropLast, d.isGreedy = false

/-- What holds of the declarations of every signature. -/
structure WellMade (declarations : List Declaration) : Prop where
  valid : ∀ d ∈ declarations, d.Valid
  distinct : (declarations.map Declaration.key).Nodup
  greedyLast : GreedyLast declarations

end Signature

/-- The declarations of a command, and what is said about it. -/
structure Signature where
  /-- The command line by which the command is called. -/
  prog : Text
  declarations : List Declaration
  /-- What help says about the command; `Datum.none` if it says nothing. -/
  summary : Datum
  /-- What help says last; `Datum.none` if it says nothing. -/
  description : Datum
  /-- Whether a long switch may be shortened as long as it stays unique. -/
  infer : Bool
  wellMade : Signature.WellMade declarations

namespace Signature

/-- The arguments that are given by their place, in order. -/
def cardinals (sig : Signature) : List Declaration :=
  sig.declarations.filter Declaration.isCardinal

/-- The switches, in order. -/
def switches (sig : Signature) : List Declaration :=
  sig.declarations.filter fun d => !d.isCardinal

/-- The switch of a name, dashes included. -/
def switch? (sig : Signature) (name : Text) : Option Declaration :=
  sig.switches.find? fun d => d.name = name

/-! ## Building signatures -/

/-- What a caller hands in for a declaration. -/
inductive Entry where
  | declaration (d : Declaration) (valid : d.Valid)
  | other

/-- What is wrong with a signature. -/
inductive Defect where
  | progNotText
  | progEmpty
  | notDeclaration
  | duplicateKey (key : Text)
  | greedyNotLast (name : Text)
deriving DecidableEq

/-- The wording of a defect. -/
def Defect.message : Defect → Text
  | progNotText => "signature 'prog' must be a string"
  | progEmpty => "signature 'prog' cannot be empty"
  | notDeclaration => "signature arguments must be cardinals, options or flags"
  | duplicateKey key => "signature arguments cannot contain duplicates (" ++ key.quoted ++ ")"
  | greedyNotLast name => "greedy cardinal " ++ name.quoted ++ " must be the last cardinal"

/-- Whether a defect is about the kind of what was handed in and not about its value. -/
def Defect.isAboutKind : Defect → Bool
  | progNotText | notDeclaration => true
  | _ => false

/-- The greedy cardinal at the end of the cardinals among some declarations. -/
def lastGreedy? (declarations : List Declaration) : Option Declaration :=
  ((declarations.filter Declaration.isCardinal).getLast?).filter Declaration.isGreedy

/-- Why a declaration may not follow others, if it may not. -/
def objection? (earlier : List Declaration) (d : Declaration) : Option Defect :=
  if d.key ∈ earlier.map Declaration.key then some (.duplicateKey d.key)
  else if d.isCardinal then (lastGreedy? earlier).map fun greedy => .greedyNotLast greedy.name
  else none

/-- The declarations among some entries, after some earlier ones. -/
def gather (earlier : List Declaration) : List Entry → Except Defect (List Declaration)
  | [] => .ok earlier
  | .other :: _ => .error .notDeclaration
  | .declaration d _ :: rest =>
    match objection? earlier d with
    | some defect => .error defect
    | none => gather (earlier ++ [d]) rest

theorem WellMade.nil : WellMade [] :=
  { valid := by simp
    distinct := by simp
    greedyLast := by simp [GreedyLast] }

/-- A declaration to which there is no objection may be added. -/
theorem WellMade.snoc {earlier : List Declaration} {d : Declaration} (h : WellMade earlier)
    (hd : d.Valid) (hobj : objection? earlier d = none) : WellMade (earlier ++ [d]) := by
  unfold objection? at hobj
  split at hobj
  · simp at hobj
  rename_i hkey
  refine { valid := ?_, distinct := ?_, greedyLast := ?_ }
  · intro x hx
    rcases List.mem_append.mp hx with hx | hx
    · exact h.valid x hx
    · rw [List.mem_singleton.mp hx]
      exact hd
  · rw [List.map_append, List.nodup_append]
    refine ⟨h.distinct, by simp, ?_⟩
    intro a ha b hb hab
    rw [List.map_singleton, List.mem_singleton] at hb
    subst hab
    exact hkey (hb ▸ ha)
  · cases hc : d.isCardinal
    · simpa [GreedyLast, List.filter_append, hc] using h.greedyLast
    · rw [if_pos hc, Option.map_eq_none_iff] at hobj
      have hlast : ∀ x, (earlier.filter Declaration.isCardinal).getLast? = some x →
          x.isGreedy = false := by
        intro x hx
        simpa [lastGreedy?, hx, Option.filter] using hobj
      intro x hx
      rw [List.filter_append, List.filter_cons_of_pos hc, List.filter_nil,
        List.dropLast_concat] at hx
      cases hcards : earlier.filter Declaration.isCardinal with
      | nil => simp [hcards] at hx
      | cons y ys =>
        have hne : earlier.filter Declaration.isCardinal ≠ [] := by simp [hcards]
        rw [← List.dropLast_concat_getLast hne] at hx
        rcases List.mem_append.mp hx with hx | hx
        · exact h.greedyLast x hx
        · rw [List.mem_singleton.mp hx]
          exact hlast _ (List.getLast?_eq_some_getLast hne)

theorem wellMade_of_gather {earlier ds : List Declaration} {entries : List Entry}
    (h : WellMade earlier) (hds : gather earlier entries = .ok ds) : WellMade ds := by
  induction entries generalizing earlier with
  | nil =>
    simp only [gather, Except.ok.injEq] at hds
    exact hds ▸ h
  | cons entry rest ih =>
    cases entry with
    | other => simp [gather] at hds
    | declaration d hd =>
      simp only [gather] at hds
      split at hds
      · simp at hds
      · rename_i hobj
        exact ih (h.snoc hd hobj) hds

/-- The signature of some entries, or the first thing that is wrong with them. -/
def make (prog : Datum) (entries : List Entry) (summary description : Datum) (infer : Bool) :
    Except Defect Signature :=
  match prog with
  | .text prog =>
    if prog.trim = [] then .error .progEmpty
    else
      match h : gather [] entries with
      | .error defect => .error defect
      | .ok declarations =>
        .ok ⟨prog.trim, declarations, summary.ifTrue, description.ifTrue, infer,
          wellMade_of_gather .nil h⟩
  | _ => .error .progNotText

/-- The signature of a command without arguments. -/
def bare (prog : Text) : Signature :=
  ⟨prog.trim, [], .none, .none, false, .nil⟩

/-- How a list of declarations is shown; a single one is followed by a comma. -/
def displayAll : List Declaration → Text
  | [d] => "(" ++ d.display ++ ",)"
  | ds => "(" ++ Text.join ", " (ds.map Declaration.display) ++ ")"

/-- How a signature is shown. -/
def display (sig : Signature) : Text :=
  "signature(prog=" ++ sig.prog.quoted ++ ", arguments=" ++ displayAll sig.declarations ++ ")"

end Signature

end CommandTree
