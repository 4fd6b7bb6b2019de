import CommandTree.Proofs.Node.Unlimited
import Mathlib.Logic.Relation

/-!
# What a search passes

`Node.survey` is the search of `Node.search` with its trace in place of its result: the locations of the
directories that it enters and the scripts that it checks.  The result of a search is made of the problems
of these scripts (`search_eq_survey`).

`Node.Surveys` is the same as a relation, without a limit on links.  A search among known nodes has a
trace (`exists_surveys`), and it is the trace for every limit from some limit on
(`Surveys.eventually_survey`).

What the relation keeps, one rule at a time: no directory is entered twice (`Surveys.fresh`); whatever lies in
a directory that was entered has been dealt with (`Surveys.handles`, `Surveys.closed`); and whatever was passed
was reached from the nodes with which the search started (`Surveys.reached`).
-/

namespace CommandTree

namespace Node

open Filter Relation

/-- What a search passes: the locations of the directories that it enters, and the scripts that it
checks. -/
structure Survey where
  entered : List (List Text)
  scripts : List ScriptFile

/-- What the search for problems passes. -/
def survey (config : Config) (files : FileTree) (seen : List (List Text)) : (todo : List Node) → Survey
  | [] => ⟨[], []⟩
  | .internal _ _ :: todo => survey config files seen todo
  | .file script :: todo =>
    let rest := survey config files seen todo
    ⟨rest.entered, script :: rest.scripts⟩
  | node :: todo =>
    match _h : node.location? config files with
    | none => survey config files seen todo
    | some location =>
      if _hseen : location ∈ seen then survey config files seen todo
      else
        let rest := survey config files (location :: seen) (node.children config files ++ todo)
        ⟨location :: rest.entered, rest.scripts⟩
termination_by todo => (unseen files seen, todo.length)
decreasing_by
  · exact Prod.Lex.right _ (Nat.lt_succ_self _)
  · exact Prod.Lex.right _ (Nat.lt_succ_self _)
  · exact Prod.Lex.right _ (Nat.lt_succ_self _)
  · exact Prod.Lex.right _ (Nat.lt_succ_self _)
  · exact Prod.Lex.left _ _ (unseen_cons_lt (mem_directories_of_location? _h) _hseen)

section

variable {config : Config} {files : FileTree} {seen : List (List Text)} {node : Node} {todo : List Node}
  {location : List Text}

theorem survey_file (script : ScriptFile) :
    survey config files seen (.file script :: todo) =
      ⟨(survey config files seen todo).entered, script :: (survey config files seen todo).scripts⟩ := by
  rw [survey]

theorem survey_of_unplaced (hinternal : ∀ command args, node ≠ .internal command args)
    (hfile : ∀ script, node ≠ .file script) (h : node.location? config files = none) :
    survey config files seen (node :: todo) = survey config files seen todo := by
  rw [survey]
  · split
    · rfl
    · rename_i location hlocation
      rw [h] at hlocation
      cases hlocation
  · exact hinternal
  · exact hfile

theorem survey_of_location (h : node.location? config files = some location) :
    survey config files seen (node :: todo) =
      if location ∈ seen then survey config files seen todo
      else
        let rest := survey config files (location :: seen) (node.children config files ++ todo)
        ⟨location :: rest.entered, rest.scripts⟩ := by
  rw [survey]
  · split
    · rename_i hlocation
      rw [h] at hlocation
      cases hlocation
    · rename_i same hlocation
      rw [h] at hlocation
      cases hlocation
      rfl
  · rintro command args rfl
    cases h
  · rintro script rfl
    cases h

end

/-- The result of a search: the problems of the scripts that it passes, in order. -/
theorem search_eq_survey (config : Config) (files : FileTree) (seen : List (List Text)) (todo : List Node) :
    search config files seen todo =
      ((survey config files seen todo).scripts.mapM (problemsOf files)).map List.flatten := by
  fun_induction search config files seen todo with
  | case1 seen =>
    rw [survey]
    rfl
  | case2 seen command args todo ih =>
    rw [survey]
    exact ih
  | case3 seen script todo failure hproblems =>
    rw [survey_file, List.mapM_cons, hproblems]
    rfl
  | case4 seen script todo found hproblems ih =>
    rw [survey_file, List.mapM_cons, hproblems, ih]
    cases (survey config files seen todo).scripts.mapM (problemsOf files) <;> rfl
  | case5 seen node todo hinternal hfile hlocation ih =>
    rw [survey_of_unplaced hinternal hfile hlocation]
    exact ih
  | case6 seen node todo hinternal hfile location hlocation hseen ih =>
    rw [survey_of_location hlocation, if_pos hseen]
    exact ih
  | case7 seen node todo hinternal hfile location hlocation hseen ih =>
    rw [survey_of_location hlocation, if_neg hseen]
    exact ih

/-! ## Without a limit on links -/

/-- What the search for problems passes, however many links lie on the way. -/
inductive Surveys (config : Config) (tree : FileTree) :
    (seen : List (List Text)) → (todo : List Node) → Survey → Prop where
  | nil (seen : List (List Text)) : Surveys config tree seen [] ⟨[], []⟩
  | internal {seen : List (List Text)} {todo : List Node} {trace : Survey} (command : Internal)
      (args : List Datum) (rest : Surveys config tree seen todo trace) :
      Surveys config tree seen (.internal command args :: todo) trace
  | file {seen : List (List Text)} {todo : List Node} {trace : Survey} (script : ScriptFile)
      (rest : Surveys config tree seen todo trace) :
      Surveys config tree seen (.file script :: todo) ⟨trace.entered, script :: trace.scripts⟩
  | again {seen : List (List Text)} {node : Node} {todo : List Node} {trace : Survey} {location : List Text}
      (lies : Lies config tree node location) (old : location ∈ seen)
      (rest : Surveys config tree seen todo trace) : Surveys config tree seen (node :: todo) trace
  | enter {seen : List (List Text)} {node : Node} {todo kids : List Node} {trace : Survey}
      {location : List Text} (lies : Lies config tree node location) (new : location ∉ seen)
      (listed : ∀ᶠ limit in atTop, node.children config (tree.withLimit limit) = kids)
      (rest : Surveys config tree (location :: seen) (kids ++ todo) trace) :
      Surveys config tree seen (node :: todo) ⟨location :: trace.entered, trace.scripts⟩

theorem hasChild_of_listed {config : Config} {tree : FileTree} {node child : Node} {kids : List Node}
    (listed : ∀ᶠ limit in atTop, node.children config (tree.withLimit limit) = kids) :
    HasChild config tree node child ↔ child ∈ kids := by
  constructor
  · intro hchild
    obtain ⟨limit, hlisted, hmem⟩ := (listed.and hchild).exists
    exact hlisted ▸ hmem
  · intro hmem
    filter_upwards [listed] with limit hlisted
    exact hlisted ▸ hmem

/-- With a known node its children are known. -/
theorem Known.forall_append {config : Config} {tree : FileTree} {node : Node} {kids todo : List Node}
    (h : Known config tree node)
    (listed : ∀ᶠ limit in atTop, node.children config (tree.withLimit limit) = kids)
    (htodo : ∀ other ∈ todo, Known config tree other) : ∀ other ∈ kids ++ todo, Known config tree other := by
  intro other hother
  rcases List.mem_append.mp hother with hkid | hother
  · exact h.of_hasChild ((hasChild_of_listed listed).mpr hkid)
  · exact htodo other hother

/-- Among known nodes a search passes something. -/
theorem exists_surveys {config : Config} {tree : FileTree} (seen : List (List Text)) (todo : List Node)
    (hknown : ∀ node ∈ todo, Known config tree node) : ∃ trace, Surveys config tree seen todo trace := by
  match todo with
  | [] => exact ⟨_, .nil seen⟩
  | node :: todo =>
    have hnode : Known config tree node := hknown node List.mem_cons_self
    have htodo : ∀ other ∈ todo, Known config tree other := fun other hother => hknown other (.tail _ hother)
    obtain ⟨trace, hrest⟩ := exists_surveys seen todo htodo
    cases hdirectory : node.directory? config with
    | none =>
      cases node with
      | topLevel => cases hdirectory
      | directory names path => cases hdirectory
      | internal command args => exact ⟨_, .internal command args hrest⟩
      | file script => exact ⟨_, .file script hrest⟩
    | some directory =>
      obtain ⟨location, hlies⟩ := hnode.exists_lies hdirectory
      by_cases hseen : location ∈ seen
      · exact ⟨_, .again hlies hseen hrest⟩
      · obtain ⟨kids, hlisted⟩ := hnode.eventually_children
        have hfewer : unseen tree (location :: seen) < unseen tree seen :=
          unseen_cons_lt hlies.mem_directories hseen
        obtain ⟨trace, hbelow⟩ := exists_surveys (location :: seen) (kids ++ todo) (hnode.forall_append hlisted htodo)
        exact ⟨_, .enter hlies hseen hlisted hbelow⟩
termination_by (unseen tree seen, todo.length)
decreasing_by
  · exact Prod.Lex.right _ (Nat.lt_succ_self _)
  · exact Prod.Lex.left _ _ hfewer

namespace Surveys

variable {config : Config} {tree : FileTree} {seen : List (List Text)} {todo : List Node} {trace : Survey}

/-- What a search passes is the same whatever the limit is, once it is high enough. -/
theorem eventually_survey (h : Surveys config tree seen todo trace) :
    ∀ᶠ limit in atTop, survey config (tree.withLimit limit) seen todo = trace := by
  induction h with
  | nil seen => exact .of_forall fun limit => by rw [survey]
  | internal command args _ ih =>
    filter_upwards [ih] with limit hrest
    rw [survey, hrest]
  | file script _ ih =>
    filter_upwards [ih] with limit hrest
    rw [survey_file, hrest]
  | again lies old _ ih =>
    filter_upwards [lies.eventually_location, ih] with limit hlocation hrest
    rw [survey_of_location hlocation, if_pos old, hrest]
  | enter lies new listed _ ih =>
    filter_upwards [lies.eventually_location, listed, ih] with limit hlocation hlisted hrest
    rw [survey_of_location hlocation, if_neg new, hlisted, hrest]

/-- No directory is entered twice, and none that has been seen before. -/
theorem fresh (h : Surveys config tree seen todo trace) :
    trace.entered.Nodup ∧ ∀ location ∈ trace.entered, location ∉ seen := by
  induction h with
  | nil seen => exact ⟨List.nodup_nil, fun location hlocation => nomatch hlocation⟩
  | internal command args _ ih => exact ih
  | file script _ ih => exact ih
  | again lies old _ ih => exact ih
  | @enter seen node todo kids trace location lies new listed _ ih =>
    obtain ⟨hnodup, hfresh⟩ := ih
    have hnot : location ∉ trace.entered := fun hmem => hfresh location hmem List.mem_cons_self
    refine ⟨List.nodup_cons.mpr ⟨hnot, hnodup⟩, ?_⟩
    intro other hother
    rcases List.mem_cons.mp hother with rfl | hother
    · exact new
    · exact fun hmem => hfresh other hother (.tail _ hmem)

end Surveys

/-- A node is reached by steps from one of some nodes. -/
def ReachedFrom (r : Node → Node → Prop) (todo : List Node) (node : Node) : Prop :=
  ∃ first ∈ todo, ReflTransGen r first node

namespace ReachedFrom

variable {r : Node → Node → Prop} {todo kids : List Node} {node parent : Node}

theorem cons (h : ReachedFrom r todo node) (other : Node) : ReachedFrom r (other :: todo) node := by
  obtain ⟨first, hfirst, hreach⟩ := h
  exact ⟨first, .tail _ hfirst, hreach⟩

theorem below (h : ReachedFrom r (kids ++ todo) node) (hkids : ∀ kid ∈ kids, r parent kid) :
    ReachedFrom r (parent :: todo) node := by
  obtain ⟨first, hfirst, hreach⟩ := h
  rcases List.mem_append.mp hfirst with hkid | hfirst
  · exact ⟨parent, List.mem_cons_self, .head (hkids first hkid) hreach⟩
  · exact ⟨first, .tail _ hfirst, hreach⟩

end ReachedFrom

/-! ## What has been dealt with -/

section

variable {config : Config} {tree : FileTree} {seen : List (List Text)} {todo : List Node} {trace : Survey}
  {node : Node} {location : List Text}

/-- A search has dealt with a node: a script is checked, and the directory of a node is entered. -/
structure Dealt (config : Config) (tree : FileTree) (seen : List (List Text)) (trace : Survey) (node : Node) :
    Prop where
  script : ∀ script, node = .file script → script ∈ trace.scripts
  directory : ∀ location, Lies config tree node location → location ∈ seen ∨ location ∈ trace.entered

namespace Dealt

theorem of_internal (command : Internal) (args : List Datum) :
    Dealt config tree seen trace (.internal command args) where
  script _ h := nomatch h
  directory _ := fun ⟨_, hdirectory, _⟩ => nomatch hdirectory

theorem of_file {script : ScriptFile} (h : script ∈ trace.scripts) :
    Dealt config tree seen trace (.file script) where
  script := by
    rintro script ⟨⟩
    exact h
  directory _ := fun ⟨_, hdirectory, _⟩ => nomatch hdirectory

theorem of_lies (h : Lies config tree node location) (hmem : location ∈ seen ∨ location ∈ trace.entered) :
    Dealt config tree seen trace node where
  script := by
    rintro script rfl
    obtain ⟨_, hdirectory, _⟩ := h
    cases hdirectory
  directory other hother := h.unique hother ▸ hmem

theorem after_file (h : Dealt config tree seen trace node) (script : ScriptFile) :
    Dealt config tree seen ⟨trace.entered, script :: trace.scripts⟩ node where
  script other hother := .tail _ (h.script other hother)
  directory := h.directory

theorem after_enter (h : Dealt config tree (location :: seen) trace node) :
    Dealt config tree seen ⟨location :: trace.entered, trace.scripts⟩ node where
  script := h.script
  directory other hother := by
    rcases h.directory other hother with hseen | hentered
    · rcases List.mem_cons.mp hseen with rfl | hseen
      · exact .inr List.mem_cons_self
      · exact .inl hseen
    · exact .inr (.tail _ hentered)

end Dealt

namespace Surveys

/-- A search deals with the nodes that it starts with. -/
theorem handles (h : Surveys config tree seen todo trace) :
    ∀ node ∈ todo, Dealt config tree seen trace node := by
  induction h with
  | nil seen => exact fun node hnode => nomatch hnode
  | internal command args _ ih => exact List.forall_mem_cons.mpr ⟨.of_internal command args, ih⟩
  | file script _ ih =>
    exact List.forall_mem_cons.mpr
      ⟨.of_file List.mem_cons_self, fun node hnode => (ih node hnode).after_file script⟩
  | again lies old _ ih => exact List.forall_mem_cons.mpr ⟨.of_lies lies (.inl old), ih⟩
  | enter lies new listed _ ih =>
    refine List.forall_mem_cons.mpr ⟨.of_lies lies (.inr List.mem_cons_self), fun node hnode => ?_⟩
    exact (ih node (List.mem_append_right _ hnode)).after_enter

/-- Every directory that a search enters is that of a node which it reaches, and it deals with the children
of this node. -/
theorem closed (h : Surveys config tree seen todo trace) :
    ∀ location ∈ trace.entered, ∃ node, Lies config tree node location ∧
      ReachedFrom (HasChild config tree) todo node ∧
        ∀ child, HasChild config tree node child → Dealt config tree seen trace child := by
  induction h with
  | nil seen => exact fun location hlocation => nomatch hlocation
  | internal command args _ ih =>
    intro location hlocation
    obtain ⟨node, hlies, hreached, hchildren⟩ := ih location hlocation
    exact ⟨node, hlies, hreached.cons _, hchildren⟩
  | file script _ ih =>
    intro location hlocation
    obtain ⟨node, hlies, hreached, hchildren⟩ := ih location hlocation
    exact ⟨node, hlies, hreached.cons _, fun child hchild => (hchildren child hchild).after_file script⟩
  | again lies old _ ih =>
    intro location hlocation
    obtain ⟨node, hlies, hreached, hchildren⟩ := ih location hlocation
    exact ⟨node, hlies, hreached.cons _, hchildren⟩
  | @enter seen node todo kids trace location lies new listed rest ih =>
    have hkids : ∀ kid, HasChild config tree node kid ↔ kid ∈ kids := fun kid => hasChild_of_listed listed
    refine List.forall_mem_cons.mpr ⟨?_, fun other hother => ?_⟩
    · refine ⟨node, lies, ⟨node, List.mem_cons_self, .refl⟩, fun child hchild => ?_⟩
      exact (rest.handles child (List.mem_append_left _ ((hkids child).mp hchild))).after_enter
    · obtain ⟨below, hlies, hreached, hchildren⟩ := ih other hother
      exact ⟨below, hlies, hreached.below fun kid hkid => (hkids kid).mpr hkid,
        fun child hchild => (hchildren child hchild).after_enter⟩

/-- Every script that a search checks is reached from the nodes that it starts with, by steps from
directories that had not been seen. -/
theorem reached {r : Node → Node → Prop} (h : Surveys config tree seen todo trace)
    (hr : ∀ node location child, Lies config tree node location → location ∉ seen →
      HasChild config tree node child → r node child) :
    ∀ script ∈ trace.scripts, ReachedFrom r todo (.file script) := by
  induction h with
  | nil seen => exact fun script hscript => nomatch hscript
  | internal command args _ ih => exact fun script hscript => (ih hr script hscript).cons _
  | file script _ ih =>
    exact List.forall_mem_cons.mpr
      ⟨⟨.file script, List.mem_cons_self, .refl⟩, fun other hother => (ih hr other hother).cons _⟩
  | again lies old _ ih => exact fun script hscript => (ih hr script hscript).cons _
  | @enter seen node todo kids trace location lies new listed _ ih =>
    intro script hscript
    have hbelow : ∀ node other child, Lies config tree node other → other ∉ location :: seen →
        HasChild config tree node child → r node child := by
      intro node other child hlies hother hchild
      exact hr node other child hlies (fun hmem => hother (.tail _ hmem)) hchild
    have hkids : ∀ kid ∈ kids, r node kid := by
      intro kid hkid
      exact hr node location kid lies new ((hasChild_of_listed listed).mpr hkid)
    exact (ih hbelow script hscript).below hkids

end Surveys

end

end Node

end CommandTree
