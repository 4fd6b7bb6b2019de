import CommandTree.Proofs.Node.Survey

/-!
# Places of scripts

One script may be reached by many paths, when links lead to its directory by several ways.  Its *place* is
the location of the directory and the name of the entry (`Node.Place`); what stands there does not depend on
the path (`Entry.same`).

A search checks no two scripts at one place (`Surveys.apart`), and where it enters a directory it checks every
script in it.  So each place that is reached is checked once, under one of the paths that lead to it
(`Surveys.covers`).
-/

namespace CommandTree

namespace Node

open Filter Relation

variable {config : Config} {tree : FileTree}

/-- A path names an entry of the directory at a location. -/
structure Place (tree : FileTree) (path : Path) (location : List Text) (entry : Text) : Prop where
  directory : ∀ᶠ limit in atTop, (tree.withLimit limit).locate path.parent = .ok location
  name : path.names.getLast? = some entry

/-- A script that has not been read stands at a place and has some content. -/
structure StandsAt (tree : FileTree) (script : ScriptFile) (location : List Text) (entry : Text)
    (content : List UInt8) : Prop where
  place : Place tree script.path location entry
  reads : ∀ᶠ limit in atTop, (tree.withLimit limit).read script.path = .ok content
  unread : script.loaded = none

theorem place_child_iff {path : Path} {location other : List Text} {segment entry : Text}
    (h : tree.LeadsTo path location) :
    Place tree (path.child segment) other entry ↔ other = location ∧ entry = segment := by
  have hparent : (path.child segment).parent = path := by simp [Path.child, Path.parent]
  have hname : (path.child segment).names.getLast? = some segment := by simp [Path.child]
  constructor
  · rintro ⟨hdirectory, hentry⟩
    rw [hparent, ← FileTree.leadsTo_iff_eventually_locate] at hdirectory
    rw [hname] at hentry
    exact ⟨hdirectory.unique h, (Option.some.inj hentry).symm⟩
  · rintro ⟨rfl, rfl⟩
    exact ⟨hparent.symm ▸ h.eventually_locate, hname⟩

/-! ## Entries -/

/-- A segment names a child of a node in the directory at a location. -/
structure Entry (config : Config) (tree : FileTree) (node : Node) (location : List Text) (segment : Text)
    (step : Step) (child : Node) : Prop where
  reachable : isReachable node.names segment = true
  found : ∃ directory, node.directory? config = some directory ∧ tree.LeadsTo directory location ∧
    Tells tree directory segment step ∧
      child = step.nodeAt (node.names ++ [segment]) (directory.child segment)

/-- A child of a known node is an internal command or named by a segment. -/
theorem Known.hasChild_iff_entry {node child : Node} {location : List Text} (h : Known config tree node)
    (hlies : Lies config tree node location) :
    HasChild config tree node child ↔
      child ∈ node.internals ∨ ∃ segment step, Entry config tree node location segment step child := by
  obtain ⟨directory, hdirectory, hleads, -⟩ := hlies
  rw [h.hasChild_iff hdirectory]
  refine or_congr_right ⟨?_, ?_⟩
  · rintro ⟨segment, step, hreachable, htells, hchild⟩
    exact ⟨segment, step, hreachable, directory, hdirectory, hleads, htells, hchild⟩
  · rintro ⟨segment, step, hreachable, directory', hdirectory', hleads', htells, hchild⟩
    rw [hdirectory] at hdirectory'
    cases hdirectory'
    exact ⟨segment, step, hreachable, htells, hchild⟩

namespace Entry

variable {node other child twin : Node} {location : List Text} {segment : Text} {step : Step}
  {script : ScriptFile}

theorem isFound (h : Entry config tree node location segment step child) : child.IsFound := by
  obtain ⟨directory, -, -, -, rfl⟩ := h.found
  exact step.isFound_nodeAt _ _

theorem name_eq (h : Entry config tree node location segment step child) : child.name config = segment := by
  obtain ⟨directory, -, -, -, rfl⟩ := h.found
  exact name_of_names config (step.names_nodeAt _ _)

/-- A segment that names a child of one node names a child of every other node in the same directory. -/
theorem exists_twin (h : Entry config tree node location segment step child)
    (hother : Lies config tree other location) (hreachable : isReachable other.names segment = true) :
    ∃ twin, Entry config tree other location segment step twin := by
  obtain ⟨directory, -, hleads, htells, -⟩ := h.found
  obtain ⟨directory', hdirectory', hleads', -⟩ := hother
  exact ⟨_, hreachable, directory', hdirectory', hleads', (Tells.congr hleads hleads').mp htells, rfl⟩

theorem step_eq_script (h : Entry config tree node location segment step (.file script)) :
    step = .script := by
  obtain ⟨directory, -, -, -, hscript⟩ := h.found
  cases step with
  | directory => cases hscript
  | script => rfl

/-- A script that is a child stands at its place. -/
theorem exists_standsAt (h : Entry config tree node location segment step (.file script)) :
    ∃ content, StandsAt tree script location segment content := by
  cases h.step_eq_script
  obtain ⟨directory, -, hleads, ⟨-, found, hfound, hstep⟩, hscript⟩ := h.found
  cases hscript
  cases found with
  | directory entries => cases hstep
  | link target => exact absurd rfl (hfound.ne_link target)
  | file mode content =>
    exact ⟨content, (place_child_iff hleads).mpr ⟨rfl, rfl⟩, FileTree.eventually_read_iff.mpr ⟨mode, hfound⟩, rfl⟩

/-- What a segment names does not depend on the path by which the directory was reached. -/
theorem same {other : Node} {step' : Step} (h : Entry config tree node location segment step child)
    (htwin : Entry config tree other location segment step' twin) :
    (∀ below, Lies config tree child below → Lies config tree twin below) ∧
      ∀ script content, child = .file script → StandsAt tree script location segment content →
        ∃ script', twin = .file script' ∧ StandsAt tree script' location segment content := by
  obtain ⟨directory, -, hleads, htells, rfl⟩ := h.found
  obtain ⟨directory', -, hleads', htells', rfl⟩ := htwin.found
  obtain rfl : step = step' := ((Tells.congr hleads hleads').mp htells).unique htells'
  cases step with
  | directory =>
    refine ⟨?_, fun script content hscript => nomatch hscript⟩
    rintro below ⟨path, hpath, hbelow, hentries⟩
    cases hpath
    exact ⟨_, rfl, (hleads.child_iff hleads').mp hbelow, hentries⟩
  | script =>
    refine ⟨fun below hbelow => ?_, ?_⟩
    · obtain ⟨path, hpath, -⟩ := hbelow
      cases hpath
    · rintro script content ⟨⟩ ⟨-, hreads, -⟩
      refine ⟨_, rfl, (place_child_iff hleads').mpr ⟨rfl, rfl⟩, ?_, rfl⟩
      obtain ⟨mode, hfound⟩ := FileTree.eventually_read_iff.mp hreads
      exact FileTree.eventually_read_iff.mpr ⟨mode, (FileTree.Finds.child_iff hleads hleads').mp hfound⟩

theorem place_iff {other : List Text} {entry : Text}
    (h : Entry config tree node location segment step (.file script)) :
    Place tree script.path other entry ↔ other = location ∧ entry = segment := by
  cases h.step_eq_script
  obtain ⟨directory, -, hleads, -, hscript⟩ := h.found
  cases hscript
  exact place_child_iff hleads

end Entry

theorem IsFound.not_mem_internals {node child : Node} (h : child.IsFound) : child ∉ node.internals := by
  cases h <;> cases node <;> simp [internals]

/-- A script among the children of a known node is named by a segment. -/
theorem Known.exists_entry {node : Node} {script : ScriptFile} {location : List Text}
    (h : Known config tree node) (hlies : Lies config tree node location)
    (hchild : HasChild config tree node (.file script)) :
    ∃ segment step, Entry config tree node location segment step (.file script) :=
  ((h.hasChild_iff_entry hlies).mp hchild).resolve_left (IsFound.file script).not_mem_internals

/-! ## No place is checked twice -/

/-- Two scripts do not stand at one place. -/
def Apart (tree : FileTree) (a b : ScriptFile) : Prop :=
  ∀ location entry, Place tree a.path location entry → ¬Place tree b.path location entry

/-- The script that a node is. -/
def script? : Node → Option ScriptFile
  | .file script => some script
  | .topLevel | .internal _ _ | .directory _ _ => none

theorem script?_eq_some_iff {node : Node} {script : ScriptFile} :
    node.script? = some script ↔ node = .file script := by
  cases node <;> simp [script?]

/-- The scripts among some nodes. -/
def scriptsIn (nodes : List Node) : List ScriptFile :=
  nodes.filterMap script?

theorem mem_scriptsIn {nodes : List Node} {script : ScriptFile} :
    script ∈ scriptsIn nodes ↔ Node.file script ∈ nodes := by
  simp [scriptsIn, List.mem_filterMap, script?_eq_some_iff]

theorem scriptsIn_cons_of_lies {node : Node} {location : List Text} (h : Lies config tree node location)
    (todo : List Node) : scriptsIn (node :: todo) = scriptsIn todo := by
  obtain ⟨directory, hdirectory, -⟩ := h
  cases node with
  | topLevel => rfl
  | directory names path => rfl
  | internal command args => cases hdirectory
  | file script => cases hdirectory

/-- The children of a node that were found have different names. -/
theorem Known.pairwise_kids {node : Node} {kids : List Node} {location : List Text}
    (h : Known config tree node) (hlies : Lies config tree node location)
    (listed : ∀ᶠ limit in atTop, node.children config (tree.withLimit limit) = kids) :
    kids.Pairwise fun a b => a.IsFound → b.IsFound → a.name config ≠ b.name config := by
  obtain ⟨directory, hdirectory, -⟩ := hlies
  obtain ⟨limit, hnode, hkids⟩ := (h.and listed).exists
  rw [← hkids, children_eq_append hdirectory, List.pairwise_append]
  refine ⟨?_, ?_, ?_⟩
  · exact (pairwise_childrenIn hnode hdirectory).imp fun hlt _ _ hname => by simp [hname] at hlt
  · exact List.pairwise_of_forall_mem_list fun a ha b hb hfound => absurd ha hfound.not_mem_internals
  · exact fun a ha b hb _ hfound => absurd hb hfound.not_mem_internals

/-- The scripts among the children of a known node stand at different places of its directory. -/
theorem Known.apart_kids {node : Node} {kids : List Node} {location : List Text}
    (h : Known config tree node) (hlies : Lies config tree node location)
    (listed : ∀ᶠ limit in atTop, node.children config (tree.withLimit limit) = kids) :
    (scriptsIn kids).Pairwise (Apart tree) ∧
      ∀ script ∈ scriptsIn kids, ∀ other entry, Place tree script.path other entry → other = location := by
  have hentry : ∀ script, Node.file script ∈ kids →
      ∃ segment step, Entry config tree node location segment step (.file script) := fun script hscript =>
    h.exists_entry hlies ((hasChild_of_listed listed).mpr hscript)
  constructor
  · rw [scriptsIn, List.pairwise_filterMap]
    refine (h.pairwise_kids hlies listed).imp_of_mem ?_
    intro a b ha hb hne script hscript twin htwin
    obtain rfl := script?_eq_some_iff.mp hscript
    obtain rfl := script?_eq_some_iff.mp htwin
    obtain ⟨segment, step, hfirst⟩ := hentry script ha
    obtain ⟨segment', step', hsecond⟩ := hentry twin hb
    have hdifferent : segment ≠ segment' := by
      rw [← hfirst.name_eq, ← hsecond.name_eq]
      exact hne (.file script) (.file twin)
    intro other entry hplace hplace'
    obtain ⟨-, rfl⟩ := hfirst.place_iff.mp hplace
    exact hdifferent (hsecond.place_iff.mp hplace').2
  · intro script hscript other entry hplace
    obtain ⟨segment, step, hentry⟩ := hentry script (mem_scriptsIn.mp hscript)
    exact (hentry.place_iff.mp hplace).1

namespace Surveys

variable {seen : List (List Text)} {todo : List Node} {trace : Survey}

/-- A search checks no two scripts at one place: those that it starts with stand in directories that have
been seen, and every other in a directory that it enters. -/
theorem apart (h : Surveys config tree seen todo trace)
    (hknown : ∀ node ∈ todo, Known config tree node) (hapart : (scriptsIn todo).Pairwise (Apart tree))
    (hplaces : ∀ script ∈ scriptsIn todo, ∀ location entry, Place tree script.path location entry →
      location ∈ seen) :
    trace.scripts.Pairwise (Apart tree) ∧ ∀ script ∈ trace.scripts, script ∈ scriptsIn todo ∨
      ∀ location entry, Place tree script.path location entry → location ∈ trace.entered := by
  induction h with
  | nil seen => exact ⟨.nil, fun script hscript => nomatch hscript⟩
  | internal command args _ ih =>
    exact ih (List.forall_mem_cons.mp hknown).2 hapart hplaces
  | again lies old _ ih =>
    rw [scriptsIn_cons_of_lies lies] at hapart hplaces ⊢
    exact ih (List.forall_mem_cons.mp hknown).2 hapart hplaces
  | @file seen todo trace script rest ih =>
    obtain ⟨hfirst, hothers⟩ := List.pairwise_cons.mp hapart
    obtain ⟨hplace, hplaces⟩ := List.forall_mem_cons.mp hplaces
    obtain ⟨hpairwise, hwhere⟩ := ih (List.forall_mem_cons.mp hknown).2 hothers hplaces
    refine ⟨List.pairwise_cons.mpr ⟨fun other hother => ?_, hpairwise⟩, fun other hother => ?_⟩
    · rcases hwhere other hother with htodo | hentered
      · exact hfirst other htodo
      · intro location entry hscript hsame
        exact rest.fresh.2 location (hentered location entry hsame) (hplace location entry hscript)
    · rcases List.mem_cons.mp hother with rfl | hother
      · exact .inl List.mem_cons_self
      · exact (hwhere other hother).imp_left (List.mem_cons_of_mem _)
  | @enter seen node todo kids trace location lies new listed rest ih =>
    rw [scriptsIn_cons_of_lies lies] at hapart hplaces ⊢
    obtain ⟨hnode, htodo⟩ := List.forall_mem_cons.mp hknown
    obtain ⟨hkids, hbelow⟩ := hnode.apart_kids lies listed
    have hmore : scriptsIn (kids ++ todo) = scriptsIn kids ++ scriptsIn todo := List.filterMap_append
    -- the children stand in the directory that is entered, the others in directories seen before
    have hapart' : (scriptsIn (kids ++ todo)).Pairwise (Apart tree) := by
      rw [hmore, List.pairwise_append]
      refine ⟨hkids, hapart, ?_⟩
      intro script hscript other hother place entry hplace hsame
      obtain rfl := hbelow script hscript place entry hplace
      exact new (hplaces other hother _ entry hsame)
    have hplaces' : ∀ script ∈ scriptsIn (kids ++ todo), ∀ place entry,
        Place tree script.path place entry → place ∈ location :: seen := by
      intro script hscript place entry hplace
      rcases List.mem_append.mp (hmore ▸ hscript) with hkid | hscript
      · exact hbelow script hkid place entry hplace ▸ List.mem_cons_self
      · exact .tail _ (hplaces script hscript place entry hplace)
    obtain ⟨hpairwise, hwhere⟩ := ih (hnode.forall_append listed htodo) hapart' hplaces'
    refine ⟨hpairwise, fun script hscript => ?_⟩
    rcases hwhere script hscript with hmem | hentered
    · rcases List.mem_append.mp (hmore ▸ hmem) with hkid | hmem
      · refine .inr fun place entry hplace => ?_
        exact hbelow script hkid place entry hplace ▸ List.mem_cons_self
      · exact .inl hmem
    · exact .inr fun place entry hplace => .tail _ (hentered place entry hplace)

end Surveys

/-! ## Every place is checked -/

theorem mem_internals {node child : Node} (h : child ∈ node.internals) :
    ∃ command, child = .internal command [] := by
  cases node with
  | topLevel =>
    rcases List.mem_pair.mp h with rfl | rfl
    · exact ⟨_, rfl⟩
    · exact ⟨_, rfl⟩
  | internal command args => cases h
  | directory names path => cases h
  | file script => cases h

theorem HasChild.exists_lies {node child : Node} (hchild : HasChild config tree node child)
    (h : Known config tree node) : ∃ location, Lies config tree node location := by
  cases hdirectory : node.directory? config with
  | none =>
    obtain ⟨limit, hlimit⟩ := hchild.exists
    rw [children_eq_nil hdirectory] at hlimit
    cases hlimit
  | some directory => exact h.exists_lies hdirectory

namespace Known

variable {start node : Node}

theorem of_reach (h : Known config tree start) (hreach : ReflTransGen (HasChild config tree) start node) :
    Known config tree node := by
  induction hreach with
  | refl => exact h
  | tail _ hchild ih => exact ih.of_hasChild hchild

/-- Only the top level is found by no word. -/
theorem eq_topLevel (h : Known config tree node) (hnames : node.names = []) : node = .topLevel := by
  obtain ⟨limit, hlimit⟩ := h.exists
  rw [hnames, List.map_nil, resolve] at hlimit
  split at hlimit
  · cases hlimit
  · cases hlimit
  · cases hlimit
    rfl

/-- The top level is no child, so that a search reaches it only if it starts there. -/
theorem eq_start (h : Known config tree start)
    (hreach : ReflTransGen (HasChild config tree) start .topLevel) : start = .topLevel := by
  rcases hreach.cases_tail with hsame | ⟨node, hnode, hchild⟩
  · exact hsame.symm
  · have hknown : Known config tree node := h.of_reach hnode
    obtain ⟨location, hlies⟩ := hchild.exists_lies hknown
    rcases (hknown.hasChild_iff_entry hlies).mp hchild with hinternal | ⟨segment, step, hentry⟩
    · obtain ⟨command, hcommand⟩ := mem_internals hinternal
      cases hcommand
    · cases hentry.isFound

end Known

/-- A child of a node in the directory of all commands has the name of an internal command, which leads
elsewhere from the top level. -/
def Shadowed (config : Config) (tree : FileTree) (node child : Node) : Prop :=
  (∃ location, Lies config tree .topLevel location ∧ Lies config tree node location) ∧
    (Internal.ofWord? (child.name config)).isSome

/-- A step to a child; in a search from the top level, not to one that is shadowed. -/
def OpenStep (config : Config) (tree : FileTree) (start node child : Node) : Prop :=
  HasChild config tree node child ∧ (start = .topLevel → ¬Shadowed config tree node child)

namespace Surveys

variable {start node : Node} {trace : Survey}

/-- A search from a known node enters the directory of every node that open steps lead to, and checks a
script at the place of every script that they lead to. -/
theorem covers (h : Surveys config tree [] [start] trace) (hknown : Known config tree start)
    (hreach : ReflTransGen (OpenStep config tree start) start node) :
    Known config tree node ∧ (∀ location, Lies config tree node location → location ∈ trace.entered) ∧
      ∀ script location entry content, node = .file script → StandsAt tree script location entry content →
        ∃ twin ∈ trace.scripts, StandsAt tree twin location entry content := by
  have hentered : ∀ {node}, Dealt config tree [] trace node → ∀ location, Lies config tree node location →
      location ∈ trace.entered := fun hdealt location hlies =>
    (hdealt.directory location hlies).resolve_left List.not_mem_nil
  induction hreach with
  | refl =>
    have hdealt : Dealt config tree [] trace start := h.handles start List.mem_cons_self
    refine ⟨hknown, hentered hdealt, ?_⟩
    intro script location entry content hscript hstands
    exact ⟨script, hdealt.script script hscript, hstands⟩
  | @tail node child hreach hstep ih =>
    obtain ⟨hnode, hlocations, -⟩ := ih
    obtain ⟨hchild, hopen⟩ := hstep
    obtain ⟨location, hlies⟩ := hchild.exists_lies hnode
    refine ⟨hnode.of_hasChild hchild, ?_⟩
    rcases (hnode.hasChild_iff_entry hlies).mp hchild with hinternal | ⟨segment, step, hentry⟩
    · obtain ⟨command, rfl⟩ := mem_internals hinternal
      refine ⟨?_, fun script place entry content hscript => nomatch hscript⟩
      rintro below ⟨directory, hdirectory, -⟩
      cases hdirectory
    -- the directory was entered as that of another node perhaps, which has a child of the same name
    · obtain ⟨other, hother, ⟨first, hfirst, hsteps⟩, hchildren⟩ := h.closed location (hlocations location hlies)
      cases List.mem_singleton.mp hfirst
      have hknown' : Known config tree other := hknown.of_reach hsteps
      have hreachable : isReachable other.names segment = true := by
        by_cases hnames : other.names = []
        · obtain rfl := hknown'.eq_topLevel hnames
          have hshadowed : ¬Shadowed config tree node child := hopen (hknown.eq_start hsteps)
          have hword : ¬(Internal.ofWord? (child.name config)).isSome := fun hsome =>
            hshadowed ⟨⟨location, hother, hlies⟩, hsome⟩
          rw [hentry.name_eq] at hword
          simp [isReachable, hword]
        · simp [isReachable, hnames]
      obtain ⟨twin, htwin⟩ := hentry.exists_twin hother hreachable
      have hdealt : Dealt config tree [] trace twin :=
        hchildren twin ((hknown'.hasChild_iff_entry hother).mpr (.inr ⟨segment, step, htwin⟩))
      obtain ⟨hbelow, hscripts⟩ := hentry.same htwin
      refine ⟨fun below hlies => hentered hdealt below (hbelow below hlies), ?_⟩
      rintro script place entry content rfl hstands
      obtain ⟨rfl, rfl⟩ := hentry.place_iff.mp hstands.place
      obtain ⟨script', rfl, hstands'⟩ := hscripts script content rfl hstands
      exact ⟨script', hdealt.script script' rfl, hstands'⟩

/-- A search checks no script to which open steps do not lead. -/
theorem reached_openly (h : Surveys config tree [] [start] trace) (hknown : Known config tree start) :
    ∀ script ∈ trace.scripts, ReflTransGen (OpenStep config tree start) start (.file script) := by
  intro script hscript
  by_cases hstart : start = .topLevel
  · subst hstart
    cases h with
    | again lies old rest => cases old
    | @enter _ _ _ kids trace location lies new listed rest =>
      -- below the top level no other node of its directory is entered, and no other step is shadowed
      have hsteps : ∀ node place child, Lies config tree node place → place ∉ [location] →
          HasChild config tree node child → OpenStep config tree .topLevel node child := by
        rintro node place child hnode hplace hchild
        refine ⟨hchild, fun _ hshadowed => ?_⟩
        obtain ⟨⟨same, htop, hsame⟩, -⟩ := hshadowed
        rw [hnode.unique hsame, htop.unique lies] at hplace
        exact hplace List.mem_cons_self
      obtain ⟨first, hfirst, hreach⟩ := rest.reached hsteps script hscript
      have hchild : HasChild config tree .topLevel first :=
        (hasChild_of_listed listed).mpr (List.append_nil kids ▸ hfirst)
      rcases (hknown.hasChild_iff_entry lies).mp hchild with hinternal | ⟨segment, step, hentry⟩
      · obtain ⟨command, rfl⟩ := mem_internals hinternal
        rcases hreach.cases_head with hsame | ⟨below, hbelow, -⟩
        · cases hsame
        · obtain ⟨limit, hlimit⟩ := hbelow.1.exists
          cases hlimit
      · have hword : (Internal.ofWord? segment).isSome = false := by
          simpa [isReachable, names] using hentry.reachable
        refine .head ⟨hchild, fun _ hshadowed => ?_⟩ hreach
        have hsome := hshadowed.2
        rw [hentry.name_eq, hword] at hsome
        cases hsome
  · have hsteps : ∀ node place child, Lies config tree node place → place ∉ [] →
        HasChild config tree node child → OpenStep config tree start node child :=
      fun node place child _ _ hchild => ⟨hchild, fun hsame => absurd hsame hstart⟩
    obtain ⟨first, hfirst, hreach⟩ := h.reached hsteps script hscript
    cases List.mem_singleton.mp hfirst
    exact hreach

end Surveys

end Node

end CommandTree
