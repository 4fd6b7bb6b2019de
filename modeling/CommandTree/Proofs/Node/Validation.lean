import CommandTree.Proofs.Node.Places

/-!
# Checking all scripts below a node

`Node.validate` returns what is wrong with the annotations of the scripts below a node.  Directories may be
reached by several paths, or from themselves, and each is entered once by its location; so a script is
checked once by its place, under one of the paths that lead there.

At the top level the words `help`, `commands` and `completions` lead to internal commands, and the entries of
these names are not listed.  Where a link leads back to the directory of all commands, the same entries can be
reached through it, but a search from the top level has entered this directory already: a script to which all
ways lead through such an entry is not checked (`not_validates_unshadowed`).  Every other script is
(`validate_contract`).
-/

namespace CommandTree

namespace Node

open Filter Relation

variable {config : Config} {tree : FileTree}

/-! ## Problems of a script -/

/-- What is wrong with the annotations of a script at a path that has some content. -/
def problemsIn (path : Path) (content : List UInt8) : List Problem :=
  match Block.read content with
  | .error line => [(path, .undecodableLine path line)]
  | .ok lines => (Script.problems ⟨path, Docs.ofLines lines⟩).map fun cause => (path, cause)

theorem fst_of_mem_problemsIn {path : Path} {content : List UInt8} {problem : Problem}
    (h : problem ∈ problemsIn path content) : problem.1 = path := by
  unfold problemsIn at h
  split at h
  · rw [List.mem_singleton.mp h]
  · obtain ⟨cause, -, rfl⟩ := List.mem_map.mp h
    rfl

/-- Nothing is wrong with a script whose comment block is UTF-8, whose usage line can be read, and whose
option lines can. -/
theorem problemsIn_eq_nil_iff {path : Path} {content : List UInt8} :
    problemsIn path content = [] ↔
      ∃ lines, Block.read content = .ok lines ∧
        (∀ line ∈ (Docs.ofLines lines).usage, ∃ usage, Usage.parse? line = .ok usage) ∧
          OptionLine.skipped (Docs.ofLines lines).options = [] := by
  unfold problemsIn
  cases Block.read content with
  | error line => simp
  | ok lines =>
    have husage : (Script.usageCause ⟨path, Docs.ofLines lines⟩).toList = [] ↔
        ∀ line ∈ (Docs.ofLines lines).usage, ∃ usage, Usage.parse? line = .ok usage := by
      cases hline : (Docs.ofLines lines).usage with
      | none => simp [Script.usageCause, hline]
      | some line => cases hparse : Usage.parse? line <;> simp [Script.usageCause, hline, hparse]
    simp only [Script.problems, List.map_eq_nil_iff, List.append_eq_nil_iff, husage, Script.optionCauses,
      Script.skipped]
    constructor
    · exact fun h => ⟨lines, rfl, h⟩
    · rintro ⟨lines, ⟨⟩, h⟩
      exact h

theorem problemsOf_eq {files : FileTree} {script : ScriptFile} {content : List UInt8}
    (hread : files.read script.path = .ok content) (hunread : script.loaded = none) :
    problemsOf files script = .ok (problemsIn script.path content) := by
  unfold problemsOf ScriptFile.read Script.load Docs.ofFile Docs.blockAt problemsIn
  simp only [hunread, hread]
  cases Block.read content <;> rfl

theorem mapM_eq_ok_map {α β : Type} {f : α → Except Failure β} {g : α → β} {l : List α}
    (h : ∀ a ∈ l, f a = .ok (g a)) : l.mapM f = .ok (l.map g) := by
  induction l with
  | nil => rfl
  | cons a l ih =>
    obtain ⟨hfirst, hrest⟩ := List.forall_mem_cons.mp h
    rw [List.mapM_cons, hfirst, ih hrest]
    rfl

/-! ## Results of a search -/

theorem StandsAt.content_unique {script : ScriptFile} {location location' : List Text} {entry entry' : Text}
    {content content' : List UInt8} (h : StandsAt tree script location entry content)
    (h' : StandsAt tree script location' entry' content') : content = content' := by
  obtain ⟨limit, hread, hread'⟩ := (h.reads.and h'.reads).exists
  rw [hread] at hread'
  exact Except.ok.inj hread'

/-- A script below a known node stands at a place. -/
theorem Known.exists_standsAt {start : Node} {script : ScriptFile} (h : Known config tree start)
    (hstart : start ≠ .file script) (hreach : ReflTransGen (HasChild config tree) start (.file script)) :
    ∃ location entry content, StandsAt tree script location entry content := by
  rcases hreach.cases_tail with hsame | ⟨node, hnode, hchild⟩
  · exact absurd hsame.symm hstart
  · have hknown : Known config tree node := h.of_reach hnode
    obtain ⟨location, hlies⟩ := hchild.exists_lies hknown
    obtain ⟨segment, step, hentry⟩ := hknown.exists_entry hlies hchild
    obtain ⟨content, hstands⟩ := hentry.exists_standsAt
    exact ⟨location, segment, content, hstands⟩

/-- The result of a search without a limit on links: the problems of the scripts that it passes, in
order. -/
theorem Surveys.eventually_validate {node : Node} {trace : Survey} {contents : ScriptFile → List UInt8}
    (h : Surveys config tree [] [node] trace)
    (hcontents : ∀ script ∈ trace.scripts, ∃ location entry, StandsAt tree script location entry (contents script)) :
    ∀ᶠ limit in atTop, node.validate config (tree.withLimit limit) =
      .ok (trace.scripts.flatMap fun script => problemsIn script.path (contents script)) := by
  have hreads : ∀ᶠ limit in atTop, ∀ script ∈ trace.scripts,
      problemsOf (tree.withLimit limit) script = .ok (problemsIn script.path (contents script)) := by
    refine (eventually_all_finite trace.scripts.finite_toSet).mpr fun script hscript => ?_
    obtain ⟨location, entry, hstands⟩ := hcontents script hscript
    filter_upwards [hstands.reads] with limit hread
    exact problemsOf_eq hread hstands.unread
  filter_upwards [h.eventually_survey, hreads] with limit hsurvey hproblems
  rw [validate, search_eq_survey, hsurvey, mapM_eq_ok_map hproblems, List.flatMap_def]
  rfl

/-- Of the scripts at different places, the problems of one are in one piece, and no other problem is that
of a script at its place. -/
theorem exists_piece_of_apart {scripts : List ScriptFile} {contents : ScriptFile → List UInt8}
    {script : ScriptFile} {location : List Text} {entry : Text} (hapart : scripts.Pairwise (Apart tree))
    (hscript : script ∈ scripts) (hplace : Place tree script.path location entry) :
    ∃ before after,
      (scripts.flatMap fun script => problemsIn script.path (contents script)) =
        before ++ problemsIn script.path (contents script) ++ after ∧
      ∀ problem ∈ before ++ after, ¬Place tree problem.1 location entry := by
  obtain ⟨before, after, rfl⟩ := List.append_of_mem hscript
  obtain ⟨-, hafter, hbefore⟩ := List.pairwise_append.mp hapart
  have hothers : ∀ other ∈ before ++ after, ¬Place tree other.path location entry := by
    intro other hother hsame
    rcases List.mem_append.mp hother with hmem | hmem
    · exact hbefore other hmem script List.mem_cons_self location entry hsame hplace
    · exact (List.pairwise_cons.mp hafter).1 other hmem location entry hplace hsame
  refine ⟨before.flatMap fun script => problemsIn script.path (contents script),
    after.flatMap fun script => problemsIn script.path (contents script), by simp, ?_⟩
  intro problem hproblem
  rw [← List.flatMap_append] at hproblem
  obtain ⟨other, hother, hmem⟩ := List.mem_flatMap.mp hproblem
  rw [fst_of_mem_problemsIn hmem]
  exact hothers other hother

/-! ## The contract -/

/-- What it means that the check of all scripts below a node is right, without a limit on links.  It ends
and enters no directory twice.  Of the scripts at the place of a script that is covered, one is checked and
no other; and all that is returned is wrong with a script that can be reached. -/
structure Validates (config : Config) (tree : FileTree) (node : Node) (Covered Reached : ScriptFile → Prop)
    (trace : Survey) (problems : List Problem) : Prop where
  returns : ∀ᶠ limit in atTop, node.validate config (tree.withLimit limit) = .ok problems
  passes : ∀ᶠ limit in atTop, survey config (tree.withLimit limit) [] [node] = trace
  entersOnce : trace.entered.Nodup
  complete : ∀ script, Covered script → ∃ location entry content,
    StandsAt tree script location entry content ∧ ∃ twin, Reached twin ∧
      StandsAt tree twin location entry content ∧ ∃ before after,
        problems = before ++ problemsIn twin.path content ++ after ∧
          ∀ problem ∈ before ++ after, ¬Place tree problem.1 location entry
  sound : ∀ problem ∈ problems, ∃ script location entry content, Reached script ∧
    StandsAt tree script location entry content ∧ problem ∈ problemsIn script.path content

/-- A script is reached from a node by steps to children. -/
def Below (config : Config) (tree : FileTree) (node : Node) (script : ScriptFile) : Prop :=
  ReflTransGen (HasChild config tree) node (.file script)

/-- A script is reached from a node by steps to children of which, if the node is the top level, none leads
out of the directory of all commands under the name of an internal command. -/
def OpenlyBelow (config : Config) (tree : FileTree) (node : Node) (script : ScriptFile) : Prop :=
  ReflTransGen (OpenStep config tree node) node (.file script)

theorem OpenlyBelow.below {node : Node} {script : ScriptFile} (h : OpenlyBelow config tree node script) :
    Below config tree node script :=
  ReflTransGen.mono (fun _ _ hstep => hstep.1) _ _ h

/-- All scripts below a node are checked to which some way leads that is open.  In a search from the top
level a way is not open if it leaves the directory of all commands under the name of an internal command. -/
theorem validate_contract {words : List Datum} {node : Node}
    (hnode : ∀ᶠ limit in atTop, resolve config (tree.withLimit limit) words = .ok node)
    (hgroup : (node.directory? config).isSome) :
    ∃ trace problems, Validates config tree node (OpenlyBelow config tree node) (OpenlyBelow config tree node)
      trace problems := by
  obtain ⟨directory, hdirectory⟩ := Option.isSome_iff_exists.mp hgroup
  have hknown : Known config tree node := by
    filter_upwards [hnode] with limit hlimit
    rw [← (find_eq_group hlimit hdirectory).1]
    exact hlimit
  have hnotFile : ∀ script, node ≠ .file script := by
    rintro script rfl
    cases hdirectory
  obtain ⟨location, hlies⟩ := hknown.exists_lies hdirectory
  obtain ⟨trace, htrace⟩ := exists_surveys [] [node] (List.forall_mem_singleton.mpr hknown)
  have hreached := htrace.reached_openly hknown
  have hstands : ∀ script, OpenlyBelow config tree node script →
      ∃ location entry content, StandsAt tree script location entry content := fun script hscript =>
    hknown.exists_standsAt (hnotFile script) hscript.below
  obtain ⟨hapart, -⟩ := htrace.apart (List.forall_mem_singleton.mpr hknown)
    (by rw [scriptsIn_cons_of_lies hlies]; exact .nil)
    (by rw [scriptsIn_cons_of_lies hlies]; exact fun script hscript => nomatch hscript)
  have hcontent : ∀ script ∈ trace.scripts, ∃ content location entry,
      StandsAt tree script location entry content := by
    intro script hscript
    obtain ⟨location, entry, content, hscript'⟩ := hstands script (hreached script hscript)
    exact ⟨content, location, entry, hscript'⟩
  choose! contents hcontents using hcontent
  refine ⟨trace, _, htrace.eventually_validate hcontents, htrace.eventually_survey, htrace.fresh.1, ?_, ?_⟩
  · intro script hscript
    obtain ⟨location, entry, content, hscript'⟩ := hstands script hscript
    obtain ⟨-, -, hcovers⟩ := htrace.covers hknown hscript
    obtain ⟨twin, htwin, htwin'⟩ := hcovers script location entry content rfl hscript'
    refine ⟨location, entry, content, hscript', twin, hreached twin htwin, htwin', ?_⟩
    obtain ⟨_, _, hsame⟩ := hcontents twin htwin
    rw [htwin'.content_unique hsame]
    exact exists_piece_of_apart hapart htwin htwin'.place
  · intro problem hproblem
    obtain ⟨script, hscript, hmem⟩ := List.mem_flatMap.mp hproblem
    obtain ⟨location, entry, hstandsAt⟩ := hcontents script hscript
    exact ⟨script, location, entry, contents script, hreached script hscript, hstandsAt, hmem⟩

/-! ## A directory that is left under the name of an internal command -/

/-- A tree with a script that cannot be read in a directory `help`, and a link to the directory of all
commands. -/
def loopedFiles : FileTree :=
  (FileTree.empty.write ⟨.root, ["cmd", "libexec", "help", "copy"]⟩ 0o755 [0x23, 0xFF, 0x0A]).makeLink
    ⟨.root, ["cmd", "libexec", "loop"]⟩ "."

/-- The directory of all commands, by the link to it. -/
def loopNode : Node :=
  .directory ["loop"] ⟨.root, ["cmd", "libexec", "loop"]⟩

/-- The directory `help`, through the link. -/
def loopHelpNode : Node :=
  .directory ["loop", "help"] ⟨.root, ["cmd", "libexec", "loop", "help"]⟩

/-- The script, through the link. -/
def loopedScript : ScriptFile :=
  ⟨["loop", "help", "copy"], ⟨.root, ["cmd", "libexec", "loop", "help", "copy"]⟩, [], none⟩

/-- What holds where two links and more may be passed through holds from some limit on. -/
theorem eventually_of_two_links {p : Nat → Prop} (h : ∀ more, p (more + 2)) : ∀ᶠ limit in atTop, p limit := by
  refine eventually_atTop.mpr ⟨2, fun limit hlimit => ?_⟩
  obtain ⟨more, rfl⟩ := Nat.exists_eq_add_of_le' hlimit
  exact h more

theorem validate_contract_looped :
    ∃ trace problems, Validates sampleConfig loopedFiles loopNode
      (OpenlyBelow sampleConfig loopedFiles loopNode) (OpenlyBelow sampleConfig loopedFiles loopNode)
        trace problems := by
  have hnode : ∀ᶠ limit in atTop,
      resolve sampleConfig (loopedFiles.withLimit limit) [.text "loop"] = .ok loopNode :=
    eventually_of_two_links fun more => by cbv
  exact validate_contract hnode rfl

/-- From the top level the directory of all commands is entered once, without the entry `help`, and nothing
is found. -/
theorem validate_looped (more : Nat) :
    topLevel.validate sampleConfig (loopedFiles.withLimit (more + 2)) = .ok [] := by
  have htop : topLevel.location? sampleConfig (loopedFiles.withLimit (more + 2)) =
      some [Text.lit "cmd", Text.lit "libexec"] := by cbv
  have hloop : loopNode.location? sampleConfig (loopedFiles.withLimit (more + 2)) =
      some [Text.lit "cmd", Text.lit "libexec"] := by cbv
  have hchildren : topLevel.children sampleConfig (loopedFiles.withLimit (more + 2)) =
      [loopNode, .internal .help [], .internal .commands []] := by cbv
  have hsurvey : (survey sampleConfig (loopedFiles.withLimit (more + 2)) [] [topLevel]).scripts = [] := by
    rw [survey_of_location htop, if_neg List.not_mem_nil, hchildren]
    simp only [List.cons_append, List.nil_append]
    rw [survey_of_location hloop, if_pos List.mem_cons_self, survey, survey, survey]
  rw [validate, search_eq_survey, hsurvey]
  rfl

/-- A script is below a node, and it is not an entry of the directory of all commands with the name of an
internal command. -/
def Unshadowed (config : Config) (tree : FileTree) (node : Node) (script : ScriptFile) : Prop :=
  Below config tree node script ∧ ∀ location entry, Place tree script.path location entry →
    Lies config tree .topLevel location → Internal.ofWord? entry = none

theorem unshadowed_loopedScript : Unshadowed sampleConfig loopedFiles .topLevel loopedScript := by
  have hloop : HasChild sampleConfig loopedFiles .topLevel loopNode := by
    refine eventually_of_two_links fun more => ?_
    have hchildren : topLevel.children sampleConfig (loopedFiles.withLimit (more + 2)) =
        [loopNode, .internal .help [], .internal .commands []] := by cbv
    rw [hchildren]
    exact List.mem_cons_self
  have hhelp : HasChild sampleConfig loopedFiles loopNode loopHelpNode := by
    refine eventually_of_two_links fun more => ?_
    have hchildren : loopNode.children sampleConfig (loopedFiles.withLimit (more + 2)) =
        [loopHelpNode, .directory ["loop", "loop"] ⟨.root, ["cmd", "libexec", "loop", "loop"]⟩] := by cbv
    rw [hchildren]
    exact List.mem_cons_self
  have hscript : HasChild sampleConfig loopedFiles loopHelpNode (.file loopedScript) := by
    refine eventually_of_two_links fun more => ?_
    have hchildren : loopHelpNode.children sampleConfig (loopedFiles.withLimit (more + 2)) =
        [.file loopedScript] := by cbv
    rw [hchildren]
    exact List.mem_cons_self
  refine ⟨.head hloop (.head hhelp (.single hscript)), fun location entry hplace _ => ?_⟩
  cases hplace.name
  decide

/-- Not every script below a node is checked that is no entry of the directory of all commands with the name
of an internal command: from the top level a script is not, to which all ways lead through the entry `help`
of this directory. -/
theorem not_validates_unshadowed :
    ¬∀ (config : Config) (tree : FileTree) (words : List Datum) (node : Node),
      (∀ᶠ limit in atTop, resolve config (tree.withLimit limit) words = .ok node) →
      (node.directory? config).isSome →
      ∃ trace problems, Validates config tree node (Unshadowed config tree node) (Below config tree node)
        trace problems := by
  intro hclaim
  have hnode : ∀ᶠ limit in atTop, resolve sampleConfig (loopedFiles.withLimit limit) [] = .ok .topLevel :=
    eventually_of_two_links fun more => by cbv
  obtain ⟨trace, problems, hvalidates⟩ :=
    hclaim sampleConfig loopedFiles [] .topLevel hnode rfl
  have hproblems : problems = [] := by
    have hlooped : ∀ᶠ limit in atTop,
        topLevel.validate sampleConfig (loopedFiles.withLimit limit) = .ok [] :=
      eventually_of_two_links fun more => validate_looped more
    obtain ⟨limit, hreturns, hnothing⟩ := (hvalidates.returns.and hlooped).exists
    rw [hnothing] at hreturns
    exact (Except.ok.inj hreturns).symm
  obtain ⟨location, entry, content, hscript, twin, -, -, before, after, hpieces, -⟩ :=
    hvalidates.complete loopedScript unshadowed_loopedScript
  have hread : ∀ᶠ limit in atTop,
      (loopedFiles.withLimit limit).read loopedScript.path = .ok [0x23, 0xFF, 0x0A] :=
    eventually_of_two_links fun more => by cbv
  obtain ⟨limit, hcontent, hbytes⟩ := (hscript.reads.and hread).exists
  rw [hbytes] at hcontent
  cases hcontent
  have hnone : problemsIn twin.path [0x23, 0xFF, 0x0A] = [] := by
    have hfront := (List.append_eq_nil_iff.mp (hpieces.symm.trans hproblems)).1
    exact (List.append_eq_nil_iff.mp hfront).2
  obtain ⟨lines, hlines, -⟩ := problemsIn_eq_nil_iff.mp hnone
  have herror : Block.read [0x23, 0xFF, 0x0A] = .error 1 := by cbv
  rw [herror] at hlines
  cases hlines

end Node

end CommandTree
