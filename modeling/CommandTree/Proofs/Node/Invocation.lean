import CommandTree.Node.Run
import CommandTree.Proofs.Node.Listing
import CommandTree.Proofs.Script.Compilation
import CommandTree.Proofs.Signature.Assignment
import CommandTree.Proofs.Signature.Serialization

/-!
# Running a script

A script is to be run as a child if its comment block can be read and its words are admitted: there is no
usage line, or the usage line can be read and the words give values that can all be written
(`ScriptFile.Admits`).  Otherwise the words are rejected for one reason (`ScriptFile.Rejects`), and no
child is started.  One of the two always holds, because a usage line that can be read has a signature
(`ScriptFile.admits_or_rejects`).

`Node.Invokes` is the contract of running a script: which child is started, in which environment, how its
end shows, and that nothing is started where anything is wrong.  Nothing looks at the words and variables
of the child before it is passed on to the operating system.  So the contract holds where the child can
be passed on and nowhere else (`Node.invokes_iff`): a word with a zero byte starts nothing, and what is
raised is no fault.
-/

namespace CommandTree

/-! ## Environments -/

namespace Config

variable {config : Config}

/-- Whether an environment is another one with the variables of a script that is run: the root, the cache
directory and the values of its arguments. -/
structure Provides (config : Config) (parent : Environment) (values : Text) (environment : Environment) :
    Prop where
  root : List.lookup (config.variableName "root") environment = some config.root.toText
  cache : List.lookup (config.variableName "cache") environment = some config.cache.toText
  args : List.lookup (config.variableName "args") environment = some values
  others : ∀ name, name ≠ config.variableName "root" → name ≠ config.variableName "cache" →
    name ≠ config.variableName "args" → List.lookup name environment = List.lookup name parent

/-- Whether an environment is another one with the variables that every script has, and further ones. -/
structure Sets (config : Config) (parent : Environment) (extra : List (Text × Text))
    (environment : Environment) : Prop where
  root : List.lookup (config.variableName "root") environment = some config.root.toText
  cache : List.lookup (config.variableName "cache") environment = some config.cache.toText
  further : ∀ suffix value, (suffix, value) ∈ extra →
    List.lookup (config.variableName suffix) environment = some value
  others : ∀ name, name ≠ config.variableName "root" → name ≠ config.variableName "cache" →
    (∀ suffix value, (suffix, value) ∈ extra → name ≠ config.variableName suffix) →
    List.lookup name environment = List.lookup name parent

/-- The variables of a command line have different names for different suffixes. -/
theorem variableName_inj {suffix other : Text} :
    config.variableName suffix = config.variableName other ↔ suffix.toUpper = other.toUpper := by
  simp [variableName]

/-- The suffixes of the variables of a script, with their values. -/
def suffixes (config : Config) (extra : List (Text × Text)) : List (Text × Text) :=
  (Text.lit "root", config.root.toText) :: (Text.lit "cache", config.cache.toText) :: extra

theorem lookup_environment (config : Config) (parent : Environment) (extra : List (Text × Text))
    (name : Text) :
    List.lookup name (config.environment parent extra) =
      (List.lookup name (config.furtherVariables (config.suffixes extra)).reverse).or
        (List.lookup name parent) := by
  have hsplit : config.furtherVariables (config.suffixes extra) =
      config.ownVariables ++ config.furtherVariables extra := rfl
  rw [hsplit, List.reverse_append, List.lookup_append, environment, Assoc.lookup_insertAll,
    Assoc.lookup_insertAll, Option.or_assoc]

/-- Variables whose suffixes differ, also from those of the variables that every script has, are all set. -/
theorem sets_environment (config : Config) (parent : Environment) {extra : List (Text × Text)}
    (hdistinct : ((config.suffixes extra).map fun entry => entry.1.toUpper).Nodup) :
    config.Sets parent extra (config.environment parent extra) := by
  have hkeys : (Assoc.keys (config.furtherVariables (config.suffixes extra)).reverse).Nodup := by
    rw [Assoc.keys, List.map_reverse, List.nodup_reverse, furtherVariables, List.map_map]
    rw [List.Nodup, List.pairwise_map] at hdistinct ⊢
    exact hdistinct.imp fun hne => mt variableName_inj.mp hne
  have hset : ∀ suffix value, (suffix, value) ∈ config.suffixes extra →
      List.lookup (config.variableName suffix) (config.environment parent extra) = some value := by
    intro suffix value hmem
    have hfound : (config.variableName suffix, value) ∈
        (config.furtherVariables (config.suffixes extra)).reverse :=
      List.mem_reverse.mpr (List.mem_map.mpr ⟨_, hmem, rfl⟩)
    rw [lookup_environment, (Assoc.lookup_eq_some_iff_mem hkeys).mpr hfound, Option.some_or]
  refine ⟨hset _ _ (by simp [suffixes]), hset _ _ (by simp [suffixes]),
    fun suffix value hmem => hset suffix value (by simp [suffixes, hmem]), fun name hroot hcache hextra => ?_⟩
  have hother : name ∉ Assoc.keys (config.furtherVariables (config.suffixes extra)).reverse := by
    intro hmem
    obtain ⟨_, hentry, rfl⟩ := List.mem_map.mp hmem
    obtain ⟨⟨suffix, value⟩, hsuffix, rfl⟩ := List.mem_map.mp (List.mem_reverse.mp hentry)
    rcases List.mem_cons.mp hsuffix with h | hsuffix
    · cases h
      exact hroot rfl
    rcases List.mem_cons.mp hsuffix with h | hsuffix
    · cases h
      exact hcache rfl
    · exact hextra suffix value hsuffix rfl
  rw [lookup_environment, Assoc.lookup_eq_none_iff.mpr hother, Option.none_or]

theorem sets_environment_nil (config : Config) (parent : Environment) :
    config.Sets parent [] (config.environment parent []) := by
  have hdistinct : ([Text.lit "root", Text.lit "cache"].map Text.toUpper).Nodup := by decide
  exact config.sets_environment parent hdistinct

theorem provides_environment (config : Config) (parent : Environment) (values : Text) :
    config.Provides parent values (config.environment parent [(Text.lit "args", values)]) := by
  have hdistinct : ([Text.lit "root", Text.lit "cache", Text.lit "args"].map Text.toUpper).Nodup := by decide
  have hsets := @sets_environment config parent [(Text.lit "args", values)] hdistinct
  refine ⟨hsets.root, hsets.cache, hsets.further _ _ List.mem_cons_self, fun name hroot hcache hargs => ?_⟩
  refine hsets.others name hroot hcache fun suffix value hmem => ?_
  cases List.mem_singleton.mp hmem
  exact hargs

end Config

/-! ## How a child ends -/

namespace Child

variable {child : Child} {outcome : Outcome}

/-- What the end of a child that was started, or that the system refused to start, shows as: its exit
code, or a fault. -/
inductive Ends (child : Child) : Outcome → Except Failure Nat → Prop where
  | exited (code : Nat) : child.Ends (.exit code) (.ok code)
  | killed (signal : Nat) (pos : 0 < signal) :
      child.Ends (.exit (-signal)) (.error (.cause (.mishap child.command (.killed signal))))
  | interrupted : child.Ends .interrupt (.error (.cause (.mishap child.command .interrupted)))
  | notStarted (reason : OsError) :
      child.Ends (.refused reason) (.error (.cause (.mishap child.command (.notStarted reason))))

theorem ends_result (child : Child) (h : outcome ≠ .unfit) : child.Ends outcome (child.result outcome) := by
  cases outcome with
  | exit status =>
    cases status with
    | ofNat code => exact .exited code
    | negSucc n => exact .killed (n + 1) (Nat.succ_pos n)
  | interrupt => exact .interrupted
  | refused reason => exact .notStarted reason
  | unfit => exact absurd rfl h

theorem Ends.exists_mishap {result : Except Failure Nat} {failure : Failure} (h : child.Ends outcome result)
    (hfailure : result = .error failure) : ∃ mishap, failure = .cause (.mishap child.command mishap) := by
  subst hfailure
  cases h <;> exact ⟨_, rfl⟩

theorem CanEndIn.ne_unfit (h : child.CanEndIn outcome) (hpassable : child.IsPassable) : outcome ≠ .unfit :=
  fun hunfit => h.mp hunfit hpassable

theorem CanEndIn.eq_unfit (h : child.CanEndIn outcome) (hpassable : ¬child.IsPassable) : outcome = .unfit :=
  h.mpr hpassable

end Child

namespace Journal

variable {journal : Journal} {child : Child}

theorem children_afterChild (h : journal.next ≠ .unfit) :
    (journal.afterChild child).children = journal.children ++ [child] :=
  if_neg h

theorem children_afterChild_of_unfit (h : journal.next = .unfit) :
    (journal.afterChild child).children = journal.children :=
  if_pos h

end Journal

/-! ## What becomes of the words -/

theorem Node.trim_prog_ne_nil (config : Config) (node : Node) : (node.prog config).trim ≠ [] := by
  have hname := config.isName_name
  cases hcons : config.name with
  | nil =>
    rw [hcons] at hname
    cases hname
  | cons g rest =>
    have hg : g.isBlank = false := by
      rw [hcons, Config.isName, Bool.and_eq_true, Bool.or_eq_true] at hname
      refine Glyph.isBlank_of_isIdentTail ?_
      rcases hname.1 with h | h <;> simp [Glyph.isIdentTail, h]
    refine Text.trim_ne_nil (g := g) ?_ hg
    rw [prog, Text.join_cons, hcons]
    simp

/-- The line that words of a command line give: that of the values to which they are parsed. -/
theorem Signature.line_text (sig : Signature) (words : List Text) :
    sig.line (words.map .text) =
      match sig.parse words with
      | .error fault => .error (.cause (.argument sig.prog fault))
      | .ok values => values.serialize.mapError fun key => .cause (.unencodableValue (.text key)) := by
  rw [line, Signature.values, parseData_text]
  cases sig.parse words with
  | error fault => rfl
  | ok values => exact Values.line_keyed values

namespace ScriptFile

variable {config : Config} {file : ScriptFile} {script : Script} {words : List Text}

/-- The script with some words left for it. -/
def withWords (file : ScriptFile) (words : List Text) : ScriptFile :=
  { file with args := words.map .text }

/-- Whether a script that was read takes some words, and the text in which it receives the values that
they give to its arguments. -/
inductive Admits (config : Config) (file : ScriptFile) (script : Script) (words : List Text) :
    Text → Prop where
  | unchecked (noUsage : script.docs.usage = none) : Admits config file script words []
  | checked {line text : Text} {usage : Usage} {sig : Signature} {values : Values}
      (stated : script.docs.usage = some line) (read : Usage.parse? line = .ok usage)
      (compiled : script.signature (Node.prog config (.file file)) config.infer = .ok sig)
      (parsed : sig.parse words = .ok values) (written : values.serialize = .ok text) :
      Admits config file script words text

/-- Why a script that was read does not take some words. -/
inductive Rejects (config : Config) (file : ScriptFile) (script : Script) (words : List Text) :
    Failure → Prop where
  | usage {line : Text} {problems : List Usage.Problem} (stated : script.docs.usage = some line)
      (unread : Usage.parse? line = .error problems) :
      Rejects config file script words (.cause (.invalidUsage line problems (some script.path)))
  | argument {line : Text} {usage : Usage} {sig : Signature} {fault : ArgumentFault}
      (stated : script.docs.usage = some line) (read : Usage.parse? line = .ok usage)
      (compiled : script.signature (Node.prog config (.file file)) config.infer = .ok sig)
      (unparsed : sig.parse words = .error fault) :
      Rejects config file script words (.cause (.argument sig.prog fault))
  | value {line key : Text} {usage : Usage} {sig : Signature} {values : Values}
      (stated : script.docs.usage = some line) (read : Usage.parse? line = .ok usage)
      (compiled : script.signature (Node.prog config (.file file)) config.infer = .ok sig)
      (parsed : sig.parse words = .ok values) (unwritten : values.serialize = .error key) :
      Rejects config file script words (.cause (.unencodableValue (.text key)))

theorem arguments_of_noUsage (h : script.docs.usage = none) : file.arguments config script = .ok [] := by
  simp [arguments, Script.hasUsage, h]

theorem arguments_of_unread {line : Text} {problems : List Usage.Problem}
    (hline : script.docs.usage = some line) (hparse : Usage.parse? line = .error problems) :
    file.arguments config script =
      .error (.cause (.invalidUsage line problems (some script.path))) := by
  simp [arguments, Script.hasUsage, ScriptFile.signature, Script.usageCause, hline, hparse]

theorem signature_of_read {line : Text} {usage : Usage} {sig : Signature}
    (hline : script.docs.usage = some line) (hparse : Usage.parse? line = .ok usage)
    (hsig : script.signature (Node.prog config (.file file)) config.infer = .ok sig) :
    (file.withWords words).signature config script = .ok sig := by
  have hcause : script.usageCause = none := by simp [Script.usageCause, hline, hparse]
  rw [signature, hcause]
  exact hsig

theorem arguments_of_read {line : Text} {usage : Usage} {sig : Signature}
    (hline : script.docs.usage = some line) (hparse : Usage.parse? line = .ok usage)
    (hsig : script.signature (Node.prog config (.file file)) config.infer = .ok sig) :
    (file.withWords words).arguments config script = sig.line (words.map .text) := by
  simp only [arguments, Script.hasUsage, hline, Option.isSome_some, if_true,
    signature_of_read hline hparse hsig]
  rfl

/-- A script that was read takes the words that are left for it, or there is a reason why not. -/
theorem admits_or_rejects (config : Config) (file : ScriptFile) (script : Script) (words : List Text) :
    (∃ text, (file.withWords words).arguments config script = .ok text ∧
        file.Admits config script words text) ∨
      ∃ failure, (file.withWords words).arguments config script = .error failure ∧
        file.Rejects config script words failure := by
  cases hline : script.docs.usage with
  | none => exact .inl ⟨[], arguments_of_noUsage hline, .unchecked hline⟩
  | some line =>
    cases hparse : Usage.parse? line with
    | error problems => exact .inr ⟨_, arguments_of_unread hline hparse, .usage hline hparse⟩
    | ok usage =>
      obtain ⟨wellMade, hsig⟩ :=
        script.signature_eq (Node.trim_prog_ne_nil config (.file file)) config.infer
      rw [arguments_of_read hline hparse hsig, Signature.line_text]
      split
      · rename_i fault hfault
        exact .inr ⟨_, rfl, .argument hline hparse hsig hfault⟩
      · rename_i values hvalues
        cases hwritten : values.serialize with
        | error key => exact .inr ⟨_, rfl, .value hline hparse hsig hvalues hwritten⟩
        | ok text => exact .inl ⟨text, rfl, .checked hline hparse hsig hvalues hwritten⟩

/-- What a script receives is determined by its words. -/
theorem Admits.arguments_eq {text : Text} (h : file.Admits config script words text) :
    (file.withWords words).arguments config script = .ok text := by
  cases h with
  | unchecked noUsage => exact arguments_of_noUsage noUsage
  | checked stated read compiled parsed written =>
    rw [arguments_of_read stated read compiled, Signature.line_text, parsed]
    simp only [written, Except.mapError]

/-! ## Running -/

/-- Reading a script for the first time skips the option lines that cannot be read. -/
theorem perform_annotations_of_load {files : FileTree} (hunread : file.loaded = none)
    (hload : Script.load files file.path = .ok script) (journal : Journal) :
    (file.annotations files).perform journal =
      (.ok script, { journal with skipped := journal.skipped ++ script.skipped }) := by
  unfold annotations
  rw [hunread, hload]
  rfl

/-- Reading a script changes nothing but the list of skipped option lines. -/
theorem perform_annotations (file : ScriptFile) (files : FileTree) (journal : Journal) :
    ∃ skipped, (file.annotations files).perform journal =
      (file.read files, { journal with skipped := skipped }) := by
  cases hloaded : file.loaded with
  | some script => exact ⟨journal.skipped, by simp [annotations, read, hloaded]⟩
  | none =>
    have hread : file.read files = Script.load files file.path := by rw [read, hloaded]
    rw [hread]
    cases hload : Script.load files file.path with
    | error failure =>
      exact ⟨journal.skipped, by simp [annotations, hloaded, hload, Action.perform_bind]⟩
    | ok script => exact ⟨_, perform_annotations_of_load hloaded hload journal⟩

/-- Running a script: it is read, what it is to receive is made of its words, and then it is started. -/
theorem perform_invoke (config : Config) (host : Host) (file : ScriptFile) (journal : Journal) :
    ∃ skipped, (file.invoke config host).perform journal =
      match file.read host.files with
      | .error failure => (.error failure, { journal with skipped := skipped })
      | .ok script =>
        match file.arguments config script with
        | .error failure => (.error failure, { journal with skipped := skipped })
        | .ok text =>
          (Action.run (file.child config host file.args [(Text.lit "args", text)])).perform
            { journal with skipped := skipped } := by
  obtain ⟨skipped, hannotations⟩ := file.perform_annotations host.files journal
  refine ⟨skipped, ?_⟩
  rw [invoke, Action.perform_bind, hannotations]
  cases file.read host.files with
  | error failure => rfl
  | ok script =>
    simp only [Action.perform_bind, Action.perform_ofExcept]
    cases file.arguments config script <;> rfl

/-- The child as which a script that takes some words is to be run. -/
inductive RunsAs (config : Config) (host : Host) (file : ScriptFile) (words : List Text) : Child → Prop where
  | intro {script : Script} {text : Text} (read : file.read host.files = .ok script)
      (admits : file.Admits config script words text) :
      RunsAs config host file words ⟨.program file.path.toText (words.map .text),
        config.environment host.environment [(Text.lit "args", text)]⟩

theorem RunsAs.perform_invoke {host : Host} {child : Child} (h : file.RunsAs config host words child)
    (journal : Journal) :
    ∃ skipped, ((file.withWords words).invoke config host).perform journal =
      (child.result journal.next, ({ journal with skipped := skipped } : Journal).afterChild child) := by
  obtain ⟨hscript, hadmits⟩ := h
  obtain ⟨skipped, hrun⟩ := (file.withWords words).perform_invoke config host journal
  have hread : (file.withWords words).read host.files = _ := hscript
  simp only [hread, hadmits.arguments_eq, Action.perform_run] at hrun
  exact ⟨skipped, hrun⟩

theorem RunsAs.not_started {host : Host} {child : Child} {journal : Journal}
    (h : file.RunsAs config host words child) (hunfit : journal.next = .unfit) :
    let run := ((file.withWords words).invoke config host).perform journal
    run.2.children = journal.children ∧ run.1 = .error (.misuse .unfitChild) := by
  intro run
  obtain ⟨skipped, hrun⟩ := h.perform_invoke journal
  rw [show run = _ from hrun]
  exact ⟨Journal.children_afterChild_of_unfit hunfit, by rw [hunfit]; rfl⟩

end ScriptFile

namespace Node

/-- The contract of running a script.  If it takes its words, one child is started: the program at its path
with these words as they are, in the environment of the program with the root, the cache directory and the
values set; the result is what the end of the child shows as.  Where the script does not take its words, or
cannot be read, nothing is started and the reason is raised. -/
structure Invokes (config : Config) (host : Host) (file : ScriptFile) (words : List Text) (journal : Journal)
    (run : Except Failure Nat × Journal) : Prop where
  started : ∀ script text, file.read host.files = .ok script → file.Admits config script words text →
    ∃ child : Child, run.2.children = journal.children ++ [child] ∧
      child.command = .program file.path.toText (words.map .text) ∧
      config.Provides host.environment text child.environment ∧ child.Ends journal.next run.1
  rejected : ∀ script, file.read host.files = .ok script → (¬∃ text, file.Admits config script words text) →
    run.2.children = journal.children ∧
      ∃ failure, run.1 = .error failure ∧ file.Rejects config script words failure
  unread : ∀ failure, file.read host.files = .error failure →
    run.2.children = journal.children ∧ run.1 = .error failure

/-- The contract of running a script holds exactly where the child that is to be started can be passed on to
the operating system.  Where it cannot, nothing is started and what is raised is no fault. -/
theorem invokes_iff (config : Config) (host : Host) (file : ScriptFile) (words : List Text) (journal : Journal)
    (hnext : ∀ child, file.RunsAs config host words child → child.CanEndIn journal.next) :
    let run := (invoke config host (.file (file.withWords words))).perform journal
    (Invokes config host file words journal run ↔
        ∀ child, file.RunsAs config host words child → child.IsPassable) ∧
      ∀ child, file.RunsAs config host words child → ¬child.IsPassable →
        run.2.children = journal.children ∧ run.1 = .error (.misuse .unfitChild) := by
  intro run
  have hunfit : ∀ child, file.RunsAs config host words child → ¬child.IsPassable →
      run.2.children = journal.children ∧ run.1 = .error (.misuse .unfitChild) :=
    fun child hchild hnot => hchild.not_started ((hnext child hchild).eq_unfit hnot)
  refine ⟨⟨fun hinvokes child hchild => ?_, fun hpassable => ⟨fun script text hscript hadmits => ?_,
    fun script hscript hnot => ?_, fun failure hfailure => ?_⟩⟩, hunfit⟩
  · by_contra hnot
    obtain ⟨hnone, -⟩ := hunfit child hchild hnot
    obtain ⟨hscript, hadmits⟩ := hchild
    obtain ⟨other, hstarted, -⟩ := hinvokes.started _ _ hscript hadmits
    simp [hnone] at hstarted
  · have hchild : file.RunsAs config host words _ := .intro hscript hadmits
    have hfit := (hnext _ hchild).ne_unfit (hpassable _ hchild)
    obtain ⟨skipped, hrun⟩ := hchild.perform_invoke journal
    rw [show run = _ from hrun]
    exact ⟨_, Journal.children_afterChild hfit, rfl, config.provides_environment host.environment text,
      Child.ends_result _ hfit⟩
  · obtain ⟨skipped, hrun⟩ := (file.withWords words).perform_invoke config host journal
    rcases file.admits_or_rejects config script words with ⟨text, -, hadmits⟩ | ⟨failure, harguments, hrejects⟩
    · exact absurd ⟨text, hadmits⟩ hnot
    · have hread : (file.withWords words).read host.files = .ok script := hscript
      simp only [hread, harguments] at hrun
      rw [show run = _ from hrun]
      exact ⟨rfl, failure, rfl, hrejects⟩
  · obtain ⟨skipped, hrun⟩ := (file.withWords words).perform_invoke config host journal
    have hread : (file.withWords words).read host.files = .error failure := hfailure
    simp only [hread] at hrun
    rw [show run = _ from hrun]
    exact ⟨rfl, rfl⟩

/-- A host with the sample files. -/
def sampleHost : Host :=
  ⟨sampleFiles, [], .root, .root⟩

/-- The script in the sample files, which has no usage line. -/
def copyScript : ScriptFile :=
  ⟨["tools", "copy"], ⟨.root, ["cmd", "libexec", "tools", "copy"]⟩, [], none⟩

/-- The child as which that script is run with some words. -/
def copyChild (words : List Text) : Child :=
  ⟨.program "/cmd/libexec/tools/copy" (words.map .text),
    [("_CMD_ROOT", "/cmd"), ("_CMD_CACHE", "/cache"), ("_CMD_ARGS", [])]⟩

theorem read_copyScript : copyScript.read sampleHost.files = .ok ⟨copyScript.path, Docs.ofLines []⟩ := by
  cbv

theorem runsAs_copyScript_iff {words : List Text} {child : Child} :
    copyScript.RunsAs sampleConfig sampleHost words child ↔ child = copyChild words := by
  have hchild : copyChild words = ⟨.program copyScript.path.toText (words.map .text),
      sampleConfig.environment sampleHost.environment [(Text.lit "args", [])]⟩ := by
    have henvironment : sampleConfig.environment sampleHost.environment [(Text.lit "args", [])] =
        (copyChild []).environment := by decide +kernel
    rw [henvironment]
    rfl
  rw [hchild]
  constructor
  · rintro ⟨hscript, hadmits⟩
    cases read_copyScript.symm.trans hscript
    cases hadmits with
    | unchecked noUsage => rfl
    | checked stated => cases stated
  · rintro rfl
    exact .intro read_copyScript (.unchecked rfl)

theorem invokes_iff_copying :
    let run := fun words journal =>
      (invoke sampleConfig sampleHost (.file (copyScript.withWords words))).perform journal
    Invokes sampleConfig sampleHost copyScript ["-v"] (.start [.exit 3]) (run ["-v"] (.start [.exit 3])) ∧
      (run ["a\x00b"] (.start [.unfit])).1 = .error (.misuse .unfitChild) := by
  have hfit : ∀ child, copyScript.RunsAs sampleConfig sampleHost ["-v"] child →
      child.CanEndIn (.exit 3) ∧ child.IsPassable := by
    intro child hchild
    rw [runsAs_copyScript_iff.mp hchild]
    decide +kernel
  have hunfit : ∀ child, copyScript.RunsAs sampleConfig sampleHost ["a\x00b"] child →
      child.CanEndIn .unfit ∧ ¬child.IsPassable := by
    intro child hchild
    rw [runsAs_copyScript_iff.mp hchild]
    decide +kernel
  have hsome := runsAs_copyScript_iff.mpr (rfl : copyChild ["a\x00b"] = _)
  exact ⟨(invokes_iff sampleConfig sampleHost copyScript ["-v"] (.start [.exit 3])
      fun child hchild => (hfit child hchild).1).1.mpr fun child hchild => (hfit child hchild).2,
    ((invokes_iff sampleConfig sampleHost copyScript ["a\x00b"] (.start [.unfit])
      fun child hchild => (hunfit child hchild).1).2 _ hsome (hunfit _ hsome).2).2⟩

/-- The contract does not hold of all words: one that holds a zero byte is taken by a script without a usage
line, and nothing is started for it. -/
theorem not_invokes_everywhere :
    ¬∀ (config : Config) (host : Host) (file : ScriptFile) (words : List Text) (journal : Journal),
      (∀ child, file.RunsAs config host words child → child.CanEndIn journal.next) →
      Invokes config host file words journal
        ((invoke config host (.file (file.withWords words))).perform journal) := by
  intro hclaim
  have hnext : ∀ child, copyScript.RunsAs sampleConfig sampleHost ["a\x00b"] child →
      child.CanEndIn .unfit := by
    intro child hchild
    rw [runsAs_copyScript_iff.mp hchild]
    decide +kernel
  have hcontract := hclaim sampleConfig sampleHost copyScript ["a\x00b"] (.start [.unfit]) hnext
  obtain ⟨child, hstarted, -⟩ := hcontract.started _ _ read_copyScript (.unchecked rfl)
  have hchild : copyScript.RunsAs sampleConfig sampleHost ["a\x00b"] _ := runsAs_copyScript_iff.mpr rfl
  obtain ⟨hnone, -⟩ := hchild.not_started (rfl : (Journal.start [.unfit]).next = .unfit)
  have hnothing : [] = [child] := hnone.symm.trans hstarted
  cases hnothing

end Node

end CommandTree
