import CommandTree.Proofs.FrontEnd.Reporting
import CommandTree.Proofs.Node.Resolution
import CommandTree.Proofs.Script.Loading

/-!
# Checking a script agrees with using it

What is wrong with the annotations of a script is found when it is read, and kept.  It shows in four ways:
it is listed when the script is checked, it is raised when the usage or the help of the script is asked for
or when the script is run, and the option lines that cannot be read are skipped, which is noted.

`Node.Surfaces` says for one of the three uses what it raises and notes, given what checking lists.  All
three read the script first and then do something with it (`Node.surfaces_bind`).

`Node.validate_agrees` is the contract.
-/

namespace CommandTree

/-- The option lines among some lines that cannot be read, in order, each with its problem. -/
inductive OptionLine.Rejected : List Text → List Skipped → Prop where
  | nil : Rejected [] []
  | read {line : Text} {lines : List Text} {option : OptionLine} {rejected : List Skipped}
      (reads : parse? line = .ok option) (more : Rejected lines rejected) : Rejected (line :: lines) rejected
  | refused {line : Text} {lines : List Text} {problem : Problem} {rejected : List Skipped}
      (refused : parse? line = .error problem) (more : Rejected lines rejected) :
      Rejected (line :: lines) (⟨line, problem⟩ :: rejected)

theorem OptionLine.rejected_skipped (lines : List Text) : Rejected lines (skipped lines) := by
  induction lines with
  | nil => exact .nil
  | cons line lines ih =>
    cases hparse : parse? line with
    | ok option =>
      have hskip : skipped (line :: lines) = skipped lines := by simp [skipped, hparse]
      rw [hskip]
      exact .read hparse ih
    | error problem =>
      have hskip : skipped (line :: lines) = ⟨line, problem⟩ :: skipped lines := by simp [skipped, hparse]
      rw [hskip]
      exact .refused hparse ih

/-- What is wrong with the usage line of a script, as far as there is one. -/
inductive Docs.UsageCause (docs : Docs) (path : Path) : List Cause → Prop where
  | absent (noUsage : docs.usage = .none) : UsageCause docs path []
  | read {line : Text} {usage : Usage} (stated : docs.usage = some line)
      (read : Usage.parse? line = .ok usage) : UsageCause docs path []
  | broken {line : Text} {problems : List Usage.Problem} (stated : docs.usage = some line)
      (unread : Usage.parse? line = .error problems) :
      UsageCause docs path [.invalidUsage line problems (some path)]

theorem Script.usageCause_toList (script : Script) :
    script.docs.UsageCause script.path script.usageCause.toList := by
  cases hline : script.docs.usage with
  | none =>
    rw [(script.keeps.absent hline).2]
    exact .absent hline
  | some line =>
    cases hparse : Usage.parse? line with
    | ok usage =>
      rw [(script.keeps.read line usage hline hparse).2]
      exact .read hline hparse
    | error problems =>
      rw [(script.keeps.broken line problems hline hparse).2]
      exact .broken hline hparse

namespace Node

variable {config : Config} {host : Host} {file : ScriptFile} {script : Script} {α : Type}

/-! ## Using a script -/

/-- What the use of a script at a path shows of its problems, and of the option lines that cannot be read:
the problem of the usage line is raised, and only where there is one; nothing is started then; and the option
lines are noted, each once and in order. -/
structure Surfaces (path : Path) (problems : List Problem) (rejected : List OptionLine.Skipped)
    (action : Action α) : Prop where
  raises : ∀ (journal : Journal) (cause : Cause), cause.kind = .invalidUsage →
    ((action.perform journal).1 = .error (.cause cause) ↔ (path, cause) ∈ problems)
  idle : ∀ (journal : Journal) (cause : Cause), cause.kind = .invalidUsage → (path, cause) ∈ problems →
    (action.perform journal).2.children = journal.children
  skips : ∀ journal : Journal, (action.perform journal).2.skipped = journal.skipped ++ rejected

/-- What is wrong with a script, as checking it lists it. -/
def listed (script : Script) : List Problem :=
  script.problems.map fun cause => (script.path, cause)

theorem mem_listed_iff {cause : Cause} (hkind : cause.kind = .invalidUsage) :
    (script.path, cause) ∈ listed script ↔ script.usageCause = some cause := by
  have hoption : cause ∉ script.optionCauses := by
    intro hmem
    obtain ⟨line, -, rfl⟩ := List.mem_map.mp hmem
    cases hkind
  simp [listed, Script.problems, hoption]

section

variable (hunread : file.loaded = none) (hload : Script.load host.files file.path = .ok script)

include hunread hload

theorem perform_annotations_bind (next : Script → Action α) (journal : Journal) :
    (file.annotations host.files >>= next).perform journal =
      (next script).perform { journal with skipped := journal.skipped ++ script.skipped } := by
  rw [Action.perform_bind, ScriptFile.perform_annotations_of_load hunread hload]

/-- What is done with a script after it was read shows its problems if it fails with the problem of the usage
line, and with no such problem otherwise. -/
theorem surfaces_bind {next : Script → Action α}
    (hbroken : ∀ cause journal, script.usageCause = some cause →
      (next script).perform journal = (.error (.cause cause), journal))
    (hsound : script.usageCause = none → ∀ journal cause, cause.kind = .invalidUsage →
      ((next script).perform journal).1 ≠ .error (.cause cause))
    (hskips : ∀ journal, ((next script).perform journal).2.skipped = journal.skipped) :
    Surfaces script.path (listed script) script.skipped (file.annotations host.files >>= next) := by
  refine ⟨fun journal cause hkind => ?_, fun journal cause hkind hmem => ?_, fun journal => ?_⟩
  · rw [mem_listed_iff hkind, perform_annotations_bind hunread hload]
    constructor
    · intro hraised
      cases hcause : script.usageCause with
      | none => exact absurd hraised (hsound hcause _ cause hkind)
      | some other =>
        rw [hbroken other _ hcause] at hraised
        cases hraised
        rfl
    · intro hcause
      rw [hbroken cause _ hcause]
  · rw [perform_annotations_bind hunread hload, hbroken cause _ ((mem_listed_iff hkind).mp hmem)]
  · rw [perform_annotations_bind hunread hload, hskips]

end

/-! ### Usage and help -/

theorem signature_of_usageCause {cause : Cause} (h : script.usageCause = some cause) :
    file.signature config script = .error (.cause cause) := by
  rw [ScriptFile.signature, h]

theorem exists_signature (config : Config) (file : ScriptFile) (h : script.usageCause = none) :
    ∃ sig, file.signature config script = .ok sig := by
  obtain ⟨wellMade, hsig⟩ := script.signature_eq (trim_prog_ne_nil config (.file file)) config.infer
  rw [ScriptFile.signature, h]
  exact ⟨_, hsig⟩

/-- Shows something of the signature of a script. -/
def describe (config : Config) (file : ScriptFile) (shown : Signature → Styled) (script : Script) :
    Action Styled := do
  let sig ← Action.ofExcept (file.signature config script)
  return shown sig

theorem usage_file (config : Config) (files : FileTree) (file : ScriptFile) :
    usage config files (.file file) = file.annotations files >>= describe config file Signature.usage := rfl

theorem help_file (config : Config) (files : FileTree) (file : ScriptFile) :
    help config files (.file file) = file.annotations files >>= describe config file Signature.help := rfl

theorem perform_describe (shown : Signature → Styled) (journal : Journal) :
    (describe config file shown script).perform journal =
      ((file.signature config script).map shown, journal) := by
  rw [describe, Action.perform_bind, Action.perform_ofExcept]
  cases file.signature config script <;> rfl

theorem surfaces_describe (hunread : file.loaded = none)
    (hload : Script.load host.files file.path = .ok script) (shown : Signature → Styled) :
    Surfaces script.path (listed script) script.skipped
      (file.annotations host.files >>= describe config file shown) := by
  refine surfaces_bind hunread hload (fun cause journal hcause => ?_) (fun hcause journal cause _ => ?_)
    fun journal => ?_
  · rw [perform_describe, signature_of_usageCause hcause]
    rfl
  · obtain ⟨sig, hsig⟩ := exists_signature config file hcause
    rw [perform_describe, hsig]
    exact fun h => nomatch h
  · rw [perform_describe]

theorem describe_succeeds (hunread : file.loaded = none)
    (hload : Script.load host.files file.path = .ok script) (h : script.usageCause = none)
    (shown : Signature → Styled) (journal : Journal) :
    ∃ styled, ((file.annotations host.files >>= describe config file shown).perform journal).1 =
      .ok styled := by
  obtain ⟨sig, hsig⟩ := exists_signature config file h
  rw [perform_annotations_bind hunread hload, perform_describe, hsig]
  exact ⟨_, rfl⟩

/-! ### Running -/

theorem arguments_of_usageCause {cause : Cause} (h : script.usageCause = some cause) :
    file.arguments config script = .error (.cause cause) := by
  have husage : script.hasUsage = true := by
    obtain ⟨line, hline, -⟩ := Option.bind_eq_some_iff.mp h
    simp [Script.hasUsage, hline]
  rw [ScriptFile.arguments, if_pos husage, signature_of_usageCause h]

/-- The words of a script are never refused with a problem of its usage line. -/
theorem kind_of_line {sig : Signature} {words : List Datum} {cause : Cause}
    (h : sig.line words = .error (.cause cause)) : cause.kind ≠ .invalidUsage := by
  unfold Signature.line at h
  split at h
  · rename_i failure hvalues
    cases h
    unfold Signature.values at hvalues
    split at hvalues
    · cases hvalues
    · cases hvalues
    · rename_i fault hfault
      cases hvalues
      cases fault <;> simp [Cause.kind, ArgumentFault.kind]
  · unfold Values.line at h
    split at h <;> cases h
    simp [Cause.kind]

theorem kind_of_run {child : Child} {journal : Journal} {cause : Cause}
    (h : ((Action.run child).perform journal).1 = .error (.cause cause)) : cause.kind ≠ .invalidUsage := by
  have hresult : child.result journal.next = .error (.cause cause) := h
  by_cases hunfit : journal.next = .unfit
  · rw [hunfit] at hresult
    cases hresult
  · obtain ⟨mishap, hmishap⟩ := (child.ends_result hunfit).exists_mishap hresult
    cases hmishap
    cases mishap <;> simp [Cause.kind, Child.Mishap.kind]

theorem kind_of_arguments (h : script.usageCause = none) {cause : Cause}
    (hfails : file.arguments config script = .error (.cause cause)) : cause.kind ≠ .invalidUsage := by
  obtain ⟨sig, hsig⟩ := exists_signature config file h
  unfold ScriptFile.arguments at hfails
  split at hfails
  · rw [hsig] at hfails
    exact kind_of_line hfails
  · cases hfails

theorem surfaces_invoke (hunread : file.loaded = none)
    (hload : Script.load host.files file.path = .ok script) :
    Surfaces script.path (listed script) script.skipped (file.invoke config host) := by
  refine surfaces_bind hunread hload (fun cause journal hcause => ?_)
    (fun hcause journal cause hkind => ?_) fun journal => ?_
  · rw [Action.perform_bind, Action.perform_ofExcept, arguments_of_usageCause hcause]
  · rw [Action.perform_bind, Action.perform_ofExcept]
    intro hfails
    cases harguments : file.arguments config script with
    | error failure =>
      rw [harguments] at hfails
      cases hfails
      exact kind_of_arguments hcause harguments hkind
    | ok text =>
      rw [harguments] at hfails
      exact kind_of_run hfails hkind
  · rw [Action.perform_bind, Action.perform_ofExcept]
    cases file.arguments config script with
    | error failure => rfl
    | ok text => rfl

/-! ## Checking a script -/

theorem validate_file {files : FileTree} (hread : file.read files = .ok script) :
    validate config files (.file file) = .ok (script.problems.map fun cause => (file.path, cause)) := by
  have hproblems : problemsOf files file = .ok (script.problems.map fun cause => (file.path, cause)) := by
    rw [problemsOf, hread]
  rw [validate, search, hproblems]
  simp [search, Except.map]

/-- Checking notes no option lines: those that cannot be read are among the problems. -/
theorem skipped_validate (config : Config) (host : Host) (extension : Option Datum) (node : Node)
    (journal : Journal) :
    ((FrontEnd.perform config host .validate extension node).perform journal).2.skipped =
      journal.skipped := by
  rw [FrontEnd.perform_validate]
  cases node.validate config host.files <;> rfl

/-- Checking a script lists the problem of its usage line, if there is one, and then those of its option
lines, in order.  Its usage, its help and running it raise the problem of the usage line, with whatever words
and without starting anything, and raise no such problem otherwise; then usage and help are shown.  All three
note each option line that cannot be read once, in order, and checking notes none. -/
theorem validate_agrees (config : Config) (host : Host) (words : List Datum) (file : ScriptFile)
    (content : List UInt8) (hresolve : resolve config host.files words = .ok (.file file))
    (hread : host.files.read file.path = .ok content)
    (hutf8 : ∀ line ∈ Block.rawBlock content, (Text.ofUtf8? line).isSome = true) :
    ∃ lines causes rejected, Block.read content = .ok lines ∧
      (Docs.ofLines lines).UsageCause file.path causes ∧
      OptionLine.Rejected (Docs.ofLines lines).options rejected ∧
      let problems : List Problem :=
        (causes ++ rejected.map fun line => Cause.invalidOption line (some file.path)).map fun cause =>
          (file.path, cause)
      validate config host.files (.file file) = .ok problems ∧
        (∀ extension journal,
          ((FrontEnd.perform config host .validate extension (.file file)).perform journal).2.skipped =
            journal.skipped) ∧
        ∀ args, let node : Node := .file { file with args }
          Surfaces file.path problems rejected (node.usage config host.files) ∧
            Surfaces file.path problems rejected (node.help config host.files) ∧
            Surfaces file.path problems rejected (node.invoke config host) ∧
            (causes = [] → ∀ journal,
              (∃ usage, ((node.usage config host.files).perform journal).1 = .ok usage) ∧
                ∃ help, ((node.help config host.files).perform journal).1 = .ok help) := by
  have hunread := unread_of_resolve hresolve
  obtain ⟨lines, hlines⟩ := Block.exists_decodeFrom 1 hutf8
  have hload : Script.load host.files file.path = .ok ⟨file.path, Docs.ofLines lines⟩ := by
    rw [Script.load, Docs.ofFile_eq_ok hread hlines]
    rfl
  have hscript : file.read host.files = .ok ⟨file.path, Docs.ofLines lines⟩ := by
    rw [ScriptFile.read, hunread]
    exact hload
  have hcauses := Script.usageCause_toList ⟨file.path, Docs.ofLines lines⟩
  refine ⟨lines, _, _, hlines, hcauses, OptionLine.rejected_skipped _, validate_file hscript,
    fun extension journal => skipped_validate config host extension _ journal, fun args => ?_⟩
  -- other words left for the script change neither its path nor that it is unread
  generalize hused : ({ file with args } : ScriptFile) = used
  have hunread : used.loaded = none := by rw [← hused, hunread]
  have hload : Script.load host.files used.path = .ok ⟨file.path, Docs.ofLines lines⟩ := by
    rw [← hused, hload]
  simp only [usage_file, help_file]
  refine ⟨surfaces_describe hunread hload Signature.usage, surfaces_describe hunread hload Signature.help,
    surfaces_invoke hunread hload, fun hnone journal => ?_⟩
  have hcause : Script.usageCause ⟨file.path, Docs.ofLines lines⟩ = none :=
    Option.toList_eq_nil_iff.mp hnone
  exact ⟨describe_succeeds hunread hload hcause Signature.usage journal,
    describe_succeeds hunread hload hcause Signature.help journal⟩

/-- The file of a script whose usage line and one of whose option lines are broken; what follows them is no
text. -/
def brokenContent : List UInt8 :=
  let text := "#!/bin/sh\n# Usage: \x7bcmd\x7d <name\n# Options:\n#  name: who\n#  odd\n"
  text.toUTF8.toList ++ [0xFF]

def brokenScript : ScriptFile :=
  ⟨["greet"], ⟨.root, ["cmd", "libexec", "greet"]⟩, [.text "Ada"], none⟩

def brokenHost : Host :=
  ⟨FileTree.empty.write brokenScript.path 0o755 brokenContent, [], .root, .root⟩

theorem validate_agrees_broken :
    resolve sampleConfig brokenHost.files [.text "greet", .text "Ada"] = .ok (.file brokenScript) ∧
      brokenHost.files.read brokenScript.path = .ok brokenContent ∧
      (∀ line ∈ Block.rawBlock brokenContent, (Text.ofUtf8? line).isSome = true) ∧
      ∃ problems rejected, validate sampleConfig brokenHost.files (.file brokenScript) = .ok problems ∧
        ∀ args, Surfaces brokenScript.path problems rejected
          (invoke sampleConfig brokenHost (.file { brokenScript with args })) := by
  have hresolve : resolve sampleConfig brokenHost.files [.text "greet", .text "Ada"] =
      .ok (.file brokenScript) := by cbv
  have hread : brokenHost.files.read brokenScript.path = .ok brokenContent :=
    FileTree.read_write_of_new (by decide) rfl rfl
  have hutf8 : ∀ line ∈ Block.rawBlock brokenContent, (Text.ofUtf8? line).isSome = true := by
    decide +kernel
  obtain ⟨lines, causes, rejected, -, -, -, hvalidate, -, huses⟩ :=
    validate_agrees sampleConfig brokenHost _ brokenScript brokenContent hresolve hread hutf8
  exact ⟨hresolve, hread, hutf8, _, rejected, hvalidate, fun args => (huses args).2.2.1⟩

end Node

end CommandTree
