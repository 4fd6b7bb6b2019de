import CommandTree.Proofs.Docs.Sections
import CommandTree.Proofs.Node.Invocation
import CommandTree.Proofs.Node.Listing
import CommandTree.Proofs.Script.OptionLines

/-!
# Completing a script

A script is asked for completions by starting a child, and at most one.  Which child is
`ScriptFile.Requests`: with a usage line, one for the argument that the next word would be for, if the
option lines say where its values are found; without one, the script itself, if its comment block has the
completion marker.

The argument that the next word would be for is known from the fault that the words of the script are
refused with (`ScriptFile.Awaits`).  A script whose words are refused is not run, and so the same words never
start a child of both kinds.

`Node.Completes` is the contract of completing a script.  As with running, it holds where the child that is
requested can be passed on to the operating system, and nowhere else (`Node.completes_iff`): the line of a
hint stands in the script as it is, and may hold a zero byte.
-/

namespace CommandTree

/-- The faults that tell for which argument the next word would be: those of a missing argument and of an
option without its value, and it is the argument that they are about. -/
theorem ArgumentFault.awaited?_eq_some_iff {fault : ArgumentFault} {d : Declaration} :
    fault.awaited? = some d ↔
      (fault.kind = .missingArgument ∨ fault.kind = .valueRequired) ∧
        (Text.lit "argument", .declaration d) ∈ fault.context := by
  have hinput : Text.lit "argument" ≠ Text.lit "input" := by decide
  have hindex : Text.lit "argument" ≠ Text.lit "index" := by decide
  cases fault <;> simp [awaited?, kind, context, place, hinput, hindex, eq_comm]

namespace ScriptFile

variable {config : Config} {host : Host} {file : ScriptFile} {lines words : List Text} {command : Command}
  {extra : List (Text × Text)}

/-! ## What is requested -/

/-- The script with a comment block of some lines. -/
def withBlock (file : ScriptFile) (lines : List Text) : Script :=
  ⟨file.path, Docs.ofLines lines⟩

/-- Whether the comment block that is read for a script has some lines. -/
def Shows (file : ScriptFile) (files : FileTree) (lines : List Text) : Prop :=
  file.read files = .ok (file.withBlock lines)

/-- A script that has not been read before shows the lines that stand in its file. -/
theorem shows_of_blockAt {files : FileTree} (hloaded : file.loaded = none)
    (hlines : Docs.blockAt files file.path = .ok lines) : file.Shows files lines := by
  simp [Shows, read, hloaded, Script.load, Docs.ofFile, hlines, withBlock, Except.map]

/-- Whether the words of a script are refused because one for an argument is missing: for a required
argument, or for the value of an option. -/
inductive Awaits (config : Config) (file : ScriptFile) (lines words : List Text) (d : Declaration) :
    Prop where
  | intro {line : Text} {usage : Usage} {sig : Signature} {fault : ArgumentFault}
      (stated : (file.withBlock lines).docs.usage = some line) (read : Usage.parse? line = .ok usage)
      (compiled : (file.withBlock lines).signature (Node.prog config (.file file)) config.infer = .ok sig)
      (refused : sig.parse words = .error fault)
      (kind : fault.kind = .missingArgument ∨ fault.kind = .valueRequired)
      (about : (Text.lit "argument", .declaration d) ∈ fault.context)

/-- What is run, and with which further variables, when a script with a comment block of some lines is asked
to complete some words. -/
inductive Requests (config : Config) (file : ScriptFile) (lines words : List Text) :
    Command → List (Text × Text) → Prop where
  | script {d : Declaration} (awaits : file.Awaits config lines words d)
      (hint : OptionLine.Hints (file.withBlock lines).docs.options d.key (some .script)) :
      Requests config file lines words (.program file.path.toText [])
        [(Text.lit "complete", Text.lit "true"), (Text.lit "complete_arg", d.key)]
  | command {d : Declaration} {line : Text} (awaits : file.Awaits config lines words d)
      (hint : OptionLine.Hints (file.withBlock lines).docs.options d.key (some (.command line))) :
      Requests config file lines words (.shell (.text line)) []
  | marker (noUsage : (file.withBlock lines).docs.usage = none) (marked : Docs.completionMarker ∈ lines) :
      Requests config file lines words (.program file.path.toText [.text completeSwitch]) []

theorem Requests.sets (h : file.Requests config lines words command extra) (parent : Environment) :
    config.Sets parent extra (config.environment parent extra) := by
  cases h with
  | script awaits hint =>
    have hdistinct : ([Text.lit "root", Text.lit "cache", Text.lit "complete",
      Text.lit "complete_arg"].map Text.toUpper).Nodup := by decide
    exact config.sets_environment parent hdistinct
  | command awaits hint => exact config.sets_environment_nil parent
  | marker noUsage marked => exact config.sets_environment_nil parent

/-! ## Which child is started -/

theorem completionChild?_of_noUsage {script : Script} (h : script.docs.usage = none) :
    file.completionChild? config host script =
      .ok (if script.docs.completes then some (file.child config host [.text completeSwitch] [])
        else none) := by
  have husage : script.usage = none := by simp [Script.usage, Script.reading, h]
  simp only [completionChild?, husage, Script.hasUsage, h, Option.isSome_none, Bool.false_eq_true, if_false]
  split <;> rfl

theorem completionChild?_of_unread {line : Text} {problems : List Usage.Problem} {script : Script}
    (hline : script.docs.usage = some line) (hparse : Usage.parse? line = .error problems) :
    file.completionChild? config host script = .ok none := by
  have husage : script.usage = none := by
    simp [Script.usage, Script.reading, hline, hparse, Except.toOption]
  simp [completionChild?, husage, Script.hasUsage, hline]

/-- With a usage line that can be read, the argument that the next word would be for is that of the fault
with which the words are refused. -/
theorem completionChild?_of_read {line : Text} {usage : Usage} {sig : Signature} {script : Script}
    (hline : script.docs.usage = some line) (hparse : Usage.parse? line = .ok usage)
    (hsig : script.signature (Node.prog config (.file file)) config.infer = .ok sig) :
    (file.withWords words).completionChild? config host script =
      .ok (match sig.parse words with
        | .ok _ => none
        | .error fault =>
          fault.awaited?.bind fun d => (file.withWords words).completer? config host script d.key) := by
  have husage : script.usage = some usage := by
    simp [Script.usage, Script.reading, hline, hparse, Except.toOption]
  have hargs : (file.withWords words).args = words.map .text := rfl
  have hawaited : (file.withWords words).awaited? config script =
      .ok (match sig.parse words with
        | .ok _ => none
        | .error fault => fault.awaited?) := by
    rw [awaited?, signature_of_read hline hparse hsig, hargs]
    simp only [Signature.parseData_text]
    cases sig.parse words <;> rfl
  rw [completionChild?, husage, Option.isSome_some, if_pos rfl, hawaited]
  cases sig.parse words <;> rfl

/-- The child for the argument of a key, as the option lines say. -/
theorem completer?_withBlock {key : Text} {found : Option Completion}
    (hint : OptionLine.Hints (file.withBlock lines).docs.options key found) :
    (file.withWords words).completer? config host (file.withBlock lines) key =
      match found with
      | some .script => some ⟨.program file.path.toText [], config.environment host.environment
          [(Text.lit "complete", Text.lit "true"), (Text.lit "complete_arg", key)]⟩
      | some (.command line) => some ⟨.shell (.text line), config.environment host.environment []⟩
      | none => none := by
  have hindex : (file.withBlock lines).index.get? key = found := hint.get?_eq
  rw [completer?, hindex]
  cases found with
  | none => rfl
  | some completion => cases completion <;> rfl

/-- What is requested is run, in the environment with the further variables. -/
theorem Requests.completionChild?_eq (h : file.Requests config lines words command extra) :
    (file.withWords words).completionChild? config host (file.withBlock lines) =
      .ok (some ⟨command, config.environment host.environment extra⟩) := by
  cases h with
  | script awaits hint =>
    obtain ⟨stated, read, compiled, refused, kind, about⟩ := awaits
    rw [completionChild?_of_read stated read compiled, refused]
    simp only [ArgumentFault.awaited?_eq_some_iff.mpr ⟨kind, about⟩, Option.bind_some,
      completer?_withBlock hint]
  | command awaits hint =>
    obtain ⟨stated, read, compiled, refused, kind, about⟩ := awaits
    rw [completionChild?_of_read stated read compiled, refused]
    simp only [ArgumentFault.awaited?_eq_some_iff.mpr ⟨kind, about⟩, Option.bind_some,
      completer?_withBlock hint]
  | marker noUsage marked =>
    have hcompletes : (file.withBlock lines).docs.completes = true := Docs.completes_ofLines.mpr marked
    rw [completionChild?_of_noUsage noUsage, if_pos hcompletes]
    rfl

/-- At most one child is requested. -/
theorem Requests.child_unique {other : Command} {further : List (Text × Text)}
    (h : file.Requests config lines words command extra) (hother : file.Requests config lines words other further)
    (host : Host) : (⟨command, config.environment host.environment extra⟩ : Child) =
      ⟨other, config.environment host.environment further⟩ :=
  Option.some.inj (Except.ok.inj (h.completionChild?_eq.symm.trans hother.completionChild?_eq))

/-- Where a word is missing, something is requested, or no values are known for its argument. -/
theorem Awaits.exists_requests {d : Declaration} (h : file.Awaits config lines words d) (host : Host) :
    (∃ command extra, file.Requests config lines words command extra) ∨
      (file.withWords words).completer? config host (file.withBlock lines) d.key = none := by
  have hhint := OptionLine.hints_get? (file.withBlock lines).docs.options d.key
  generalize hfound : CompletionIndex.get? _ d.key = found at hhint
  cases found with
  | none => exact .inr (completer?_withBlock hhint)
  | some completion =>
    cases completion with
    | script => exact .inl ⟨_, _, .script h hhint⟩
    | command line => exact .inl ⟨_, _, .command h hhint⟩

/-- Something is requested of a script, or there is nothing to run. -/
theorem exists_requests (config : Config) (host : Host) (file : ScriptFile) (lines words : List Text) :
    (∃ command extra, file.Requests config lines words command extra) ∨
      (file.withWords words).completionChild? config host (file.withBlock lines) = .ok none := by
  cases hline : (file.withBlock lines).docs.usage with
  | none =>
    by_cases hmarked : Docs.completionMarker ∈ lines
    · exact .inl ⟨_, _, .marker hline hmarked⟩
    · have hcompletes : ¬(file.withBlock lines).docs.completes = true :=
        mt Docs.completes_ofLines.mp hmarked
      exact .inr (by rw [completionChild?_of_noUsage hline, if_neg hcompletes])
  | some line =>
    cases hparse : Usage.parse? line with
    | error problems => exact .inr (completionChild?_of_unread hline hparse)
    | ok usage =>
      obtain ⟨wellMade, hsig⟩ :=
        (file.withBlock lines).signature_eq (Node.trim_prog_ne_nil config (.file file)) config.infer
      rw [completionChild?_of_read hline hparse hsig]
      split
      · exact .inr rfl
      · rename_i fault hrefused
        cases hawaited : fault.awaited? with
        | none => exact .inr rfl
        | some d =>
          obtain ⟨hkind, habout⟩ := ArgumentFault.awaited?_eq_some_iff.mp hawaited
          have hawaits : file.Awaits config lines words d := ⟨hline, hparse, hsig, hrefused, hkind, habout⟩
          exact (hawaits.exists_requests host).imp_right (congrArg Except.ok)

/-- A script whose words are refused because one is missing is not run with them. -/
theorem Awaits.arguments_eq {d : Declaration} (h : file.Awaits config lines words d) :
    ∃ failure, (file.withWords words).arguments config (file.withBlock lines) = .error failure := by
  obtain ⟨stated, read, compiled, refused, -, -⟩ := h
  rw [arguments_of_read stated read compiled, Signature.line_text, refused]
  exact ⟨_, rfl⟩

theorem Requests.exists_awaits (h : file.Requests config lines words command extra)
    (husage : (Docs.ofLines lines).usage ≠ none) : ∃ d, file.Awaits config lines words d := by
  cases h with
  | script awaits hint => exact ⟨_, awaits⟩
  | command awaits hint => exact ⟨_, awaits⟩
  | marker noUsage marked => exact absurd noUsage husage

/-! ## Completing -/

/-- Completing a script: it is read, and the child that completes its words is run if there is one. -/
theorem perform_complete (config : Config) (host : Host) (file : ScriptFile) (journal : Journal) :
    ∃ skipped, (file.complete config host).perform journal =
      match file.read host.files with
      | .error failure => (.error failure, { journal with skipped := skipped })
      | .ok script =>
        match file.completionChild? config host script with
        | .error failure => (.error failure, { journal with skipped := skipped })
        | .ok none => (.ok 0, { journal with skipped := skipped })
        | .ok (some child) => (Action.run child).perform { journal with skipped := skipped } := by
  obtain ⟨skipped, hannotations⟩ := file.perform_annotations host.files journal
  refine ⟨skipped, ?_⟩
  rw [complete, Action.perform_bind, hannotations]
  cases file.read host.files with
  | error failure => rfl
  | ok script =>
    simp only [Action.perform_bind, Action.perform_ofExcept]
    cases file.completionChild? config host script with
    | error failure => rfl
    | ok child => cases child <;> rfl

theorem Requests.perform_complete (h : file.Requests config lines words command extra)
    (hblock : file.Shows host.files lines) (journal : Journal) :
    ∃ skipped, ((file.withWords words).complete config host).perform journal =
      ((⟨command, config.environment host.environment extra⟩ : Child).result journal.next,
        ({ journal with skipped := skipped } : Journal).afterChild
          ⟨command, config.environment host.environment extra⟩) := by
  obtain ⟨skipped, hrun⟩ := (file.withWords words).perform_complete config host journal
  have hread : (file.withWords words).read host.files = .ok (file.withBlock lines) := hblock
  simp only [hread, h.completionChild?_eq, Action.perform_run] at hrun
  exact ⟨skipped, hrun⟩

theorem Requests.not_started (h : file.Requests config lines words command extra)
    (hblock : file.Shows host.files lines) {journal : Journal} (hunfit : journal.next = .unfit) :
    let run := ((file.withWords words).complete config host).perform journal
    run.2.children = journal.children ∧ run.1 = .error (.misuse .unfitChild) := by
  intro run
  obtain ⟨skipped, hrun⟩ := h.perform_complete hblock journal
  rw [show run = _ from hrun]
  exact ⟨Journal.children_afterChild_of_unfit hunfit, by rw [hunfit]; rfl⟩

theorem Requests.started (h : file.Requests config lines words command extra)
    (hblock : file.Shows host.files lines) {journal : Journal} (hfit : journal.next ≠ .unfit) :
    let run := ((file.withWords words).complete config host).perform journal
    ∃ child : Child, run.2.children = journal.children ++ [child] ∧ child.command = command ∧
      config.Sets host.environment extra child.environment ∧ child.Ends journal.next run.1 := by
  intro run
  obtain ⟨skipped, hrun⟩ := h.perform_complete hblock journal
  rw [show run = _ from hrun]
  exact ⟨_, Journal.children_afterChild hfit, rfl, h.sets host.environment, Child.ends_result _ hfit⟩

theorem Shows.idle (hblock : file.Shows host.files lines)
    (hnone : ¬∃ command extra, file.Requests config lines words command extra) (journal : Journal) :
    let run := ((file.withWords words).complete config host).perform journal
    run.2.children = journal.children ∧ run.1 = .ok 0 := by
  intro run
  obtain ⟨skipped, hrun⟩ := (file.withWords words).perform_complete config host journal
  have hread : (file.withWords words).read host.files = .ok (file.withBlock lines) := hblock
  have hchild := (exists_requests config host file lines words).resolve_left hnone
  simp only [hread, hchild] at hrun
  rw [show run = _ from hrun]
  exact ⟨rfl, rfl⟩

theorem Awaits.not_run {d : Declaration} (h : file.Awaits config lines words d)
    (hblock : file.Shows host.files lines) (journal : Journal) :
    (((file.withWords words).invoke config host).perform journal).2.children = journal.children := by
  obtain ⟨failure, harguments⟩ := h.arguments_eq
  obtain ⟨skipped, hinvoke⟩ := (file.withWords words).perform_invoke config host journal
  have hread : (file.withWords words).read host.files = .ok (file.withBlock lines) := hblock
  simp only [hread, harguments] at hinvoke
  rw [hinvoke]

end ScriptFile

namespace Node

/-- The contract of completing a script with a comment block of some lines.  The child that is requested is
started, if there is one, and no other; the result is what its end shows as, or zero.  The words are never
reported as wrong: nothing is raised but what becomes of the child.  With a usage line, no words that start a
child when they are completed start one when the script is run with them. -/
structure Completes (config : Config) (host : Host) (file : ScriptFile) (lines words : List Text)
    (journal : Journal) (run : Except Failure Nat × Journal) : Prop where
  started : ∀ command extra, file.Requests config lines words command extra →
    ∃ child : Child, run.2.children = journal.children ++ [child] ∧ child.command = command ∧
      config.Sets host.environment extra child.environment ∧ child.Ends journal.next run.1
  idle : (¬∃ command extra, file.Requests config lines words command extra) →
    run.2.children = journal.children ∧ run.1 = .ok 0
  raised : ∀ failure, run.1 = .error failure → ∃ command mishap, failure = .cause (.mishap command mishap)
  apart : (Docs.ofLines lines).usage ≠ none → run.2.children ≠ journal.children → ∀ before : Journal,
    ((invoke config host (.file (file.withWords words))).perform before).2.children = before.children

/-- The contract of completing a script whose comment block can be read holds exactly where the child that is
requested can be passed on to the operating system.  Where it cannot, nothing is started and what is raised
is no fault. -/
theorem completes_iff (config : Config) (host : Host) (file : ScriptFile) (lines words : List Text)
    (journal : Journal) (hblock : file.Shows host.files lines)
    (hnext : ∀ command extra, file.Requests config lines words command extra →
      (⟨command, config.environment host.environment extra⟩ : Child).CanEndIn journal.next) :
    let run := (complete config host (.file (file.withWords words))).perform journal
    (Completes config host file lines words journal run ↔
        ∀ command extra, file.Requests config lines words command extra →
          (⟨command, config.environment host.environment extra⟩ : Child).IsPassable) ∧
      ∀ command extra, file.Requests config lines words command extra →
        ¬(⟨command, config.environment host.environment extra⟩ : Child).IsPassable →
          run.2.children = journal.children ∧ run.1 = .error (.misuse .unfitChild) := by
  intro run
  have hunfit : ∀ command extra, file.Requests config lines words command extra →
      ¬(⟨command, config.environment host.environment extra⟩ : Child).IsPassable →
        run.2.children = journal.children ∧ run.1 = .error (.misuse .unfitChild) :=
    fun command extra h hnot => h.not_started hblock ((hnext command extra h).eq_unfit hnot)
  refine ⟨⟨fun hcompletes command extra h => ?_, fun hpassable => ?_⟩, hunfit⟩
  · by_contra hnot
    obtain ⟨child, hstarted, -⟩ := hcompletes.started command extra h
    simp [(hunfit command extra h hnot).1] at hstarted
  · have hstarted : ∀ command extra, file.Requests config lines words command extra →
        ∃ child : Child, run.2.children = journal.children ++ [child] ∧ child.command = command ∧
          config.Sets host.environment extra child.environment ∧ child.Ends journal.next run.1 :=
      fun command extra h => h.started hblock ((hnext command extra h).ne_unfit (hpassable command extra h))
    refine ⟨hstarted, fun hnone => hblock.idle hnone journal, fun failure hfailure => ?_,
      fun husage hsome before => ?_⟩
    · by_cases hsome : ∃ command extra, file.Requests config lines words command extra
      · obtain ⟨command, extra, h⟩ := hsome
        obtain ⟨child, -, -, -, hends⟩ := hstarted command extra h
        exact ⟨child.command, hends.exists_mishap hfailure⟩
      · cases hfailure.symm.trans (hblock.idle hsome journal).2
    · have hrequests : ∃ command extra, file.Requests config lines words command extra := by
        by_contra hnone
        exact hsome (hblock.idle hnone journal).1
      obtain ⟨command, extra, h⟩ := hrequests
      obtain ⟨d, hawaits⟩ := h.exists_awaits husage
      exact hawaits.not_run hblock before

/-- The comment block of a script that says three times where the modes are found, the last time nothing. -/
def hintedLines (hint : Text) : List Text :=
  ["#!/bin/sh", "# Usage: \x7bcmd\x7d <name> [--mode=MODE]", "# Options:", "#  mode (script): how",
    "#  mode (\x60" ++ hint ++ "\x60): how", "#  mode: how else"]

def hintedScript : ScriptFile :=
  ⟨["greet"], ⟨.root, ["cmd", "libexec", "greet"]⟩, [], none⟩

def hintedHost (hint : Text) : Host :=
  let content := (Text.join "\n" (hintedLines hint)).map fun g => UInt8.ofNat g.code
  ⟨FileTree.empty.write hintedScript.path 0o755 content, [], .root, .root⟩

def modeDeclaration : Declaration :=
  ⟨.option "MODE", "--mode", false, false, some (.plain "how else")⟩

/-- The child that runs a hint. -/
def hintChild (hint : Text) : Child :=
  ⟨.shell (.text hint), sampleConfig.environment [] []⟩

/-- A hint that is a word, and one with a zero byte in it. -/
def sampleHints : List Text :=
  ["modes", "a\x00b"]

theorem hintedScript_awaits {hint : Text} (h : hint ∈ sampleHints) :
    hintedScript.Awaits sampleConfig (hintedLines hint) ["Ada", "--mode"] modeDeclaration := by
  have hstated : ∀ hint ∈ sampleHints, (hintedScript.withBlock (hintedLines hint)).docs.usage =
      some "# Usage: \x7bcmd\x7d <name> [--mode=MODE]" := by decide +kernel
  have hread : Usage.parse? "# Usage: \x7bcmd\x7d <name> [--mode=MODE]" = .ok
      ⟨[⟨.positional "name", true, false⟩, ⟨.long "mode" (some "MODE"), false, false⟩], none⟩ := by
    decide +kernel
  have hrefused : ∀ hint ∈ sampleHints, ((hintedScript.withBlock (hintedLines hint)).signature
      (Node.prog sampleConfig (.file hintedScript)) sampleConfig.infer).toOption.map
        (fun sig => sig.parse ["Ada", "--mode"]) = some (.error (.valueMissing modeDeclaration 2)) := by
    decide +kernel
  obtain ⟨wellMade, hsig⟩ := (hintedScript.withBlock (hintedLines hint)).signature_eq
    (Node.trim_prog_ne_nil sampleConfig (.file hintedScript)) sampleConfig.infer
  have hparse := hrefused hint h
  rw [hsig] at hparse
  obtain ⟨hkind, habout⟩ := ArgumentFault.awaited?_eq_some_iff.mp
    (rfl : (ArgumentFault.valueMissing modeDeclaration 2).awaited? = some modeDeclaration)
  exact ⟨hstated hint h, hread, hsig, Option.some.inj hparse, hkind, habout⟩

theorem hintedScript_hints : ∀ hint ∈ sampleHints,
    OptionLine.Hints (hintedScript.withBlock (hintedLines hint)).docs.options modeDeclaration.key
      (some (.command hint)) := by
  simp only [OptionLine.hints_iff]
  decide +kernel

theorem hintedScript_shows {hint : Text} (h : hint ∈ sampleHints) :
    hintedScript.Shows (hintedHost hint).files (hintedLines hint) := by
  refine ScriptFile.shows_of_blockAt rfl ?_
  simp only [sampleHints, List.mem_cons, List.not_mem_nil, or_false] at h
  rcases h with rfl | rfl <;> cbv

theorem hintedScript_requests {hint : Text} (h : hint ∈ sampleHints) :
    hintedScript.Requests sampleConfig (hintedLines hint) ["Ada", "--mode"] (.shell (.text hint)) [] :=
  .command (hintedScript_awaits h) (hintedScript_hints hint h)

theorem completes_iff_hinted :
    let run := (complete sampleConfig (hintedHost "modes") (.file (hintedScript.withWords ["Ada", "--mode"]))).perform
      (.start [])
    Completes sampleConfig (hintedHost "modes") hintedScript (hintedLines "modes") ["Ada", "--mode"] (.start [])
      run := by
  have hmem : Text.lit "modes" ∈ sampleHints := by decide
  have hchild : ∀ command extra,
      hintedScript.Requests sampleConfig (hintedLines "modes") ["Ada", "--mode"] command extra →
        (⟨command, sampleConfig.environment [] extra⟩ : Child) = hintChild "modes" :=
    fun command extra h => h.child_unique (hintedScript_requests hmem) (hintedHost "modes")
  have hfit : (hintChild "modes").CanEndIn .success ∧ (hintChild "modes").IsPassable := by decide +kernel
  exact (completes_iff sampleConfig (hintedHost "modes") hintedScript (hintedLines "modes") ["Ada", "--mode"]
    (.start []) (hintedScript_shows hmem) fun command extra h => (hchild command extra h).symm ▸ hfit.1).1.mpr
      fun command extra h => (hchild command extra h).symm ▸ hfit.2

/-- The contract does not hold of all scripts: a hint that holds a zero byte is requested, and nothing is
started for it. -/
theorem not_completes_everywhere :
    ¬∀ (config : Config) (host : Host) (file : ScriptFile) (lines words : List Text) (journal : Journal),
      file.Shows host.files lines →
      (∀ command extra, file.Requests config lines words command extra →
        (⟨command, config.environment host.environment extra⟩ : Child).CanEndIn journal.next) →
      Completes config host file lines words journal
        ((complete config host (.file (file.withWords words))).perform journal) := by
  intro hclaim
  have hmem : Text.lit "a\x00b" ∈ sampleHints := by decide
  have hrequests := hintedScript_requests hmem
  have hshows := hintedScript_shows hmem
  have hnext : ∀ command extra,
      hintedScript.Requests sampleConfig (hintedLines "a\x00b") ["Ada", "--mode"] command extra →
        (⟨command, sampleConfig.environment [] extra⟩ : Child).CanEndIn .unfit := by
    intro command extra h
    have hchild : (⟨command, sampleConfig.environment [] extra⟩ : Child) = hintChild "a\x00b" :=
      h.child_unique hrequests (hintedHost "a\x00b")
    rw [hchild]
    decide +kernel
  have hcontract := hclaim sampleConfig (hintedHost "a\x00b") hintedScript (hintedLines "a\x00b")
    ["Ada", "--mode"] (.start [.unfit]) hshows hnext
  obtain ⟨child, hstarted, -⟩ := hcontract.started _ _ hrequests
  obtain ⟨hnone, -⟩ := hrequests.not_started hshows (rfl : (Journal.start [.unfit]).next = .unfit)
  have hnothing : [] = [child] := hnone.symm.trans hstarted
  cases hnothing

end Node

end CommandTree
