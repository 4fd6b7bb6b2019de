import CommandTree.Proofs.FileTree.Writing
import CommandTree.Proofs.Script.Compilation
import CommandTree.Proofs.Script.OptionLines
import Mathlib.Data.List.Basic

/-!
# Loading scripts

A script is loaded whenever the lines of its comment block are UTF-8, whatever they say; what cannot be read
is kept (`Script.Keeps`).  A script that was loaded has a signature for every command line that is not
blank, and the signature states what the usage line does (`Script.Compiles`): a declaration for each of its
arguments, in order, and one for the rest capture.

That no check of a declaration or of a signature fails is `Script.signature_eq`.  Here the declarations are
compared with the usage line argument by argument, and their descriptions with the option lines.

`Script.load_compiles` is the contract.
-/

namespace CommandTree

/-! ## Comment blocks -/

namespace Block

/-- Lines that are UTF-8 are decoded one by one. -/
theorem exists_decodeFrom {raw : List (List UInt8)} (number : Nat)
    (h : ∀ line ∈ raw, (Text.ofUtf8? line).isSome = true) :
    ∃ lines, decodeFrom number raw = .ok lines := by
  induction raw generalizing number with
  | nil => exact ⟨[], rfl⟩
  | cons line rest ih =>
    obtain ⟨text, htext⟩ := Option.isSome_iff_exists.mp (h line (by simp))
    obtain ⟨lines, hlines⟩ := ih (number + 1) fun other hother => h other (List.mem_cons_of_mem _ hother)
    exact ⟨cleanLine text :: lines, by simp [decodeFrom, htext, hlines, Except.map]⟩

end Block

theorem Docs.ofFile_eq_ok {tree : FileTree} {path : Path} {content : List UInt8} {lines : List Text}
    (hread : tree.read path = .ok content) (hlines : Block.read content = .ok lines) :
    ofFile tree path = .ok (ofLines lines) := by
  simp [ofFile, blockAt, hread, hlines, Except.map]

/-! ## Option lines -/

namespace OptionLine

variable {lines : List Text}

/-- What some lines say about a key: what the last option line of this name says, among those that can be
read and say something; nothing if there is none. -/
inductive Describes (lines : List Text) (key : Text) : Option Description → Prop where
  | absent (silent : ∀ line ∈ lines, ∀ read, parse? line = .ok read → read.name = key →
      read.description = none) : Describes lines key none
  | last {before after : List Text} {line text : Text} {read : OptionLine}
      (split : lines = before ++ line :: after) (parses : parse? line = .ok read) (name : read.name = key)
      (description : read.description = some text) (nonempty : text ≠ [])
      (final : ∀ later ∈ after, ∀ other, parse? later = .ok other → other.name = key →
        other.description = none) :
      Describes lines key (some (.plain text))

/-- The description of a key is what the lines say about it. -/
theorem describes_description? (lines : List Text) (key : Text) :
    Describes lines key ((Script.description? (accepted lines) key).map .plain) := by
  cases hfound : Script.description? (accepted lines) key with
  | none =>
    refine .absent fun line hline read hread hname => ?_
    have hnone := silent_of_findSome? hfound hline hread
    rwa [if_pos hname] at hnone
  | some text =>
    obtain ⟨before, line, after, read, hlines, hread, hsaid, hfinal⟩ := exists_last hfound
    have hname : read.name = key := by
      by_contra hne
      rw [if_neg hne] at hsaid
      cases hsaid
    rw [if_pos hname] at hsaid
    have hmem : read ∈ accepted lines := mem_accepted.mpr ⟨line, by simp [hlines], hread⟩
    have hnonempty : text ≠ [] := (trim_description hmem hsaid).2
    refine .last hlines hread hname hsaid hnonempty fun later hlater other hother hkey => ?_
    have hnone := hfinal later hlater other hother
    rwa [if_pos hkey] at hnone

end OptionLine

/-! ## Declarations and what they stand for -/

namespace Usage

open OptionLine (Describes)

/-- Whether a declaration is that of an argument of a usage line: a cardinal for a positional name, a flag
for a letter or a long name without a value, and an option with its placeholder for one with a value. -/
structure Argument.Declares (lines : List Text) (argument : Argument) (d : Declaration) : Prop where
  kind : d.kind = argument.form.kind
  name : d.name = argument.form.declaredName
  key : d.key = argument.key
  required : d.required = argument.required
  exclusive : d.exclusive = argument.exclusive
  description : Describes lines argument.key d.description

/-- Whether a declaration is that of a rest capture: an optional greedy cardinal. -/
structure DeclaresRest (lines : List Text) (capture : Text) (d : Declaration) : Prop where
  kind : d.kind = .cardinal true
  name : d.name = capture
  key : d.key = capture
  required : d.required = false
  exclusive : d.exclusive = false
  description : Describes lines capture d.description

theorem Argument.declares_declaration {argument : Argument} (h : argument.WellFormed) (lines : List Text) :
    argument.Declares lines (argument.declaration (OptionLine.accepted lines)) where
  kind := rfl
  name := rfl
  key := h.key_declaration _
  required := rfl
  exclusive := rfl
  description := OptionLine.describes_description? lines argument.key

theorem declaresRest_restDeclaration (capture : Text) (lines : List Text) :
    DeclaresRest lines capture (restDeclaration (OptionLine.accepted lines) capture) where
  kind := rfl
  name := rfl
  key := rfl
  required := rfl
  exclusive := rfl
  description := OptionLine.describes_description? lines capture

end Usage

namespace Script

variable {script : Script} {sig : Signature} {prog : Text} {infer : Bool}

/-! ## The contract -/

/-- What a script keeps of its annotations: the usage that its usage line states, or what is wrong with the
line; and of its option lines those that can be read, and what is wrong with the others. -/
structure Keeps (script : Script) : Prop where
  absent : script.docs.usage = none → script.usage = none ∧ script.usageCause = none
  read : ∀ line usage, script.docs.usage = some line → Usage.parse? line = .ok usage →
    script.usage = some usage ∧ script.usageCause = none
  broken : ∀ line problems, script.docs.usage = some line → Usage.parse? line = .error problems →
    script.usage = none ∧ script.usageCause = some (.invalidUsage line problems (some script.path))
  options : ∀ option, option ∈ script.options ↔
    ∃ line ∈ script.docs.options, OptionLine.parse? line = .ok option
  skipped : ∀ line problem,
    .invalidOption ⟨line, problem⟩ (some script.path) ∈ script.optionCauses ↔
      line ∈ script.docs.options ∧ OptionLine.parse? line = .error problem

theorem keeps (script : Script) : script.Keeps where
  absent h := by simp [usage, reading, usageCause, h]
  read line usage hline hparse := by
    simp [Script.usage, reading, usageCause, hline, hparse, Except.toOption]
  broken line problems hline hparse := by
    simp [usage, reading, usageCause, hline, hparse, Except.toOption]
  options option := OptionLine.mem_accepted
  skipped line problem := by
    simp [optionCauses, Script.skipped, OptionLine.mem_skipped]

/-- Whether a signature for a command line is what the annotations of a script state: the declarations of
the usage line in order, and those of its rest capture; none without a usage line that can be read. -/
structure Compiles (script : Script) (prog : Text) (infer : Bool) (sig : Signature) : Prop where
  prog : sig.prog = prog.trim
  infer : sig.infer = infer
  bare : script.usage = none → sig.declarations = []
  stated : ∀ usage, script.usage = some usage → ∃ ds rest, sig.declarations = ds ++ rest ∧
    List.Forall₂ (Usage.Argument.Declares script.docs.options) usage.arguments ds ∧
    List.Forall₂ (Usage.DeclaresRest script.docs.options) usage.rest.toList rest

theorem exists_compiles (script : Script) (hprog : prog.trim ≠ []) (infer : Bool) :
    ∃ sig, script.signature prog infer = .ok sig ∧ script.Compiles prog infer sig := by
  obtain ⟨wellMade, hsignature⟩ := script.signature_eq hprog infer
  refine ⟨_, hsignature, rfl, rfl, fun hnone => ?_, fun usage husage => ?_⟩
  · simp [declarations, hnone]
  have hwellFormed := wellFormed_usage husage
  have hdeclarations : script.declarations = usage.declarations script.options := by
    simp [declarations, husage]
  refine ⟨usage.arguments.map (Usage.Argument.declaration script.options),
    usage.rest.toList.map (Usage.restDeclaration script.options), hdeclarations, ?_, ?_⟩
  · rw [List.forall₂_map_right_iff, List.forall₂_same]
    intro argument hargument
    exact Usage.Argument.declares_declaration (hwellFormed.1 argument hargument) _
  · rw [List.forall₂_map_right_iff, List.forall₂_same]
    intro capture _
    exact Usage.declaresRest_restDeclaration capture _

/-- A file whose comment block is UTF-8 is loaded, with what is wrong with its annotations kept, and has a
signature for every command line that is not blank, which states what the annotations do. -/
theorem load_compiles {tree : FileTree} {path : Path} {content : List UInt8}
    (hread : tree.read path = .ok content)
    (hutf8 : ∀ line ∈ Block.rawBlock content, (Text.ofUtf8? line).isSome = true) :
    ∃ lines script, Block.read content = .ok lines ∧ load tree path = .ok script ∧
      script.path = path ∧ script.docs = Docs.ofLines lines ∧ script.Keeps ∧
      ∀ prog : Text, prog.trim ≠ [] → ∀ infer, ∃ sig,
        script.signature prog infer = .ok sig ∧ script.Compiles prog infer sig := by
  obtain ⟨lines, hlines⟩ := Block.exists_decodeFrom 1 hutf8
  have hload : load tree path = .ok ⟨path, Docs.ofLines lines⟩ := by
    rw [load, Docs.ofFile_eq_ok hread hlines]
    rfl
  exact ⟨lines, _, hlines, hload, rfl, rfl, keeps _, fun _ hprog infer => exists_compiles _ hprog infer⟩

/-- The file of a script whose annotations are not all right; what follows them is no text. -/
def greeting : List UInt8 :=
  let text := "#!/bin/sh\n# Usage: \x7bcmd\x7d <name> [-l]! [rest]...\n# Options:\n#  name: who\n#  odd\n"
  text.toUTF8.toList ++ [0xFF]

def greetingPath : Path :=
  ⟨.root, ["cmd", "greet"]⟩

def greetingTree : FileTree :=
  FileTree.empty.write greetingPath 0o755 greeting

theorem load_compiles_greeting :
    greetingTree.read greetingPath = .ok greeting ∧
      (∀ line ∈ Block.rawBlock greeting, (Text.ofUtf8? line).isSome = true) ∧
      ∃ script sig, load greetingTree greetingPath = .ok script ∧ script.Keeps ∧
        script.signature "cmd greet" false = .ok sig ∧ script.Compiles "cmd greet" false sig := by
  have hread : greetingTree.read greetingPath = .ok greeting := FileTree.read_write_of_new (by decide) rfl rfl
  have hutf8 : ∀ line ∈ Block.rawBlock greeting, (Text.ofUtf8? line).isSome = true := by decide +kernel
  obtain ⟨lines, script, -, hload, -, -, hkeeps, hcompiles⟩ := load_compiles hread hutf8
  obtain ⟨sig, hsignature, hsig⟩ := hcompiles "cmd greet" (by decide) false
  exact ⟨hread, hutf8, script, sig, hload, hkeeps, hsignature, hsig⟩

end Script

end CommandTree
