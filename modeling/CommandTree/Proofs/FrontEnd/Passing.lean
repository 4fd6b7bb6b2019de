import CommandTree.Proofs.FrontEnd.Serving
import CommandTree.Proofs.Node.Help
import CommandTree.Proofs.Node.Invocation
import CommandTree.Proofs.Node.Resolution
import CommandTree.Proofs.Signature.Terminator

/-!
# Passing words on to a script

The words of a user are read three times before a script gets them: they stand behind the arguments of the
program, where `--` separates the two; some of them may select a mode; and the first of them are followed as names
to the script.  Each reading has its own idea of dashes and of `--`.

Here it is shown that nothing is lost on the way.  The greedy cardinal of the program takes all words after `--`
(`Signature.parse_terminator`), and what is configured depends on the words in front of it only
(`FrontEnd.configure_congr`).  Words among which none selects a mode are kept one by one
(`Split.ofWords_of_plain`).  Names that lead to a script lead to it whatever follows them, and what follows them
is what the script is to be called with.

`FrontEnd.passes_iff` puts the three together: the words are passed on exactly if the operating system takes them.
It does not take a word with a zero byte, and then no child is started and what is raised leaves the program.
-/

namespace CommandTree

/-! ## Words that select no mode -/

namespace Split

variable {word : Text} {words : List Text}

/-- The words that are options of the split by themselves. -/
def modeOptions : List Text :=
  ["--usage", "--commands", "--completions", "--validate", "--help", "-h", "--extension"]

/-- Whether a word is an option of the split. -/
def IsModeOption (word : Text) : Prop :=
  word ∈ modeOptions ∨ Text.lit "--extension=" <+: word

/-- Whether no word before the first `--` is an option of the split. -/
def Plain (words : List Text) : Prop :=
  ∀ word ∈ words.takeWhile (· ≠ terminator), ¬IsModeOption word

theorem plain_cons (hword : word ≠ terminator) (h : Plain (word :: words)) : ¬IsModeOption word ∧ Plain words := by
  unfold Plain at h
  rw [List.takeWhile_cons_of_pos (by simpa using hword)] at h
  exact List.forall_mem_cons.mp h

theorem ofSwitch?_eq_none (h : ¬IsModeOption word) : Mode.ofSwitch? word = none := by
  have hother : ∀ option ∈ modeOptions, option ≠ word := by
    rintro option hoption rfl
    exact h (.inl hoption)
  have hlong : ∀ mode ∈ Mode.selectable, terminator ++ mode.word ∈ modeOptions := by decide
  rw [Mode.ofSwitch?, if_neg (hother "-h" (by decide)).symm, List.find?_eq_none]
  intro mode hmode
  simpa using hother _ (hlong mode hmode)

theorem Progress.read_of_plain (h : Plain words) (progress : Progress) :
    progress.read (words.map .text) = .ok (progress.keep (words.map .text)) := by
  induction words generalizing progress with
  | nil => simp [read, keep]
  | cons word rest ih =>
    rw [List.map_cons]
    unfold read
    by_cases hword : word = terminator
    · rw [if_pos hword]
    · obtain ⟨hplain, hrest⟩ := plain_cons hword h
      have hextension : word ≠ extensionSwitch := fun heq => hplain (.inl (by rw [heq]; decide))
      have hinline : Text.after? (extensionSwitch ++ [.char '=']) word = none := by
        rw [Option.eq_none_iff_forall_ne_some]
        intro value hvalue
        exact hplain (.inr ⟨value, (Text.after?_eq_some_iff.mp hvalue).symm⟩)
      rw [if_neg hword, ofSwitch?_eq_none hplain]
      simp only [if_neg hextension, hinline, ih hrest]
      simp [keep]

theorem ofWords_of_plain (h : Plain words) : ofWords (words.map .text) = .ok ⟨.invoke, none, words.map .text⟩ := by
  rw [ofWords, Progress.read_of_plain h]
  rfl

end Split

namespace FrontEnd

variable {host : Host} {config : Config} {settings others : Settings} {options words : List Text} {values : Values}

/-! ## The arguments of the program -/

/-- The declaration that takes the words after `--`. -/
def restDeclaration : Declaration :=
  ⟨.cardinal true, "args", false, false, some (.plain "arguments of the CLI, after '--'")⟩

theorem cardinals_signature : signature.cardinals = [restDeclaration] := by
  decide

/-- The words after `--` have no part in the configuration. -/
theorem configure_congr (host : Host)
    (h : ∀ key, key ≠ Text.lit "args" → List.lookup key settings = List.lookup key others) :
    configure host settings = configure host others := by
  have habsolute := h "absolute" (by decide)
  have hexecutable := h "executable" (by decide)
  have hrelative := h "relative" (by decide)
  have hcolor := h "color" (by decide)
  have hname := h "name" (by decide)
  have hinfer := h "infer-long-arguments" (by decide)
  simp only [configure, rootOf, given?, colorOf, configureWith, isOn, habsolute, hexecutable, hrelative, hcolor, hname,
    hinfer]

theorem name_mem_of_configure (h : configure host settings = .ok config) :
    Text.lit "name" ∈ Assoc.keys settings := by
  unfold configure at h
  split at h
  · cases h
  · split at h
    · cases h
    · unfold configureWith at h
      split at h
      · cases h
      · rename_i hname
        exact Assoc.mem_keys_iff.mpr ⟨_, hname⟩

/-- A program that can be configured is not asked for help or for its version, which are given alone. -/
theorem exclusive_eq_false_of_configure (hparse : signature.parse options = .ok values)
    (hconfigure : configure host values.data = .ok config) :
    ∀ d ∈ signature.declarations, d.key ∈ Assoc.keys values → d.exclusive = false := by
  have hname := name_mem_of_configure hconfigure
  rw [Values.keys_data] at hname
  rcases (Signature.spelling_of_parse hparse).1.complete with ⟨d, hd, hexclusive, hkeys⟩ | ⟨hplain, -⟩
  · have hkey : d.key = Text.lit "name" := (List.mem_singleton.mp (hkeys ▸ hname)).symm
    have hnone : ∀ d ∈ signature.declarations, d.key = Text.lit "name" → d.exclusive = false := by decide
    rw [hnone d hd hkey] at hexclusive
    cases hexclusive
  · exact hplain

theorem configures_terminator (hparse : signature.parse options = .ok values) (hoptions : terminator ∉ options)
    (hnone : Text.lit "args" ∉ Assoc.keys values) (hconfigure : configure host values.data = .ok config)
    (words : List Text) :
    Configures host ((options ++ terminator :: words).map .text) config (words.map .text) := by
  have hplain := exclusive_eq_false_of_configure hparse hconfigure
  obtain ⟨more, hmore, hothers, hargs⟩ :=
    Signature.parse_terminator cardinals_signature rfl rfl hparse hoptions hnone hplain words
  have hread : signature.values ((options ++ terminator :: words).map .text) = .ok more.data := by
    rw [Signature.values, Signature.parseData_text, hmore]
    rfl
  have hsame : ∀ key, key ≠ Text.lit "args" → List.lookup key more.data = List.lookup key values.data := by
    intro key hkey
    rw [Values.lookup_data, Values.lookup_data, hothers key hkey]
  have hoff : ∀ d ∈ signature.declarations, d.exclusive = true → isOn more.data d.key = false := by
    intro d hd hexclusive
    have hkey : d.key ≠ Text.lit "args" := by
      revert hexclusive
      revert d
      decide
    have hnot : d.key ∉ Assoc.keys values.data := by
      rw [Values.keys_data]
      exact fun hmem => absurd (hplain d hd hmem) (by simp [hexclusive])
    rw [isOn, hsame d.key hkey, Assoc.lookup_eq_none_iff.mpr hnot]
    rfl
  have hcaptured : captured more.data "args" = words.map .text := by
    have hrest : List.lookup (Text.lit "args") more =
        List.lookup (Text.lit "args") (Walk.capture restDeclaration words) := hargs
    rw [captured, Values.lookup_data, hrest]
    cases words <;> rfl
  rw [← hcaptured]
  refine ⟨hread, ?_, ?_, ?_⟩
  · exact hoff (soleFlag "--help" "show this help and exit") (by decide) rfl
  · exact hoff (soleFlag "--version" "show the version and exit") (by decide) rfl
  · rw [configure_congr host hsame, hconfigure]

/-! ## Running the script -/

variable {names args : List Text} {path : Path} {docs : Docs}

/-- The child that passes some words on to the script at a path, which has no usage line. -/
def scriptChild (config : Config) (host : Host) (path : Path) (args : List Text) : Child :=
  ⟨.program path.toText (args.map .text), config.environment host.environment [(Text.lit "args", [])]⟩

/-- Names and words that lead to a script without a usage line run it with the words. -/
theorem dispatch_passes (config : Config) (args : List Text) (journal : Journal)
    (hresolve : Node.resolve config host.files (names.map .text) = .ok (.file ⟨names, path, [], none⟩))
    (hdocs : Docs.Documents host.files path docs) (husage : docs.usage = none) :
    ∃ skipped, (dispatch config host ⟨.invoke, none, (names ++ args).map .text⟩).perform journal =
      (Action.run (scriptChild config host path args)).perform { journal with skipped := skipped } := by
  have hreaches := Node.reachesScript_of_resolve hresolve
  have hfound : Node.resolve config host.files ((names ++ args).map .text) =
      .ok (.file ⟨names, path, args.map .text, none⟩) := by
    rw [List.map_append]
    exact hreaches.stable (args.map .text)
  have hread : ScriptFile.read host.files ⟨names, path, args.map .text, none⟩ = .ok ⟨path, docs⟩ := by
    rw [ScriptFile.read, Script.load, Docs.documents_iff.mpr hdocs]
    rfl
  obtain ⟨skipped, hinvoke⟩ := ScriptFile.perform_invoke config host ⟨names, path, args.map .text, none⟩ journal
  refine ⟨skipped, ?_⟩
  rw [dispatch, Action.perform_bind, Action.perform_ofExcept, hfound]
  rw [hread] at hinvoke
  have harguments : ScriptFile.arguments config ⟨names, path, args.map .text, none⟩ ⟨path, docs⟩ = .ok [] :=
    ScriptFile.arguments_of_noUsage husage
  simp only [harguments] at hinvoke
  exact hinvoke

/-- The exit code of the program is that of the child, or 1 if the child has none. -/
theorem settle_result {outcome : Child.Outcome} (child : Child) (hfit : outcome ≠ .unfit) :
    (∀ code : Nat, outcome = .exit code → settle (child.result outcome) = .ok code) ∧
    ((∀ code : Nat, outcome ≠ .exit code) → settle (child.result outcome) = .ok 1) := by
  constructor
  · rintro code rfl
    rfl
  · intro hnone
    generalize hresult : child.result outcome = result
    cases hresult ▸ child.ends_result hfit with
    | exited code => exact absurd rfl (hnone code)
    | killed signal pos => rfl
    | interrupted => rfl
    | notStarted reason => rfl

/-- Options of the program that configure it, names that lead to a script without a usage line, and words for
the script, so that no name or word in front of a `--` is an option of the split. -/
inductive Addresses (host : Host) (config : Config) (options names args : List Text) (path : Path) : Prop where
  | intro {values : Values} {docs : Docs} (parsed : signature.parse options = .ok values)
      (unseparated : terminator ∉ options) (unpositional : Text.lit "args" ∉ Assoc.keys values)
      (configured : configure host values.data = .ok config)
      (resolved : Node.resolve config host.files (names.map .text) = .ok (.file ⟨names, path, [], none⟩))
      (documented : Docs.Documents host.files path docs) (noUsage : docs.usage = none)
      (plain : Split.Plain (names ++ args))

/-- What passing words on to the script at a path is: one child is started, which is called with the words as
they are and is told of no values, and its exit code is that of the program, or the program ends with 1. -/
def Passes (config : Config) (host : Host) (path : Path) (args : List Text) (journal : Journal)
    (run : Except Failure Nat × Journal) : Prop :=
  ∃ child : Child, run.2.children = journal.children ++ [child] ∧
    child.command = .program path.toText (args.map .text) ∧
    config.Provides host.environment [] child.environment ∧
    (∀ code : Nat, journal.next = .exit code → run.1 = .ok code) ∧
    ((∀ code : Nat, journal.next ≠ .exit code) → run.1 = .ok 1)

theorem Addresses.perform_run (h : Addresses host config options names args path) (journal : Journal) :
    let run := (FrontEnd.run host ((options ++ terminator :: (names ++ args)).map .text)).perform journal
    run.2.children = (journal.afterChild (scriptChild config host path args)).children ∧
      run.1 = settle ((scriptChild config host path args).result journal.next) := by
  intro run
  obtain ⟨parsed, unseparated, unpositional, configured, resolved, documented, noUsage, plain⟩ := h
  have hconfigures := configures_terminator parsed unseparated unpositional configured (names ++ args)
  obtain ⟨skipped, hdispatch⟩ := dispatch_passes config args { journal with skipped := [] } resolved documented noUsage
  rw [Action.perform_run] at hdispatch
  have hrun : run = _ := (Ends.served hconfigures (Split.ofWords_of_plain plain) hdispatch).perform_run
  rw [hrun]
  exact ⟨rfl, rfl⟩

theorem Addresses.not_started (h : Addresses host config options names args path) {journal : Journal}
    (hunfit : journal.next = .unfit) :
    let run := (FrontEnd.run host ((options ++ terminator :: (names ++ args)).map .text)).perform journal
    run.2.children = journal.children ∧ run.1 = .error (.misuse .unfitChild) := by
  intro run
  obtain ⟨hchildren, hresult⟩ := h.perform_run journal
  exact ⟨hchildren.trans (Journal.children_afterChild_of_unfit hunfit), hresult.trans (by rw [hunfit]; rfl)⟩

/-- Whatever is not an option of the program, and selects no mode, reaches the script behind `--`, exactly if it
can be passed on to the operating system.  If it cannot, nothing is started, and what is raised leaves the
program. -/
theorem passes_iff (journal : Journal) (h : Addresses host config options names args path)
    (hnext : (scriptChild config host path args).CanEndIn journal.next) :
    let run := (FrontEnd.run host ((options ++ terminator :: (names ++ args)).map .text)).perform journal
    (Passes config host path args journal run ↔ (scriptChild config host path args).IsPassable) ∧
      (¬(scriptChild config host path args).IsPassable →
        run.2.children = journal.children ∧ run.1 = .error (.misuse .unfitChild)) := by
  intro run
  have hunfit : ¬(scriptChild config host path args).IsPassable →
      run.2.children = journal.children ∧ run.1 = .error (.misuse .unfitChild) :=
    fun hnot => h.not_started (hnext.eq_unfit hnot)
  refine ⟨⟨fun ⟨child, hstarted, _⟩ => ?_, fun hpassable => ?_⟩, hunfit⟩
  · by_contra hnot
    simp [(hunfit hnot).1] at hstarted
  · have hfit := hnext.ne_unfit hpassable
    obtain ⟨hchildren, hresult⟩ := h.perform_run journal
    obtain ⟨hcode, hnone⟩ := settle_result (scriptChild config host path args) hfit
    exact ⟨_, hchildren.trans (Journal.children_afterChild hfit), rfl,
      config.provides_environment host.environment [], fun code hexit => hresult.trans (hcode code hexit),
      fun hother => hresult.trans (hnone hother)⟩

/-- The configuration for the name `cmd` and the root `/cmd` on the sample host. -/
def servedConfig : Config :=
  { Node.sampleConfig with cache := ⟨.root, [".cache", "cmd"]⟩ }

/-- The options of the program that give this configuration. -/
def sampleOptions : List Text :=
  ["--name", "cmd", "--absolute=/cmd"]

/-- The names of the script, through the link. -/
def sampleNames : List Text :=
  ["also", "copy"]

/-- What a script is called with: a switch of its own, a separator, and a word that would select a mode. -/
def sampleArgs : List Text :=
  ["-v", "--", "--usage"]

theorem addresses_sample {args : List Text} (hplain : Split.Plain (sampleNames ++ args)) :
    Addresses Node.sampleHost servedConfig sampleOptions sampleNames args
      ⟨.root, ["cmd", "libexec", "also", "copy"]⟩ := by
  have hparse : signature.parse sampleOptions = .ok [("name", .text "cmd"), ("absolute", .text "/cmd")] := rfl
  have hconfigure : configure Node.sampleHost (Values.data [("name", .text "cmd"), ("absolute", .text "/cmd")]) =
      .ok servedConfig := by cbv
  have hresolve : Node.resolve servedConfig Node.sampleHost.files (sampleNames.map .text) =
      .ok (.file ⟨sampleNames, ⟨.root, ["cmd", "libexec", "also", "copy"]⟩, [], none⟩) := by cbv
  have hstat : Node.sampleHost.files.stat ⟨.root, ["cmd", "libexec", "also", "copy"]⟩ = .ok (.file 0o755 []) := by cbv
  exact .intro hparse (by decide) (by decide) hconfigure hresolve (.intro hstat rfl) rfl hplain

theorem passes_iff_sample :
    let argv := (sampleOptions ++ terminator :: (sampleNames ++ sampleArgs)).map .text
    let run := (FrontEnd.run Node.sampleHost argv).perform (.start [.exit 3])
    Passes servedConfig Node.sampleHost ⟨.root, ["cmd", "libexec", "also", "copy"]⟩ sampleArgs (.start [.exit 3]) run ∧
      run.1 = .ok 3 := by
  have hplain : Split.Plain (sampleNames ++ sampleArgs) := by
    unfold Split.Plain Split.IsModeOption
    decide
  let child := scriptChild servedConfig Node.sampleHost ⟨.root, ["cmd", "libexec", "also", "copy"]⟩ sampleArgs
  have hfit : child.CanEndIn (.exit 3) ∧ child.IsPassable := by decide +kernel
  have hpasses := (passes_iff (.start [.exit 3]) (addresses_sample hplain) hfit.1).1.mpr hfit.2
  refine ⟨hpasses, ?_⟩
  obtain ⟨_, -, -, -, hcode, -⟩ := hpasses
  exact hcode 3 rfl

/-- Not everything reaches the script: a word that holds a zero byte does not. -/
theorem not_passes_everywhere :
    ¬∀ (host : Host) (config : Config) (options names args : List Text) (path : Path) (journal : Journal),
      Addresses host config options names args path → (scriptChild config host path args).CanEndIn journal.next →
      Passes config host path args journal
        ((FrontEnd.run host ((options ++ terminator :: (names ++ args)).map .text)).perform journal) := by
  intro hclaim
  have hplain : Split.Plain (sampleNames ++ [Text.lit "a\x00b"]) := by
    unfold Split.Plain Split.IsModeOption
    decide
  have haddresses := addresses_sample hplain
  let child := scriptChild servedConfig Node.sampleHost ⟨.root, ["cmd", "libexec", "also", "copy"]⟩ ["a\x00b"]
  have hnext : child.CanEndIn .unfit := by decide +kernel
  obtain ⟨other, hstarted, -⟩ := hclaim _ _ _ _ _ _ (.start [.unfit]) haddresses hnext
  obtain ⟨hnone, -⟩ := haddresses.not_started (rfl : (Journal.start [.unfit]).next = .unfit)
  have hnothing : [] = [other] := hnone.symm.trans hstarted
  cases hnothing

end FrontEnd

end CommandTree
