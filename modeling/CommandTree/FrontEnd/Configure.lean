import CommandTree.Fault.Report
import CommandTree.FrontEnd.Split
import CommandTree.Node.Basic

/-!
# The arguments of the program

    sub --name NAME (--absolute ROOT | --executable PATH --relative REL)
        [--color WHEN] [--infer-long-arguments] -- [ARGS]...

The arguments of the program say which command tree is served: its name, its root directory, given
absolutely or relative to the directory of a launcher, and how.  `FrontEnd.signature` is the signature of
the program and `FrontEnd.configure` makes a configuration of the values.

Whoever hands the values in may give values of any kind (`FrontEnd.Settings`); they are checked in a fixed
order: which of them are given, the paths, the color mode, and last the fields of the configuration.
-/

namespace CommandTree

namespace FrontEnd

/-! ## The signature of the program -/

/-- A switch of the program that is given alone. -/
def soleFlag (name description : Text) : Declaration :=
  ⟨.flag, name, false, true, some (.plain description)⟩

/-- An option of the program that may be left out. -/
def freeOption (name metavar description : Text) : Declaration :=
  ⟨.option metavar, name, false, false, some (.plain description)⟩

/-- The declarations of the program. -/
def declarations : List Declaration :=
  [soleFlag "--help" "show this help and exit",
    soleFlag "--version" "show the version and exit",
    ⟨.option "NAME", "--name", true, false,
      some (.plain "name of the CLI (used in usage and _\x7bNAME\x7d_... variables)")⟩,
    freeOption "--absolute" "ROOT" "absolute path of the CLI root",
    freeOption "--executable" "PATH" "path of the launcher, combined with --relative",
    freeOption "--relative" "REL" "root relative to the launcher directory",
    freeOption "--color" "WHEN" "auto, always or never (default: auto)",
    ⟨.flag, "--infer-long-arguments", false, false,
      some (.plain "accept unique prefixes of long options")⟩,
    ⟨.cardinal true, "args", false, false,
      some (.plain "arguments of the CLI, after '--'")⟩]

theorem wellMade_declarations : Signature.WellMade declarations := by
  refine ⟨?_, by decide, by unfold Signature.GreedyLast; decide⟩
  intro d hd
  simp only [declarations, List.mem_cons, List.not_mem_nil, or_false] at hd
  rcases hd with rfl | rfl | rfl | rfl | rfl | rfl | rfl | rfl | rfl <;>
    exact ⟨by decide, by decide, by decide, by decide⟩

/-- The signature of the program. -/
def signature : Signature :=
  { prog := Report.usualProg
    declarations
    summary := .text "Turn a directory of scripts into a command-line interface"
    description := .none
    infer := false
    wellMade := wellMade_declarations }

/-- The version of the program. -/
def version : Text := "0.0.0"

/-- What the program prints when it is asked for its version. -/
def versionLine : Text := signature.prog ++ " " ++ version

/-! ## Configuring -/

/-- What the program is told, by key. -/
abbrev Settings := Assoc Text Datum

/-- What is given for a key; nothing counts as not given. -/
def given? (settings : Settings) (key : Text) : Option Datum :=
  Datum.present? (List.lookup key settings)

/-- Whether a key is on; it is not if it has no value. -/
def isOn (settings : Settings) (key : Text) : Bool :=
  ((List.lookup key settings).map Datum.truthy).getD false

/-- The root directory that is given absolutely. -/
def absoluteRoot : Datum → Except Failure Path
  | .text absolute =>
    if (Path.ofText absolute).isAbsolute then .ok (.ofText absolute)
    else .error (.cause (.invocation (.notAbsolute absolute)))
  | _ => .error (.misuse .notPath)

/-- The root directory that is given relative to the directory of a launcher, which itself may be relative to
the directory in which the program was called. -/
def relativeRoot (directory : Path) : Datum → Datum → Except Failure Path
  | .text executable, .text relative =>
    .ok ((Path.absolute directory executable).parent.append (.ofText relative)).normalize
  | _, _ => .error (.misuse .notPath)

/-- The root directory, for a program that was called in a directory. -/
def rootOf (directory : Path) (settings : Settings) : Except Failure Path :=
  match given? settings "absolute", given? settings "executable", given? settings "relative" with
  | some _, some _, _ | some _, none, some _ => .error (.cause (.invocation .absoluteWithOthers))
  | none, some _, none | none, none, some _ => .error (.cause (.invocation .executableAlone))
  | none, none, none => .error (.cause (.invocation .rootMissing))
  | some absolute, none, none => absoluteRoot absolute
  | none, some executable, some relative => relativeRoot directory executable relative

/-- The color mode that a datum names. -/
def modeOf? : Datum → Option ColorMode
  | .text word => ColorMode.ofWord? word
  | _ => none

/-- The color mode. -/
def colorOf (settings : Settings) : Except Failure ColorMode :=
  match List.lookup (Text.lit "color") settings with
  | none => .ok .auto
  | some color =>
    match modeOf? color with
    | some mode => .ok mode
    | none => .error (.cause (.invocation (.unknownColor color.quoted)))

/-- The configuration for a root directory and a color mode. -/
def configureWith (host : Host) (settings : Settings) (root : Path) (color : ColorMode) :
    Except Failure Config :=
  match List.lookup (Text.lit "name") settings with
  | none => .error (.misuse .noName)
  | some name =>
    let draft : Config.Draft :=
      { name
        root := .text root.toText
        color := .text color.word
        infer := .bool (isOn settings "infer-long-arguments") }
    match Config.make host draft with
    | .ok config => .ok config
    | .error defect =>
      if defect.isAboutKind then .error (.config defect)
      else .error (.cause (.invocation (.badConfig defect)))

/-- The configuration that settings describe. -/
def configure (host : Host) (settings : Settings) : Except Failure Config :=
  match rootOf host.directory settings with
  | .error failure => .error failure
  | .ok root =>
    match colorOf settings with
    | .error failure => .error failure
    | .ok color => configureWith host settings root color

end FrontEnd

end CommandTree
