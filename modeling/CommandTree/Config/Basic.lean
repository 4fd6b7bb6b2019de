import CommandTree.Datum.Basic
import CommandTree.Host
import CommandTree.Text.Console
import CommandTree.Text.Ident
import CommandTree.Text.UpperCase

/-!
# Configurations

A configuration says which command tree is served and how: the name of its command line, the root
directory with the scripts below `libexec`, the cache directory, when output is coloured, and whether
long switches may be shortened.

## Drafts

A `Config.Draft` is what a caller asks for, with fields of any kind; `Config.make` checks them in a
fixed order and names the first `Config.Defect`.

## Environment

`Config.environment` is the environment of the scripts: that of the program, and variables whose names
are made of the name of the command line and a suffix.
-/

namespace CommandTree

/-- Whether a text may be the name of a command line: it starts with an ASCII letter or digit and goes
on as identifiers do. -/
def Config.isName : Text → Bool
  | [] => false
  | g :: rest => (g.isAsciiLetter || g.isAsciiDigit) && rest.all Glyph.isIdentTail

/-- What a command tree is served with. -/
structure Config where
  /-- The name of the command line. -/
  name : Text
  root : Path
  cache : Path
  color : ColorMode
  /-- Whether long switches of scripts may be shortened. -/
  infer : Bool
  isName_name : Config.isName name = true

namespace Config

/-- The directory of the scripts. -/
def libexec (config : Config) : Path :=
  config.root.child "libexec"

/-- The console on which output is printed. -/
def console (config : Config) : Console :=
  .ofMode config.color

/-- How a configuration is shown. -/
def display (config : Config) : Text :=
  "config(name=" ++ config.name.quoted ++ ", root=" ++ config.root.toText.quoted ++ ", color=" ++
    config.color.word.quoted ++ ")"

/-! ## The cache directory -/

/-- The variable that names the directory for caches. -/
def cacheVariable : Text := "XDG_CACHE_HOME"

/-- The cache directory that a command line has where none is configured: below the directory for caches
where one is named, else below `.cache` in the home directory. -/
def defaultCache (environment : Environment) (home : Path) (name : Text) : Path :=
  match List.lookup cacheVariable environment with
  | none | some [] => (home.child ".cache").append (.ofText name)
  | some base => (Path.ofText base).append (.ofText name)

/-- The cache directory of a name of any kind in an environment whose values are of any kind, if both are
texts where they matter. -/
def defaultCache? (environment : Assoc Text Datum) (home : Path) (name : Datum) : Option Path :=
  match ((List.lookup cacheVariable environment).getD .none).ifTrue, name with
  | .none, .text name => some (defaultCache [] home name)
  | .text base, .text name => some (defaultCache [(cacheVariable, base)] home name)
  | _, _ => none

/-! ## The environment of scripts -/

/-- The name of a variable of a command line. -/
def variableName (config : Config) (suffix : Text) : Text :=
  "_" ++ config.name.toUpper ++ "_" ++ suffix.toUpper

/-- The variables that every script has. -/
def ownVariables (config : Config) : Environment :=
  [(config.variableName "root", config.root.toText), (config.variableName "cache", config.cache.toText)]

/-- Variables with suffixes and values of some kind. -/
def furtherVariables {α : Type} (config : Config) (extra : List (Text × α)) : List (Text × α) :=
  extra.map fun entry => (config.variableName entry.1, entry.2)

/-- The environment of a script: the variables of the program, those that every script has, and those
with the suffixes in `extra`. -/
def environment (config : Config) (parent : Environment) (extra : List (Text × Text)) :
    Environment :=
  (parent.insertAll config.ownVariables).insertAll (config.furtherVariables extra)

/-- The environment with further variables whose values are of any kind. -/
def environmentOfData (config : Config) (parent : Environment) (extra : List (Text × Datum)) :
    Assoc Text Datum :=
  Assoc.insertAll ((config.environment parent []).map fun entry => (entry.1, Datum.text entry.2))
    (config.furtherVariables extra)

/-! ## Drafts -/

/-- What a caller asks for. -/
structure Draft where
  name : Datum
  root : Datum
  cache : Datum := .unset
  color : Datum := .text ColorMode.auto.word
  infer : Datum := .bool false
  out : Datum := .unset
  err : Datum := .unset

/-- What is wrong with a draft. -/
inductive Defect where
  | nameNotText
  | nameInvalid (name : Text)
  | rootNotPath
  | colorNotText
  | colorUnknown
  | notConsole
  | cacheNotPath
deriving DecidableEq

/-- The wording of a defect; a cache directory that is no path has none. -/
def Defect.message : Defect → Text
  | nameNotText => "config 'name' must be a string"
  | nameInvalid name => "config 'name' " ++ name.quoted ++ " is not a valid command name"
  | rootNotPath => "config 'root' must be a path"
  | colorNotText => "config 'color' must be a string"
  | colorUnknown =>
    "config 'color' must be one of " ++
      Text.join ", " (ColorMode.all.map fun mode => mode.word.quoted)
  | notConsole => "config consoles must be rich consoles"
  | cacheNotPath => []

/-- Whether a defect is about the kind of a field and not about its value. -/
def Defect.isAboutKind : Defect → Bool
  | nameInvalid _ | colorUnknown => false
  | _ => true

/-- Whether a datum stands for the usual console. -/
def isUsualConsole : Datum → Bool
  | .unset => true
  | _ => false

/-- The name in a draft. -/
def Draft.checkName (draft : Draft) : Except Defect { name : Text // isName name = true } :=
  match draft.name with
  | .text name => if h : isName name = true then .ok ⟨name, h⟩ else .error (.nameInvalid name)
  | _ => .error .nameNotText

/-- The root directory in a draft. -/
def Draft.checkRoot (draft : Draft) : Except Defect Path :=
  match draft.root with
  | .text root => .ok (.ofText root)
  | _ => .error .rootNotPath

/-- The color mode in a draft. -/
def Draft.checkColor (draft : Draft) : Except Defect ColorMode :=
  match draft.color with
  | .text word =>
    match ColorMode.ofWord? word with
    | some mode => .ok mode
    | none => .error .colorUnknown
  | _ => .error .colorNotText

/-- The cache directory in a draft. -/
def Draft.checkCache (draft : Draft) (usual : Path) : Except Defect Path :=
  match draft.cache with
  | .unset => .ok usual
  | .text path => .ok (.ofText path)
  | _ => .error .cacheNotPath

/-- The configuration that a draft asks for, or the first thing that is wrong with it. -/
def make (host : Host) (draft : Draft) : Except Defect Config := do
  let name ← draft.checkName
  let root ← draft.checkRoot
  let color ← draft.checkColor
  if isUsualConsole draft.out && isUsualConsole draft.err then
    let cache ← draft.checkCache (defaultCache host.environment host.home name)
    return ⟨name.val, root, cache, color, draft.infer.truthy, name.property⟩
  else throw .notConsole

/-! ## Attributes -/

/-- The names of what every configuration has that is no datum: the consoles, what describes it, and its
operations. -/
def inherentNames : List Text :=
  ["_stdout", "_stderr", "__class__", "__delattr__", "__dict__", "__dir__", "__doc__", "__eq__",
    "__format__", "__ge__", "__getattribute__", "__getstate__", "__gt__", "__hash__", "__init__",
    "__init_subclass__", "__le__", "__lt__", "__module__", "__ne__", "__new__", "__reduce__",
    "__reduce_ex__", "__repr__", "__setattr__", "__sizeof__", "__str__", "__subclasshook__",
    "__weakref__"]

/-- The attributes that a configuration has from the start. -/
def attributes (config : Config) : List (Text × Datum) :=
  [("name", .text config.name), ("root", .text config.root.toText),
    ("cache_directory", .text config.cache.toText), ("color", .text config.color.word),
    ("infer_long_arguments", .bool config.infer)]

/-- What a configuration has under a name.  Each attribute also has a private name, which starts with an
underscore; `added` are the attributes that were added later. -/
def attribute? (config : Config) (added : List (Text × Datum)) (name : Text) : Option Datum :=
  if name = "libexec" then some (.text config.libexec.toText)
  else
    List.lookup name
      (config.attributes ++ config.attributes.map (fun entry => (Text.lit "_" ++ entry.1, entry.2)) ++ added)

/-- The attributes added after one more is set.  Only a private name that is still free may be set. -/
def setAttribute (config : Config) (added : List (Text × Datum)) (name : Text) (value : Datum) :
    Option (List (Text × Datum)) :=
  if Text.startsWith "_" name && !inherentNames.contains name && (config.attribute? added name).isNone then
    some (added ++ [(name, value)])
  else none

/-- The wording of the refusal to set an attribute. -/
def immutableMessage : Text := "config is immutable"

end Config

end CommandTree
