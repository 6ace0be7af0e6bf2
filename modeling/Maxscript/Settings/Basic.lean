import Maxscript.File.Access
import Maxscript.Settings.Toml

/-!
# Settings

Settings come from a file of the user and a file of the project. Each says only what it wants to
change, and the project has the last word. A file that cannot be read or does not make sense is
ignored as a whole.
-/

namespace Maxscript

structure Settings where
  registryDirectory : Option String := none
  indentUnit : Option String := none
  expandIncludes : Option Bool := none
  header : Option Bool := none
deriving DecidableEq, Repr

namespace Settings

/-- A table that may be missing and may not be anything else. -/
def hasTable (document : Toml.Document) (key : String) : Bool :=
  match document.lookup [key] with
  | none => true
  | some (.table _) => true
  | some _ => false

/-- A text that may be missing and may not be anything else. -/
def text? (document : Toml.Document) (path : Toml.KeyPath) : Option (Option String) :=
  match document.lookup path with
  | none => some none
  | some (.text value) => some (some value)
  | some _ => none

/-- A boolean that may be missing and may not be anything else. -/
def boolean? (document : Toml.Document) (path : Toml.KeyPath) : Option (Option Bool) :=
  match document.lookup path with
  | none => some none
  | some (.boolean value) => some (some value)
  | some _ => none

/-- The settings of a document, if each that is known has a value of its type. -/
def ofDocument? (document : Toml.Document) : Option Settings := do
  guard (["registry", "render", "convert"].all (hasTable document))
  return {
    registryDirectory := ← text? document ["registry", "dir"]
    indentUnit := ← text? document ["render", "indent"]
    expandIncludes := ← boolean? document ["convert", "expand_includes"]
    header := ← boolean? document ["convert", "header"] }

def ofToml? (content : String) : Option Settings := do ofDocument? (← Toml.parse? content)

/-- What `later` says, and else what `earlier` says. -/
def merge (earlier later : Settings) : Settings where
  registryDirectory := later.registryDirectory <|> earlier.registryDirectory
  indentUnit := later.indentUnit <|> earlier.indentUnit
  expandIncludes := later.expandIncludes <|> earlier.expandIncludes
  header := later.header <|> earlier.header

/-- One level of indentation: a tab, unless another is set. -/
def unit (settings : Settings) : String := settings.indentUnit.getD "\t"

/-- Included files are put in place unless the settings forbid it. -/
def expandsIncludes (settings : Settings) : Bool := settings.expandIncludes.getD true

/-- A converted file gets a comment at its head if the settings ask for it. -/
def writesHeader (settings : Settings) : Bool := settings.header.getD false

end Settings

/-- Where the files of the user are: the directory for settings, or else the home directory. -/
structure Environment where
  configHome : Option String := none
  home : Option String := none

namespace Environment

/-- The directory of the program's own files. -/
def ownDirectory? (environment : Environment) : Option String :=
  (environment.configHome <|> environment.home.map (Path.join · ".config")).map
    (Path.join · "mxs2py")

end Environment

namespace Settings

/-- The directory of the registry: the one that is set, or else one among the program's own
files. -/
def registryPath? (settings : Settings) (environment : Environment) : Option String :=
  settings.registryDirectory <|> environment.ownDirectory?.map (Path.join · "registry")

def ofFile? [Monad m] [FileAccess m] (path : String) : m (Option Settings) := do
  match ← FileAccess.readText path with
  | .ok content => return ofToml? content
  | .error _ => return none

/-- The settings for a project in the directory `root`. -/
def load [Monad m] [FileAccess m] (environment : Environment) (root : String) : m Settings := do
  let user ← match environment.ownDirectory? with
    | some directory => ofFile? (Path.join directory "config.toml")
    | none => pure none
  let project ← ofFile? (Path.join (Path.join root ".mxs2py") "config.toml")
  return (user.getD {}).merge (project.getD {})

end Settings

end Maxscript
