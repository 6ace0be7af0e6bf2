import Std.Data.ExtTreeMap
import Std.Data.ExtTreeSet
import Maxscript.Text
import Maxscript.Unicode.Lowercasing

/-!
# Known names

The language does not mark calls: `foo 1` is a call because `foo` is known to be a function. A
registry holds the names that are known, by what they name, and the names that are to be spelled
differently in Python. Names are kept in lower case, so that a name is found whatever its case.
-/

namespace Maxscript

/-- What a known name stands for. -/
inductive Classification where
  /-- A function of the host, called through its runtime. -/
  | builtinFunction
  /-- A function that the user's own scripts define. -/
  | userFunction
  /-- A variable that the user keeps track of. -/
  | userVariable
deriving DecidableEq, Repr

/-- The known names and the renames. Both are sorted, and two registries with the same entries
are equal. -/
structure Registry where
  builtins : Std.ExtTreeSet String := ∅
  userFunctions : Std.ExtTreeSet String := ∅
  userVariables : Std.ExtTreeSet String := ∅
  renames : Std.ExtTreeMap String String := ∅

namespace Registry

def empty : Registry := {}

/-- The form in which a name is kept. -/
def key (name : String) : String := Unicode.lower (Text.trimmed name)

def names (registry : Registry) : Classification → Std.ExtTreeSet String
  | .builtinFunction => registry.builtins
  | .userFunction => registry.userFunctions
  | .userVariable => registry.userVariables

/-- Whether `classify` adds an entry: the name is neither blank nor in its class already. -/
def isNew (registry : Registry) (name : String) (kind : Classification) : Bool :=
  !(key name).isEmpty && !(registry.names kind).contains (key name)

/-- Records a name. A blank name is ignored. -/
def classify (registry : Registry) (name : String) (kind : Classification) : Registry :=
  if (key name).isEmpty then registry
  else match kind with
    | .builtinFunction => { registry with builtins := registry.builtins.insert (key name) }
    | .userFunction =>
      { registry with userFunctions := registry.userFunctions.insert (key name) }
    | .userVariable =>
      { registry with userVariables := registry.userVariables.insert (key name) }

def extend (registry : Registry) (names : List String) (kind : Classification) : Registry :=
  names.foldl (fun registry name => registry.classify name kind) registry

/-- Records that `name` is to be written `target`. The last target of a name counts, and a blank
name is ignored. -/
def addRename (registry : Registry) (name target : String) : Registry :=
  if (key name).isEmpty then registry
  else { registry with renames := registry.renames.insert (key name) (Text.trimmed target) }

def isBuiltin (registry : Registry) (name : String) : Bool :=
  registry.builtins.contains (Unicode.lower name)

def isUserFunction (registry : Registry) (name : String) : Bool :=
  registry.userFunctions.contains (Unicode.lower name)

def isUserVariable (registry : Registry) (name : String) : Bool :=
  registry.userVariables.contains (Unicode.lower name)

def isKnownFunction (registry : Registry) (name : String) : Bool :=
  registry.isBuiltin name || registry.isUserFunction name

def rename? (registry : Registry) (name : String) : Option String :=
  registry.renames[Unicode.lower name]?

end Registry

end Maxscript
