import Maxscript.File.Access
import Maxscript.Registry

/-!
# Stored registries

A registry is kept in a directory, as plain text: a list of names for each class, one to a line,
and a list of renames, each written `name=target`. A file that is missing is an empty list. The
directory also holds the dictionary for names in snake case.
-/

namespace Maxscript

/-- The directory that holds a registry. -/
structure Store where
  directory : String

/-- Why a registry could not be read or written. -/
inductive StoreError where
  | read (path : String) (cause : FileError)
  | write (path : String) (cause : FileError)
deriving DecidableEq, Repr

def StoreError.message : StoreError → String
  | .read path cause => "failed to read " ++ path ++ ": " ++ cause.message
  | .write path cause => "failed to write " ++ path ++ ": " ++ cause.message

namespace Store

def wordFile : Classification → String
  | .builtinFunction => "maxscript_functions.txt"
  | .userFunction => "custom_functions.txt"
  | .userVariable => "custom_variables.txt"

def renameFile : String := "variables.txt"

def dictionaryFile : String := "dictionary.txt"

def linesOf (content : String) : List String :=
  (Text.lines content.toList).map fun line => String.ofList (Text.trim line)

def wordsOf (lines : List String) : Std.ExtTreeSet String :=
  .ofList (lines.filter (· != ""))

/-- A line cut at its first `=`. -/
def rename? (line : String) : Option (String × String) :=
  let (name, rest) := line.toList.span (· != '=')
  match rest with
  | [] => none
  | _ :: target => some (Registry.key (String.ofList name), String.ofList (Text.trim target))

/-- The renames of a list. A line without `=` says nothing. -/
def renamesOf (lines : List String) : Std.ExtTreeMap String String :=
  (lines.filterMap rename?).foldl (fun renames (name, target) => renames.insert name target) ∅

def contentOf (lines : List String) : String := String.join (lines.map (· ++ "\n"))

variable {m : Type → Type} [Monad m] [FileAccess m]

def readLines (store : Store) (file : String) : ExceptT StoreError m (List String) := do
  let path := Path.join store.directory file
  match ← FileAccess.readText (m := m) path with
  | .ok content => return linesOf content
  | .error .notFound => return []
  | .error cause => throw (.read path cause)

def readWords (store : Store) (file : String) : ExceptT StoreError m (Std.ExtTreeSet String) := do
  return wordsOf (← store.readLines file)

def readRenames (store : Store) : ExceptT StoreError m (Std.ExtTreeMap String String) := do
  return renamesOf (← store.readLines renameFile)

/-- Replaces the lines of a file, and makes the directory if need be. -/
def writeLines (store : Store) (file : String) (lines : List String) :
    ExceptT StoreError m Unit := do
  match ← FileAccess.createDirectories (m := m) store.directory with
  | .error cause => throw (.write store.directory cause)
  | .ok () =>
    let path := Path.join store.directory file
    match ← FileAccess.writeText (m := m) path (contentOf lines) with
    | .error cause => throw (.write path cause)
    | .ok () => return ()

def load (store : Store) : ExceptT StoreError m Registry := do
  let builtins ← store.readWords (wordFile .builtinFunction)
  let userFunctions ← store.readWords (wordFile .userFunction)
  let userVariables ← store.readWords (wordFile .userVariable)
  let renames ← store.readRenames
  let registry := ((Registry.empty.extend builtins.toList .builtinFunction).extend
    userFunctions.toList .userFunction).extend userVariables.toList .userVariable
  return renames.toList.foldl (fun registry (name, target) => registry.addRename name target)
    registry

/-- Adds a name to the list of its class. The answer is whether it was not there yet. -/
def add (store : Store) (name : String) (kind : Classification) : ExceptT StoreError m Bool := do
  let words ← store.readWords (wordFile kind)
  if words.contains (Text.trimmed name) then return false
  else
    store.writeLines (wordFile kind) (words.insert (Text.trimmed name)).toList
    return true

/-- Adds a rename, in the place of one for the same name. -/
def addRename (store : Store) (name target : String) : ExceptT StoreError m Unit := do
  let renames ← store.readRenames
  let changed := renames.insert (Registry.key name) (Text.trimmed target)
  store.writeLines renameFile (changed.toList.map fun (name, target) => name ++ "=" ++ target)

def writeBuiltins (store : Store) (names : List String) : ExceptT StoreError m Unit :=
  store.writeLines (wordFile .builtinFunction) names

end Store

end Maxscript
