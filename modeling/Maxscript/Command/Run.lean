import Maxscript.Command.Arguments
import Maxscript.Convert
import Maxscript.Include
import Maxscript.Naming.SnakeCase
import Maxscript.Naming.Stub
import Maxscript.Settings.Basic
import Maxscript.Store
import Maxscript.Tree.Printed

/-!
# Commands

Each command ends with an outcome: what it prints, what went wrong, and the exit code. Files are
reached through `FileAccess`, so that the commands run on a disk in memory as well.
-/

namespace Maxscript.Command

/-- How a run of the program ends. -/
structure Outcome where
  code : Nat := 0
  output : String := ""
  errors : List String := []

namespace Outcome

def printed (line : String) : Outcome := { output := line ++ "\n" }

def failed (error : String) : Outcome := { code := 1, errors := [error] }

end Outcome

/-- What the commands share: the settings, and the registry if there is a directory for it. -/
structure Context where
  settings : Settings
  store : Option Store

/-- A text to convert: how it is called, the directory of its included files, and itself. -/
structure Input where
  name : String
  base : Option String
  source : String

variable {m : Type → Type} [Monad m] [FileAccess m]

/-- Runs the rest of a command with the result of an action, or gives up. -/
def orFail (describe : ε → String) (action : ExceptT ε m α) (next : α → m Outcome) :
    m Outcome := do
  match ← action.run with
  | .ok value => next value
  | .error error => return .failed (describe error)

/-- Runs a command that needs a directory for the registry. -/
def withStore (context : Context) (command : Store → m Outcome) : m Outcome :=
  match context.store with
  | some store => command store
  | none => return .failed "no registry directory: pass --registry or set [registry] dir"

/-- The registry, empty if there is no directory for it. -/
def loadRegistry (context : Context) : ExceptT StoreError m Registry :=
  match context.store with
  | some store => store.load
  | none => return .empty

def readFile (path : String) : ExceptT String m String := do
  match ← FileAccess.readText (m := m) path with
  | .ok content => return content
  | .error error => throw ("failed to read " ++ path ++ ": " ++ error.message)

/-- The texts of the files, or that of the standard input if no file is named. -/
def readInputs (standardInput : m (Except FileError String)) (files : List String) :
    ExceptT String m (List Input) :=
  match files with
  | [] => do
    match ← standardInput with
    | .ok source => return [⟨"<stdin>", none, source⟩]
    | .error error => throw ("failed to read stdin: " ++ error.message)
  | files => files.mapM fun path => do
    return ⟨(Path.fileName? path).getD path, Path.parent? path, ← readFile path⟩

def convertText (unit : String) (registry : Registry) (printsTree : Bool) (source : String) :
    Result String := do
  if printsTree then return (← readTree registry source).toJson.pretty
  else convertWith unit registry source

def convertInput (context : Context) (registry : Registry) (conversion : Conversion)
    (input : Input) : ExceptT String m String := do
  let expands := !conversion.keepsIncludes && context.settings.expandsIncludes
  let base := if expands then input.base else none
  match ← (Include.preprocess (m := m) base input.source).run with
  | .error error => throw error.message
  | .ok source =>
    match convertText context.settings.unit registry conversion.printsTree source with
    | .error error => throw (error.kind ++ ": " ++ error.message)
    | .ok text =>
      if (conversion.header || context.settings.writesHeader) && !conversion.printsTree then
        return "# Automatically converted " ++ input.name ++ "\n" ++ text
      else return text

/-- Converts inputs. Those that fail are reported, and the others converted all the same. -/
def convertInputs (context : Context) (registry : Registry) (conversion : Conversion) :
    List Input → m (List String × List String)
  | [] => return ([], [])
  | input :: rest => do
    let result ← (convertInput (m := m) context registry conversion input).run
    let (texts, errors) ← convertInputs context registry conversion rest
    match result with
    | .ok text => return (text :: texts, errors)
    | .error error => return (texts, (input.name ++ ": " ++ error) :: errors)

/-- Writes the converted texts to a file, or prints them. Nothing is written if there are none. -/
def deliver (output : Option String) (texts errors : List String) : m Outcome := do
  let code := if errors.isEmpty then 0 else 1
  let text := Text.joinWith "\n\n" texts ++ "\n"
  if texts.isEmpty then return { code, errors }
  else match output with
    | none => return { code, output := text, errors }
    | some path =>
      match ← FileAccess.writeText (m := m) path text with
      | .ok () => return { code, errors }
      | .error error =>
        let failure := "failed to write " ++ path ++ ": " ++ error.message
        return { code := 1, errors := errors ++ [failure] }

def runConvert (context : Context) (standardInput : m (Except FileError String))
    (conversion : Conversion) : m Outcome :=
  orFail StoreError.message (loadRegistry context) fun registry =>
    orFail id (readInputs standardInput conversion.files) fun inputs => do
      let (texts, errors) ← convertInputs context registry conversion inputs
      deliver conversion.output texts errors

def classLabel : Classification → String
  | .builtinFunction => "built-in function"
  | .userFunction => "user function"
  | .userVariable => "user variable"

def runMark (context : Context) (name : String) (kind : Classification) : m Outcome :=
  withStore context fun store =>
    orFail StoreError.message (store.add name kind) fun isNew =>
      return .printed (if isNew then "marked `" ++ name ++ "` as " ++ classLabel kind
        else "`" ++ name ++ "` is already marked as " ++ classLabel kind)

/-- The target of a rename: the one that is given, or else a spelling in snake case. -/
def renameTarget (store : Store) (name : String) : Option String → ExceptT StoreError m String
  | some target => return target
  | none => do return Naming.snakeCase (← store.readWords Store.dictionaryFile).toList name

def runRename (context : Context) (name : String) (target : Option String) : m Outcome :=
  withStore context fun store =>
    orFail StoreError.message (renameTarget store name target) fun target =>
      orFail StoreError.message (store.addRename name target) fun () =>
        return .printed (Unicode.lower name ++ " -> " ++ target)

/-- A difference, with its sign. -/
def signed (before after : Nat) : String :=
  if before ≤ after then "+" ++ toString (after - before) else "-" ++ toString (before - after)

def runExtractNames (context : Context) (stub : String) (dryRun : Bool) : m Outcome :=
  withStore context fun store =>
    orFail id (readFile stub) fun content =>
      orFail StoreError.message (store.readWords (Store.wordFile .builtinFunction)) fun listed =>
        let found := Naming.stubNames content
        let merged := Naming.mergeNames listed.toList found
        let write : ExceptT StoreError m Unit :=
          if dryRun then return () else store.writeBuiltins merged
        orFail StoreError.message write fun () =>
          return .printed (toString found.length ++ " names extracted, " ++
            toString merged.length ++ " built-ins (" ++ signed listed.size merged.length ++ ")")

/-- The names of a registry by their classes, under the titles they are printed with. -/
def sections (registry : Registry) : List (String × List String) :=
  [("builtins", registry.builtins.toList), ("functions", registry.userFunctions.toList),
   ("variables", registry.userVariables.toList)]

def registryText (directory : String) (registry : Registry) : String :=
  let renames := registry.renames.toList.map fun (name, target) => name ++ " -> " ++ target
  let blocks := (sections registry ++ [("renames", renames)]).map fun (title, entries) =>
    "\n" ++ title ++ " (" ++ toString entries.length ++ ")\n" ++
      String.join (entries.map fun entry => "  " ++ entry ++ "\n")
  "registry: " ++ directory ++ "\n" ++ String.join blocks

/-- A registry as a JSON value, with its fields in alphabetical order. -/
def registryJson (directory : String) (registry : Registry) : Json :=
  .object [("builtins", .strings registry.builtins.toList), ("dir", .string directory),
    ("functions", .strings registry.userFunctions.toList),
    ("renames", .object (registry.renames.toList.map fun (name, target) => (name, .string target))),
    ("variables", .strings registry.userVariables.toList)]

def runRegistry (context : Context) (asJson : Bool) : m Outcome :=
  withStore context fun store =>
    orFail StoreError.message store.load fun registry =>
      return if asJson then .printed (registryJson store.directory registry).pretty
        else { output := registryText store.directory registry }

def usage : String :=
  "Usage: mxs2py [--registry DIR] [-v] <convert|mark|rename|extract-names|registry> ..."

def perform (context : Context) (standardInput : m (Except FileError String)) :
    Request → m Outcome
  | .help => return .printed usage
  | .version => return .printed "mxs2py 0.1.0"
  | .convert conversion => runConvert context standardInput conversion
  | .mark name kind => runMark context name kind
  | .rename name target => runRename context name target
  | .extractNames stub dryRun => runExtractNames context stub dryRun
  | .registry asJson => runRegistry context asJson

/-- Runs the program in the directory `root`. Arguments that make no sense end it with the exit
code 2. -/
def run (environment : Environment) (root : String) (standardInput : m (Except FileError String))
    (arguments : List String) : m Outcome := do
  match invocation? arguments with
  | none => return { code := 2, errors := [usage] }
  | some invocation =>
    let settings ← Settings.load environment root
    let directory := invocation.registryDirectory <|> settings.registryPath? environment
    perform ⟨settings, directory.map Store.mk⟩ standardInput invocation.request

end Maxscript.Command
