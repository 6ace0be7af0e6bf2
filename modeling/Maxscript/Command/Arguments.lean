import Maxscript.Registry

/-!
# Command-line arguments

Arguments are options and words. An option has a long name, as in `--output`, and may have a short
one, as in `-o`. Its value is the next argument, or follows the long name after `=`, or follows the
short one directly. Flags with short names may share one hyphen. After `--` there are only words.
-/

namespace Maxscript.Command

inductive Use where
  /-- Given or not, once. -/
  | flag
  /-- Given any number of times. -/
  | count
  /-- Given once, with a value. -/
  | value
  /-- Given once, with a value that names a file and is not empty. -/
  | path
  /-- Ends the search for options, and takes the place of everything else. -/
  | exit
deriving DecidableEq

structure OptionSpec where
  name : String
  short : Option Char := none
  use : Use := .flag

def OptionSpec.takesValue (spec : OptionSpec) : Bool := spec.use = .value || spec.use = .path

/-- The options that an argument gives, with their values, and one whose value is still to come. -/
structure Given where
  options : List (OptionSpec × String) := []
  pending : Option OptionSpec := none

/-- What an argument gives by a long name. -/
def takeLong? (specs : List OptionSpec) (body : List Char) : Option Given := do
  let (name, rest) := body.span (· != '=')
  let spec ← specs.find? fun spec => spec.name.toList == name
  match rest with
  | [] => if spec.takesValue then return { pending := spec } else return { options := [(spec, "")] }
  | _ :: value =>
    if spec.takesValue then return { options := [(spec, String.ofList value)] } else none

/-- The value that follows a short name directly. -/
def attachedValue : List Char → List Char
  | '=' :: value => value
  | value => value

/-- What an argument gives by short names. -/
def takeShort? (specs : List OptionSpec) : List Char → Option Given
  | [] => some {}
  | c :: cs => do
    let spec ← specs.find? fun spec => spec.short == some c
    if spec.takesValue then
      if cs.isEmpty then return { pending := spec }
      else return { options := [(spec, String.ofList (attachedValue cs))] }
    else
      let given ← takeShort? specs cs
      return { given with options := (spec, "") :: given.options }

/-- Whether an argument is a word and no option. A single hyphen is one. -/
def isWord (argument : String) : Bool :=
  match argument.toList with
  | '-' :: _ :: _ => false
  | _ => true

/-- The options that were given, and the words. -/
structure Parsed where
  options : List (OptionSpec × String) := []
  words : List String := []

/-- Puts options in front of those that were found later. One that ends the search drops them. -/
def Parsed.after (given : List (OptionSpec × String)) (later : Option Parsed) : Option Parsed :=
  if given.any (·.1.use == .exit) then some { options := given }
  else later.map fun parsed => { parsed with options := given ++ parsed.options }

/-- Sorts arguments into options and words. With `stopAtWord`, everything from the first word on
is left as it is. -/
def scan? (specs : List OptionSpec) (stopAtWord : Bool) : List String → Option Parsed
  | [] => some {}
  | argument :: rest =>
    if argument = "--" then
      if stopAtWord then none else some { words := rest }
    else if isWord argument then
      if stopAtWord then some { words := argument :: rest }
      else (scan? specs stopAtWord rest).map fun parsed =>
        { parsed with words := argument :: parsed.words }
    else do
      let given ← match argument.toList with
        | '-' :: '-' :: body => takeLong? specs body
        | _ :: body => takeShort? specs body
        | [] => none
      match given.pending, rest with
      | none, rest => Parsed.after given.options (scan? specs stopAtWord rest)
      | some spec, value :: rest =>
        if isWord value then
          Parsed.after (given.options ++ [(spec, value)]) (scan? specs stopAtWord rest)
        else none
      | some _, [] => none

namespace Parsed

def has (parsed : Parsed) (name : String) : Bool := parsed.options.any (·.1.name == name)

def value? (parsed : Parsed) (name : String) : Option String :=
  (parsed.options.find? (·.1.name == name)).map (·.2)

/-- Whether no option was given too often or without the value it needs. -/
def isValid (parsed : Parsed) : Bool :=
  parsed.options.all fun (spec, value) =>
    (spec.use = .count || (parsed.options.filter (·.1.name == spec.name)).length ≤ 1) &&
      (spec.use != .path || value != "")

end Parsed

/-- Sorts arguments and checks the options. -/
def parsed? (specs : List OptionSpec) (stopAtWord : Bool) (arguments : List String) :
    Option Parsed := do
  let parsed ← scan? specs stopAtWord arguments
  if parsed.isValid then some parsed else none

/-- What a script is to be converted with. -/
structure Conversion where
  files : List String
  output : Option String
  header : Bool
  printsTree : Bool
  keepsIncludes : Bool

/-- What the program is asked to do. -/
inductive Request where
  | help
  | version
  | convert (conversion : Conversion)
  | mark (name : String) (kind : Classification)
  | rename (name : String) (target : Option String)
  | extractNames (stub : String) (dryRun : Bool)
  | registry (asJson : Bool)

/-- A request, and the directory of the registry if one was named. -/
structure Invocation where
  request : Request
  registryDirectory : Option String := none

def globalOptions : List OptionSpec :=
  [{ name := "verbose", short := some 'v', use := .count },
   { name := "registry", use := .path },
   { name := "help", short := some 'h', use := .exit }]

def mainOptions : List OptionSpec :=
  { name := "version", short := some 'V', use := .exit } :: globalOptions

def classification? : String → Option Classification
  | "builtin" => some .builtinFunction
  | "function" => some .userFunction
  | "variable" => some .userVariable
  | _ => none

def commandOptions? : String → Option (List OptionSpec)
  | "convert" =>
    some [{ name := "output", short := some 'o', use := .path }, { name := "header" },
      { name := "tree" }, { name := "no-includes" }]
  | "mark" => some [{ name := "as", use := .value }]
  | "rename" => some []
  | "extract-names" => some [{ name := "dry-run" }]
  | "registry" => some [{ name := "json" }]
  | _ => none

/-- The request that a command makes with its arguments. -/
def request? (command : String) (parsed : Parsed) : Option Request :=
  match command, parsed.words with
  | "convert", files =>
    if files.contains "" then none
    else some (.convert {
      files
      output := parsed.value? "output"
      header := parsed.has "header"
      printsTree := parsed.has "tree"
      keepsIncludes := parsed.has "no-includes" })
  | "mark", [name] => do return .mark name (← classification? (← parsed.value? "as"))
  | "rename", [name] => some (.rename name none)
  | "rename", [name, target] => some (.rename name (some target))
  | "extract-names", [stub] =>
    if stub = "" then none else some (.extractNames stub (parsed.has "dry-run"))
  | "registry", [] => some (.registry (parsed.has "json"))
  | _, _ => none

/-- What a list of arguments asks for, if it makes sense. -/
def invocation? (arguments : List String) : Option Invocation := do
  let main ← parsed? mainOptions true arguments
  if main.has "help" then return { request := .help }
  else if main.has "version" then return { request := .version }
  else match main.words with
    | [] => none
    | ["help"] => return { request := .help }
    | ["help", command] =>
      let _ ← commandOptions? command
      return { request := .help }
    | command :: rest =>
      let options ← commandOptions? command
      let parsed ← parsed? (options ++ globalOptions) false rest
      if parsed.has "help" then return { request := .help }
      else
        let request ← request? command parsed
        return { request, registryDirectory := parsed.value? "registry" <|> main.value? "registry" }

end Maxscript.Command
