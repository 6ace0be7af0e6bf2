import Maxscript.Reader.Operand

/-!
# Calls, arrays and indices

A known function that is not asked for a member starts a call. Its arguments are all operands up
to a separator, an operator or a word that belongs to a surrounding construct.
-/

namespace Maxscript.Reader

def argumentStops : List String := ["\n", ")", "]", ","]

def argumentStopWords : List String :=
  ["and", "or", "then", "do", "else", "collect", "where", "to", "by", "in", "of", "catch", "as"]

/-- Whether a token ends the arguments of a call. -/
def endsArguments (token : String) : Bool :=
  argumentStops.contains token || Token.isOperator token || Token.isLigature token ||
    argumentStopWords.contains (Text.foldCase token)

/-- The function whose call starts at `first`: a known one that is not asked for a member. -/
def callee? (reader : Reader) (first : Piece) (rest : List Piece) : Option String :=
  match first.text? with
  | some name =>
    if reader.registry.isKnownCall name && !startsWith "." rest then some name else none
  | none => none

/-- A call of `name`, whose arguments follow. -/
def call (reader : Reader) (indent : Nat) (name : String) (rest : List Piece) :
    Result (Reading Piece) := do
  let (arguments, rest) ← reader.arguments indent rest
  return (.call indent name arguments (reader.registry.isBuiltinCall name), rest)

/-- A word with a colon after it, and what follows the colon. -/
def key? (first : Piece) (rest : List Piece) : Option (String × List Piece) :=
  match first.text?, rest with
  | some word, colon :: rest =>
    if Token.isWord word && colon.is ":" then some (word, rest) else none
  | _, _ => none

/-- The value after a colon, unless one of the tokens `stops` is there. -/
def keyValue (reader : Reader) (indent : Nat) (stops : List String) (rest : List Piece) :
    Result (Reading (Option Piece)) :=
  match rest with
  | [] => return (none, [])
  | first :: inner =>
    if first.isTokenWith stops.contains then return (none, rest)
    else do
      let (value, rest) ← reader.operand indent first inner
      return (some value, rest)

/-- The arguments of a call, one at a time. `()` takes no further arguments, and `name:` starts a
keyword argument even if the name would otherwise end the call. -/
def readArguments (reader : Reader) (indent : Nat) (rest : List Piece) :
    Result (Reading (List Piece)) :=
  match rest with
  | [] => return ([], [])
  | first :: inner =>
    if first.is "(" then
      let group := Extent.group rest 0
      if group.inside.stop ≤ group.inside.start then return ([], rest.drop group.after)
      else do
        let (argument, rest) ← reader.groupAt indent .argument first inner
        let (arguments, rest) ← reader.arguments indent rest
        return (argument :: arguments, rest)
    else match key? first inner with
      | some (key, rest) => do
        let (value, rest) ← reader.keyValue indent argumentStops rest
        let (arguments, rest) ← reader.arguments indent rest
        return (.binding indent key value true :: arguments, rest)
      | none =>
        if first.isTokenWith endsArguments then return ([], rest)
        else do
          let (argument, rest) ← reader.operand indent first inner
          let (arguments, rest) ← reader.arguments indent rest
          return (argument :: arguments, rest)

def callOrOperand (reader : Reader) (indent : Nat) (first : Piece) (rest : List Piece) :
    Result (Reading Piece) :=
  match reader.callee? first rest with
  | some name => reader.call indent name rest
  | none => reader.operand indent first rest

/-- An element of an array, an index or a factor: a call or an operand, cast if `as` follows. -/
def element (reader : Reader) (indent : Nat) (first : Piece) (rest : List Piece) :
    Result (Reading Piece) := do
  let (value, rest) ← reader.callOrOperand indent first rest
  match rest with
  | mark :: type :: after =>
    if mark.isKeyword "as" then return (← castTo indent value type, after)
    else return (value, rest)
  | _ => return (value, rest)

def readElements (reader : Reader) (indent : Nat) (close : String) (rest : List Piece) :
    Result (Reading (List Piece)) :=
  match rest with
  | [] => return ([], [])
  | first :: inner =>
    if first.is close then return ([], inner)
    else if isSeparator first then reader.elements indent close inner
    else do
      let (element, rest) ← reader.element indent first inner
      let (elements, rest) ← reader.elements indent close rest
      return (element :: elements, rest)

end Maxscript.Reader
