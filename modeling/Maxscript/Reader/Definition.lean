import Maxscript.Reader.Call

/-!
# Functions and structs

A function is defined by its name, its parameters, `=` and a body; a struct by its name and its
members in brackets. Members are properties and methods. Event handlers and the words for the
visibility of members have no Python counterpart and are left out.
-/

namespace Maxscript.Reader

/-- The name at the front, empty if no token is there, and the pieces after it. -/
def nameAt : List Piece → String × List Piece
  | [] => ("", [])
  | first :: rest => (first.text?.getD "", rest)

/-- The parameters of a function, one at a time. What is neither a word nor `=` means nothing
here: newlines, and the mark of a parameter that is passed by reference. -/
def readParameters (reader : Reader) (indent : Nat) (rest : List Piece) :
    Result (Reading (List Piece)) :=
  match rest with
  | [] => return ([], [])
  | first :: inner =>
    if first.is "=" then return ([], rest)
    else match key? first inner with
      | some (key, rest) => do
        let (value, rest) ← reader.keyValue indent ["\n", "=", ")"] rest
        let (parameters, rest) ← reader.parameters indent rest
        return (.binding indent key value true :: parameters, rest)
      | none => do
        let (parameters, rest) ← reader.parameters indent inner
        match first.text? with
        | some name =>
          if Token.isWord name then return (.binding indent name none false :: parameters, rest)
          else return (parameters, rest)
        | none => return (parameters, rest)

/-- The length of the body of a function: a bracketed group, or else the statement there, cut
short by a comma or newline outside brackets. -/
def bodyEnd (pieces : List Piece) : Nat :=
  if startsWith "(" pieces then Extent.closingParen pieces 0 + 1
  else min (Extent.statementEnd pieces 0) (Extent.separatorEnd pieces 0)

def function (reader : Reader) (indent : Nat) (rest : List Piece) : Result (Reading Piece) := do
  let (name, rest) := nameAt rest
  let (parameters, rest) ← reader.parameters indent rest
  let rest := skipNewlines (rest.drop 1)
  let stop := bodyEnd rest
  let body ← reader.blockOf (indent + 1) .functionBody rest ⟨0, stop⟩
  return (.function indent name parameters body, rest.drop stop)

/-- Drops an event handler, from the name of its event on. -/
def skipHandler (pieces : List Piece) : List Piece :=
  let rest := pieces.dropWhile fun piece => !(piece.is "(" || piece.isNewline)
  if startsWith "(" rest then rest.drop (Extent.group rest 0).after else rest

def readMembers (reader : Reader) (indent : Nat) (rest : List Piece) :
    Result (List Piece) :=
  match rest with
  | [] => return []
  | first :: inner =>
    if first.isKeyword "fn" || first.isKeyword "function" then do
      let (method, rest) ← reader.function (indent + 1) inner
      return method :: (← reader.members indent rest)
    else if first.isKeyword "on" then reader.members indent (skipHandler inner)
    else if first.is "(" then reader.members indent (rest.drop (Extent.group rest 0).after)
    else match first.text? with
      | none => reader.members indent inner
      | some name =>
        if !Token.isWord name || first.isKeyword "private" || first.isKeyword "public" then
          reader.members indent inner
        else if startsWith "=" inner then do
          let rest := inner.drop 1
          let stop := Extent.separatorEnd rest 0
          let value ← reader.blockOf (indent + 2) .property rest ⟨0, stop⟩
          let property := .binding (indent + 2) name (some value) false
          return property :: (← reader.members indent (rest.drop stop))
        else return .binding (indent + 2) name none false :: (← reader.members indent inner)

/-- A struct, from its name on. Without brackets it has no members. -/
def struct (reader : Reader) (indent : Nat) (rest : List Piece) : Result (Reading Piece) := do
  let (name, rest) := nameAt rest
  let opened := skipNewlines rest
  if startsWith "(" opened then do
    let group := Extent.group opened 0
    let members ← reader.members indent (← cut opened group.inside)
    return (.struct indent name members, opened.drop group.after)
  else return (.struct indent name [], rest)

end Maxscript.Reader
