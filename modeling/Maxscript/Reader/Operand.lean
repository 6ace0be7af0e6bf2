import Maxscript.Reader.Basic

/-!
# Operands, members and casts

An operand is a token, a bracketed group, an index without a base, an array or a symbol, with the
members and indices that follow it. Members of a token are joined to it, since Python writes them
alike; `.count` becomes a call of `len`.
-/

namespace Maxscript.Reader

/-- The members at the front: `.a .b` and so on. -/
def memberRun : List Piece → List String × List Piece
  | dot :: .token word :: rest =>
    if dot.is "." && Token.isWord word then
      let (words, rest) := memberRun rest
      (word :: words, rest)
    else ([], dot :: .token word :: rest)
  | pieces => ([], pieces)

/-- A base with the members that follow it, none of which is counted. -/
def joinMembers (base : Piece) (words : List String) : Piece :=
  match base with
  | .token text => .token (text ++ String.join (words.map ("." ++ ·)))
  | base => .chain 0 (base :: words.flatMap fun word => [.token ".", .token word])

/-- A base with its members, the last one first. Every `count` at the end counts what is before
it. -/
def applyMembers (base : Piece) : List String → Piece
  | [] => base
  | last :: before =>
    if Text.foldCase last = "count" then .call 0 "len" [applyMembers base before] false
    else joinMembers base (last :: before).reverse

/-- A base joined with the members after it, if it can have members and has any. -/
def fuse? (base : Piece) (rest : List Piece) : Option (Piece × List Piece) :=
  match memberRun rest with
  | ([], _) => none
  | (words, rest) => if isOperand base then some (applyMembers base words.reverse, rest) else none

/-- The cast of an operand to the type that a piece names. -/
def castTo (indent : Nat) (operand type : Piece) : Result Piece :=
  let name := type.text?.getD "<expression>"
  match CastTarget.ofWord? name with
  | some target => .ok (.cast indent target operand)
  | none => .error (.unsupportedCast name)

/-- The name of a symbol, written as a call of the constructor of names. -/
def nameLiteral (name : String) : String :=
  if Token.isQuoted name then "rt.Name(" ++ name ++ ")" else "rt.Name('" ++ name ++ "')"

/-- What a `#` stands for: an array, a symbol, or itself. -/
def sentinel (reader : Reader) (indent : Nat) (mark : Piece) (rest : List Piece) :
    Result (Reading Piece) :=
  match rest with
  | [] => return (mark, [])
  | next :: inner =>
    if next.is "(" then do
      let (elements, rest) ← reader.elements indent ")" inner
      return (.array indent elements, rest)
    else match next.text? with
      | some name =>
        if Token.isWord name || Token.isQuoted name then return (.token (nameLiteral name), inner)
        else return (mark, rest)
      | none => return (mark, rest)

/-- A bracketed group whose bracket is `mark`. -/
def groupAt (reader : Reader) (indent : Nat) (role : Role) (mark : Piece) (rest : List Piece) :
    Result (Reading Piece) := do
  let group := Extent.group (mark :: rest) 0
  let block ← reader.blockOf indent role (mark :: rest) group.inside
  return (block, (mark :: rest).drop group.after)

/-- A minus sign before a number belongs to it. -/
def negated (mark : Piece) : List Piece → Piece × List Piece
  | .token text :: rest =>
    if text.toList.head?.any Char.isDigit then (.token ("-" ++ text), rest)
    else (mark, .token text :: rest)
  | rest => (mark, rest)

/-- An operand without what follows it. -/
def bareOperand (reader : Reader) (indent : Nat) (first : Piece) (rest : List Piece) :
    Result (Reading Piece) :=
  if first.is "(" then reader.groupAt indent .group first rest
  else if first.is "[" then do
    let (indices, rest) ← reader.elements indent "]" rest
    return (.access indent none indices, rest)
  else if first.is "#" then reader.sentinel indent first rest
  else if first.is "-" then return negated first rest
  else return (first, rest)

def operand (reader : Reader) (indent : Nat) (first : Piece) (rest : List Piece) :
    Result (Reading Piece) := do
  let (bare, rest) ← reader.bareOperand indent first rest
  reader.trailers indent bare rest

/-- The members and indices after an operand, one at a time. -/
def readTrailers (reader : Reader) (indent : Nat) (operand : Piece) (rest : List Piece) :
    Result (Reading Piece) :=
  match fuse? operand rest with
  | some (fused, rest) => reader.trailers indent fused rest
  | none =>
    match rest with
    | [] => return (operand, [])
    | next :: inner =>
      if next.is "[" then do
        let (indices, rest) ← reader.elements indent "]" inner
        reader.trailers indent (.access indent (some operand) indices) rest
      else return (operand, rest)

end Maxscript.Reader
