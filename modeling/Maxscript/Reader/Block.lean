import Maxscript.Reader.Control
import Maxscript.Reader.Definition

/-!
# Blocks

A block is read in one pass from left to right. At each piece, `step` either moves on or replaces
a run of pieces around the current one by a single construct. What lies right of the current piece
gets shorter with every step, so that the pass ends.

Readers of nested constructs are given a budget: `atDepth` builds the reader whose constructs may
ask `n` times for a nested one. Whatever is asked for gets fewer pieces than its asker was given,
so a budget beyond the number of pieces is never used up.
-/

namespace Maxscript

/-- A place in a list of pieces: those before it, nearest first, and those after it. -/
structure Cursor where
  before : List Piece
  after : List Piece

def Cursor.pieces (cursor : Cursor) : List Piece := cursor.before.reverse ++ cursor.after

namespace Reader

/-- Puts a construct that was just read behind the cursor. -/
def passed (before : List Piece) (reading : Piece × List Piece) : Cursor :=
  ⟨reading.1 :: before, reading.2⟩

/-- The cast at an `as`, given the pieces before it, nearest first, and the type after it. The
operand of an assignment or comparison takes the whole of it into one statement. -/
def castAt (indent : Nat) (operand : Piece) (before : List Piece) (type : Piece)
    (rest : List Piece) : Result Cursor := do
  let cast ← castTo indent operand type
  match before with
  | operator :: target :: before =>
    if operator.isTokenWith Token.isLigature && isOperand target then
      return ⟨.statement indent [target, operator, cast] :: before, rest⟩
    else return ⟨cast :: operator :: target :: before, rest⟩
  | before => return ⟨cast :: before, rest⟩

/-- An index at a `[`, of the piece before it if that can be indexed. -/
def accessAt (reader : Reader) (indent : Nat) (before rest : List Piece) :
    Result Cursor := do
  let (indices, rest) ← reader.elements indent "]" rest
  match before with
  | base :: before =>
    if isOperand base then return ⟨.access indent (some base) indices :: before, rest⟩
    else return ⟨.access indent none indices :: base :: before, rest⟩
  | [] => return ⟨[.access indent none indices], rest⟩

/-- The product at an operator that binds its two neighbours. -/
def productAt (reader : Reader) (indent : Nat) (left : Piece) (before : List Piece)
    (operator right : Piece) (rest : List Piece) : Result Cursor := do
  let (right, rest) ← reader.element indent right rest
  return ⟨.statement indent [left, operator, right] :: before, rest⟩

/-- The step at a dot: the piece before it is joined with its members, and looked at again. -/
def memberAt (before : List Piece) (dot : Piece) (after : List Piece) : Cursor :=
  match before with
  | [] => ⟨[dot], after⟩
  | base :: earlier =>
    match fuse? base (dot :: after) with
    | some (fused, after) => ⟨earlier, fused :: after⟩
    | none => ⟨dot :: before, after⟩

/-- The step at an operator that binds its two neighbours, unless one of them is missing. -/
def factorAt (reader : Reader) (indent : Nat) (before : List Piece) (operator : Piece)
    (after : List Piece) : Result Cursor :=
  match before, after with
  | left :: earlier, right :: rest =>
    if left.isNewline || right.isNewline then return ⟨operator :: before, after⟩
    else reader.productAt indent left earlier operator right rest
  | _, _ => return ⟨operator :: before, after⟩

/-- The step at a token that is no word with a meaning of its own. -/
def stepMark (reader : Reader) (indent : Nat) (before : List Piece) (piece : Piece)
    (text : String) (after : List Piece) : Result Cursor :=
  if text = "[" then reader.accessAt indent before after
  else if text = "#" then passed before <$> reader.sentinel indent piece after
  else if text = "(" then passed before <$> reader.groupAt indent .group piece after
  else if text = "*" ∨ text = "/" ∨ text = "%" then reader.factorAt indent before piece after
  else if text = "," then return ⟨before, after⟩
  else if text = "." then return memberAt before piece after
  else return ⟨piece :: before, after⟩

/-- The step at a token that is not one of the words that start a construct by themselves. -/
def stepToken (reader : Reader) (indent : Nat) (before : List Piece) (piece : Piece)
    (text : String) (after : List Piece) : Result Cursor :=
  match reader.callee? piece after with
  | some name => passed before <$> reader.call indent name after
  | none =>
    if Text.foldCase text = "for" then passed before <$> reader.loop indent after
    else if Text.foldCase text = "as" then
      match before, after with
      | operand :: earlier, type :: rest =>
        if isOperand operand then castAt indent operand earlier type rest
        else return ⟨piece :: before, after⟩
      | _, _ => return ⟨piece :: before, after⟩
    else reader.stepMark indent before piece text after

def startsFunction (pieces : List Piece) : Bool :=
  pieces.head?.any fun piece => piece.isKeyword "fn" || piece.isKeyword "function"

def step (reader : Reader) (indent : Nat) (before : List Piece) (piece : Piece)
    (after : List Piece) : Result Cursor :=
  match piece.text? with
  | none => return ⟨piece :: before, after⟩
  | some text =>
    let word := Text.foldCase text
    if word = "struct" then passed before <$> reader.struct indent after
    else if word = "fn" ∨ word = "function" then passed before <$> reader.function indent after
    else if word = "mapped" ∧ startsFunction after then return ⟨before, after⟩
    else if word = "if" then passed before <$> reader.readConditional indent after
    else if word = "try" then passed before <$> reader.attempt indent after
    else reader.stepToken indent before piece text after

/-- The items of a block. The pass stops at a bracket that closes nothing. -/
def readItems (reader : Reader) (indent : Nat) (before after : List Piece) :
    Result (List Piece) :=
  match after with
  | [] => return before.reverse
  | piece :: rest =>
    if piece.is ")" then return before.reverse ++ after
    else do
      let cursor ← reader.step indent before piece rest
      reader.items indent cursor.before cursor.after

/-- The reader that was asked once too often. -/
def exhausted (registry : Registry) : Reader where
  registry := registry
  items _ _ _ := .error (.internal "nested too deeply")
  conditional _ _ := .error (.internal "nested too deeply")
  parameters _ _ := .error (.internal "nested too deeply")
  members _ _ := .error (.internal "nested too deeply")
  arguments _ _ := .error (.internal "nested too deeply")
  elements _ _ _ := .error (.internal "nested too deeply")
  trailers _ _ _ := .error (.internal "nested too deeply")

/-- The reader whose nested constructs are read by `reader`. -/
def deeper (reader : Reader) : Reader where
  registry := reader.registry
  items := reader.readItems
  conditional := reader.readConditional
  parameters := reader.readParameters
  members := reader.readMembers
  arguments := reader.readArguments
  elements := reader.readElements
  trailers := reader.readTrailers

/-- The reader with a budget of `n` nested constructs. -/
def atDepth (registry : Registry) : Nat → Reader
  | 0 => exhausted registry
  | n + 1 => (atDepth registry n).deeper

end Reader

def readBlock (registry : Registry) (indent : Nat) (role : Role) (pieces : List Piece) :
    Result Piece :=
  (Reader.atDepth registry (pieces.length + 1)).block indent role pieces

/-- Reads a script: the block of all its statements. -/
def readScript (registry : Registry) (source : String) : Result Piece :=
  readBlock registry 0 .root ((Token.ofSource registry source).map .token)

end Maxscript
