import Maxscript.Piece

/-!
# How far constructs extend

The scripts that are read may be cut off or badly nested, so a construct is never refused for its
brackets: each function here finds where a construct that starts at a given index ends, and falls
back to the end of the list when nothing ends it. Indices count from the front of the list, and a
start beyond the list is its end.
-/

namespace Maxscript

/-- The indices from `start` up to but without `stop`. -/
structure Extent where
  start : Nat
  stop : Nat
deriving DecidableEq, Repr

namespace Extent

/-- What a piece adds to the depth of round brackets. -/
def parenWeight (piece : Piece) : Int :=
  if piece.is "(" then 1 else if piece.is ")" then -1 else 0

/-- How many pieces come before the one that brings the depth to zero. -/
def balancePoint? (depth : Int) : List Piece → Option Nat
  | [] => none
  | piece :: rest =>
    let depth := depth + parenWeight piece
    if depth = 0 then some 0 else (balancePoint? depth rest).map (· + 1)

/-- The index of the bracket that closes the one at `start`, or the last index of all. -/
def closingParen (pieces : List Piece) (start : Nat) : Nat :=
  match balancePoint? 0 (pieces.drop start) with
  | some offset => start + offset
  | none => pieces.length - 1

/-- The length of a condition: the pieces before the `then` or `do` that ends it. Each `if` in the
condition has such a word of its own, and so have the round brackets. -/
def conditionLength (depth : Int) (pendingIfs : Nat) : List Piece → Nat
  | [] => 0
  | piece :: rest =>
    if piece.is "(" then conditionLength (depth + 1) pendingIfs rest + 1
    else if piece.is ")" then conditionLength (depth - 1) pendingIfs rest + 1
    else if piece.isKeyword "if" then conditionLength depth (pendingIfs + 1) rest + 1
    else if piece.isKeyword "then" || piece.isKeyword "do" then
      if pendingIfs > 0 then conditionLength depth (pendingIfs - 1) rest + 1
      else if depth ≤ 0 then 0
      else conditionLength depth pendingIfs rest + 1
    else conditionLength depth pendingIfs rest + 1

/-- The index of the word that ends the condition at `start`. -/
def conditionEnd (pieces : List Piece) (start : Nat) : Nat :=
  min start pieces.length + conditionLength 0 0 (pieces.drop start)

/-- The length of a statement. It ends at a newline outside round brackets, at a bracket that
closes none of its own, or at an `else` that none of its own `if`s claims. -/
def statementLength (depth pendingIfs : Nat) : List Piece → Nat
  | [] => 0
  | piece :: rest =>
    if piece.is "(" then statementLength (depth + 1) pendingIfs rest + 1
    else if piece.is ")" then
      if depth = 0 then 0 else statementLength (depth - 1) pendingIfs rest + 1
    else if depth > 0 then statementLength depth pendingIfs rest + 1
    else if piece.isNewline then 0
    else if piece.isKeyword "if" then statementLength depth (pendingIfs + 1) rest + 1
    else if piece.isKeyword "else" then
      if pendingIfs = 0 then 0 else statementLength depth (pendingIfs - 1) rest + 1
    else statementLength depth pendingIfs rest + 1

def statementEnd (pieces : List Piece) (start : Nat) : Nat :=
  min start pieces.length + statementLength 0 0 (pieces.drop start)

/-- The consequent that starts after `then`. It is a bracketed group or a statement, and may start
on the next line. -/
def consequent (pieces : List Piece) (start : Nat) : Extent :=
  match pieces.drop start with
  | [] => ⟨pieces.length, pieces.length⟩
  | first :: rest =>
    if first.is "(" then ⟨start, closingParen pieces start + 1⟩
    else if first.isNewline then
      if rest.head?.any (·.is "(") then ⟨start + 1, closingParen pieces (start + 1) + 1⟩
      else ⟨start + 1, statementEnd pieces (start + 1)⟩
    else ⟨start, statementEnd pieces start⟩

/-- How many brackets of each kind are open. -/
structure Depths where
  round : Int := 0
  square : Int := 0
  curly : Int := 0
deriving DecidableEq

def Depths.after (depths : Depths) (piece : Piece) : Depths :=
  match piece.text? with
  | some "(" => { depths with round := depths.round + 1 }
  | some ")" => { depths with round := depths.round - 1 }
  | some "[" => { depths with square := depths.square + 1 }
  | some "]" => { depths with square := depths.square - 1 }
  | some "\x7b" => { depths with curly := depths.curly + 1 }
  | some "\x7d" => { depths with curly := depths.curly - 1 }
  | _ => depths

/-- The number of pieces before the first comma or newline outside all brackets. -/
def separatorOffset (depths : Depths) : List Piece → Nat
  | [] => 0
  | piece :: rest =>
    if (piece.is "," || piece.isNewline) && depths = {} then 0
    else separatorOffset (depths.after piece) rest + 1

/-- The index of the first comma or newline from `start` on that is outside all brackets. -/
def separatorEnd (pieces : List Piece) (start : Nat) : Nat :=
  min start pieces.length + separatorOffset {} (pieces.drop start)

/-- A bracketed group: the extent of what is inside it, and the index after it. A group that is
not closed takes everything after its bracket. -/
structure Group where
  inside : Extent
  after : Nat
deriving DecidableEq, Repr

def group (pieces : List Piece) (start : Nat) : Group :=
  let close := closingParen pieces start
  if close > start && (pieces[close]?.any (·.is ")")) then ⟨⟨start + 1, close⟩, close + 1⟩
  else ⟨⟨min (start + 1) pieces.length, pieces.length⟩, pieces.length⟩

/-- The index after the clause at `start`, which is a bracketed group or a statement. -/
def clauseEnd (pieces : List Piece) (start : Nat) : Nat :=
  match pieces.drop start with
  | [] => pieces.length
  | first :: _ =>
    if first.is "(" then closingParen pieces start + 1 else statementEnd pieces start

end Extent

end Maxscript
