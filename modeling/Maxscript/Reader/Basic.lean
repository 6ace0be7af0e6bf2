import Maxscript.Error
import Maxscript.Reader.Trim
import Maxscript.Token.Normal

/-!
# Readers

Constructs nest, so reading one means reading others inside it. A `Reader` holds the readers that
a construct may ask for; each takes the pieces that follow and answers with what it read and the
pieces after that. The constructs are written against an arbitrary `Reader`, and
`Maxscript.Reader.Block` closes the circle.
-/

namespace Maxscript

/-- A value, or why a script is not converted. -/
abbrev Result := Except ConvertError

/-- What was read from the front of a list of pieces, and the pieces after it. -/
abbrev Reading (α : Type) := α × List Piece

/-- The readers of nested constructs. All but `items` start right after what announces them. -/
structure Reader where
  registry : Registry
  /-- The items of a block, given those before the current one, nearest first, and the rest. -/
  items : (indent : Nat) → (before after : List Piece) → Result (List Piece)
  /-- A conditional after an `else`. -/
  conditional : (indent : Nat) → (rest : List Piece) → Result (Reading Piece)
  /-- The parameters of a function, up to the `=` before its body. -/
  parameters : (indent : Nat) → (rest : List Piece) → Result (Reading (List Piece))
  /-- The members of a struct, given what stands in its brackets. -/
  members : (indent : Nat) → (rest : List Piece) → Result (List Piece)
  /-- The arguments of a call. -/
  arguments : (indent : Nat) → (rest : List Piece) → Result (Reading (List Piece))
  /-- The elements of an array or the indices of an access, with the bracket that closes them. -/
  elements : (indent : Nat) → (close : String) → (rest : List Piece) →
    Result (Reading (List Piece))
  /-- The members and indices that follow an operand. -/
  trailers : (indent : Nat) → (operand : Piece) → (rest : List Piece) → Result (Reading Piece)

namespace Reader

/-- The pieces of an extent, or the entries of a buffer. -/
def cut {α : Type} (pieces : List α) (extent : Extent) : Result (List α) :=
  if extent.start ≤ extent.stop ∧ extent.stop ≤ pieces.length then
    .ok ((pieces.take extent.stop).drop extent.start)
  else .error (.internal "extent out of range")

def block (reader : Reader) (indent : Nat) (role : Role) (pieces : List Piece) :
    Result Piece := do
  let items ← reader.items indent [] (trim pieces)
  return .block indent role items

def blockOf (reader : Reader) (indent : Nat) (role : Role) (pieces : List Piece)
    (extent : Extent) : Result Piece := do
  reader.block indent role (← cut pieces extent)

def skipNewlines (pieces : List Piece) : List Piece := pieces.dropWhile Piece.isNewline

def startsWith (text : String) (pieces : List Piece) : Bool := pieces.head?.any (·.is text)

@[simp] theorem startsWith_nil (text : String) : startsWith text [] = false := rfl

@[simp] theorem startsWith_cons (text : String) (piece : Piece) (rest : List Piece) :
    startsWith text (piece :: rest) = piece.is text := rfl

def after? (word : String) : List Piece → Option (List Piece)
  | [] => none
  | piece :: rest => if piece.isKeyword word then some rest else none

/-- Pieces that can stand on the left of `.`, `[` or `as`. -/
def isOperand (piece : Piece) : Bool :=
  match piece.text? with
  | none => true
  | some text =>
    (Token.isWord text && !Token.isReserved text) || Token.isQuoted text || text == ")" ||
      text == "]"

end Reader

namespace Registry

/-- The part of a dotted name after its last dot. -/
def lastSegment? (name : String) : Option String :=
  if Text.hasChar '.' name then
    some (String.ofList (name.toList.reverse.takeWhile (· != '.')).reverse)
  else none

/-- Whether a word, or the last segment of a dotted one, is a known function. -/
def isKnownCall (registry : Registry) (name : String) : Bool :=
  Token.isWord name &&
    (registry.isKnownFunction name || (lastSegment? name).any registry.isKnownFunction)

/-- Whether a name, or the last segment of a dotted one, is a function of the host. -/
def isBuiltinCall (registry : Registry) (name : String) : Bool :=
  registry.isBuiltin name || (lastSegment? name).any registry.isBuiltin

end Registry

end Maxscript
