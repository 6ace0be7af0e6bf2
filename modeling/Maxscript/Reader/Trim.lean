import Maxscript.Extent

/-!
# What surrounds a block

A block is the same whether or not it stands in brackets of its own, and whatever commas and
newlines lie around it.
-/

namespace Maxscript.Reader

/-- Commas and newlines separate; at the end of a block there is nothing to separate. -/
def isSeparator (piece : Piece) : Bool := piece.isNewline || piece.is ","

@[simp] theorem isSeparator_token (text : String) :
    isSeparator (.token text) = (text == "\n" || text == ",") := by
  rw [isSeparator, Piece.isNewline_token, Piece.is_token]

def trimSeparators (pieces : List Piece) : List Piece :=
  ((pieces.dropWhile isSeparator).reverse.dropWhile isSeparator).reverse

/-- Whether the first piece and the last are a pair of brackets. -/
def isWrapped (pieces : List Piece) : Bool :=
  pieces.length > 1 && pieces.head?.any (·.is "(") && pieces.getLast?.any (·.is ")") &&
    Extent.closingParen pieces 0 == pieces.length - 1

/-- Drops the pair of brackets around the pieces, if there is one. -/
def unwrap (pieces : List Piece) : List Piece :=
  if isWrapped pieces then pieces.tail.dropLast else pieces

/-- Drops separators and brackets around the pieces until nothing changes. -/
def trim (pieces : List Piece) : List Piece :=
  let inner := unwrap (trimSeparators pieces)
  if inner.length < pieces.length then trim inner else inner
termination_by pieces.length

end Maxscript.Reader
