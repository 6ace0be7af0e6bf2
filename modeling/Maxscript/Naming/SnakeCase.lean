import Std.Data.ExtTreeSet
import Maxscript.Naming.Segmentation
import Maxscript.Unicode.Lowercasing

/-!
# Names in snake case

A name is respelled in small letters with underscores between its words. The words are found with
a dictionary if it knows all of them, and else by the capitals of the name.
-/

namespace Maxscript.Naming

open Unicode (isUppercase isLowercase lowerChar lower)

/-- Whether a word starts at `c`: at a capital after a small letter or a digit, and at the last
capital of several if a small letter follows. -/
def startsWord (previous : Option Char) (c : Char) (rest : List Char) : Bool :=
  isUppercase c && previous.any fun p =>
    isLowercase p || p.isDigit || (isUppercase p && rest.head?.any isLowercase)

/-- Puts underscores before words, and makes one underscore of several. -/
def splitCaseAfter (previous : Option Char) : List Char → List Char
  | [] => []
  | c :: cs =>
    if c = '_' ∧ previous = some '_' then splitCaseAfter (some c) cs
    else (if startsWord previous c cs then ['_'] else []) ++ lowerChar c ++
      splitCaseAfter (some c) cs

/-- A name split at its capitals. -/
def splitCase (name : String) : String := String.ofList (splitCaseAfter none name.toList)

/-- The pieces that a name may be cut into: the words of a dictionary, and runs of digits. -/
def isPiece (words : Std.ExtTreeSet String) (piece : List Char) : Bool :=
  piece.all Char.isDigit || words.contains (String.ofList piece)

def snakeCase (dictionary : List String) (name : String) : String :=
  let words := Std.ExtTreeSet.ofList (dictionary.map lower)
  let parts := (Text.splitOn '_' (lower name).toList).filter fun part => !part.isEmpty
  match parts.mapM (segment? (isPiece words)) with
  | some pieces =>
    if words.isEmpty || parts.isEmpty then splitCase name
    else Text.joinWith "_" (pieces.flatten.map String.ofList)
  | none => splitCase name

end Maxscript.Naming
