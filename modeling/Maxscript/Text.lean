import Maxscript.Unicode.WhiteSpace

/-!
# Texts as lists of characters

Cutting, trimming and joining, stated on lists of characters so that each operation is a
recursion on its input. The versions on strings go through the characters and back.
-/

namespace Maxscript.Text

open Unicode (isWhiteSpace)

def trimStart (cs : List Char) : List Char := cs.dropWhile isWhiteSpace

def trimEnd (cs : List Char) : List Char := (trimStart cs.reverse).reverse

def trim (cs : List Char) : List Char := trimEnd (trimStart cs)

def isBlank (cs : List Char) : Bool := cs.all isWhiteSpace

/-- The pieces between the occurrences of `separator`: one more than it occurs. -/
def splitOn (separator : Char) : List Char → List (List Char)
  | [] => [[]]
  | c :: cs =>
    if c = separator then [] :: splitOn separator cs
    else match splitOn separator cs with
      | [] => [[c]]
      | first :: rest => (c :: first) :: rest

/-- Joins pieces with `separator` between each two. -/
def joinWith (separator : String) : List String → String
  | [] => ""
  | [piece] => piece
  | piece :: rest => piece ++ separator ++ joinWith separator rest

/-- Drops one carriage return from the end. -/
def dropReturn (line : List Char) : List Char :=
  match line.reverse with
  | '\r' :: rest => rest.reverse
  | _ => line

/-- The lines that `pieces`, the pieces between line feeds, stand for. A line feed ends a line, so
what follows the last one is a line only if it holds something; a carriage return belongs to the
line feed after it. -/
def linesOf : List (List Char) → List (List Char)
  | [] => []
  | [last] => if last.isEmpty then [] else [last]
  | line :: rest => dropReturn line :: linesOf rest

/-- The lines of a text, without their ends. -/
def lines (cs : List Char) : List (List Char) := linesOf (splitOn '\n' cs)

/-- Writes each carriage return and line feed pair as a line feed. -/
def unifyLineEnds : List Char → List Char
  | [] => []
  | '\r' :: '\n' :: cs => '\n' :: unifyLineEnds cs
  | c :: cs => c :: unifyLineEnds cs

/-- The text with its ASCII capitals made small. -/
def foldCase (text : String) : String := String.ofList (text.toList.map Char.toLower)

/-- Whether two texts differ at most in the case of their ASCII letters. -/
def sameFolded (first second : String) : Bool := foldCase first == foldCase second

def trimmed (text : String) : String := String.ofList (trim text.toList)

def hasChar (c : Char) (text : String) : Bool := text.toList.contains c

@[simp] theorem hasChar_append (c : Char) (front back : String) :
    hasChar c (front ++ back) = (hasChar c front || hasChar c back) := by
  simp [hasChar]

def times (text : String) : Nat → String
  | 0 => ""
  | count + 1 => text ++ times text count

end Maxscript.Text
