import Maxscript.Text

/-!
# Cutting a run of letters into words

`meshcount` is `mesh` and `count` to someone who knows both words. A text is cut into as few pieces
as possible, each of them a known word or a number.

A table holds, for every place between two characters, how few pieces lead up to it and where the
last of them starts; of several that are as good, the one that starts first. The pieces are then
found by going back through the table from the end of the text.
-/

namespace Maxscript.Naming

/-- How a place is reached: the number of pieces up to it, and where the last of them starts. -/
structure Arrival where
  count : Nat
  start : Nat

def between (text : List Char) (i j : Nat) : List Char := (text.take j).drop i

/-- The better of two ways to a place. The one that was found first stays if it is as good. -/
def improve (best : Option Arrival) (found : Arrival) : Option Arrival :=
  if best.all (found.count < ·.count) then some found else best

/-- The way to `j` by a piece that starts at `i`, if that is a piece and there is a way to `i`. -/
def arriveFrom? (isPiece : List Char → Bool) (text : List Char) (table : List (Option Arrival))
    (j i : Nat) : Option Arrival :=
  match table[i]?.join with
  | none => none
  | some earlier => if isPiece (between text i j) then some ⟨earlier.count + 1, i⟩ else none

/-- The table for the places up to `j`. -/
def arrivals (isPiece : List Char → Bool) (text : List Char) : Nat → List (Option Arrival)
  | 0 => [some ⟨0, 0⟩]
  | j + 1 =>
    let table := arrivals isPiece text j
    table ++ [((List.range (j + 1)).filterMap
      (arriveFrom? isPiece text table (j + 1))).foldl improve none]

/-- The pieces up to `j`, in front of those that were found already. -/
def goBack (text : List Char) (table : List (Option Arrival)) (j : Nat)
    (pieces : List (List Char)) : Option (List (List Char)) :=
  if j = 0 then some pieces
  else match table[j]?.join with
    | none => none
    | some arrival =>
      if arrival.start < j then
        goBack text table arrival.start (between text arrival.start j :: pieces)
      else none
termination_by j

/-- Cuts a text into as few pieces as possible. -/
def segment? (isPiece : List Char → Bool) (text : List Char) : Option (List (List Char)) :=
  goBack text (arrivals isPiece text text.length) text.length []

end Maxscript.Naming
