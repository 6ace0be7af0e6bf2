import Maxscript.Reader.Basic

/-!
# Conditionals, error handling and loops

The parts of these constructs are cut out first, by the extents of `Maxscript.Extent`, and then
read as blocks. Bodies are one level deeper than the construct.
-/

namespace Maxscript.Reader

/-- What comes after an `else`, which may stand on the next line. -/
def afterElse? : List Piece → Option (List Piece)
  | [] => none
  | first :: rest => if first.isNewline then after? "else" rest else after? "else" (first :: rest)

def skipNewline : List Piece → List Piece
  | [] => []
  | first :: rest => if first.isNewline then rest else first :: rest

/-- The branch after `else`. A chained `if` is the only item of its branch. -/
def alternative (reader : Reader) (indent : Nat) (rest : List Piece) : Result (Reading Piece) :=
  let rest := skipNewline rest
  match after? "if" rest with
  | some nested => do
    let (conditional, rest) ← reader.conditional (indent + 1) nested
    return (.block (indent + 1) .alternative [conditional], rest)
  | none => do
    let stop := Extent.clauseEnd rest 0
    let block ← reader.blockOf (indent + 1) .alternative rest ⟨0, stop⟩
    return (block, rest.drop stop)

def readConditional (reader : Reader) (indent : Nat) (rest : List Piece) :
    Result (Reading Piece) := do
  let conditionEnd := Extent.conditionEnd rest 0
  let condition ← reader.blockOf indent .condition rest ⟨0, conditionEnd⟩
  let rest := rest.drop (conditionEnd + 1)
  let extent := Extent.consequent rest 0
  let consequent ← reader.blockOf (indent + 1) .consequent rest extent
  let rest := rest.drop extent.stop
  match afterElse? rest with
  | none => return (.conditional indent condition consequent none, rest)
  | some branch => do
    let (alternative, rest) ← reader.alternative indent branch
    return (.conditional indent condition consequent (some alternative), rest)

/-- The index after what `try` attempts: a bracketed group, or else everything up to the next
newline or `catch`. -/
def attemptedEnd (pieces : List Piece) : Nat :=
  if startsWith "(" pieces then Extent.clauseEnd pieces 0
  else (pieces.takeWhile fun piece => !(piece.isNewline || piece.isKeyword "catch")).length

def isEmptyHandler (pieces : List Piece) : Bool :=
  pieces.all fun piece => piece.is "(" || piece.is ")" || piece.isNewline

def attempt (reader : Reader) (indent : Nat) (rest : List Piece) : Result (Reading Piece) := do
  let rest := skipNewlines rest
  let stop := attemptedEnd rest
  let attempted ← reader.blockOf (indent + 1) .attempted rest ⟨0, stop⟩
  let rest := rest.drop stop
  match after? "catch" (skipNewlines rest) with
  | none => return (.attempt indent attempted none, rest)
  | some afterCatch => do
    let rest := skipNewlines afterCatch
    let stop := Extent.clauseEnd rest 0
    let pieces ← cut rest ⟨0, stop⟩
    let handler ←
      if isEmptyHandler pieces then pure none
      else some <$> reader.block (indent + 1) .handler pieces
    return (.attempt indent attempted handler, rest.drop stop)

/-- The length of a loop header, and whether the loop collects values. The header ends at a
newline, a `do` or a closing bracket of an outer group. -/
def loopHeader (depth : Nat) (collects : Bool) : List Piece → Nat × Bool
  | [] => (0, collects)
  | piece :: rest =>
    let next (depth : Nat) (collects : Bool) :=
      let (length, collects) := loopHeader depth collects rest
      (length + 1, collects)
    if piece.is "(" then next (depth + 1) collects
    else if piece.is ")" then
      if depth = 0 then (0, collects) else next (depth - 1) collects
    else if depth = 0 && (piece.isNewline || piece.isKeyword "do") then (0, collects)
    else if depth = 0 && piece.isKeyword "collect" then next depth true
    else next depth collects

def loop (reader : Reader) (indent : Nat) (rest : List Piece) : Result (Reading Piece) := do
  let (stop, collects) := loopHeader 0 false rest
  let header ← reader.blockOf indent .loopHeader rest ⟨0, stop⟩
  let rest := rest.drop stop
  if collects then return (.loop indent header true none, rest)
  else match after? "do" (skipNewlines rest) with
    | none => return (.loop indent header false none, rest)
    | some afterDo => do
      let rest := skipNewlines afterDo
      let stop := Extent.clauseEnd rest 0
      let body ← reader.blockOf (indent + 1) .loopBody rest ⟨0, stop⟩
      return (.loop indent header false (some body), rest.drop stop)

end Maxscript.Reader
