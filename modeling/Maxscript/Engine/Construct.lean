import Maxscript.Engine.Operand
import Maxscript.Reader.Control
import Maxscript.Reader.Definition

/-!
# Clauses and definitions in a buffer

The parts of these constructs are copied out of the buffer by their extents and read as blocks,
while the buffer stays as it is. Only the defaults of parameters are reduced in place.
-/

namespace Maxscript

namespace Buffer

/-- The index of an `else` at `k` or behind a newline there, or else `k`. -/
def elseAt (buffer : Buffer) (k : Nat) : Nat :=
  if buffer.shows k Piece.isNewline && buffer.shows (k + 1) (·.isKeyword "else") then k + 1 else k

/-- What `try` attempts: a bracketed group, or else everything up to the next newline or `catch`. -/
def attempted (buffer : Buffer) (start : Nat) : Result Extent :=
  if buffer.shows start (·.is "(") then buffer.clause start
  else
    let stop := buffer.skipWhile (fun piece => !(piece.isNewline || piece.isKeyword "catch")) start
    return ⟨min start stop, stop⟩

/-- The body of a function whose `=` is at `k`: a bracketed group, or else the statement there, cut
short by a comma or newline outside brackets. -/
def definitionBody (buffer : Buffer) (k : Nat) : Extent :=
  if buffer.length ≤ k then ⟨buffer.length, buffer.length⟩
  else
    let start := buffer.skipNewlines (k + 1)
    if buffer.shows start (·.is "(") then ⟨start, Extent.closingParen buffer.seen start + 1⟩
    else
      let start := min start buffer.length
      ⟨start, min (Extent.statementEnd buffer.seen start) (Extent.separatorEnd buffer.seen start)⟩

/-- The index after the event handler at `k`. -/
def handlerEnd (buffer : Buffer) (k : Nat) : Result Nat :=
  let start := buffer.skipWhile (fun piece => !(piece.is "(" || piece.isNewline)) (k + 1)
  if buffer.shows start (·.is "(") then Extent.Group.after <$> buffer.group start
  else return start

end Buffer

namespace Engine

/-! ### Clauses -/

/-- The branch after the `else` before `start`. A chained `if` is the only item of its branch. -/
def alternative (engine : Engine) (indent : Nat) (buffer : Buffer) (start : Nat) : Build Made := do
  let start := if buffer.shows start Piece.isNewline then start + 1 else start
  if buffer.shows start (·.isKeyword "if") then
    let conditional ← engine.conditional (indent + 1) buffer start
    let node ← push (.block .alternative [.node conditional.node]) (indent + 1)
    return ⟨conditional.buffer, node, conditional.stop⟩
  else
    let extent ← buffer.clause start
    let node ← engine.blockOf (indent + 1) .alternative buffer extent
    return ⟨buffer, node, extent.stop⟩

def readConditional (engine : Engine) (indent : Nat) (buffer : Buffer) (i : Nat) : Build Made := do
  let conditionEnd := Extent.conditionEnd buffer.seen (i + 1)
  let condition ← engine.blockOf indent .condition buffer ⟨i + 1, conditionEnd⟩
  let extent ← buffer.consequent (conditionEnd + 1)
  let consequent ← engine.blockOf (indent + 1) .consequent buffer extent
  let k := buffer.elseAt extent.stop
  if buffer.shows k (·.isKeyword "else") then
    let alternative ← engine.alternative indent buffer (k + 1)
    let node ← push (.conditional condition consequent (some alternative.node)) indent
    return ⟨alternative.buffer, node, alternative.stop⟩
  else
    let node ← push (.conditional condition consequent none) indent
    return ⟨buffer, node, extent.stop⟩

def attempt (engine : Engine) (indent : Nat) (buffer : Buffer) (i : Nat) : Build Made := do
  let extent ← buffer.attempted (buffer.skipNewlines (i + 1))
  let attempted ← engine.blockOf (indent + 1) .attempted buffer extent
  let k := buffer.skipNewlines extent.stop
  if buffer.shows k (·.isKeyword "catch") then
    let clause ← buffer.clause (buffer.skipNewlines (k + 1))
    let entries ← Reader.cut buffer clause
    if Reader.isEmptyHandler (Buffer.seen entries) then
      let node ← push (.attempt attempted none) indent
      return ⟨buffer, node, clause.stop⟩
    else
      let handler ← engine.block (indent + 1) .handler entries
      let node ← push (.attempt attempted (some handler)) indent
      return ⟨buffer, node, clause.stop⟩
  else
    let node ← push (.attempt attempted none) indent
    return ⟨buffer, node, extent.stop⟩

def loop (engine : Engine) (indent : Nat) (buffer : Buffer) (i : Nat) : Build Made := do
  let header := Reader.loopHeader 0 false (buffer.seen.drop (i + 1))
  let stop := i + 1 + header.1
  let node ← engine.blockOf indent .loopHeader buffer ⟨i + 1, stop⟩
  if header.2 then
    let node ← push (.loop node true none) indent
    return ⟨buffer, node, stop⟩
  else
    let k := buffer.skipNewlines stop
    if buffer.shows k (·.isKeyword "do") then
      let clause ← buffer.clause (buffer.skipNewlines (k + 1))
      let body ← engine.blockOf (indent + 1) .loopBody buffer clause
      let node ← push (.loop node false (some body)) indent
      return ⟨buffer, node, clause.stop⟩
    else
      let node ← push (.loop node false none) indent
      return ⟨buffer, node, stop⟩

/-! ### Definitions -/

def readParameters (engine : Engine) (indent : Nat) (buffer : Buffer) (k : Nat)
    (positional named : List Nat) : Build (Gathered (List Nat × List Nat)) :=
  if k < buffer.length then do
    let first := (← buffer.entry k).seen
    if first.is "=" then return ⟨buffer, k, positional, named⟩
    else match first.text?.filter Token.isWord with
      | some name =>
        if buffer.shows (k + 1) (·.is ":") then do
          let value ← engine.keyValue indent ["\n", "=", ")"] buffer (k + 2)
          let node ← push (.binding name value.value) indent
          engine.parameters indent value.buffer value.stop positional (named ++ [node])
        else do
          let node ← push (.binding name none) indent
          engine.parameters indent buffer (k + 1) (positional ++ [node]) named
      | none => engine.parameters indent buffer (k + 1) positional named
  else return ⟨buffer, k, positional, named⟩

def function (engine : Engine) (indent : Nat) (buffer : Buffer) (i : Nat) : Build Made := do
  let name := buffer.nameAt (i + 1)
  let parameters ← engine.parameters indent buffer (i + 2) [] []
  let buffer := parameters.buffer
  let extent := buffer.definitionBody parameters.stop
  let body ← engine.blockOf (indent + 1) .functionBody buffer extent
  let node ← push (.function name parameters.value.1 parameters.value.2 body) indent
  return ⟨buffer, node, extent.stop⟩

def readMembers (engine : Engine) (indent : Nat) (buffer : Buffer) (k : Nat)
    (properties methods : List Nat) : Build (List Nat × List Nat) :=
  if k < buffer.length then do
    let first := (← buffer.entry k).seen
    if first.isKeyword "fn" || first.isKeyword "function" then
      let method ← engine.function (indent + 1) buffer k
      engine.members indent method.buffer method.stop properties (methods ++ [method.node])
    else if first.isKeyword "on" then
      engine.members indent buffer (← buffer.handlerEnd k) properties methods
    else if first.is "(" then
      engine.members indent buffer (← buffer.group k).after properties methods
    else match first.text? with
      | none => engine.members indent buffer (k + 1) properties methods
      | some name =>
        if !Token.isWord name || first.isKeyword "private" || first.isKeyword "public" then
          engine.members indent buffer (k + 1) properties methods
        else if buffer.shows (k + 1) (·.is "=") then do
          let stop := Extent.separatorEnd buffer.seen (k + 2)
          let value ← engine.blockOf (indent + 2) .property buffer ⟨k + 2, stop⟩
          let property ← push (.binding name (some (.node value))) (indent + 2)
          engine.members indent buffer stop (properties ++ [property]) methods
        else do
          let property ← push (.binding name none) (indent + 2)
          engine.members indent buffer (k + 1) (properties ++ [property]) methods
  else return (properties, methods)

def struct (engine : Engine) (indent : Nat) (buffer : Buffer) (i : Nat) : Build Made := do
  let name := buffer.nameAt (i + 1)
  let start := buffer.skipNewlines (i + 2)
  if buffer.shows start (·.is "(") then
    let group ← buffer.group start
    let members ← engine.members indent (← Reader.cut buffer group.inside) 0 [] []
    let node ← push (.struct name members.1 members.2) indent
    return ⟨buffer, node, group.after⟩
  else
    let node ← push (.struct name [] []) indent
    return ⟨buffer, node, min (i + 2) buffer.length⟩

end Engine

end Maxscript
