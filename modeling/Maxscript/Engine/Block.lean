import Maxscript.Engine.Construct
import Maxscript.Reader.Block

/-!
# Blocks in a buffer

One step of the scan over a buffer either moves on or splices a range of it into a single node. A
script is read by scanning the buffer of all its tokens; the arena then holds its tree.
-/

namespace Maxscript

open Tree (Element)

structure Spot where
  buffer : Buffer
  index : Nat

/-- Puts a node in the place of the entries from `start` on, and moves behind it. -/
def Made.passed (made : Made) (start : Nat) : Result Spot := do
  return ⟨← made.place start, start + 1⟩

namespace Buffer

/-- Whether there is a target and the operator of an assignment or comparison before the operand
that the `as` at `i` casts. -/
def assignsCast (buffer : Buffer) (i : Nat) : Result Bool :=
  if 3 ≤ i then do
    if (← buffer.entry (i - 2)).seen.isTokenWith Token.isLigature then
      return Reader.isOperand (← buffer.entry (i - 3)).seen
    else return false
  else return false

/-- Whether there is an operand before the `as` at `i`, and a type after it. -/
def hasCast (buffer : Buffer) (i : Nat) : Result Bool :=
  if i + 1 < buffer.length then buffer.followsOperand i else return false

/-- Whether the operator at `i` has neighbours to bind on its line. -/
def hasFactors (buffer : Buffer) (i : Nat) : Result Bool :=
  if 0 < i ∧ i + 1 < buffer.length then do
    let left ← buffer.entry (i - 1)
    let right ← buffer.entry (i + 1)
    return !(left.seen.isNewline || right.seen.isNewline)
  else return false

end Buffer

namespace Engine

/-- The cast at the `as` at `i`. The operand of an assignment or comparison takes the whole of it
into one statement. -/
def castAt (indent : Nat) (buffer : Buffer) (i : Nat) : Build Spot := do
  let cast ← castNode indent (← buffer.entry (i - 1)) (← buffer.entry (i + 1))
  if ← buffer.assignsCast i then
    let parts := [← buffer.entry (i - 3), ← buffer.entry (i - 2), .node cast]
    let statement ← push (.statement parts) indent
    Made.passed ⟨buffer, statement, i + 2⟩ (i - 3)
  else Made.passed ⟨buffer, cast, i + 2⟩ (i - 1)

/-- The index at the `[` at `i`, of the entry before it if that can be indexed. -/
def accessAt (engine : Engine) (indent : Nat) (buffer : Buffer) (i : Nat) : Build Spot := do
  if ← buffer.followsOperand i then
    (← engine.access indent buffer i (some (← buffer.entry (i - 1)))).passed (i - 1)
  else (← engine.access indent buffer i none).passed i

/-- The step at the operator at `i`, which binds its two neighbours unless one of them is missing.
-/
def factorAt (engine : Engine) (indent : Nat) (buffer : Buffer) (i : Nat) : Build Spot := do
  if ← buffer.hasFactors i then
    let buffer ← engine.element indent buffer (i + 1)
    let parts ← Reader.cut buffer ⟨i - 1, i + 2⟩
    let statement ← push (.statement parts) indent
    Made.passed ⟨buffer, statement, i + 2⟩ (i - 1)
  else return ⟨buffer, i + 1⟩

/-- The step at a token that is no word with a meaning of its own. -/
def stepMark (engine : Engine) (indent : Nat) (buffer : Buffer) (i : Nat) (text : String) :
    Build Spot :=
  if text = "[" then engine.accessAt indent buffer i
  else if text = "#" then return ⟨← engine.sentinel indent buffer i, i + 1⟩
  else if text = "(" then do (← engine.groupAt indent .group buffer i).passed i
  else if text = "*" ∨ text = "/" ∨ text = "%" then engine.factorAt indent buffer i
  else if text = "," then return ⟨← buffer.remove i, i⟩
  else if text = "." then do
    match ← fuseAt buffer i with
    | some buffer => return ⟨buffer, i - 1⟩
    | none => return ⟨buffer, i + 1⟩
  else return ⟨buffer, i + 1⟩

/-- The step at a token that is not one of the words that start a construct by themselves. -/
def stepToken (engine : Engine) (indent : Nat) (buffer : Buffer) (i : Nat) (text : String) :
    Build Spot := do
  if ← engine.startsCall buffer i then (← engine.call indent buffer i).passed i
  else if Text.foldCase text = "for" then (← engine.loop indent buffer i).passed i
  else if Text.foldCase text = "as" then
    if ← buffer.hasCast i then castAt indent buffer i else return ⟨buffer, i + 1⟩
  else engine.stepMark indent buffer i text

def step (engine : Engine) (indent : Nat) (buffer : Buffer) (i : Nat) : Build Spot := do
  match (← buffer.entry i).seen.text? with
  | none => return ⟨buffer, i + 1⟩
  | some text =>
    let word := Text.foldCase text
    if word = "struct" then (← engine.struct indent buffer i).passed i
    else if word = "fn" ∨ word = "function" then (← engine.function indent buffer i).passed i
    else if word = "mapped" ∧
        buffer.shows (i + 1) fun next => next.isKeyword "fn" || next.isKeyword "function" then
      return ⟨← buffer.remove i, i⟩
    else if word = "if" then (← engine.readConditional indent buffer i).passed i
    else if word = "try" then (← engine.attempt indent buffer i).passed i
    else engine.stepToken indent buffer i text

/-- The items of a block. The scan stops at a bracket that closes nothing. -/
def readScan (engine : Engine) (indent : Nat) (buffer : Buffer) (i : Nat) : Build Buffer :=
  if i < buffer.length then do
    if (← buffer.entry i).seen.is ")" then return buffer
    else
      let spot ← engine.step indent buffer i
      engine.scan indent spot.buffer spot.index
  else return buffer

/-- The engine that was asked once too often. -/
def exhausted (registry : Registry) : Engine where
  registry := registry
  scan _ _ _ := throw (.internal "nested too deeply")
  conditional _ _ _ := throw (.internal "nested too deeply")
  parameters _ _ _ _ _ := throw (.internal "nested too deeply")
  members _ _ _ _ _ := throw (.internal "nested too deeply")
  arguments _ _ _ _ := throw (.internal "nested too deeply")
  elements _ _ _ _ _ := throw (.internal "nested too deeply")
  trailers _ _ _ := throw (.internal "nested too deeply")

/-- The engine whose loops go on with `engine`. -/
def deeper (engine : Engine) : Engine where
  registry := engine.registry
  scan := engine.readScan
  conditional := engine.readConditional
  parameters := engine.readParameters
  members := engine.readMembers
  arguments := engine.readArguments
  elements := engine.readElements
  trailers := engine.readTrailers

/-- The engine with a budget of `n` rounds. -/
def atDepth (registry : Registry) : Nat → Engine
  | 0 => exhausted registry
  | n + 1 => (atDepth registry n).deeper

end Engine

/-- Reads a script into the tree of its statements. -/
def readTree (registry : Registry) (source : String) : Result Tree := do
  let buffer := (Token.ofSource registry source).map Element.token
  let engine := Engine.atDepth registry (buffer.length + 1)
  let (body, arena) ← engine.block 0 .root buffer [⟨.root, 0, none⟩]
  return ⟨← arena.adopt Tree.root body, body⟩

end Maxscript
