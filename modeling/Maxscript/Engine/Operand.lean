import Maxscript.Engine.Basic
import Maxscript.Reader.Call

/-!
# Operands, calls and elements in a buffer

An operand is reduced to one entry at its index, and so are the elements of an array and the
arguments of a call. The entry is copied to the node that it becomes part of; the node then takes
the place of all entries that were read, the copied ones among them.
-/

namespace Maxscript

open Tree (Element)

namespace Buffer

def membersEnd (buffer : Buffer) (stop : Nat) : Nat :=
  if h : buffer.shows stop (·.is ".") then
    have := lt_length_of_shows h
    if buffer.shows (stop + 1) (·.isTokenWith Token.isWord) then buffer.membersEnd (stop + 2)
    else stop
  else stop
termination_by buffer.length - stop

def negate (buffer : Buffer) (k : Nat) : Result Buffer :=
  match buffer[k + 1]?.bind (·.seen.text?) with
  | some text =>
    if text.toList.head?.any Char.isDigit then buffer.splice ⟨k, k + 2⟩ (.token ("-" ++ text))
    else return buffer
  | none => return buffer

end Buffer

/-- A base and its members, none of which is counted, as one entry. -/
def joinParts (parts : Buffer) : Build Element :=
  if parts.all (·.seen.text?.isSome) then
    return .token (String.join (parts.filterMap (·.seen.text?)))
  else return .node (← push (.chain parts) 0)

/-- A base and its members as one entry. Every `count` at the end counts what is before it. -/
def fuseMembers (parts : Buffer) : Build Element :=
  if parts.length = 1 then return parts.headD (.token "")
  else if parts.length < 3 then joinParts parts
  else do
    if (← parts.entry (parts.length - 1)).seen.isKeyword "count" then
      let before ← Reader.cut parts ⟨0, parts.length - 2⟩
      if before.length < parts.length then
        let base ← fuseMembers before
        return .node (← push (.call "len" [base] false) 0)
      else throw (.internal "extent out of range")
    else joinParts parts
termination_by parts.length

/-- Joins the entry before `dot` with the members from there on, if it can have members and there
are any. -/
def fuseAt (buffer : Buffer) (dot : Nat) : Build (Option Buffer) := do
  if ← buffer.followsOperand dot then
    let stop := buffer.membersEnd dot
    if stop = dot then return none
    else
      let fused ← fuseMembers (← Reader.cut buffer ⟨dot - 1, stop⟩)
      return some (← buffer.splice ⟨dot - 1, stop⟩ fused)
  else return none

/-- Joins the entry at `k` with the members that follow it. -/
def fuseBehind (buffer : Buffer) (k : Nat) : Build (Option Buffer) :=
  if buffer.shows (k + 1) (·.is ".") then fuseAt buffer (k + 1) else return none

/-- The cast of an operand to the type that an entry names. -/
def castNode (indent : Nat) (operand type : Element) : Build Nat :=
  let name := type.seen.text?.getD "<expression>"
  match CastTarget.ofWord? name with
  | some target => push (.cast target operand) indent
  | none => throw (.unsupportedCast name)

namespace Engine

/-! ### Operands -/

/-- Indices whose bracket is at `start`, of a base that was copied. -/
def access (engine : Engine) (indent : Nat) (buffer : Buffer) (start : Nat)
    (base : Option Element) : Build Made := do
  let indices ← engine.elements indent "]" buffer (start + 1) []
  let node ← push (.access base indices.value) indent
  return ⟨indices.buffer, node, indices.stop⟩

/-- Replaces a `#` by what it stands for. -/
def sentinel (engine : Engine) (indent : Nat) (buffer : Buffer) (i : Nat) : Build Buffer :=
  match buffer[i + 1]? with
  | none => return buffer
  | some next =>
    if next.seen.is "(" then do
      let elements ← engine.elements indent ")" buffer (i + 2) []
      let array ← push (.array elements.value) indent
      Made.place ⟨elements.buffer, array, elements.stop⟩ i
    else match next.seen.text? with
      | some name =>
        if Token.isWord name || Token.isQuoted name then
          buffer.splice ⟨i, i + 2⟩ (.token (Reader.nameLiteral name))
        else return buffer
      | none => return buffer

def groupAt (engine : Engine) (indent : Nat) (role : Role) (buffer : Buffer) (i : Nat) :
    Build Made := do
  let group ← buffer.group i
  let node ← engine.blockOf indent role buffer group.inside
  return ⟨buffer, node, group.after⟩

/-- Reduces the operand at `k` without what follows it. -/
def bareOperand (engine : Engine) (indent : Nat) (buffer : Buffer) (k : Nat) : Build Buffer := do
  let first := (← buffer.entry k).seen
  if first.is "(" then (← engine.groupAt indent .group buffer k).place k
  else if first.is "[" then (← engine.access indent buffer k none).place k
  else if first.is "#" then engine.sentinel indent buffer k
  else if first.is "-" then buffer.negate k
  else return buffer

def operand (engine : Engine) (indent : Nat) (buffer : Buffer) (k : Nat) : Build Buffer :=
  if buffer.length ≤ k then return buffer
  else do
    let buffer ← engine.bareOperand indent buffer k
    engine.trailers indent buffer k

/-- The members and indices after an operand, one at a time. -/
def readTrailers (engine : Engine) (indent : Nat) (buffer : Buffer) (k : Nat) : Build Buffer := do
  match ← fuseBehind buffer k with
  | some buffer => engine.trailers indent buffer k
  | none =>
    if buffer.shows (k + 1) (·.is "[") then do
      let access ← engine.access indent buffer (k + 1) (some (← buffer.entry k))
      engine.trailers indent (← access.place k) k
    else return buffer

/-! ### Calls -/

/-- Whether a call starts at `k`: a known function that is not asked for a member. -/
def startsCall (engine : Engine) (buffer : Buffer) (k : Nat) : Result Bool := do
  return (← buffer.entry k).seen.isTokenWith engine.registry.isKnownCall &&
    !buffer.shows (k + 1) (·.is ".")

/-- The call at `i`. A bracket is put where the arguments end, and the call stands for it too. -/
def call (engine : Engine) (indent : Nat) (buffer : Buffer) (i : Nat) : Build Made := do
  let name := (← buffer.entry i).seen.text?.getD ""
  let arguments ← engine.arguments indent buffer (i + 1) []
  let buffer ← arguments.buffer.insert (min arguments.stop arguments.buffer.length) (.token ")")
  let node ← push (.call name arguments.value (engine.registry.isBuiltinCall name)) indent
  return ⟨buffer, node, arguments.stop + 1⟩

/-- The value at `k`, unless one of the tokens `stops` is there, and the index after it. -/
def keyValue (engine : Engine) (indent : Nat) (stops : List String) (buffer : Buffer) (k : Nat) :
    Build (Gathered (Option Element)) :=
  if buffer.shows k fun piece => !piece.isTokenWith stops.contains then do
    let buffer ← engine.operand indent buffer k
    return ⟨buffer, k + 1, some (← buffer.entry k)⟩
  else return ⟨buffer, k, none⟩

def keywordArgument (engine : Engine) (indent : Nat) (buffer : Buffer) (k : Nat) (key : String) :
    Build Made := do
  let value ← engine.keyValue indent Reader.argumentStops buffer (k + 2)
  let node ← push (.binding key value.value) indent
  return ⟨value.buffer, node, value.stop⟩

def key? (buffer : Buffer) (k : Nat) (first : Piece) : Option String :=
  first.text?.filter fun word => Token.isWord word && buffer.shows (k + 1) (·.is ":")

def readArguments (engine : Engine) (indent : Nat) (buffer : Buffer) (k : Nat)
    (given : List Element) : Build (Gathered (List Element)) :=
  if k < buffer.length then do
    let first := (← buffer.entry k).seen
    if first.is "(" then
      let group ← buffer.group k
      if group.inside.stop ≤ group.inside.start then return ⟨buffer, group.after, given⟩
      else
        let argument ← engine.groupAt indent .argument buffer k
        engine.arguments indent (← argument.place k) (k + 1) (given ++ [.node argument.node])
    else match key? buffer k first with
      | some key => do
        let argument ← engine.keywordArgument indent buffer k key
        engine.arguments indent (← argument.place k) (k + 1) (given ++ [.node argument.node])
      | none =>
        if first.isTokenWith Reader.endsArguments then return ⟨buffer, k, given⟩
        else do
          let buffer ← engine.operand indent buffer k
          engine.arguments indent buffer (k + 1) (given ++ [← buffer.entry k])
  else return ⟨buffer, k, given⟩

/-! ### Elements -/

def callOrOperand (engine : Engine) (indent : Nat) (buffer : Buffer) (k : Nat) : Build Buffer := do
  if ← engine.startsCall buffer k then (← engine.call indent buffer k).place k
  else engine.operand indent buffer k

/-- Reduces the element at `k`, if there is one, and casts it if `as` follows. -/
def element (engine : Engine) (indent : Nat) (buffer : Buffer) (k : Nat) : Build Buffer :=
  if buffer.length ≤ k then return buffer
  else do
    let buffer ← engine.callOrOperand indent buffer k
    if buffer.shows (k + 1) (·.isKeyword "as") && k + 2 < buffer.length then
      let cast ← castNode indent (← buffer.entry k) (← buffer.entry (k + 2))
      Made.place ⟨buffer, cast, k + 3⟩ k
    else return buffer

def readElements (engine : Engine) (indent : Nat) (close : String) (buffer : Buffer) (k : Nat)
    (collected : List Element) : Build (Gathered (List Element)) :=
  if k < buffer.length then do
    let first := (← buffer.entry k).seen
    if first.is close then return ⟨buffer, min (k + 1) buffer.length, collected⟩
    else if Reader.isSeparator first then engine.elements indent close buffer (k + 1) collected
    else
      let buffer ← engine.element indent buffer k
      engine.elements indent close buffer (k + 1) (collected ++ [← buffer.entry k])
  else return ⟨buffer, min (k + 1) buffer.length, collected⟩

end Engine

end Maxscript
