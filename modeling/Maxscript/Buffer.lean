import Maxscript.Reader.Basic
import Maxscript.Tree.Basic

/-!
# Buffers

A block is read in place: a buffer holds its tokens, and whatever a run of them turns out to be
takes their place as the number of a node. Every access is checked, and one out of range is a fault
of the reader, not of the script.
-/

namespace Maxscript

open Tree (Element)

/-- What the rules for reading see of an entry: its text, or that it has none. -/
def Tree.Element.seen : Element → Piece
  | .token text => .token text
  | .node _ => .chain 0 []

/-- The entries that a block is read from. -/
abbrev Buffer := List Element

namespace Buffer

def seen (buffer : Buffer) : List Piece := buffer.map Element.seen

/-! ### Access -/

def entry (buffer : Buffer) (i : Nat) : Result Element :=
  match buffer[i]? with
  | some element => .ok element
  | none => .error (.internal "index out of range")

def shows (buffer : Buffer) (i : Nat) (p : Piece → Bool) : Bool :=
  buffer[i]?.any fun element => p element.seen

/-- Replaces the entries of an extent by one. -/
def splice (buffer : Buffer) (extent : Extent) (element : Element) : Result Buffer :=
  if extent.start ≤ extent.stop ∧ extent.stop ≤ buffer.length then
    .ok (buffer.take extent.start ++ element :: buffer.drop extent.stop)
  else .error (.internal "extent out of range")

/-- Replaces the entries of an extent, which may reach beyond the buffer, by a node. -/
def spliceNode (buffer : Buffer) (extent : Extent) (id : Nat) : Result Buffer :=
  buffer.splice ⟨extent.start, min extent.stop buffer.length⟩ (.node id)

def insert (buffer : Buffer) (i : Nat) (element : Element) : Result Buffer :=
  if i ≤ buffer.length then .ok (buffer.take i ++ element :: buffer.drop i)
  else .error (.internal "index out of range")

def remove (buffer : Buffer) (i : Nat) : Result Buffer :=
  if i < buffer.length then .ok (buffer.take i ++ buffer.drop (i + 1))
  else .error (.internal "index out of range")

theorem lt_length_of_shows {buffer : Buffer} {i : Nat} {p : Piece → Bool}
    (h : buffer.shows i p = true) : i < buffer.length := by
  cases found : buffer[i]? with
  | none =>
      rw [shows, found] at h
      cases h
  | some element => exact (List.getElem?_eq_some_iff.mp found).1

/-! ### Scanning -/

/-- The index of the first entry from `i` on that does not satisfy `p`. -/
def skipWhile (buffer : Buffer) (p : Piece → Bool) (i : Nat) : Nat :=
  if h : buffer.shows i p then
    have := lt_length_of_shows h
    buffer.skipWhile p (i + 1)
  else i
termination_by buffer.length - i

def skipNewlines (buffer : Buffer) (i : Nat) : Nat := buffer.skipWhile Piece.isNewline i

/-- The text of the token at `i`, empty if no token is there. -/
def nameAt (buffer : Buffer) (i : Nat) : String := (buffer[i]?.bind (·.seen.text?)).getD ""

/-- Whether the entry before `i` can stand on the left of `.`, `[` or `as`. -/
def followsOperand (buffer : Buffer) (i : Nat) : Result Bool :=
  if 0 < i then do return Reader.isOperand (← buffer.entry (i - 1)).seen else return false

/-- Whether there is a closing bracket at `close`, behind the one at `start`. -/
def isClosed (buffer : Buffer) (start close : Nat) : Result Bool :=
  if start < close then do return (← buffer.entry close).seen.is ")" else return false

def group (buffer : Buffer) (start : Nat) : Result Extent.Group := do
  let close := Extent.closingParen buffer.seen start
  if ← buffer.isClosed start close then return ⟨⟨start + 1, close⟩, close + 1⟩
  else return ⟨⟨min (start + 1) buffer.length, buffer.length⟩, buffer.length⟩

/-- The clause at `start`, which is a bracketed group or a statement. -/
def clause (buffer : Buffer) (start : Nat) : Result Extent :=
  if buffer.length ≤ start then return ⟨buffer.length, buffer.length⟩
  else do
    if (← buffer.entry start).seen.is "(" then
      return ⟨start, Extent.closingParen buffer.seen start + 1⟩
    else return ⟨start, Extent.statementEnd buffer.seen start⟩

/-- The consequent that starts after `then`. -/
def consequent (buffer : Buffer) (start : Nat) : Result Extent :=
  if buffer.length ≤ start then return ⟨buffer.length, buffer.length⟩
  else do
    let first := (← buffer.entry start).seen
    if first.is "(" then return ⟨start, Extent.closingParen buffer.seen start + 1⟩
    else if first.isNewline then
      if buffer.shows (start + 1) (·.is "(") then
        return ⟨start + 1, Extent.closingParen buffer.seen (start + 1) + 1⟩
      else return ⟨start + 1, Extent.statementEnd buffer.seen (start + 1)⟩
    else return ⟨start, Extent.statementEnd buffer.seen start⟩

/-! ### What surrounds a block -/

def isSeparator (element : Element) : Bool := Reader.isSeparator element.seen

def trimSeparators (buffer : Buffer) : Buffer :=
  ((buffer.dropWhile isSeparator).reverse.dropWhile isSeparator).reverse

/-- Whether the first entry and the last are a pair of brackets. -/
def isWrapped (buffer : Buffer) : Result Bool :=
  if buffer.length > 1 then do
    let first ← buffer.entry 0
    let last ← buffer.entry (buffer.length - 1)
    return first.seen.is "(" && last.seen.is ")" &&
      Extent.closingParen buffer.seen 0 == buffer.length - 1
  else return false

/-- Drops the pair of brackets around the entries, if there is one. -/
def unwrap (buffer : Buffer) : Result Buffer := do
  if ← buffer.isWrapped then remove buffer.dropLast 0 else return buffer

/-- Drops separators and brackets around the entries until nothing changes. -/
def trim (buffer : Buffer) : Result Buffer := do
  let inner ← buffer.trimSeparators.unwrap
  if inner.length < buffer.length then inner.trim else return inner
termination_by buffer.length

end Buffer

end Maxscript
