import Maxscript.Arena
import Maxscript.Buffer

/-!
# Engines

An `Engine` does in a buffer what a `Reader` does on a list of pieces. What it reads is pushed to
the arena and spliced into the buffer, so that indices found before have to be right after it as
well. Constructs are written against an arbitrary `Engine`, one for each of those in
`Maxscript.Reader`, and `Maxscript.Engine.Block` closes the circle.
-/

namespace Maxscript

open Tree (Element)

/-- A node that stands for the entries up to `stop`, and the buffer they are still in. -/
structure Made where
  buffer : Buffer
  node : Nat
  stop : Nat

/-- What was gathered from the entries up to `stop`. -/
structure Gathered (α : Type) where
  buffer : Buffer
  stop : Nat
  value : α

/-- The loops of nested constructs. Each goes on from the index it is given. -/
structure Engine where
  registry : Registry
  /-- Reads the entries from `i` on as items of a block. -/
  scan : (indent : Nat) → (buffer : Buffer) → (i : Nat) → Build Buffer
  /-- A conditional after an `else`. -/
  conditional : (indent : Nat) → (buffer : Buffer) → (i : Nat) → Build Made
  /-- The parameters of a function, those with a name last. -/
  parameters : (indent : Nat) → (buffer : Buffer) → (k : Nat) → (positional named : List Nat) →
    Build (Gathered (List Nat × List Nat))
  /-- The properties and methods of a struct. -/
  members : (indent : Nat) → (buffer : Buffer) → (k : Nat) → (properties methods : List Nat) →
    Build (List Nat × List Nat)
  /-- The arguments of a call. -/
  arguments : (indent : Nat) → (buffer : Buffer) → (k : Nat) → (given : List Element) →
    Build (Gathered (List Element))
  /-- The elements of an array or the indices of an access, up to the bracket `close`. -/
  elements : (indent : Nat) → (close : String) → (buffer : Buffer) → (k : Nat) →
    (collected : List Element) → Build (Gathered (List Element))
  /-- The members and indices that follow the operand at `k`. -/
  trailers : (indent : Nat) → (buffer : Buffer) → (k : Nat) → Build Buffer

/-- Puts a node in the place of the entries from `start` on that it stands for. -/
def Made.place (made : Made) (start : Nat) : Result Buffer :=
  made.buffer.spliceNode ⟨start, made.stop⟩ made.node

namespace Engine

def block (engine : Engine) (indent : Nat) (role : Role) (buffer : Buffer) : Build Nat := do
  let items ← engine.scan indent (← buffer.trim) 0
  push (.block role items) indent

def blockOf (engine : Engine) (indent : Nat) (role : Role) (buffer : Buffer) (extent : Extent) :
    Build Nat := do
  engine.block indent role (← Reader.cut buffer extent)

end Engine

end Maxscript
