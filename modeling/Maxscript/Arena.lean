import Maxscript.Reader.Basic
import Maxscript.Tree.Basic

/-!
# The arena

The nodes of a script are pushed one after another while it is read, and the number of a node is its
place among them. A node is pushed after those it lists, and is their parent from then on, whatever
was before.
-/

namespace Maxscript

open Tree (Kind Node)

/-- The nodes that were pushed so far. -/
abbrev Arena := List Node

abbrev Build := StateT Arena Result

namespace Arena

/-- Makes `parent` the parent of a node. -/
def adopt (parent : Nat) (arena : Arena) (child : Nat) : Result Arena :=
  if child < arena.length then
    .ok (arena.modify child fun node => { node with parent := some parent })
  else .error (.internal "no such node")

end Arena

/-- Appends a node that adopts the nodes it lists, and answers with its number. -/
def push (kind : Kind) (indent : Nat) : Build Nat := fun arena => do
  let adopted ← kind.children.foldlM (Arena.adopt arena.length) arena
  return (arena.length, adopted ++ [⟨kind, indent, none⟩])

end Maxscript
