import Maxscript.Tree.Basic

/-!
# The numbers of the nodes

Nodes are numbered in the order in which reading completes them: a node comes after everything it
is made of, and the nodes of a construct stand together, the construct itself last. So the number
of a construct is known from the number that its first node gets and from how many there are.
-/

namespace Maxscript.Tree

mutual

/-- The number of constructs in a piece, itself included. -/
def count : Piece → Nat
  | .token _ => 0
  | .binding _ _ none _ => 1
  | .binding _ _ (some value) _ => count value + 1
  | .statement _ parts => countAll parts + 1
  | .chain _ parts => countAll parts + 1
  | .block _ _ items => countAll items + 1
  | .array _ elements => countAll elements + 1
  | .access _ none indices => countAll indices + 1
  | .access _ (some base) indices => count base + countAll indices + 1
  | .call _ _ arguments _ => countAll arguments + 1
  | .function _ _ parameters body => countAll parameters + count body + 1
  | .struct _ _ members => countAll members + 1
  | .conditional _ condition consequent none => count condition + count consequent + 1
  | .conditional _ condition consequent (some alternative) =>
    count condition + count consequent + count alternative + 1
  | .attempt _ attempted none => count attempted + 1
  | .attempt _ attempted (some handler) => count attempted + count handler + 1
  | .loop _ header _ none => count header + 1
  | .loop _ header _ (some body) => count header + count body + 1
  | .cast _ _ operand => count operand + 1

def countAll : List Piece → Nat
  | [] => 0
  | piece :: rest => count piece + countAll rest

end

/-- The number of a construct whose first node has the number `start`. -/
def idAt (start : Nat) (piece : Piece) : Nat := start + count piece - 1

/-- A piece as a part of a node, if its first node has the number `start`. -/
def elementAt (start : Nat) : Piece → Element
  | .token text => .token text
  | piece => .node (idAt start piece)

def elementsAt (start : Nat) : List Piece → List Element
  | [] => []
  | piece :: rest => elementAt start piece :: elementsAt (start + count piece) rest

/-- The numbers of those constructs among several that satisfy `p`. -/
def idsAt (p : Piece → Bool) (start : Nat) : List Piece → List Nat
  | [] => []
  | piece :: rest =>
    if p piece then idAt start piece :: idsAt p (start + count piece) rest
    else idsAt p (start + count piece) rest

mutual

/-- The nodes of a piece that is part of `parent`, numbered from `start` on. -/
def layOut (start parent : Nat) : Piece → List Node
  | .token _ => []
  | .binding indent name none _ => [⟨.binding name none, indent, some parent⟩]
  | .binding indent name (some value) _ =>
    layOut start (start + count value) value ++
      [⟨.binding name (some (elementAt start value)), indent, some parent⟩]
  | .statement indent parts =>
    layOutAll start (start + countAll parts) parts ++
      [⟨.statement (elementsAt start parts), indent, some parent⟩]
  | .chain indent parts =>
    layOutAll start (start + countAll parts) parts ++
      [⟨.chain (elementsAt start parts), indent, some parent⟩]
  | .block indent role items =>
    layOutAll start (start + countAll items) items ++
      [⟨.block role (elementsAt start items), indent, some parent⟩]
  | .array indent elements =>
    layOutAll start (start + countAll elements) elements ++
      [⟨.array (elementsAt start elements), indent, some parent⟩]
  | .access indent none indices =>
    layOutAll start (start + countAll indices) indices ++
      [⟨.access none (elementsAt start indices), indent, some parent⟩]
  | .access indent (some base) indices =>
    let next := start + count base
    let self := next + countAll indices
    layOut start self base ++ layOutAll next self indices ++
      [⟨.access (some (elementAt start base)) (elementsAt next indices), indent, some parent⟩]
  | .call indent name arguments builtin =>
    layOutAll start (start + countAll arguments) arguments ++
      [⟨.call name (elementsAt start arguments) builtin, indent, some parent⟩]
  | .function indent name parameters body =>
    let next := start + countAll parameters
    let self := next + count body
    let positional := idsAt (!·.isNamed) start parameters
    let named := idsAt (·.isNamed) start parameters
    layOutAll start self parameters ++ layOut next self body ++
      [⟨.function name positional named (idAt next body), indent, some parent⟩]
  | .struct indent name members =>
    let properties := idsAt (·.isBinding) start members
    let methods := idsAt (!·.isBinding) start members
    layOutAll start (start + countAll members) members ++
      [⟨.struct name properties methods, indent, some parent⟩]
  | .conditional indent condition consequent none =>
    let next := start + count condition
    let self := next + count consequent
    layOut start self condition ++ layOut next self consequent ++
      [⟨.conditional (idAt start condition) (idAt next consequent) none, indent, some parent⟩]
  | .conditional indent condition consequent (some alternative) =>
    let next := start + count condition
    let last := next + count consequent
    let self := last + count alternative
    layOut start self condition ++ layOut next self consequent ++ layOut last self alternative ++
      [⟨.conditional (idAt start condition) (idAt next consequent) (some (idAt last alternative)),
        indent, some parent⟩]
  | .attempt indent attempted none =>
    layOut start (start + count attempted) attempted ++
      [⟨.attempt (idAt start attempted) none, indent, some parent⟩]
  | .attempt indent attempted (some handler) =>
    let next := start + count attempted
    let self := next + count handler
    layOut start self attempted ++ layOut next self handler ++
      [⟨.attempt (idAt start attempted) (some (idAt next handler)), indent, some parent⟩]
  | .loop indent header comprehension none =>
    layOut start (start + count header) header ++
      [⟨.loop (idAt start header) comprehension none, indent, some parent⟩]
  | .loop indent header comprehension (some body) =>
    let next := start + count header
    let self := next + count body
    layOut start self header ++ layOut next self body ++
      [⟨.loop (idAt start header) comprehension (some (idAt next body)), indent, some parent⟩]
  | .cast indent target operand =>
    layOut start (start + count operand) operand ++
      [⟨.cast target (elementAt start operand), indent, some parent⟩]

/-- The nodes of several pieces that are part of `parent`, numbered from `start` on. -/
def layOutAll (start parent : Nat) : List Piece → List Node
  | [] => []
  | piece :: rest =>
    layOut start parent piece ++ layOutAll (start + count piece) parent rest

end

/-- The tree of the script whose block of statements is `body`. -/
def ofBody (body : Piece) : Tree where
  nodes := ⟨.root, 0, none⟩ :: layOut 1 root body
  body := idAt 1 body

end Maxscript.Tree
