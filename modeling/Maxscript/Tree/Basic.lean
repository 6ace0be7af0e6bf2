import Maxscript.Piece

/-!
# Numbered trees

A tree lists the constructs of a script with a number for each, so that it can be printed flat:
a node names its children by their numbers. Node 0 is the root.
-/

namespace Maxscript

namespace Tree

/-- A part of a node: a token, or the number of another node. -/
inductive Element where
  | token (text : String)
  | node (id : Nat)
deriving DecidableEq, Repr

inductive Kind where
  | root
  | binding (name : String) (value : Option Element)
  | statement (parts : List Element)
  | chain (parts : List Element)
  | block (role : Role) (items : List Element)
  | array (elements : List Element)
  | access (base : Option Element) (indices : List Element)
  | call (name : String) (arguments : List Element) (builtin : Bool)
  | function (name : String) (positional named : List Nat) (body : Nat)
  | struct (name : String) (properties methods : List Nat)
  | conditional (condition consequent : Nat) (alternative : Option Nat)
  | attempt (attempted : Nat) (handler : Option Nat)
  | loop (header : Nat) (comprehension : Bool) (body : Option Nat)
  | cast (target : CastTarget) (operand : Element)
deriving DecidableEq, Repr

/-- A construct with its indentation level and the node it is part of. -/
structure Node where
  kind : Kind
  indent : Nat
  parent : Option Nat
deriving DecidableEq, Repr

def Element.id? : Element → Option Nat
  | .token _ => none
  | .node id => some id

namespace Kind

/-- The name that a node defines or uses, or else a word for its kind. -/
def label : Kind → String
  | .root => "Root"
  | .binding name _ => name
  | .statement _ => "Statement"
  | .chain _ => "Member"
  | .block role _ => role.label
  | .array _ => "Array"
  | .access _ _ => "Index"
  | .call name _ _ => name
  | .function name _ _ _ => name
  | .struct name _ _ => name
  | .conditional _ _ _ => "If"
  | .attempt _ _ => "Try"
  | .loop _ _ _ => "For"
  | .cast _ _ => "Cast"

/-- The nodes that a node is made of. -/
def children : Kind → List Nat
  | .root => []
  | .binding _ value => value.toList.filterMap Element.id?
  | .statement parts => parts.filterMap Element.id?
  | .chain parts => parts.filterMap Element.id?
  | .block _ items => items.filterMap Element.id?
  | .array elements => elements.filterMap Element.id?
  | .access base indices => (base.toList ++ indices).filterMap Element.id?
  | .call _ arguments _ => arguments.filterMap Element.id?
  | .function _ positional named body => positional ++ named ++ [body]
  | .struct _ properties methods => properties ++ methods
  | .conditional condition consequent alternative => [condition, consequent] ++ alternative.toList
  | .attempt attempted handler => attempted :: handler.toList
  | .loop header _ body => header :: body.toList
  | .cast _ operand => operand.id?.toList

end Kind

end Tree

/-- The nodes of a script, in the order of their numbers, and the number of its body. -/
structure Tree where
  nodes : List Tree.Node
  body : Nat
deriving DecidableEq, Repr

namespace Tree

def root : Nat := 0

def size (tree : Tree) : Nat := tree.nodes.length

/-- Whether there is nothing beside the root. -/
def isEmpty (tree : Tree) : Bool := tree.size ≤ 1

def bodyItems (tree : Tree) : List Element :=
  match tree.nodes[tree.body]? with
  | some ⟨.block _ items, _, _⟩ => items
  | _ => []

end Tree

end Maxscript
