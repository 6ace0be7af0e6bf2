import Maxscript.Json
import Maxscript.Tree.Basic

/-!
# Printed trees

A tree as a JSON value. Each kind of node is an object with a word for the kind and its parts.
-/

namespace Maxscript.Tree

def Element.toJson : Element → Json
  | .token text => .object [("token", .string text)]
  | .node id => .object [("node", .number id)]

def Kind.toJson : Kind → Json
  | .root => .object [("type", .string "root")]
  | .binding name value =>
    .object [("type", .string "variable"), ("name", .string name),
      ("value", .ofOption Element.toJson value)]
  | .statement parts =>
    .object [("type", .string "statement"), ("parts", .array (parts.map Element.toJson))]
  | .block role items =>
    .object [("type", .string "block"), ("tag", .string role.label),
      ("items", .array (items.map Element.toJson))]
  | .array elements =>
    .object [("type", .string "array_literal"), ("elements", .array (elements.map Element.toJson))]
  | .access base indices =>
    .object [("type", .string "indexed_access"), ("base", .ofOption Element.toJson base),
      ("indices", .array (indices.map Element.toJson))]
  | .function name positional named body =>
    .object [("type", .string "function_def"), ("name", .string name),
      ("params", .numbers positional), ("named", .numbers named), ("body", .number body)]
  | .call name arguments builtin =>
    .object [("type", .string "function_call"), ("name", .string name),
      ("args", .array (arguments.map Element.toJson)), ("builtin", .bool builtin)]
  | .struct name properties methods =>
    .object [("type", .string "struct_def"), ("name", .string name),
      ("properties", .numbers properties), ("methods", .numbers methods)]
  | .conditional condition consequent alternative =>
    .object [("type", .string "conditional"), ("condition", .number condition),
      ("consequent", .number consequent), ("alternative", .ofOption .number alternative)]
  | .attempt attempted handler =>
    .object [("type", .string "try_except"), ("protected", .number attempted),
      ("handler", .ofOption .number handler)]
  | .loop header comprehension body =>
    .object [("type", .string "for_loop"), ("header", .number header),
      ("comprehension", .bool comprehension), ("body", .ofOption .number body)]
  | .cast target operand =>
    .object [("type", .string "cast"), ("target", .string target.label),
      ("operand", operand.toJson)]
  | .chain parts =>
    .object [("type", .string "chain"), ("parts", .array (parts.map Element.toJson))]

def Node.toJson (node : Node) : Json :=
  .object [("kind", node.kind.toJson), ("indent", .number node.indent),
    ("parent", .ofOption .number node.parent)]

def toJson (tree : Tree) : Json :=
  .object [("nodes", .array (tree.nodes.map Node.toJson)), ("root", .number root),
    ("body", .number tree.body)]

end Maxscript.Tree
