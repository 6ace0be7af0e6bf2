import Maxscript.Buffer
import Maxscript.Python

/-!
# Writing a tree

A tree is written from its body on, by following the numbers that nodes list. A number without a
node is a fault of whoever made the tree. Nodes list smaller numbers only, so that a budget as large
as the tree is never used up.
-/

namespace Maxscript

open Tree (Element Kind Node)

namespace Tree

def node (tree : Tree) (id : Nat) : Result Node :=
  match tree.nodes[id]? with
  | some node => .ok node
  | none => .error (.internal "no such node")

def Kind.items : Kind → List Element
  | .block _ items => items
  | _ => []

def Kind.property? : Kind → Option (String × Option Element)
  | .binding name value => some (name, value)
  | _ => none

end Tree

namespace Writer

section

variable (write : Nat → Result String)

def element : Element → Result String
  | .token text => return text
  | .node id => write id

def elements (separator : String) (parts : List Element) : Result String := do
  return Text.joinWith separator (← parts.mapM (element write))

/-- The items of a block. `startsLine` says that a line starts with the next one, and `first` that
it is the first line, which needs no break before it. -/
def lines (lineBreak : String) (startsLine first : Bool) : List Element → Result String
  | [] => return ""
  | item :: rest =>
    if item.seen.isNewline then lines lineBreak true first rest
    else do
      let gap := if startsLine then if first then "" else lineBreak else " "
      return gap ++ (← element write item) ++ (← lines lineBreak false false rest)

def isBlank (items : List Element) : Bool := items.all (·.seen.isNewline)

/-- An element that may be missing, with a text to put there. -/
def optional (missing : String) : Option Element → Result String
  | some element => Writer.element write element
  | none => return missing

/-- An index is written only if there is exactly one. -/
def onlyIndex : List Element → Result String
  | [index] => element write index
  | _ => return ""

variable (unit : String) (tree : Tree)

def body (id : Nat) : Result String := do
  let block ← tree.node id
  let items := block.kind.items
  let indentation := Text.times unit block.indent
  if isBlank items then return indentation ++ "pass"
  else return indentation ++ (← lines write (Python.lineBreak unit block.indent) true true items)

def properties (ids : List Nat) : Result (List (String × String)) := do
  let kinds ← ids.mapM fun id => Node.kind <$> tree.node id
  (kinds.filterMap Kind.property?).mapM fun property =>
    Prod.mk property.1 <$> optional write "None" property.2

/-- The text of a node on the level `indent`. -/
def kind (indent : Nat) : Kind → Result String
  | .root => body write unit tree tree.body
  | .binding name none => return name
  | .binding name (some value) => return name ++ "=" ++ (← element write value)
  | .statement parts => elements write " " parts
  | .chain parts => elements write "" parts
  | .block role items =>
    if isBlank items then return if role = .group then "None" else ""
    else do
      let text ← lines write (Python.lineBreak unit indent) true true items
      return if role = .group ∧ !Text.hasChar '\n' text then "(" ++ text ++ ")" else text
  | .array parts => return "[" ++ (← elements write ", " parts) ++ "]"
  | .access base indices =>
    return (← optional write "" base) ++ "[" ++ (← onlyIndex write indices) ++ "]"
  | .call name arguments builtin =>
    return (if builtin then "rt." else "") ++ name ++ "(" ++
      (← elements write ", " arguments) ++ ")"
  | .function name positional named inner => do
    let parameters ← elements write ", " ((positional ++ named).map .node)
    return "def " ++ name ++ "(" ++ parameters ++ "):\n" ++ (← body write unit tree inner)
  | .struct name fields methods =>
    return Python.classText unit indent name (← properties write tree fields) (← methods.mapM write)
  | .conditional condition consequent alternative => do
    let text := "if " ++ (← write condition) ++ ":\n" ++ (← body write unit tree consequent)
    match alternative with
    | some alternative =>
      return text ++ Python.lineBreak unit indent ++ "else:\n" ++
        (← body write unit tree alternative)
    | none => return text
  | .attempt attempted handler => do
    let text := "try:" ++ Python.clause (← body write unit tree attempted) ++
      Python.lineBreak unit indent ++ "except:"
    match handler with
    | some handler => return text ++ Python.clause (← body write unit tree handler)
    | none => return text ++ " pass"
  | .loop header comprehension inner => do
    let text := "for " ++ (← write header)
    if comprehension then return text
    else match inner with
      | some inner => return text ++ ":\n" ++ (← body write unit tree inner)
      | none => return text ++ ":\n" ++ Text.times unit (indent + 1) ++ "pass"
  | .cast target operand =>
    return target.pythonFunction ++ "(" ++ (← element write operand) ++ ")"

end

def node (unit : String) (tree : Tree) : (budget id : Nat) → Result String
  | 0, _ => .error (.internal "nested too deeply")
  | budget + 1, id => do
    let found ← tree.node id
    kind (node unit tree budget) unit tree found.indent found.kind

end Writer

/-- The text of a script, given its tree. -/
def Tree.write (unit : String) (tree : Tree) : Result String :=
  Writer.body (Writer.node unit tree tree.size) unit tree tree.body

end Maxscript
