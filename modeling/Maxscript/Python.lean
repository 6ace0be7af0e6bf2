import Maxscript.Piece

/-!
# Python text

A piece is written so that its first line carries no indentation and every further line carries
all of its own. A block in the place of a body also indents its first line.
-/

namespace Maxscript.Python

/-- Cuts items at the newlines among them, which are given as `none`. -/
def splitLines {α : Type} : List (Option α) → List (List α)
  | [] => [[]]
  | none :: rest => [] :: splitLines rest
  | some item :: rest =>
    match splitLines rest with
    | [] => [[item]]
    | line :: lines => (item :: line) :: lines

/-- The lines of a block: items are set apart by spaces, and empty lines are left out. -/
def joinLines (lineBreak : String) (items : List (Option String)) : String :=
  Text.joinWith lineBreak
    (((splitLines items).filter fun line => !line.isEmpty).map (Text.joinWith " "))

def isBlank (items : List Piece) : Bool := items.all Piece.isNewline

/-- The end of a line, and the indentation of the next. -/
def lineBreak (unit : String) (level : Nat) : String := "\n" ++ Text.times unit level

/-- The body of a `try` or `except` goes on the same line if it is one line. -/
def clause (body : String) : String :=
  let text := Text.trimStart body.toList
  if text.isEmpty || text.contains '\n' then "\n" ++ body else " " ++ String.ofList text

/-- The tab stops that `self.` and a name of the given length reach past, with stops every four
columns and a blank after the name. -/
def tabStops (length : Nat) : Nat := (length + 6 + 3) / 4

/-- The assignment of a property. Tabs bring the `=` to the column that suits the widest name. -/
def assignment (widest : Nat) (name value : String) : String :=
  "self." ++ name ++ Text.times "\t" (tabStops widest + 1 - tabStops name.utf8ByteSize) ++ "= " ++
    value

/-- The lines that assign the properties of a new object. -/
def assignments (properties : List (String × String)) : List String :=
  let widest := (properties.map fun (name, _) => name.utf8ByteSize).foldl max 0
  properties.map fun (name, value) => assignment widest name value

/-- A class with an initialiser that assigns every property. -/
def classText (unit : String) (indent : Nat) (name : String) (properties : List (String × String))
    (methods : List String) : String :=
  let body := if properties.isEmpty then ["pass"] else assignments properties
  "class " ++ name ++ ":" ++ lineBreak unit (indent + 1) ++ "def __init__(self):" ++
    String.join (body.map (lineBreak unit (indent + 2) ++ ·)) ++
    String.join (methods.map (lineBreak unit (indent + 1) ++ ·))

/-- Parameters that were given a name with a colon go last. -/
def namedLast {α : Type} (parameters : List (Bool × α)) : List α :=
  let (named, positional) := parameters.partition (·.1)
  (positional ++ named).map (·.2)

/-- An index is written only if there is exactly one. -/
def onlyIndex : List String → String
  | [index] => index
  | _ => ""

mutual

/-- The text of a piece, its first line without indentation. -/
def render (unit : String) : Piece → String
  | .token text => text
  | .binding _ name none _ => name
  | .binding _ name (some value) _ => name ++ "=" ++ render unit value
  | .statement _ parts => Text.joinWith " " (renderEach unit parts)
  | .chain _ parts => String.join (renderEach unit parts)
  | .block indent role items =>
    if isBlank items then if role = .group then "None" else ""
    else
      let text := joinLines (lineBreak unit indent) (renderItems unit items)
      if role = .group ∧ !Text.hasChar '\n' text then "(" ++ text ++ ")" else text
  | .array _ elements => "[" ++ Text.joinWith ", " (renderEach unit elements) ++ "]"
  | .access _ none indices => "[" ++ onlyIndex (renderEach unit indices) ++ "]"
  | .access _ (some base) indices =>
    render unit base ++ "[" ++ onlyIndex (renderEach unit indices) ++ "]"
  | .call _ name arguments builtin =>
    (if builtin then "rt." else "") ++ name ++ "(" ++
      Text.joinWith ", " (renderEach unit arguments) ++ ")"
  | .function _ name parameters body =>
    let texts := (parameters.map Piece.isNamed).zip (renderEach unit parameters)
    "def " ++ name ++ "(" ++ Text.joinWith ", " (namedLast texts) ++ "):\n" ++ renderBody unit body
  | .struct indent name members =>
    classText unit indent name (renderProperties unit members) (renderMethods unit members)
  | .conditional _ condition consequent none =>
    "if " ++ render unit condition ++ ":\n" ++ renderBody unit consequent
  | .conditional indent condition consequent (some alternative) =>
    "if " ++ render unit condition ++ ":\n" ++ renderBody unit consequent ++
      lineBreak unit indent ++ "else:\n" ++ renderBody unit alternative
  | .attempt indent attempted none =>
    "try:" ++ clause (renderBody unit attempted) ++ lineBreak unit indent ++ "except: pass"
  | .attempt indent attempted (some handler) =>
    "try:" ++ clause (renderBody unit attempted) ++ lineBreak unit indent ++ "except:" ++
      clause (renderBody unit handler)
  | .loop _ header true _ => "for " ++ render unit header
  | .loop indent header false none =>
    "for " ++ render unit header ++ ":\n" ++ Text.times unit (indent + 1) ++ "pass"
  | .loop _ header false (some body) =>
    "for " ++ render unit header ++ ":\n" ++ renderBody unit body
  | .cast _ target operand => target.pythonFunction ++ "(" ++ render unit operand ++ ")"

/-- A block in the place of a body. A body without statements needs one that does nothing. -/
def renderBody (unit : String) : Piece → String
  | .block indent _ items =>
    Text.times unit indent ++
      if isBlank items then "pass"
      else joinLines (lineBreak unit indent) (renderItems unit items)
  | _ => "pass"

def renderEach (unit : String) : List Piece → List String
  | [] => []
  | piece :: rest => render unit piece :: renderEach unit rest

/-- The texts of the items of a block, with `none` for the newlines between statements. -/
def renderItems (unit : String) : List Piece → List (Option String)
  | [] => []
  | piece :: rest =>
    (if piece.isNewline then none else some (render unit piece)) :: renderItems unit rest

/-- The properties among the members of a struct, with the texts of their values. -/
def renderProperties (unit : String) : List Piece → List (String × String)
  | [] => []
  | .binding _ name none _ :: rest => (name, "None") :: renderProperties unit rest
  | .binding _ name (some value) _ :: rest =>
    (name, render unit value) :: renderProperties unit rest
  | _ :: rest => renderProperties unit rest

def renderMethods (unit : String) : List Piece → List String
  | [] => []
  | .function indent name parameters body :: rest =>
    render unit (.function indent name parameters body) :: renderMethods unit rest
  | _ :: rest => renderMethods unit rest

end

end Maxscript.Python
