import Maxscript.Text

/-!
# JSON

The values that are printed: there are no fractions and no negative numbers among them.
-/

namespace Maxscript

/-- A JSON value. The fields of an object keep their order. -/
inductive Json where
  | null
  | bool (value : Bool)
  | number (value : Nat)
  | string (value : String)
  | array (elements : List Json)
  | object (fields : List (String × Json))
deriving Inhabited

namespace Json

def ofOption (f : α → Json) : Option α → Json
  | none => .null
  | some a => f a

def strings (texts : List String) : Json := .array (texts.map .string)

def numbers (values : List Nat) : Json := .array (values.map .number)

/-- How a character is written in a string: quotes, backslashes and control characters are
escaped, by a letter where there is one. -/
def escapeChar (c : Char) : List Char :=
  if c = '"' then ['\\', '"']
  else if c = '\\' then ['\\', '\\']
  else if c = '\n' then ['\\', 'n']
  else if c = '\r' then ['\\', 'r']
  else if c = '\t' then ['\\', 't']
  else if c.toNat = 8 then ['\\', 'b']
  else if c.toNat = 12 then ['\\', 'f']
  else if c.toNat < 32 then
    ['\\', 'u', '0', '0', Nat.digitChar (c.toNat / 16), Nat.digitChar (c.toNat % 16)]
  else [c]

def quote (text : String) : String :=
  "\"" ++ String.ofList (text.toList.flatMap escapeChar) ++ "\""

/-- A bracketed list with an entry on each line, two columns deeper than its brackets. -/
def bracketed (opening closing : String) (level : Nat) : List String → String
  | [] => opening ++ closing
  | entries =>
    let lineBreak (level : Nat) := "\n" ++ Text.times "  " level
    opening ++ lineBreak (level + 1) ++ Text.joinWith ("," ++ lineBreak (level + 1)) entries ++
      lineBreak level ++ closing

mutual

/-- The text of a value that starts on a line at `level`. -/
def prettyAt (level : Nat) : Json → String
  | .null => "null"
  | .bool value => if value then "true" else "false"
  | .number value => toString value
  | .string value => quote value
  | .array elements => bracketed "[" "]" level (prettyElements (level + 1) elements)
  | .object fields => bracketed "\x7b" "\x7d" level (prettyFields (level + 1) fields)

def prettyElements (level : Nat) : List Json → List String
  | [] => []
  | element :: rest => prettyAt level element :: prettyElements level rest

def prettyFields (level : Nat) : List (String × Json) → List String
  | [] => []
  | (key, value) :: rest => (quote key ++ ": " ++ prettyAt level value) :: prettyFields level rest

end

def pretty (value : Json) : String := prettyAt 0 value

end Json

end Maxscript
