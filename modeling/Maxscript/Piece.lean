import Maxscript.Text

/-!
# Pieces of a script

Reading starts from a list of tokens and replaces runs of them by what they turn out to be. A
`Piece` is an entry of such a list: a token that was not recognised yet, or a construct together
with the pieces it was made of. A construct keeps the indentation level of the line it starts on.
-/

namespace Maxscript

/-- The part that a block plays in the construct it belongs to. -/
inductive Role where
  | root
  | group
  | argument
  | condition
  | consequent
  | alternative
  | attempted
  | handler
  | loopHeader
  | loopBody
  | functionBody
  | property
deriving DecidableEq, Repr

def Role.label : Role → String
  | .root => "Root"
  | .group => "Group"
  | .argument => "Argument"
  | .condition => "Condition"
  | .consequent => "Then statement"
  | .alternative => "Else statement"
  | .attempted => "Try statement"
  | .handler => "Catch statement"
  | .loopHeader => "For header"
  | .loopBody => "For body"
  | .functionBody => "Function body"
  | .property => "Property"

/-- The types that a value can be cast to with `as`. -/
inductive CastTarget where
  | text
  | textStream
  | integer
  | float
  | name
deriving DecidableEq, Repr

namespace CastTarget

/-- The type that a word names, whatever the case of its ASCII letters. -/
def ofWord? (word : String) : Option CastTarget :=
  match Text.foldCase word with
  | "string" => some .text
  | "stringstream" => some .textStream
  | "integer" => some .integer
  | "float" => some .float
  | "name" => some .name
  | _ => none

def pythonFunction : CastTarget → String
  | .text => "str"
  | .textStream => "stringstream"
  | .integer => "int"
  | .float => "float"
  | .name => "rt.Name"

def label : CastTarget → String
  | .text => "str"
  | .textStream => "string_stream"
  | .integer => "int"
  | .float => "float"
  | .name => "name"

end CastTarget

/-- A token, or a construct with its parts in the order of the script. -/
inductive Piece where
  | token (text : String)
  /-- A parameter, a keyword argument or a property. It is named when it was written with a
  colon, as `key: value`. -/
  | binding (indent : Nat) (name : String) (value : Option Piece) (named : Bool)
  /-- Operands and operators that were read together. -/
  | statement (indent : Nat) (parts : List Piece)
  /-- Members of something that is not a token, as in `(foo x).bar`. -/
  | chain (indent : Nat) (parts : List Piece)
  | block (indent : Nat) (role : Role) (items : List Piece)
  | array (indent : Nat) (elements : List Piece)
  | access (indent : Nat) (base : Option Piece) (indices : List Piece)
  | call (indent : Nat) (name : String) (arguments : List Piece) (builtin : Bool)
  | function (indent : Nat) (name : String) (parameters : List Piece) (body : Piece)
  | struct (indent : Nat) (name : String) (members : List Piece)
  | conditional (indent : Nat) (condition consequent : Piece) (alternative : Option Piece)
  | attempt (indent : Nat) (attempted : Piece) (handler : Option Piece)
  /-- A comprehension keeps `collect` and its value in the header, and has no body. -/
  | loop (indent : Nat) (header : Piece) (comprehension : Bool) (body : Option Piece)
  | cast (indent : Nat) (target : CastTarget) (operand : Piece)
deriving Inhabited

namespace Piece

def text? : Piece → Option String
  | .token text => some text
  | _ => none

def is (piece : Piece) (text : String) : Bool := piece.text? == some text

/-- Whether a piece is the keyword `word`, which is given in lower case. -/
def isKeyword (piece : Piece) (word : String) : Bool :=
  piece.text?.map Text.foldCase == some word

def isTokenWith (p : String → Bool) (piece : Piece) : Bool := piece.text?.any p

/-- Whether a piece is the token between two statements. -/
def isNewline (piece : Piece) : Bool := piece.is "\n"

def isBinding : Piece → Bool
  | .binding _ _ _ _ => true
  | _ => false

/-- Whether a piece is a parameter or an argument that was given its name with a colon. -/
def isNamed : Piece → Bool
  | .binding _ _ _ named => named
  | _ => false

@[simp] theorem text?_token (text : String) : (token text).text? = some text := rfl

@[simp] theorem is_token (text mark : String) : (token text).is mark = (text == mark) :=
  Option.some_beq_some

@[simp] theorem isKeyword_token (text word : String) :
    (token text).isKeyword word = (Text.foldCase text == word) :=
  Option.some_beq_some

@[simp] theorem isTokenWith_token (p : String → Bool) (text : String) :
    (token text).isTokenWith p = p text := rfl

@[simp] theorem isNewline_token (text : String) : (token text).isNewline = (text == "\n") :=
  is_token text "\n"

theorem is_self (text : String) : (token text).is text = true := by simp

theorem is_of_not_mem {text mark : String} {marks : List String} (other : text ∉ marks)
    (member : mark ∈ marks) : (token text).is mark = false := by
  rw [is_token, beq_eq_false_iff_ne]
  rintro rfl
  exact other member

end Piece

end Maxscript
