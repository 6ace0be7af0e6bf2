import Maxscript.Text
import Maxscript.Unicode.Word

/-!
# Tokens

A token is a text: a word, a quoted string, a single mark, a newline, or several marks that were
merged into one operator. Words of the language are recognised whatever the case of their ASCII
letters.
-/

namespace Maxscript.Token

/-- The token that separates statements. -/
def newline : String := "\n"

/-- Operators of several marks. Longer ones come first, so that `**=` is not read as `**` and
`=`. -/
def ligatures : List String :=
  ["**=", ">>=", "<<=", "#()", "#\x7b\x7d", "==", "!=", ">=", "<=", "+=", "-=", "*=", "/=", "%=",
   "::", "**", "//", "&=", "|=", "^=", ":=", "<<", ">>", "/*", "*/"]

def operators : List String := ["+", "-", "*", "/", "%", "^", "&", "|", "<", ">", "=", "!", "~"]

/-- Words and marks that say where a variable lives, and nothing that Python has a word for. -/
def qualifiers : List String := ["local", "global", "persistent", "::"]

/-- Words that never stand for a value, so that none of them is indexed, cast or asked for a
member. -/
def reserved : List String :=
  ["return", "if", "then", "else", "do", "for", "in", "collect", "while", "where", "to", "by",
   "of", "and", "or", "not", "try", "catch", "exit", "continue", "case", "fn", "function"]

/-- Literals and how Python spells them. -/
def literals : List (String × String) :=
  [("true", "True"), ("false", "False"), ("undefined", "None"), ("#()", "[]"),
   ("#\x7b\x7d", "rt.BitArray()"), ("unsupplied", "rt.unsupplied"), ("ok", "rt.OK")]

/-- A word starts with a letter, a number or an underscore. -/
def isWord (token : String) : Bool :=
  match token.toList with
  | [] => false
  | c :: _ => Unicode.isAlphanumeric c || c == '_'

def isLigature (token : String) : Bool := ligatures.contains token

def isOperator (token : String) : Bool := operators.contains token

def isReserved (token : String) : Bool := reserved.contains (Text.foldCase token)

def isQualifier (token : String) : Bool := qualifiers.contains (Text.foldCase token)

def literal? (token : String) : Option String := literals.lookup (Text.foldCase token)

/-- Whether a token is a string in quotes of either kind, or at least starts like one. -/
def isQuoted (token : String) : Bool :=
  match token.toList with
  | [] => false
  | c :: _ => c == '"' || c == '\''

end Maxscript.Token
