import Maxscript.Registry
import Maxscript.Token.Lexer

/-!
# Normal form of the tokens

Before it is read, a script loses its block comments and the words that say where a variable
lives, and its literals take their Python spelling. Then names are respelled.
-/

namespace Maxscript.Token

/-- Leaves out block comments and qualifiers, and respells literals. -/
def normalize (tokens : List String) : List String :=
  ((stripBlockComments tokens).filter fun token => !isQualifier token).map fun token =>
    (literal? token).getD token

def applyRenames (registry : Registry) (tokens : List String) : List String :=
  tokens.map fun token => if isWord token then (registry.rename? token).getD token else token

/-- The tokens of a script as they are read. -/
def ofSource (registry : Registry) (source : String) : List String :=
  applyRenames registry (normalize (lex source))

end Maxscript.Token
