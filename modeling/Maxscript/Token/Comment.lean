import Maxscript.Token.Basic

/-!
# Comments

A line comment runs from `--` to the end of the line. It is removed twice: from the text of each
line, where a `--` inside a quoted string is left alone, and again from the tokens, where a string
is one token. A block comment runs from `/*` to `*/` and is removed from the tokens.
-/

namespace Maxscript.Token

/-- Where a character of a line stands: in the code, in a string between two quotes of one kind,
or in a string after a backslash. -/
inductive Position where
  | code
  | quoted (quote : Char)
  | escaped (quote : Char)

/-- The characters before the first `--` of the code. -/
def beforeComment : Position → List Char → List Char
  | _, [] => []
  | .escaped quote, c :: cs => c :: beforeComment (.quoted quote) cs
  | .quoted quote, c :: cs =>
    if c = '\\' then c :: beforeComment (.escaped quote) cs
    else if c = quote then c :: beforeComment .code cs
    else c :: beforeComment (.quoted quote) cs
  | .code, c :: cs =>
    if c = '"' ∨ c = '\'' then c :: beforeComment (.quoted c) cs
    else if c = '-' ∧ cs.head? = some '-' then []
    else c :: beforeComment .code cs

/-- A line without its comment and without white space at its end. -/
def stripLineComment (line : List Char) : List Char := Text.trimEnd (beforeComment .code line)

/-- Removes the line comments of a text, and the white space at the end of each line. -/
def stripLineComments (text : String) : String :=
  Text.joinWith "\n"
    ((Text.splitOn '\n' text.toList).map fun line => String.ofList (stripLineComment line))

/-- Removes each two adjacent hyphens, and what follows them up to the next newline. Inside a
comment everything but the newline is dropped. -/
def stripTokenCommentsFrom (inside : Bool) : List String → List String
  | [] => []
  | token :: rest =>
    match inside with
    | true =>
      if token = newline then token :: stripTokenCommentsFrom false rest
      else stripTokenCommentsFrom true rest
    | false =>
      if token = "-" ∧ rest.head? = some "-" then stripTokenCommentsFrom true rest
      else token :: stripTokenCommentsFrom false rest

/-- Removes the line comments that are left among the tokens. -/
def stripTokenComments (tokens : List String) : List String := stripTokenCommentsFrom false tokens

/-- Removes what lies between `/*` and `*/`, with both. A comment that is not closed runs to the
end. -/
def stripBlockCommentsFrom (inside : Bool) : List String → List String
  | [] => []
  | token :: rest =>
    match inside with
    | true => stripBlockCommentsFrom (token != "*/") rest
    | false =>
      if token = "/*" then stripBlockCommentsFrom true rest
      else token :: stripBlockCommentsFrom false rest

def stripBlockComments (tokens : List String) : List String := stripBlockCommentsFrom false tokens

end Maxscript.Token
