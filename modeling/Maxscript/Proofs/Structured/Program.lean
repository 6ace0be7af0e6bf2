import Maxscript.Reader.Basic

/-!
# Structured programs

Programs of lines, conditionals, loops, error handling and functions, nested to any depth. A
program is given as a tree and not as a script: `Program.tokens` writes the script, with every
nested program in round brackets, and `Program.python` writes the Python program that it stands
for. Neither goes through the reader or the writer of scripts, so the two can be compared with
what those do.

Lines, conditions and loop headers consist of plain tokens, which have no meaning to the reader by
themselves. The types carry this, so every tree is a program.
-/

namespace Maxscript

/-- A token that some script is cut into. -/
def Token.IsLexed (token : String) : Prop := ∃ source, token ∈ Token.lex source

namespace Structured

/-- Marks that the reader acts on. -/
def activeMarks : List String := ["\n", "(", ")", "[", ",", ".", "#", "*", "/", "%"]

/-- Words that the reader acts on. -/
def activeWords : List String :=
  ["struct", "fn", "function", "mapped", "if", "then", "else", "do", "try", "catch", "for",
   "collect", "as"]

/-- A token of a script that the reader passes over. -/
structure IsPlain (registry : Registry) (token : String) : Prop where
  lexed : Token.IsLexed token
  mark : token ∉ activeMarks
  word : Text.foldCase token ∉ activeWords
  call : registry.isKnownCall token = false

/-- A line, a condition or a loop header: at least one token, and plain ones only. -/
structure Phrase (registry : Registry) where
  tokens : List String
  nonempty : tokens ≠ []
  plain : ∀ token ∈ tokens, IsPlain registry token

/-- Whether a token is plain, for one that is a script by itself. -/
def looksPlain (registry : Registry) (token : String) : Bool :=
  Token.lex token == [token] && !activeMarks.contains token &&
    !activeWords.contains (Text.foldCase token) && !registry.isKnownCall token

theorem isPlain_of_looksPlain {registry : Registry} {token : String}
    (h : looksPlain registry token = true) : IsPlain registry token := by
  simp only [looksPlain, Bool.and_eq_true, Bool.not_eq_true', beq_iff_eq, List.contains_eq_mem,
    decide_eq_false_iff_not] at h
  obtain ⟨⟨⟨lexed, mark⟩, word⟩, call⟩ := h
  exact ⟨⟨token, by rw [lexed]; exact List.mem_cons_self⟩, mark, word, call⟩

/-- A phrase of tokens that are checked one by one. -/
def Phrase.ofTokens {registry : Registry} (tokens : List String) (nonempty : tokens ≠ [])
    (plain : tokens.all (looksPlain registry) = true) : Phrase registry where
  tokens := tokens
  nonempty := nonempty
  plain token member := isPlain_of_looksPlain (List.all_eq_true.mp plain token member)

/-- The name of a function can be any token but a bracket. -/
structure Name where
  text : String
  notOpen : text ≠ "("
  notClose : text ≠ ")"

/-- The name of a parameter is a word. -/
structure Parameter where
  text : String
  isWord : Token.isWord text = true

/-- A statement, with the statements of the programs that it nests. -/
inductive Statement (registry : Registry) where
  | line (phrase : Phrase registry)
  | conditional (condition : Phrase registry) (consequent : List (Statement registry))
      (alternative : Option (List (Statement registry)))
  | loop (header : Phrase registry) (body : List (Statement registry))
  | attempt (attempted handler : List (Statement registry))
  | function (name : Name) (parameters : List Parameter) (body : List (Statement registry))

abbrev Program (registry : Registry) := List (Statement registry)

variable {registry : Registry}

def bracketed (tokens : List String) : List String := "(" :: tokens ++ [")"]

mutual

def Statement.tokens : Statement registry → List String
  | .line phrase => phrase.tokens
  | .conditional condition consequent none =>
    "if" :: condition.tokens ++ "then" :: bracketed (Program.tokens consequent)
  | .conditional condition consequent (some alternative) =>
    "if" :: condition.tokens ++ "then" :: bracketed (Program.tokens consequent) ++
      "else" :: bracketed (Program.tokens alternative)
  | .loop header body => "for" :: header.tokens ++ "do" :: bracketed (Program.tokens body)
  | .attempt attempted handler =>
    "try" :: bracketed (Program.tokens attempted) ++
      "catch" :: bracketed (Program.tokens handler)
  | .function name parameters body =>
    "fn" :: name.text :: parameters.map Parameter.text ++
      "=" :: bracketed (Program.tokens body)

/-- The tokens of a program, with a newline between each two statements. -/
def Program.tokens : List (Statement registry) → List String
  | [] => []
  | [statement] => statement.tokens
  | statement :: next :: rest => statement.tokens ++ "\n" :: Program.tokens (next :: rest)

end

mutual

def Statement.hasLoop : Statement registry → Bool
  | .line _ => false
  | .conditional _ consequent none => Program.hasLoop consequent
  | .conditional _ consequent (some alternative) =>
    Program.hasLoop consequent || Program.hasLoop alternative
  | .loop _ _ => true
  | .attempt attempted handler => Program.hasLoop attempted || Program.hasLoop handler
  | .function _ _ body => Program.hasLoop body

def Program.hasLoop : List (Statement registry) → Bool
  | [] => false
  | statement :: rest => statement.hasLoop || Program.hasLoop rest

end

/-- The words and marks of a phrase, set apart by spaces. -/
def Phrase.text (phrase : Phrase registry) : String := Text.joinWith " " phrase.tokens

/-- A Python body of the given lines, which are indented already. -/
def bodyText (unit : String) (depth : Nat) (lines : List String) : String :=
  match lines with
  | [] => Text.times unit depth ++ "pass"
  | lines => Text.joinWith "\n" lines

/-- The text of a program that is one line: it does nothing, or it is a line without a line break
in one of its tokens. -/
def Program.oneLine? : Program registry → Option String
  | [] => some "pass"
  | [.line phrase] => if Text.hasChar '\n' phrase.text then none else some phrase.text
  | _ => none

/-- A Python clause goes on the line of its keyword if it is one line, and below it otherwise. -/
def clauseText (oneLine : Option String) (body : String) : String :=
  match oneLine with
  | some text => " " ++ text
  | none => "\n" ++ body

mutual

/-- The Python text of a statement at `depth`, its first line without indentation. -/
def Statement.python (unit : String) (depth : Nat) : Statement registry → String
  | .line phrase => phrase.text
  | .conditional condition consequent none =>
    "if " ++ condition.text ++ ":\n" ++
      bodyText unit (depth + 1) (Program.lines unit (depth + 1) consequent)
  | .conditional condition consequent (some alternative) =>
    "if " ++ condition.text ++ ":\n" ++
      bodyText unit (depth + 1) (Program.lines unit (depth + 1) consequent) ++
      "\n" ++ Text.times unit depth ++ "else:\n" ++
      bodyText unit (depth + 1) (Program.lines unit (depth + 1) alternative)
  | .loop header body =>
    "for " ++ header.text ++ ":\n" ++
      bodyText unit (depth + 1) (Program.lines unit (depth + 1) body)
  | .attempt attempted handler =>
    "try:" ++ clauseText (Program.oneLine? attempted)
        (bodyText unit (depth + 1) (Program.lines unit (depth + 1) attempted)) ++
      "\n" ++ Text.times unit depth ++
      "except:" ++ clauseText (Program.oneLine? handler)
        (bodyText unit (depth + 1) (Program.lines unit (depth + 1) handler))
  | .function name parameters body =>
    "def " ++ name.text ++ "(" ++ Text.joinWith ", " (parameters.map Parameter.text) ++ "):\n" ++
      bodyText unit (depth + 1) (Program.lines unit (depth + 1) body)

/-- The texts of the statements of a program, each indented to `depth`. -/
def Program.lines (unit : String) (depth : Nat) : List (Statement registry) → List String
  | [] => []
  | statement :: rest =>
    (Text.times unit depth ++ Statement.python unit depth statement) ::
      Program.lines unit depth rest

end

/-- The Python program that a structured program stands for. -/
def Program.python (unit : String) (depth : Nat) (program : Program registry) : String :=
  bodyText unit depth (Program.lines unit depth program)

end Structured

end Maxscript
