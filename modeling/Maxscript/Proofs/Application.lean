import Maxscript.Proofs.Reader.Operand
import Maxscript.Proofs.Text
import Maxscript.Python

/-!
# Applications

A known function is applied by writing its arguments behind it. An argument is a word or a string, a
nested application in brackets, or one of these behind a key and a colon. Such an application is
read to a single call, however deep it nests, and written with brackets and commas.

The brackets around a nested application belong to the script's notation and not to its value, so
that they are left out where the argument stands by itself. Behind a key they are a group like any
other, and kept.
-/

namespace Maxscript

open Reader (unbounded Ends ends_cons ends_nil prepend)
open Structured (unread)
open Python (render renderEach)
open Text (joinWith hasChar hasChar_append)

namespace Application

/-- Words at which the reader does not look for a function. -/
def constructWords : List String := ["struct", "fn", "function", "mapped", "if", "try"]

/-- The name of a known function. -/
structure Callee (registry : Registry) where
  text : String
  known : registry.isKnownCall text = true
  word : Text.foldCase text ∉ constructWords
  oneLine : hasChar '\n' text = false

/-- The name of a keyword argument. -/
structure Key where
  text : String
  isWord : Token.isWord text = true
  oneLine : hasChar '\n' text = false

/-- A word or a string that does not end the arguments. -/
structure Atom where
  text : String
  value : (Token.isWord text || Token.isQuoted text) = true
  word : Text.foldCase text ∉ Reader.argumentStopWords
  oneLine : hasChar '\n' text = false

end Application

open Application (Callee Key Atom)

mutual

/-- A known function and at least one argument. -/
inductive Application (registry : Registry) where
  | apply (callee : Callee registry) (first : Argument registry) (others : List (Argument registry))

inductive Argument (registry : Registry) where
  | atom (value : Atom)
  | nested (application : Application registry)
  | keyed (key : Key) (value : Atom)
  | keyedNested (key : Key) (application : Application registry)

end

variable {registry : Registry}

mutual

def Application.tokens : Application registry → List String
  | .apply callee first others => callee.text :: Argument.tokens first ++ Argument.tokensAll others

def Argument.tokens : Argument registry → List String
  | .atom value => [value.text]
  | .nested application => "(" :: Application.tokens application ++ [")"]
  | .keyed key value => [key.text, ":", value.text]
  | .keyedNested key application =>
    key.text :: ":" :: "(" :: Application.tokens application ++ [")"]

def Argument.tokensAll : List (Argument registry) → List String
  | [] => []
  | first :: others => Argument.tokens first ++ Argument.tokensAll others

end

mutual

def Application.python : Application registry → String
  | .apply callee first others =>
    (if registry.isBuiltinCall callee.text then "rt." else "") ++ callee.text ++ "(" ++
      joinWith ", " (Argument.python first :: Argument.pythonAll others) ++ ")"

def Argument.python : Argument registry → String
  | .atom value => value.text
  | .nested application => Application.python application
  | .keyed key value => key.text ++ "=" ++ value.text
  | .keyedNested key application =>
    key.text ++ "=" ++ ("(" ++ Application.python application ++ ")")

def Argument.pythonAll : List (Argument registry) → List String
  | [] => []
  | first :: others => Argument.python first :: Argument.pythonAll others

end

mutual

def Application.piece (indent : Nat) : Application registry → Piece
  | .apply callee first others =>
    .call indent callee.text (Argument.piece indent first :: Argument.pieces indent others)
      (registry.isBuiltinCall callee.text)

def Argument.piece (indent : Nat) : Argument registry → Piece
  | .atom value => .token value.text
  | .nested application => .block indent .argument [Application.piece indent application]
  | .keyed key value => .binding indent key.text (some (.token value.text)) true
  | .keyedNested key application =>
    .binding indent key.text (some (.block indent .group [Application.piece indent application]))
      true

def Argument.pieces (indent : Nat) : List (Argument registry) → List Piece
  | [] => []
  | first :: others => Argument.piece indent first :: Argument.pieces indent others

end

def Application.callee : Application registry → Callee registry
  | .apply callee _ _ => callee

/-! ### Tokens -/

namespace Application

def marks : List String := ["(", ")", ":"]

/-- What an application consists of: its marks, words and strings. -/
def IsPart (token : String) : Prop :=
  token ∈ marks ∨ (Token.isWord token || Token.isQuoted token) = true

theorem Callee.isWord (callee : Callee registry) : Token.isWord callee.text = true :=
  (Bool.and_eq_true_iff.mp callee.known).1

theorem isPart_of_isWord {token : String} (isWord : Token.isWord token = true) : IsPart token :=
  .inr (by rw [isWord, Bool.true_or])

theorem IsPart.not_isSeparator {token : String} (part : IsPart token) :
    Reader.isSeparator (.token token) = false := by
  have other : token ∉ [",", "\n"] := by
    rcases part with mark | value
    · intro separator
      exact (by decide : ∀ mark ∈ [",", "\n"], mark ∉ marks) token separator mark
    · exact Token.not_mem_of_isWord_or_isQuoted value (by decide)
  exact Reader.isSeparator_of_not_mem other

end Application

mutual

theorem Application.isPart_of_mem : (application : Application registry) →
    ∀ token ∈ application.tokens, Application.IsPart token
  | .apply callee first others => by
      intro token member
      rw [Application.tokens, List.mem_append, List.mem_cons] at member
      rcases member with (rfl | here) | later
      · exact Application.isPart_of_isWord callee.isWord
      · exact first.isPart_of_mem token here
      · exact Argument.isPart_of_mem_all others token later

theorem Argument.isPart_of_mem : (argument : Argument registry) →
    ∀ token ∈ argument.tokens, Application.IsPart token
  | .atom value => by
      intro token member
      rw [List.mem_singleton.mp member]
      exact .inr value.value
  | .nested application => by
      intro token member
      rw [Argument.tokens, List.cons_append, List.mem_cons, List.mem_append,
        List.mem_singleton] at member
      rcases member with rfl | inside | rfl
      · exact .inl (by decide)
      · exact application.isPart_of_mem token inside
      · exact .inl (by decide)
  | .keyed key value => by
      intro token member
      simp only [Argument.tokens, List.mem_cons, List.not_mem_nil, or_false] at member
      rcases member with rfl | rfl | rfl
      · exact Application.isPart_of_isWord key.isWord
      · exact .inl (by decide)
      · exact .inr value.value
  | .keyedNested key application => by
      intro token member
      simp only [Argument.tokens, List.cons_append, List.mem_cons, List.mem_append,
        List.not_mem_nil, or_false] at member
      rcases member with rfl | rfl | rfl | inside | rfl
      · exact Application.isPart_of_isWord key.isWord
      · exact .inl (by decide)
      · exact .inl (by decide)
      · exact application.isPart_of_mem token inside
      · exact .inl (by decide)

theorem Argument.isPart_of_mem_all : (arguments : List (Argument registry)) →
    ∀ token ∈ Argument.tokensAll arguments, Application.IsPart token
  | [] => by simp [Argument.tokensAll]
  | first :: others => by
      intro token member
      rcases List.mem_append.mp member with here | later
      · exact first.isPart_of_mem token here
      · exact Argument.isPart_of_mem_all others token later

end

mutual

theorem Application.balanced : (application : Application registry) →
    Extent.Balanced (unread application.tokens)
  | .apply callee first others => by
      rw [Application.tokens, Structured.unread_append, Structured.unread_cons, List.cons_append]
      refine Reader.balanced_value (by rw [callee.isWord, Bool.true_or]) ?_
      exact first.balanced.append (Argument.balanced_all others)

theorem Argument.balanced : (argument : Argument registry) →
    Extent.Balanced (unread argument.tokens)
  | .atom value => Reader.balanced_value value.value .nil
  | .nested application => Structured.balanced_bracketed application.balanced
  | .keyed key value => by
      refine Reader.balanced_value (by rw [key.isWord, Bool.true_or]) ?_
      refine .cons (by decide) (by decide) ?_
      exact Reader.balanced_value value.value .nil
  | .keyedNested key application => by
      refine Reader.balanced_value (by rw [key.isWord, Bool.true_or]) ?_
      refine .cons (by decide) (by decide) ?_
      exact Structured.balanced_bracketed application.balanced

theorem Argument.balanced_all : (arguments : List (Argument registry)) →
    Extent.Balanced (unread (Argument.tokensAll arguments))
  | [] => .nil
  | first :: others => by
      rw [Argument.tokensAll, Structured.unread_append]
      exact first.balanced.append (Argument.balanced_all others)

end

theorem Application.tokens_ne_nil (application : Application registry) :
    unread application.tokens ≠ [] := by
  obtain ⟨callee, first, others⟩ := application
  simp [Application.tokens]

/-- Nothing is trimmed from an application: it starts with a word, and none of its tokens is a
separator. -/
theorem Application.bare (application : Application registry) :
    Reader.Bare (unread application.tokens) where
  head piece member := by
    obtain ⟨callee, first, others⟩ := application
    cases Option.mem_some.mp member
    exact ⟨(Application.isPart_of_isWord callee.isWord).not_isSeparator,
      Reader.is_of_isWord callee.isWord (by decide)⟩
  last piece member := by
    obtain ⟨token, inside, rfl⟩ := List.mem_map.mp (List.mem_of_getLast? member)
    exact (application.isPart_of_mem token inside).not_isSeparator

/-! ### Reading -/

/-- What follows an argument is another one or nothing. So neither a member, an index nor a colon
can be taken for part of the argument before it. -/
theorem Argument.ends_all (arguments : List (Argument registry)) :
    Ends (unread (Argument.tokensAll arguments)) := by
  cases arguments with
  | nil => exact ends_nil
  | cons first others =>
      rw [Argument.tokensAll, Structured.unread_append]
      cases first with
      | atom value =>
          exact ends_cons (Token.not_mem_of_isWord_or_isQuoted value.value (by decide)) _
      | nested application => exact ends_cons (by decide) _
      | keyed key value => exact ends_cons (Token.not_mem_of_isWord key.isWord (by decide)) _
      | keyedNested key application =>
          exact ends_cons (Token.not_mem_of_isWord key.isWord (by decide)) _

namespace Application

theorem Atom.not_argumentStop (atom : Atom) :
    (Piece.token atom.text).isTokenWith Reader.argumentStops.contains = false := by
  have stop : atom.text ∉ Reader.argumentStops :=
    Token.not_mem_of_isWord_or_isQuoted atom.value (by decide)
  simpa using stop

theorem Atom.operand_eq (atom : Atom) (indent : Nat) {rest : List Piece} (ends : Ends rest) :
    (unbounded registry).operand indent (.token atom.text) rest = .ok (.token atom.text, rest) :=
  Reader.operand_token (Token.not_mem_of_isWord_or_isQuoted atom.value (by decide)) ends.toApart
    indent

/-- A word or a string is an argument by itself. It is not one of the tokens at which the arguments
of a call end, which is why the type of atoms excludes those words. -/
theorem Atom.arguments_eq (atom : Atom) (indent : Nat) {rest : List Piece} (ends : Ends rest) :
    (unbounded registry).arguments indent (.token atom.text :: rest) =
      prepend [.token atom.text] <$> (unbounded registry).arguments indent rest := by
  have notOpen := Reader.is_of_value atom.value (by decide : "(" ∈ Token.otherTokens)
  have goes : (Piece.token atom.text).isTokenWith Reader.endsArguments = false :=
    Reader.not_endsArguments atom.value atom.word
  rw [Reader.arguments_operand indent notOpen (Reader.key?_of_head ends.noColon _) goes,
    atom.operand_eq indent ends]
  rfl

/-- A known function that arguments follow is a call of them. The reader looks for a function only
after the words that start a construct, so the name must be none of them. -/
theorem Callee.step_eq (callee : Callee registry) (indent : Nat) (before : List Piece)
    {rest left : List Piece} (next : Reader.startsWith "." rest = false) {arguments : List Piece}
    (read : (unbounded registry).arguments indent rest = .ok (arguments, left)) :
    (unbounded registry).step indent before (.token callee.text) rest =
      .ok ⟨.call indent callee.text arguments (registry.isBuiltinCall callee.text) :: before,
        left⟩ := by
  have found : (unbounded registry).callee? (.token callee.text) rest = some callee.text := by
    simp [Reader.callee?, callee.known, next]
  have words := callee.word
  simp_all [constructWords, Reader.step, Reader.stepToken, Reader.call, Reader.passed]

end Application

mutual

/-- An application is read to one call. The arguments are read by structural recursion on the
application, since brackets in them hold applications again. -/
theorem Application.block_eq (indent : Nat) (role : Role) : (application : Application registry) →
    (unbounded registry).block indent role (unread application.tokens) =
      .ok (.block indent role [application.piece indent])
  | .apply callee first others => by
      have read : (unbounded registry).arguments indent
          (unread (first.tokens ++ Argument.tokensAll others)) =
            .ok (first.piece indent :: Argument.pieces indent others, []) := by
        rw [Structured.unread_append, first.arguments_eq indent (Argument.ends_all others),
          Argument.arguments_all indent others]
        rfl
      have next : Reader.startsWith "."
          (unread (first.tokens ++ Argument.tokensAll others)) = false :=
        (Argument.ends_all (first :: others)).not_startsWith
      have notClose := Reader.is_of_isWord callee.isWord (by decide : ")" ∈ Token.otherTokens)
      have done (piece : Piece) : (unbounded registry).items indent [piece] [] = .ok [piece] :=
        Structured.items_nil indent [piece]
      have items : (unbounded registry).items indent []
          (unread (Application.apply callee first others).tokens) =
            .ok [(Application.apply callee first others).piece indent] := by
        rw [Application.tokens, List.cons_append, Structured.unread_cons,
          Reader.items_step notClose, callee.step_eq indent [] next read]
        exact done _
      rw [Reader.block, (Application.bare (.apply callee first others)).trim_eq, items]
      rfl

/-- An argument is read by itself, whatever comes behind it. This is what lets the arguments of a
call be read one after the other. -/
theorem Argument.arguments_eq (indent : Nat) {rest : List Piece} (ends : Ends rest) :
    (argument : Argument registry) →
    (unbounded registry).arguments indent (unread argument.tokens ++ rest) =
      prepend [argument.piece indent] <$> (unbounded registry).arguments indent rest
  | .atom value => value.arguments_eq indent ends
  | .nested application => by
      have shape : unread (Argument.nested application).tokens ++ rest =
          .token "(" :: unread application.tokens ++ .token ")" :: rest := by
        simp [Argument.tokens]
      rw [shape, Reader.arguments_group indent application.balanced application.tokens_ne_nil,
        application.block_eq indent .argument]
      rfl
  | .keyed key value => by
      have shape : unread (Argument.keyed key value : Argument registry).tokens ++ rest =
          .token key.text :: .token ":" :: .token value.text :: rest := rfl
      rw [shape, Reader.arguments_keyed indent key.isWord,
        Reader.keyValue_operand indent value.not_argumentStop, value.operand_eq indent ends]
      rfl
  | .keyedNested key application => by
      have shape : unread (Argument.keyedNested key application).tokens ++ rest =
          .token key.text :: .token ":" :: .token "(" ::
            (unread application.tokens ++ .token ")" :: rest) := by
        simp [Argument.tokens]
      have group : (unbounded registry).operand indent (.token "(")
          (unread application.tokens ++ .token ")" :: rest) =
            .ok (.block indent .group [application.piece indent], rest) := by
        rw [Reader.operand_group indent application.balanced ends.toApart,
          application.block_eq indent .group]
        rfl
      rw [shape, Reader.arguments_keyed indent key.isWord,
        Reader.keyValue_operand indent (by decide), group]
      rfl

theorem Argument.arguments_all (indent : Nat) : (arguments : List (Argument registry)) →
    (unbounded registry).arguments indent (unread (Argument.tokensAll arguments)) =
      .ok (Argument.pieces indent arguments, [])
  | [] => by
      rw [Reader.unbounded_arguments]
      rfl
  | first :: others => by
      rw [Argument.tokensAll, Structured.unread_append,
        first.arguments_eq indent (Argument.ends_all others), Argument.arguments_all indent others]
      rfl

end

/-! ### Writing -/

mutual

/-- An application is written on one line, so that the writer puts neither a line break nor an
indentation into it. -/
theorem Application.oneLine : (application : Application registry) →
    hasChar '\n' application.python = false
  | .apply callee first others => by
      have host : hasChar '\n' (if registry.isBuiltinCall callee.text then "rt." else "") =
          false := by
        split <;> rfl
      have arguments := Text.hasChar_joinWith (by decide : hasChar '\n' ", " = false)
        (List.forall_mem_cons.mpr ⟨first.oneLine, Argument.oneLine_all others⟩)
      simp only [Application.python, hasChar_append, host, callee.oneLine, arguments]
      rfl

theorem Argument.oneLine : (argument : Argument registry) →
    hasChar '\n' argument.python = false
  | .atom value => value.oneLine
  | .nested application => application.oneLine
  | .keyed key value => by
      simp only [Argument.python, hasChar_append, key.oneLine, value.oneLine]
      rfl
  | .keyedNested key application => by
      simp only [Argument.python, hasChar_append, key.oneLine, application.oneLine]
      rfl

theorem Argument.oneLine_all : (arguments : List (Argument registry)) →
    ∀ text ∈ Argument.pythonAll arguments, hasChar '\n' text = false
  | [] => by simp [Argument.pythonAll]
  | first :: others =>
      List.forall_mem_cons.mpr ⟨first.oneLine, Argument.oneLine_all others⟩

end

/-- A block of one call is written like the call, in brackets if it is a group. -/
theorem Application.render_block {unit : String} (application : Application registry)
    (indent : Nat) (role : Role)
    (written : render unit (application.piece indent) = application.python) :
    render unit (.block indent role [application.piece indent]) =
      if role = .group then "(" ++ application.python ++ ")" else application.python := by
  obtain ⟨callee, first, others⟩ := application
  have shown : (Application.piece indent (.apply callee first others)).isNewline = false := rfl
  have oneLine := Application.oneLine (.apply callee first others)
  simp only [render, Python.isBlank, List.all_cons, shown, Python.renderItems, written]
  simp [Python.joinLines, Python.splitLines, joinWith, oneLine]

mutual

theorem Application.render_eq (unit : String) (indent : Nat) :
    (application : Application registry) →
    render unit (application.piece indent) = application.python
  | .apply callee first others => by
      rw [Application.piece, render, renderEach, first.render_eq unit indent,
        Argument.renderEach_eq unit indent others]
      rfl

theorem Argument.render_eq (unit : String) (indent : Nat) : (argument : Argument registry) →
    render unit (argument.piece indent) = argument.python
  | .atom value => rfl
  | .nested application =>
      application.render_block indent .argument (application.render_eq unit indent)
  | .keyed key value => rfl
  | .keyedNested key application => by
      rw [Argument.piece, render,
        application.render_block indent .group (application.render_eq unit indent)]
      rfl

theorem Argument.renderEach_eq (unit : String) (indent : Nat) :
    (arguments : List (Argument registry)) →
    renderEach unit (Argument.pieces indent arguments) = Argument.pythonAll arguments
  | [] => rfl
  | first :: others => by
      rw [Argument.pieces, renderEach, first.render_eq unit indent,
        Argument.renderEach_eq unit indent others]
      rfl

end

/-- An application is read to a single call, and written as one, at any depth. -/
theorem Application.becomes_call (application : Application registry) (indent : Nat) (role : Role)
    (unit : String) :
    ∃ arguments, readBlock registry indent role (application.tokens.map .token) =
        .ok (.block indent role [.call indent application.callee.text arguments
          (registry.isBuiltinCall application.callee.text)]) ∧
      render unit (.call indent application.callee.text arguments
        (registry.isBuiltinCall application.callee.text)) = application.python := by
  obtain ⟨callee, first, others⟩ := application
  refine ⟨first.piece indent :: Argument.pieces indent others, ?_, ?_⟩
  · rw [readBlock_eq]
    exact Application.block_eq indent role (.apply callee first others)
  · exact Application.render_eq unit indent (.apply callee first others)

end Maxscript
