import Maxscript.Proofs.Operand.Reading
import Maxscript.Proofs.Reader.Definition

/-!
# Methods

A method is a word that announces it, a name, parameters, `=` and a body in round brackets. A
parameter is a token, or a key with a default: an operand or a negative number. A key may be left
without one at the end of a line, or before the `=`. The parameters are read up to that `=`, and the
body up to its bracket, whatever stands in them.
-/

namespace Maxscript.Struct

open Extent (balanced_token)
open Operand (Word)
open Reader (balanced_value unbounded Apart Ends ends_cons prepend map_prepend parameterStops)
open Structured (unread bracketed)

variable {registry : Registry}

/-- The value of a key for which none is passed. -/
inductive Default where
  | operand (value : Operand) (unreserved : value.postfixes ≠ [] → value.base.isReserved = false)
  | negative (number : String) (digit : number.toList.head?.any Char.isDigit = true)

inductive Parameter where
  | loose (token : String) (plain : token ∉ ["=", ":", "(", ")", ".", "["])
  | keyed (key : Word) (default : Default)
  /-- A key with nothing behind it on its line. -/
  | unset (key : Word)

/-- Parameters one after the other. Behind the last there may be a key with nothing behind it. -/
inductive Parameters where
  | nil
  | key (last : Word)
  | cons (first : Parameter) (rest : Parameters)

structure Method where
  keyword : String
  name : Word
  parameters : Parameters
  body : List String
  isKeyword : Text.foldCase keyword ∈ ["fn", "function"]
  balanced : Extent.Balanced (unread body)

/-! ### Tokens -/

namespace Default

def tokens : Default → List String
  | operand value _ => value.tokens
  | negative number _ => ["-", number]

def outcome (registry : Registry) (indent : Nat) : Default → Result Piece
  | operand value _ => value.outcome registry indent
  | negative number _ => .ok (.token ("-" ++ number))

end Default

namespace Parameter

def tokens : Parameter → List String
  | loose token _ => [token]
  | keyed key default => key.text :: ":" :: default.tokens
  | unset key => [key.text, ":", "\n"]

/-- What a parameter is read to. A token that is no word means nothing. -/
def outcome (registry : Registry) (indent : Nat) : Parameter → Result (List Piece)
  | loose token _ => .ok (([token].filter Token.isWord).map (.binding indent · none false))
  | keyed key default =>
    (fun value => [.binding indent key.text (some value) true]) <$> default.outcome registry indent
  | unset key => .ok [.binding indent key.text none true]

end Parameter

namespace Parameters

def tokens : Parameters → List String
  | nil => []
  | key last => [last.text, ":"]
  | cons first rest => first.tokens ++ rest.tokens

def outcome (registry : Registry) (indent : Nat) : Parameters → Result (List Piece)
  | nil => .ok []
  | key last => .ok [.binding indent last.text none true]
  | cons first rest =>
    first.outcome registry indent >>= fun front => (front ++ ·) <$> rest.outcome registry indent

end Parameters

namespace Method

def tokens (method : Method) : List String :=
  method.keyword :: method.name.text :: method.parameters.tokens ++ "=" :: bracketed method.body

/-- What a method is read to: a function with its parameters, and with its body as a block. -/
def outcome (registry : Registry) (indent : Nat) (method : Method) : Result Piece :=
  method.parameters.outcome registry indent >>= fun parameters =>
    .function indent method.name.text parameters <$>
      readBlock registry (indent + 1) .functionBody (unread method.body)

end Method

/-! ### Reading -/

section

variable (indent : Nat)

/-- A minus sign belongs to the number behind it. This is the only default that takes two tokens. -/
theorem operand_negative {number : String} (digit : number.toList.head?.any Char.isDigit = true)
    {rest : List Piece} (apart : Apart rest) :
    (unbounded registry).operand indent (.token "-") (.token number :: rest) =
      .ok (.token ("-" ++ number), rest) := by
  have negated : (unbounded registry).bareOperand indent (.token "-") (.token number :: rest) =
      .ok (.token ("-" ++ number), rest) := by
    change Except.ok (Reader.negated (.token "-") (.token number :: rest)) = _
    rw [Reader.negated, if_pos digit]
  rw [Reader.operand, negated]
  exact apart.trailers_eq _ indent

/-- A default is read whole, if neither a member nor an index follows. The parameters behind it
start with a word or with `=`. -/
theorem Default.keyValue_eq (default : Default) {rest : List Piece} (apart : Apart rest) :
    (unbounded registry).keyValue indent parameterStops (unread default.tokens ++ rest) =
      (fun value => (some value, rest)) <$> default.outcome registry indent := by
  cases default with
  | operand value unreserved =>
      have goes : (Piece.token value.base.first).isTokenWith parameterStops.contains = false := by
        simpa using
          value.base.first_not_mem (by decide : ∀ mark ∈ parameterStops, _) (by decide)
      rw [tokens, Operand.tokens, List.cons_append, Structured.unread_cons, List.cons_append,
        Reader.keyValue_operand indent goes, value.operand_eq unreserved indent apart, outcome]
      cases value.outcome registry indent with
      | error _ => rfl
      | ok _ => rfl
  | negative number digit =>
      have goes : (Piece.token "-").isTokenWith parameterStops.contains = false := by decide
      have shape : unread (tokens (.negative number digit)) ++ rest =
          .token "-" :: .token number :: rest := rfl
      rw [shape, Reader.keyValue_operand indent goes, operand_negative indent digit apart]
      rfl

theorem Parameter.ends (parameter : Parameter) (rest : List Piece) :
    Ends (unread parameter.tokens ++ rest) := by
  have word (key : Word) : key.text ∉ [".", "[", ":"] :=
    Token.not_mem_of_isWord key.isWord (by decide)
  cases parameter with
  | loose token plain => exact ends_cons (by simp_all) rest
  | keyed key default => exact ends_cons (word key) _
  | unset key => exact ends_cons (word key) _

/-- A parameter is read to what it stands for, and those behind it after it. The reading of a
default may fail, and then nothing behind it is read. -/
theorem Parameter.parameters_eq (parameter : Parameter) {rest : List Piece} (ends : Ends rest) :
    (unbounded registry).parameters indent (unread parameter.tokens ++ rest) =
      parameter.outcome registry indent >>= fun front =>
        prepend front <$> (unbounded registry).parameters indent rest := by
  cases parameter with
  | loose token plain =>
      have notEnd : token ≠ "=" := fun same => plain (by simp [same])
      exact Reader.parameters_cons indent notEnd ends.noColon
  | keyed key default =>
      have shape : unread (tokens (.keyed key default)) ++ rest =
          .token key.text :: .token ":" :: (unread default.tokens ++ rest) := rfl
      rw [shape, Reader.parameters_keyed indent key.isWord, default.keyValue_eq indent ends.toApart,
        outcome]
      cases default.outcome registry indent with
      | error _ => rfl
      | ok _ => rfl
  | unset key =>
      have shape : unread (tokens (.unset key)) ++ rest =
          .token key.text :: .token ":" :: .token "\n" :: rest := rfl
      have nothing : (unbounded registry).keyValue indent parameterStops (.token "\n" :: rest) =
          .ok (none, .token "\n" :: rest) := rfl
      rw [shape, Reader.parameters_keyed indent key.isWord, nothing]
      show prepend _ <$> (unbounded registry).parameters indent (.token "\n" :: rest) = _
      rw [Reader.parameters_cons indent (by decide) ends.noColon, map_prepend]
      rfl

namespace Parameters

theorem ends (parameters : Parameters) (rest : List Piece) :
    Ends (unread parameters.tokens ++ .token "=" :: rest) := by
  cases parameters with
  | nil => exact ends_cons (by decide) rest
  | key last => exact ends_cons (Token.not_mem_of_isWord last.isWord (by decide)) _
  | cons first others =>
      rw [tokens, Structured.unread_append, List.append_assoc]
      exact first.ends _

/-- The parameters are read up to the `=` behind them, which is left for the reader of the body. -/
theorem parameters_eq (parameters : Parameters) (rest : List Piece) :
    (unbounded registry).parameters indent (unread parameters.tokens ++ .token "=" :: rest) =
      (fun read => (read, .token "=" :: rest)) <$> parameters.outcome registry indent := by
  induction parameters with
  | nil => exact Reader.parameters_end indent rest
  | key last =>
      have nothing : (unbounded registry).keyValue indent parameterStops (.token "=" :: rest) =
          .ok (none, .token "=" :: rest) := rfl
      have shape : unread (tokens (.key last)) ++ .token "=" :: rest =
          .token last.text :: .token ":" :: .token "=" :: rest := rfl
      rw [shape, Reader.parameters_keyed indent last.isWord, nothing]
      show prepend _ <$> (unbounded registry).parameters indent (.token "=" :: rest) = _
      rw [Reader.parameters_end]
      rfl
  | cons first others ih =>
      rw [tokens, Structured.unread_append, List.append_assoc,
        first.parameters_eq indent (others.ends rest), ih, outcome]
      cases first.outcome registry indent with
      | error _ => rfl
      | ok front =>
          simp only [bind, Except.bind]
          cases others.outcome registry indent with
          | error _ => rfl
          | ok back => rfl

end Parameters

/-- A method is read up to the bracket that closes its body, wherever in a struct it stands. -/
theorem Method.function_eq (method : Method) (rest : List Piece) :
    (unbounded registry).function indent (unread method.tokens.tail ++ rest) =
      (fun piece => (piece, rest)) <$> method.outcome registry indent := by
  have shape : unread method.tokens.tail ++ rest =
      .token method.name.text :: (unread method.parameters.tokens ++
        .token "=" :: (unread (bracketed method.body) ++ rest)) := by
    simp [tokens]
  have read : (unbounded registry).parameters indent (unread method.parameters.tokens ++
      .token "=" :: (unread (bracketed method.body) ++ rest)) = _ :=
    method.parameters.parameters_eq indent _
  rw [shape, outcome]
  cases found : method.parameters.outcome registry indent with
  | error _ =>
      rw [found] at read
      simp only [Reader.function, Reader.nameAt, read]
      rfl
  | ok parameters =>
      rw [found] at read
      rw [Reader.function_of_parameters indent method.name.text read method.balanced]
      show _ = (fun piece => (piece, rest)) <$>
        (Piece.function indent method.name.text parameters <$>
          readBlock registry (indent + 1) .functionBody (unread method.body))
      cases readBlock registry (indent + 1) .functionBody (unread method.body) with
      | error _ => rfl
      | ok _ => rfl

end

/-! ### Round brackets -/

theorem Default.balanced (default : Default) : Extent.Balanced (unread default.tokens) := by
  cases default with
  | operand value unreserved => exact value.balanced
  | negative number digit =>
      have other : ∀ mark ∈ ["(", ")"], mark.toList.head?.any Char.isDigit = false := by decide
      have plain : number ∉ ["(", ")"] := fun bracket => by simp [other _ bracket] at digit
      exact .cons (by decide) (by decide) (balanced_token plain .nil)

theorem Parameter.balanced (parameter : Parameter) : Extent.Balanced (unread parameter.tokens) := by
  have word (key : Word) {rest : List Piece} (tail : Extent.Balanced rest) :
      Extent.Balanced (.token key.text :: rest) :=
    balanced_value (by simp [key.isWord]) tail
  cases parameter with
  | loose token plain => exact balanced_token (by simp_all) .nil
  | keyed key default => exact word key (.cons (by decide) (by decide) default.balanced)
  | unset key => exact word key (.cons (by decide) (by decide) (.cons (by decide) (by decide) .nil))

theorem Parameters.balanced (parameters : Parameters) :
    Extent.Balanced (unread parameters.tokens) := by
  induction parameters with
  | nil => exact .nil
  | key last =>
      exact balanced_value (by simp [last.isWord]) (.cons (by decide) (by decide) .nil)
  | cons first rest ih =>
      rw [tokens, Structured.unread_append]
      exact first.balanced.append ih

/-- The round brackets of a method match, so a struct is not closed by a bracket inside of one of
its methods. -/
theorem Method.balanced_tokens (method : Method) : Extent.Balanced (unread method.tokens) := by
  have other : ∀ mark ∈ ["(", ")"], Text.foldCase mark ∉ ["fn", "function"] := by decide
  have keyword : method.keyword ∉ ["(", ")"] := fun bracket => other _ bracket method.isKeyword
  have back : Extent.Balanced (unread ("=" :: bracketed method.body)) :=
    .cons (by decide) (by decide) (Structured.balanced_bracketed method.balanced)
  have front : Extent.Balanced
      (unread (method.parameters.tokens ++ "=" :: bracketed method.body)) := by
    rw [Structured.unread_append]
    exact method.parameters.balanced.append back
  exact balanced_token keyword (balanced_value (by simp [method.name.isWord]) front)

end Maxscript.Struct
