import Maxscript.Proofs.Nesting
import Maxscript.Proofs.Reader.Operand

/-!
# Parameters and bodies

The parameters of a function are read one at a time, up to the `=` before its body. A body in round
brackets is read as a block by itself. The members of a struct are read one at a time too: a
separator is passed, a property is followed by `=` or not, and a method is read as a function.
-/

namespace Maxscript.Reader

open Structured (unread bracketed)

variable {registry : Registry} (indent : Nat)

/-- Tokens at which a key has no default. -/
def parameterStops : List String := ["\n", "=", ")"]

theorem parameters_end (rest : List Piece) :
    (unbounded registry).parameters indent (.token "=" :: rest) = .ok ([], .token "=" :: rest) := by
  rw [unbounded_parameters]
  rfl

/-- A token that is neither a key nor the end is a parameter if it is a word, and else nothing. It
is not reported: stray marks among parameters are dropped. -/
theorem parameters_cons {token : String} (notEnd : token ≠ "=") {rest : List Piece}
    (noColon : ∀ piece ∈ rest.head?, piece.is ":" = false) :
    (unbounded registry).parameters indent (.token token :: rest) =
      prepend (([token].filter Token.isWord).map (.binding indent · none false)) <$>
        (unbounded registry).parameters indent rest := by
  have going : (Piece.token token).is "=" = false := by simpa using notEnd
  rw [unbounded_parameters, readParameters]
  simp only [going, key?_of_head noColon, Piece.text?_token]
  cases (unbounded registry).parameters indent rest with
  | error _ => rfl
  | ok reading =>
      by_cases isWord : Token.isWord token = true
      · simp only [List.filter_cons_of_pos isWord, bind, Except.bind, isWord]
        rfl
      · simp only [List.filter_cons_of_neg isWord, bind, Except.bind, isWord]
        rfl

/-- A key and a colon, and the default behind them, which is read as the value of a keyword argument
is. -/
theorem parameters_keyed {key : String} (isWord : Token.isWord key = true) (rest : List Piece) :
    (unbounded registry).parameters indent (.token key :: .token ":" :: rest) =
      (unbounded registry).keyValue indent parameterStops rest >>= fun reading =>
        prepend [.binding indent key reading.1 true] <$>
          (unbounded registry).parameters indent reading.2 := by
  have going := is_of_isWord isWord (by decide : "=" ∈ Token.otherTokens)
  rw [unbounded_parameters, readParameters]
  simp only [going, key?_colon isWord]
  change (unbounded registry).keyValue indent parameterStops rest >>= _ = _
  cases (unbounded registry).keyValue indent parameterStops rest with
  | error _ => rfl
  | ok reading =>
      simp only [bind, Except.bind]
      cases (unbounded registry).parameters indent reading.2 with
      | error _ => rfl
      | ok _ => rfl

/-- Of several tokens, the words are parameters. What comes behind them must not be a colon, or the
last of them would be a key. -/
theorem parameters_loose {loose : List String} (plain : ∀ token ∈ loose, token ∉ ["=", ":"])
    {rest : List Piece} (noColon : ∀ piece ∈ rest.head?, piece.is ":" = false) :
    (unbounded registry).parameters indent (unread loose ++ rest) =
      prepend ((loose.filter Token.isWord).map (.binding indent · none false)) <$>
        (unbounded registry).parameters indent rest := by
  induction loose with
  | nil => exact (map_prepend_nil _).symm
  | cons token others ih =>
      obtain ⟨here, later⟩ := List.forall_mem_cons.mp plain
      have next : ∀ piece ∈ (unread others ++ rest).head?, piece.is ":" = false := by
        cases others with
        | nil => exact noColon
        | cons other others =>
            exact head_is_of_not_mem (later other List.mem_cons_self) (by decide) _
      have notEnd : token ≠ "=" := fun same => here (by simp [same])
      show (unbounded registry).parameters indent (.token token :: (unread others ++ rest)) = _
      rw [parameters_cons indent notEnd next, ih later, map_prepend, ← List.map_append,
        ← List.filter_append]
      rfl

/-- The body of a function is read by itself, and nothing behind it is touched. The parameters may
be read in any way that ends before the `=`. -/
theorem function_of_parameters (name : String) {pieces parameters rest : List Piece}
    {body : List String} (read : (unbounded registry).parameters indent pieces =
      .ok (parameters, .token "=" :: (unread (bracketed body) ++ rest)))
    (balanced : Extent.Balanced (unread body)) :
    (unbounded registry).function indent (.token name :: pieces) =
      (fun block => (.function indent name parameters block, rest)) <$>
        readBlock registry (indent + 1) .functionBody (unread body) := by
  have skipped : skipNewlines (unread (bracketed body) ++ rest) =
      unread (bracketed body) ++ rest := rfl
  have block : (unbounded registry).block (indent + 1) .functionBody (unread (bracketed body)) =
      readBlock registry (indent + 1) .functionBody (unread body) := by
    rw [readBlock_eq, block, Structured.unread_bracketed, trim_group balanced]
    rfl
  simp only [function, nameAt, Piece.text?_token, Option.getD_some, read]
  simp only [bind, Except.bind, List.drop_succ_cons, List.drop_zero, skipped,
    Structured.bodyEnd_bracketed balanced, Structured.blockOf_front, block, List.drop_left]
  cases readBlock registry (indent + 1) .functionBody (unread body) with
  | error _ => rfl
  | ok _ => rfl

/-! ### Members -/

def memberWords : List String := ["fn", "function", "on", "private", "public"]

section

variable {name : String}

end

end Maxscript.Reader
