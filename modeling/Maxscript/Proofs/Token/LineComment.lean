import Maxscript.Proofs.LineEnds
import Maxscript.Proofs.Token.Unquoted

/-!
# Lines without their comments

A comment behind a line of code is removed with the white space in front of it, whatever it says.
The same happens to a carriage return at the end of a line, so that the lines of a text may end in
one way or the other.
-/

namespace Maxscript.Token

theorem unquoted_of_all {line : List Char}
    (check : (line.all fun c => c != '"' && c != '\'') = true) : Unquoted line := by
  intro c member isQuote
  have other := List.all_eq_true.mp check c member
  simp only [Bool.and_eq_true, bne_iff_ne] at other
  exact isQuote.elim other.1 other.2

/-- Code without quotes and two hyphens next to each other is no comment, unless its last hyphen
gets another one behind it. -/
theorem beforeComment_plain {line rest : List Char} (unquoted : Unquoted line)
    (uncommented : ¬['-', '-'] <:+: line) (apart : rest.head? ≠ some '-') :
    beforeComment .code (line ++ rest) = line ++ beforeComment .code rest := by
  induction line with
  | nil => rfl
  | cons c line ih =>
      obtain ⟨notQuote, others⟩ := List.forall_mem_cons.mp unquoted
      have single : ¬(c = '-' ∧ (line ++ rest).head? = some '-') := by
        rintro ⟨rfl, next⟩
        cases line with
        | nil => exact apart next
        | cons d line =>
            obtain rfl := Option.some.inj next
            exact uncommented ⟨[], line, rfl⟩
      have later : ¬['-', '-'] <:+: line := fun found =>
        uncommented (found.trans (List.suffix_cons c line).isInfix)
      rw [List.cons_append, beforeComment, if_neg notQuote, if_neg single, ih others later,
        List.cons_append]

/-- A comment behind a blank is cut off with the blank, and what is left is the line as it would be
without it. -/
theorem stripLineComment_commented {line : List Char} (unquoted : Unquoted line)
    (uncommented : ¬['-', '-'] <:+: line) (text : List Char) :
    stripLineComment (line ++ ' ' :: '-' :: '-' :: text) = stripLineComment line := by
  have comment : beforeComment .code (' ' :: '-' :: '-' :: text) = [' '] := by
    rw [beforeComment, if_neg (by decide), if_neg (by simp), beforeComment, if_neg (by decide),
      if_pos ⟨rfl, rfl⟩]
  have alone := @beforeComment_plain line [] unquoted uncommented (by simp)
  rw [List.append_nil, beforeComment, List.append_nil] at alone
  rw [stripLineComment, beforeComment_plain unquoted uncommented (by simp), comment,
    Text.trimEnd_append_blank (by decide), stripLineComment, alone]

/-- A carriage return is at most one more character in front of a comment. -/
theorem beforeComment_return (position : Position) (line : List Char) :
    beforeComment position (line ++ ['\r']) = beforeComment position line ∨
      beforeComment position (line ++ ['\r']) = beforeComment position line ++ ['\r'] := by
  induction line generalizing position with
  | nil =>
      right
      cases position <;> simp [beforeComment]
  | cons c cs ih =>
      have same : OpensComment position c (cs ++ ['\r']) ↔ OpensComment position c cs := by
        cases cs <;> simp [OpensComment]
      rw [List.cons_append]
      by_cases opens : OpensComment position c cs
      · left
        rw [beforeComment_of_opensComment opens, beforeComment_of_opensComment (same.mpr opens)]
      · rw [beforeComment_cons opens, beforeComment_cons (same.not.mpr opens)]
        exact (ih _).imp (congrArg (c :: ·)) (congrArg (c :: ·))

/-- A carriage return is white space at the end of a line, or part of a comment, and is lost in both
cases. -/
theorem stripLineComment_dropReturn (line : List Char) :
    stripLineComment (Text.dropReturn line) = stripLineComment line := by
  rcases Text.dropReturn_cases line with kept | ⟨front, rfl, dropped⟩
  · rw [kept]
  · rw [dropped, stripLineComment, stripLineComment]
    rcases beforeComment_return .code front with same | longer
    · rw [same]
    · rw [longer, Text.trimEnd_append_blank (by decide)]

end Maxscript.Token
