import Mathlib.Data.List.Basic
import Maxscript.Proofs.Text
import Maxscript.Token.Comment

/-!
# Lines and what is left of them

A text is its lines with newlines between them, and line comments are removed from each line for
itself. Whether a comment starts at a character depends on the quotes before it and on the next
character, so what is left of a line is a part from its start, in which no comment starts.
-/

namespace Maxscript.Token

def joined (lines : List (List Char)) : List Char :=
  (Text.joinWith "\n" (lines.map String.ofList)).toList

theorem joined_single (line : List Char) : joined [line] = line := String.toList_ofList

theorem joined_cons (line : List Char) {rest : List (List Char)} (nonempty : rest ≠ []) :
    joined (line :: rest) = line ++ '\n' :: joined rest := by
  rw [joined, List.map_cons, Text.joinWith_cons _ _ (by simpa using nonempty)]
  simp [joined]

theorem splitOn_joined {lines : List (List Char)} (nonempty : lines ≠ [])
    (single : ∀ line ∈ lines, '\n' ∉ line) : Text.splitOn '\n' (joined lines) = lines :=
  Text.splitOn_joinWith nonempty single

theorem joined_splitOn (text : List Char) : joined (Text.splitOn '\n' text) = text := by
  have whole := congrArg String.toList (Text.joinWith_splitOn '\n' text)
  rwa [String.toList_ofList] at whole

/-! ### Up to a comment -/

def Position.after : Position → Char → Position
  | .escaped quote, _ => .quoted quote
  | .quoted quote, c =>
    if c = '\\' then .escaped quote else if c = quote then .code else .quoted quote
  | .code, c => if c = '"' ∨ c = '\'' then .quoted c else .code

/-- A comment starts with `c`. -/
def OpensComment (position : Position) (c : Char) (cs : List Char) : Prop :=
  position = .code ∧ c = '-' ∧ cs.head? = some '-'

theorem beforeComment_of_opensComment {position : Position} {c : Char} {cs : List Char}
    (opens : OpensComment position c cs) : beforeComment position (c :: cs) = [] := by
  obtain ⟨rfl, rfl, next⟩ := opens
  rw [beforeComment, if_neg (by decide), if_pos ⟨rfl, next⟩]

theorem beforeComment_cons {position : Position} {c : Char} {cs : List Char}
    (code : ¬OpensComment position c cs) :
    beforeComment position (c :: cs) = c :: beforeComment (position.after c) cs := by
  cases position with
  | escaped quote => rw [beforeComment, Position.after]
  | quoted quote =>
      rw [beforeComment, Position.after]
      split
      · rfl
      · split <;> rfl
  | code =>
      rw [beforeComment, Position.after]
      split
      · rfl
      · rw [if_neg fun dashes => code ⟨rfl, dashes⟩]

theorem isPrefix_beforeComment (position : Position) (line : List Char) :
    beforeComment position line <+: line := by
  induction line generalizing position with
  | nil => rw [List.prefix_nil, beforeComment]
  | cons c cs ih =>
      by_cases opens : OpensComment position c cs
      · rw [beforeComment_of_opensComment opens]
        exact List.nil_prefix
      · rw [beforeComment_cons opens]
        exact (List.prefix_cons_inj c).mpr (ih _)

/-- The line before a comment has no comment, and neither has a part of it from its start. -/
theorem beforeComment_eq_self {position : Position} {front line : List Char}
    (starts : front <+: beforeComment position line) : beforeComment position front = front := by
  induction line generalizing position front with
  | nil =>
      rw [beforeComment, List.prefix_nil] at starts
      rw [starts, beforeComment]
  | cons c cs ih =>
      by_cases opens : OpensComment position c cs
      · rw [beforeComment_of_opensComment opens, List.prefix_nil] at starts
        rw [starts, beforeComment]
      · rw [beforeComment_cons opens] at starts
        cases front with
        | nil => rw [beforeComment]
        | cons first rest =>
            obtain ⟨rfl, later⟩ := List.cons_prefix_cons.mp starts
            have code : ¬OpensComment position first rest := by
              rintro ⟨inCode, isHyphen, next⟩
              obtain ⟨others, rfl⟩ := List.head?_eq_some_iff.mp next
              obtain ⟨behind, shape⟩ := later.trans (isPrefix_beforeComment _ cs)
              exact opens ⟨inCode, isHyphen, by rw [← shape]; rfl⟩
            rw [beforeComment_cons code, ih later]

theorem isPrefix_stripLineComment (line : List Char) : stripLineComment line <+: line :=
  (Text.isPrefix_trimEnd _).trans (isPrefix_beforeComment .code line)

/-! ### Line by line -/

theorem toList_stripLineComments (text : String) :
    (stripLineComments text).toList =
      joined ((Text.splitOn '\n' text.toList).map stripLineComment) := by
  rw [stripLineComments, joined, List.map_map]
  rfl

/-- The lines of the result are the lines of the text, each without its comment. No line is lost,
also if nothing is left of it. -/
theorem splitOn_stripLineComments (text : String) :
    Text.splitOn '\n' (stripLineComments text).toList =
      (Text.splitOn '\n' text.toList).map stripLineComment := by
  rw [toList_stripLineComments]
  apply splitOn_joined
  · simpa using Text.splitOn_ne_nil '\n' text.toList
  · intro line member newline
    obtain ⟨whole, inside, rfl⟩ := List.mem_map.mp member
    exact Text.not_mem_of_mem_splitOn inside ((isPrefix_stripLineComment whole).subset newline)

end Maxscript.Token
