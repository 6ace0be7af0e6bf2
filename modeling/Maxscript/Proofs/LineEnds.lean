import Mathlib.Data.List.Basic
import Maxscript.Proofs.Text

/-!
# Lines in their place

Between two lines a text may be cut into pieces: a line is one of the lines of the whole text,
whatever comes before and behind it. Line ends are made uniform piece by piece as well, unless a
carriage return is cut from the line feed behind it, and then each line loses at most the carriage
return at its end.
-/

namespace Maxscript.Text

/-- What comes behind the text starts a line. -/
def AtLineStart (front : List Char) : Prop := ∀ c ∈ front.getLast?, c = '\n'

/-- What comes in front of the text ends a line. -/
def AtLineEnd (back : List Char) : Prop := ∀ c ∈ back.head?, c = '\n'

theorem AtLineStart.of_suffix {front last : List Char} (starts : AtLineStart front)
    (ends : last <:+ front) : AtLineStart last := by
  obtain ⟨start, rfl⟩ := ends
  intro c found
  exact starts c (List.mem_getLast?_append_of_mem_getLast? found)

theorem AtLineStart.eq_nil_or_newline {front : List Char} (starts : AtLineStart front) :
    front = [] ∨ ∃ init, front = init ++ ['\n'] := by
  rcases List.eq_nil_or_concat' front with rfl | ⟨init, last, rfl⟩
  · exact .inl rfl
  · exact .inr ⟨init, by rw [starts last List.getLast?_concat]⟩

theorem AtLineEnd.eq_nil_or_newline {back : List Char} (ends : AtLineEnd back) :
    back = [] ∨ ∃ rest, back = '\n' :: rest := by
  cases back with
  | nil => exact .inl rfl
  | cons c rest => exact .inr ⟨rest, by rw [ends c rfl]⟩

/-- A line between two pieces of a text is one of its lines. The lines before it and behind it do
not depend on what is in it. -/
theorem exists_splitOn_line {front back : List Char} (starts : AtLineStart front)
    (ends : AtLineEnd back) : ∃ before after, ∀ line, '\n' ∉ line →
      splitOn '\n' (front ++ (line ++ back)) = before ++ line :: after := by
  have behind : ∃ after, ∀ line, '\n' ∉ line →
      splitOn '\n' (line ++ back) = line :: after := by
    rcases ends.eq_nil_or_newline with rfl | ⟨rest, rfl⟩
    · refine ⟨[], fun line single => ?_⟩
      rw [List.append_nil, splitOn_eq_singleton single]
    · refine ⟨splitOn '\n' rest, fun line single => ?_⟩
      rw [splitOn_append, splitOn_eq_singleton single, List.singleton_append]
  obtain ⟨after, behind⟩ := behind
  rcases starts.eq_nil_or_newline with rfl | ⟨init, rfl⟩
  · exact ⟨[], after, behind⟩
  · refine ⟨splitOn '\n' init, after, fun line single => ?_⟩
    rw [List.append_assoc, List.singleton_append, splitOn_append, behind line single]

theorem trimEnd_append_blank {space : List Char} (blank : isBlank space = true)
    (front : List Char) : trimEnd (front ++ space) = trimEnd front := by
  have reversed : ∀ c ∈ space.reverse, Unicode.isWhiteSpace c = true := by
    intro c member
    exact List.all_eq_true.mp blank c (List.mem_reverse.mp member)
  rw [trimEnd, List.reverse_append, trimStart, List.dropWhile_append_of_pos reversed]
  rfl

/-! ### Uniform line ends -/

theorem unifyLineEnds_cons {c : Char} {cs : List Char} (single : c = '\r' → cs.head? ≠ some '\n') :
    unifyLineEnds (c :: cs) = c :: unifyLineEnds cs := by
  rw [unifyLineEnds.eq_3]
  rintro rest rfl rfl
  exact single rfl rfl

@[simp] theorem unifyLineEnds_newline (cs : List Char) :
    unifyLineEnds ('\n' :: cs) = '\n' :: unifyLineEnds cs :=
  unifyLineEnds_cons fun isReturn => absurd isReturn (by decide)

/-- The two pieces of a text keep their line ends apart unless a line end is cut in two, into a
carriage return and a line feed. -/
theorem unifyLineEnds_append {front back : List Char}
    (whole : front.getLast? = some '\r' → back.head? ≠ some '\n') :
    unifyLineEnds (front ++ back) = unifyLineEnds front ++ unifyLineEnds back := by
  fun_induction unifyLineEnds front with
  | case1 => rfl
  | case2 cs ih =>
      rw [List.cons_append, List.cons_append, unifyLineEnds.eq_2, List.cons_append]
      refine congrArg ('\n' :: ·) (ih ?_)
      intro last
      apply whole
      rw [List.getLast?_cons, List.getLast?_cons, last]
      rfl
  | case3 c cs single ih =>
      have here : c = '\r' → (cs ++ back).head? ≠ some '\n' := by
        rintro rfl
        cases cs with
        | nil => exact whole rfl
        | cons d cs =>
            intro found
            exact single cs rfl (by rw [Option.some.inj found])
      rw [List.cons_append, unifyLineEnds_cons here, ih, List.cons_append]
      intro last
      apply whole
      rw [List.getLast?_cons, last]
      rfl

theorem unifyLineEnds_eq_self {line : List Char} (single : '\n' ∉ line) :
    unifyLineEnds line = line := by
  induction line with
  | nil => rfl
  | cons c line ih =>
      rw [List.mem_cons, not_or] at single
      have apart : c = '\r' → line.head? ≠ some '\n' := fun _ first =>
        single.2 (List.mem_of_mem_head? first)
      rw [unifyLineEnds_cons apart, ih single.2]

theorem atLineEnd_unifyLineEnds {back : List Char} (ends : AtLineEnd back) :
    AtLineEnd (unifyLineEnds back) := by
  rcases ends.eq_nil_or_newline with rfl | ⟨rest, rfl⟩
  · exact ends
  · rw [unifyLineEnds_newline]
    rintro c ⟨⟩
    rfl

/-- A line loses at most a carriage return, at its end. This is the one case where the line end is
cut in two. -/
theorem exists_unifyLineEnds_line {line back : List Char} (single : '\n' ∉ line)
    (ends : AtLineEnd back) : ∃ kept, (kept = line ∨ kept = dropReturn line) ∧
      unifyLineEnds (line ++ back) = kept ++ unifyLineEnds back := by
  have alone := unifyLineEnds_eq_self single
  by_cases cut : line.getLast? = some '\r' ∧ back.head? = some '\n'
  · obtain ⟨front, rfl⟩ := List.getLast?_eq_some_iff.mp cut.1
    obtain ⟨rest, rfl⟩ := List.head?_eq_some_iff.mp cut.2
    have others : '\n' ∉ front := fun member => single (List.mem_append_left _ member)
    refine ⟨front, .inr (by simp [dropReturn]), ?_⟩
    rw [List.append_assoc, unifyLineEnds_append (by simp), unifyLineEnds_eq_self others,
      List.singleton_append, unifyLineEnds.eq_2, unifyLineEnds_newline]
  · refine ⟨line, .inl rfl, ?_⟩
    rw [unifyLineEnds_append fun last first => cut ⟨last, first⟩, alone]

/-- Where a line starts, one starts with other line ends, too. -/
theorem atLineStart_unifyLineEnds {front : List Char} (starts : AtLineStart front) :
    AtLineStart (unifyLineEnds front) := by
  rcases starts.eq_nil_or_newline with rfl | ⟨init, rfl⟩
  · exact starts
  · have last (text : List Char) : AtLineStart (text ++ ['\n']) := by
      intro c found
      rw [List.getLast?_concat] at found
      exact (Option.some.inj found).symm
    by_cases cut : init.getLast? = some '\r'
    · obtain ⟨line, rfl⟩ := List.getLast?_eq_some_iff.mp cut
      rw [List.append_assoc, unifyLineEnds_append (by simp)]
      exact last _
    · rw [unifyLineEnds_append fun ends => absurd ends cut]
      exact last _

/-- What starts with other characters than a line feed starts so with other line ends, too. -/
theorem exists_of_unifyLineEnds {cs front back : List Char} (single : '\n' ∉ front)
    (shape : unifyLineEnds cs = front ++ back) :
    ∃ rest, cs = front ++ rest ∧ unifyLineEnds rest = back := by
  induction front generalizing cs with
  | nil => exact ⟨cs, rfl, shape⟩
  | cons c front ih =>
      rw [List.mem_cons, not_or] at single
      fun_cases unifyLineEnds cs with
      | case1 => cases shape
      | case2 cs => exact absurd (List.cons.inj shape).1 single.1
      | case3 d cs apart =>
          obtain ⟨rfl, later⟩ := List.cons.inj ((unifyLineEnds.eq_3 d cs apart).symm.trans shape)
          obtain ⟨rest, rfl, same⟩ := ih single.2 later
          exact ⟨rest, rfl, same⟩

theorem mem_unifyLineEnds_iff {c : Char} (notReturn : c ≠ '\r') (cs : List Char) :
    c ∈ unifyLineEnds cs ↔ c ∈ cs := by
  fun_induction unifyLineEnds cs with
  | case1 => rfl
  | case2 cs ih => simp [ih, notReturn]
  | case3 d cs apart ih => simp [ih]

end Maxscript.Text
