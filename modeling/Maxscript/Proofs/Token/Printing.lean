import Maxscript.Proofs.Token.Cutting

/-!
# Tokens that are printed are cut out again

The tokens of a text can be printed with a blank between each two, and the text that is printed has
these tokens. A blank ends a word as well as anything. A quote that was not closed is not closed
later, since only characters of the text are printed. And no line is lost: the printed text and the
text that was cut have the same characters but for gaps, and so have their lines.

Carriage returns are an exception. One at the end of a line inside a string is dropped each time the
string is cut out.
-/

namespace Maxscript.Token

def printedBehind : List String → List Char
  | [] => []
  | tokens => ' ' :: (Text.joinWith " " tokens).toList

theorem toList_joinWith_cons (token : String) (tokens : List String) :
    (Text.joinWith " " (token :: tokens)).toList = token.toList ++ printedBehind tokens := by
  cases tokens with
  | nil => exact (List.append_nil _).symm
  | cons next tokens =>
      rw [Text.joinWith_cons " " token (List.cons_ne_nil next tokens), String.toList_append,
        String.toList_append, List.append_assoc]
      rfl

theorem ungapped_printedBehind (tokens : List String) :
    ungapped (printedBehind tokens) = ungapped (Text.joinWith " " tokens).toList := by
  cases tokens with
  | nil => rfl
  | cons token tokens => exact ungapped_gap (by decide) _

/-- Printing adds gaps. -/
theorem ungapped_printed (tokens : List String) :
    ungapped (Text.joinWith " " tokens).toList = ungapped (spelled tokens) := by
  induction tokens with
  | nil => rfl
  | cons token tokens ih =>
      rw [toList_joinWith_cons, ungapped_append, ungapped_printedBehind, ih, spelled_cons,
        ungapped_append]

theorem mem_spelled_of_mem_printed {tokens : List String} {c : Char} (notBlank : c ≠ ' ')
    (member : c ∈ (Text.joinWith " " tokens).toList) : c ∈ spelled tokens := by
  induction tokens with
  | nil => exact member
  | cons token tokens ih =>
      rw [toList_joinWith_cons] at member
      rw [spelled_cons, List.mem_append]
      rcases List.mem_append.mp member with here | later
      · exact .inl here
      · cases tokens with
        | nil => cases later
        | cons next tokens => exact .inr (ih ((List.mem_cons.mp later).resolve_left notBlank))

/-- A token has the form that it had when a blank and the later tokens are printed behind it. -/
theorem Form.printed {rest chars : List Char} {tokens : List String} (form : Form rest chars)
    (later : Cuts rest tokens) : Form (printedBehind tokens) chars := by
  cases form with
  | string isQuote absent => exact .string isQuote absent
  | run nonempty all stops =>
      refine .run nonempty all ?_
      cases tokens with
      | nil => rintro c ⟨⟩
      | cons token tokens =>
          rintro c ⟨⟩
          exact not_isWordCharacter (by decide)
  | @mark c notWord solid unclosed =>
      refine .mark notWord solid ?_
      intro isQuote found
      have notBlank : c ≠ ' ' := by rcases isQuote with rfl | rfl <;> decide
      cases tokens with
      | nil => cases found
      | cons token tokens =>
          have printed := (List.mem_cons.mp found).resolve_left notBlank
          have inside := mem_spelled_of_mem_printed notBlank printed
          exact unclosed isQuote (later.mem_of_mem_spelled inside)

/-- The printed text is cut into the tokens that are printed. By induction on the cut, since what is
behind a token is printed alike. -/
theorem Cuts.printed {text : List Char} {tokens : List String} (cuts : Cuts text tokens) :
    Cuts (Text.joinWith " " tokens).toList tokens := by
  induction cuts with
  | nil => exact .nil
  | gap _ _ ih => exact ih
  | @token token rest tokens form later ih =>
      have behind : Cuts (printedBehind tokens) tokens := by
        cases tokens with
        | nil => exact .nil
        | cons next tokens => exact .gap (by decide) ih
      rw [toList_joinWith_cons]
      exact .token (form.printed later) behind

/-! ### Texts without blank lines -/

theorem filter_linesOf {pieces : List (List Char)} (noReturn : ∀ piece ∈ pieces, '\r' ∉ piece) :
    (Text.linesOf pieces).filter (fun line => !Text.isBlank line) =
      pieces.filter fun line => !Text.isBlank line := by
  fun_induction Text.linesOf pieces with
  | case1 => rfl
  | case2 last empty =>
      rw [List.isEmpty_iff.mp empty]
      rfl
  | case3 last full => rfl
  | case4 line rest several ih =>
      obtain ⟨here, others⟩ := List.forall_mem_cons.mp noReturn
      have kept : Text.dropReturn line = line := by
        rcases Text.dropReturn_cases line with kept | ⟨front, rfl, -⟩
        · exact kept
        · exact absurd (List.mem_append_right front List.mem_cons_self) here
      rw [kept, List.filter_cons, List.filter_cons, ih others]

/-- A text without carriage returns and blank lines is cut as it is. -/
theorem condensed_eq_self {text : List Char} (noReturn : '\r' ∉ text)
    (full : [] ∉ Text.splitOn '\n' (ungapped text)) : condensed text = text := by
  have pieces : ∀ piece ∈ Text.splitOn '\n' text, '\r' ∉ piece := fun piece member inside =>
    noReturn (Text.mem_of_mem_splitOn member inside)
  have visible : ∀ piece ∈ Text.splitOn '\n' text, (!Text.isBlank piece) = true := by
    intro piece member
    rw [Bool.not_eq_true', Bool.eq_false_iff]
    intro blank
    apply full
    rw [splitOn_ungapped]
    have empty := (ungapped_eq_nil_iff (Text.not_mem_of_mem_splitOn member)).mpr blank
    exact List.mem_map.mpr ⟨piece, member, empty⟩
  rw [condensed, Text.lines, filter_linesOf pieces, List.filter_eq_self.mpr visible,
    joined_splitOn]

theorem mem_of_mem_condensed {text : List Char} {c : Char} (notNewline : c ≠ '\n')
    (member : c ∈ condensed text) : c ∈ text := by
  have others : ∀ piece ∈ Text.splitOn '\n' text, ∀ d ∈ piece, d ∈ text :=
    fun _ found _ inside => Text.mem_of_mem_splitOn found inside
  have lines : ∀ line ∈ (Text.lines text).filter (fun line => !Text.isBlank line), ∀ d ∈ line,
      d = '\n' ∨ d ∈ text := fun line found d inside =>
    .inr (Text.forall_mem_linesOf others line (List.mem_of_mem_filter found) d inside)
  exact (forall_mem_joined (.inl rfl) lines c member).resolve_left notNewline

/-- Without carriage returns, the tokens of a text are those of the text that they are printed to
with blanks between them. -/
theorem tokenize_printed (text : String) (noReturn : '\r' ∉ text.toList) :
    tokenize (Text.joinWith " " (tokenize text)) = tokenize text := by
  have cuts := cuts_ofChars (condensed text.toList)
  rw [← tokenize_eq] at cuts
  by_cases empty : condensed text.toList = []
  · rw [tokenize_eq text, empty, ofChars.eq_1]
    exact ofChars.eq_1
  · have same : ungapped (Text.joinWith " " (tokenize text)).toList =
        ungapped (condensed text.toList) := (ungapped_printed _).trans cuts.ungapped_eq
    have full := nil_not_mem_splitOn_condensed empty
    rw [← same] at full
    have absent : '\r' ∉ (Text.joinWith " " (tokenize text)).toList := by
      intro found
      have inside := cuts.mem_of_mem_spelled (mem_spelled_of_mem_printed (by decide) found)
      exact noReturn (mem_of_mem_condensed (by decide) inside)
    rw [tokenize_eq (Text.joinWith _ _), condensed_eq_self absent full]
    exact cuts.printed.ofChars_eq

/-- A string over two lines, an apostrophe that is not closed and a blank line. -/
theorem message_printed :
    '\r' ∉ "print \"a\n b\"\n\nit's -1".toList ∧
      tokenize "print \"a\n b\"\n\nit's -1" =
        ["print", "\"a\n b\"", "\n", "it", "'", "s", "-", "1"] ∧
      tokenize "print \"a\n b\" \n it ' s - 1" =
        ["print", "\"a\n b\"", "\n", "it", "'", "s", "-", "1"] := by
  have noReturn : '\r' ∉ "print \"a\n b\"\n\nit's -1".toList := by decide
  have cut : tokenize "print \"a\n b\"\n\nit's -1" =
      ["print", "\"a\n b\"", "\n", "it", "'", "s", "-", "1"] := by decide +kernel
  have printed := tokenize_printed _ noReturn
  rw [cut] at printed
  exact ⟨noReturn, cut, printed⟩

end Maxscript.Token
