import Maxscript.Proofs.Token.Cutting

/-!
# Cutting loses only white space

Before a text is cut, its blank lines are left out, and carriage returns before line feeds. That is
white space, and white space is left out only next to other white space or at an end, so that no two
words grow together: `Condenses` says so. A word of the shorter text is then a word of the text
itself, at the place that the characters before it tell.

The tokens spell the text but for white space. Newlines stand between tokens, one at a time, and
each other token is a string, a word that goes on neither before nor behind it, or a mark.
-/

namespace Maxscript.Token

open Unicode (isWhiteSpace isWordCharacter)

def unspaced (text : List Char) : List Char := text.filter fun c => !isWhiteSpace c

@[simp] theorem unspaced_append (front back : List Char) :
    unspaced (front ++ back) = unspaced front ++ unspaced back := List.filter_append _ _

theorem unspaced_cons_visible {c : Char} (visible : isWhiteSpace c = false) (text : List Char) :
    unspaced (c :: text) = c :: unspaced text := List.filter_cons_of_pos (by simp [visible])

theorem unspaced_cons_blank {c : Char} (blank : isWhiteSpace c = true) (text : List Char) :
    unspaced (c :: text) = unspaced text := List.filter_cons_of_neg (by simp [blank])

theorem unspaced_cons_congr (c : Char) {text other : List Char}
    (same : unspaced text = unspaced other) : unspaced (c :: text) = unspaced (c :: other) := by
  cases blank : isWhiteSpace c with
  | true => rw [unspaced_cons_blank blank, unspaced_cons_blank blank, same]
  | false => rw [unspaced_cons_visible blank, unspaced_cons_visible blank, same]

theorem unspaced_eq_nil_iff {text : List Char} :
    unspaced text = [] ↔ Text.isBlank text = true := by
  simp [unspaced, Text.isBlank]

theorem unspaced_ungapped (text : List Char) : unspaced (ungapped text) = unspaced text := by
  rw [unspaced, ungapped, List.filter_filter]
  apply List.filter_congr
  intro c _
  cases white : isWhiteSpace c <;> simp [isGap, white]

/-! ### White space that is left out -/

/-- The second text is the first without some of its white space, which is left out only next to
white space that is kept, or at an end. The flag tells that white space or nothing is in front of
the texts. -/
inductive Condenses : Bool → List Char → List Char → Prop
  | nil (behind : Bool) : Condenses behind [] []
  | keep (behind : Bool) (c : Char) {text kept : List Char}
      (later : Condenses (isWhiteSpace c) text kept) : Condenses behind (c :: text) (c :: kept)
  | drop {behind : Bool} {c : Char} {text kept : List Char} (blank : isWhiteSpace c = true)
      (beside : behind = true ∨ ∀ d ∈ kept.head?, isWhiteSpace d = true)
      (later : Condenses behind text kept) : Condenses behind (c :: text) kept

/-- Whether white space comes last, or nothing but what was there before. -/
def blankAfter (behind : Bool) : List Char → Bool
  | [] => behind
  | c :: cs => blankAfter (isWhiteSpace c) cs

namespace Condenses

variable {behind : Bool} {text kept : List Char}

/-- Whatever is left out is white space, so the texts are the same without it. -/
theorem unspaced_eq (condenses : Condenses behind text kept) : unspaced text = unspaced kept := by
  induction condenses with
  | nil => rfl
  | keep behind c _ ih => exact unspaced_cons_congr c ih
  | drop blank _ _ ih => rw [unspaced_cons_blank blank, ih]

/-- The front of a text may be kept as it is. What may be left out behind it depends on how it ends.
-/
theorem append (front : List Char) (condenses : Condenses (blankAfter behind front) text kept) :
    Condenses behind (front ++ text) (front ++ kept) := by
  induction front generalizing behind with
  | nil => exact condenses
  | cons c front ih => exact .keep behind c (ih condenses)

theorem blank_append {front : List Char} (blank : Text.isBlank front = true)
    (condenses : Condenses true text kept) : Condenses true (front ++ text) kept := by
  induction front with
  | nil => exact condenses
  | cons c front ih =>
      rw [Text.isBlank, List.all_cons, Bool.and_eq_true] at blank
      exact .drop blank.1 (.inl rfl) (ih blank.2)

theorem of_isBlank (behind : Bool) (blank : Text.isBlank text = true) :
    Condenses behind text [] := by
  induction text with
  | nil => exact .nil behind
  | cons c text ih =>
      rw [Text.isBlank, List.all_cons, Bool.and_eq_true] at blank
      exact .drop blank.1 (.inr (by simp)) (ih blank.2)

theorem isBlank_of_nil (condenses : Condenses behind text []) : Text.isBlank text = true :=
  unspaced_eq_nil_iff.mp condenses.unspaced_eq

/-- A carriage return may be left out in front of a newline, and at the end, as what follows is
white space or nothing. -/
theorem dropReturn (line : List Char) (ends : ∀ d ∈ kept.head?, isWhiteSpace d = true)
    (condenses : ∀ behind, Condenses behind text kept) :
    Condenses behind (line ++ text) (Text.dropReturn line ++ kept) := by
  rcases Text.dropReturn_cases line with same | ⟨front, rfl, dropped⟩
  · rw [same]
    exact (condenses _).append line
  · rw [dropped, List.append_assoc]
    exact append front (.drop (by decide) (.inr ends) (condenses _))

end Condenses

/-- Blank lines are white space beside a newline or at an end. -/
theorem condenses_lines (pieces : List (List Char)) :
    Condenses true (joined pieces)
      (joined ((Text.linesOf pieces).filter fun line => !Text.isBlank line)) := by
  fun_induction Text.linesOf pieces with
  | case1 => exact .nil true
  | case2 last empty =>
      rw [List.isEmpty_iff.mp empty]
      exact .nil true
  | case3 last nonempty =>
      rw [joined_single]
      cases blank : Text.isBlank last with
      | true =>
          rw [List.filter_cons_of_neg (by simp [blank])]
          exact .of_isBlank true blank
      | false =>
          rw [List.filter_cons_of_pos (by simp [blank]), List.filter_nil, joined_single]
          simpa using (Condenses.nil _).append last
  | case4 line rest several ih =>
      rw [joined_cons line several]
      cases blank : Text.isBlank line with
      | true =>
          rw [List.filter_cons_of_neg (by simp [blank])]
          exact .blank_append blank (.drop (by decide) (.inl rfl) ih)
      | false =>
          rw [List.filter_cons_of_pos (by simp [blank])]
          by_cases last : (Text.linesOf rest).filter (fun line => !Text.isBlank line) = []
          · rw [last] at ih ⊢
            have nothing (behind : Bool) : Condenses behind ('\n' :: joined rest) [] :=
              .drop (by decide) (.inr (by simp)) (.of_isBlank behind ih.isBlank_of_nil)
            rw [joined_single, ← List.append_nil (Text.dropReturn line)]
            exact .dropReturn line (by simp) nothing
          · rw [joined_cons _ last]
            exact .dropReturn line (by rintro d ⟨⟩; decide) fun behind => .keep behind '\n' ih

theorem condenses_condensed (text : List Char) : Condenses true text (condensed text) := by
  have condenses := condenses_lines (Text.splitOn '\n' text)
  rwa [joined_splitOn] at condenses

/-! ### Words that are kept -/

/-- A run of word characters that goes on neither before nor behind it. -/
structure IsMaximalRun (front run back : List Char) : Prop where
  nonempty : run ≠ []
  all : ∀ c ∈ run, isWordCharacter c = true
  starts : ∀ c ∈ front.getLast?, isWordCharacter c = false
  stops : ∀ c ∈ back.head?, isWordCharacter c = false

namespace Condenses

variable {behind : Bool} {text kept : List Char}

/-- A character that is kept stands in the text, directly so if nothing may be left out in front of
it. -/
theorem exists_of_cons {c : Char} (condenses : Condenses behind text (c :: kept)) :
    ∃ space rest, text = space ++ c :: rest ∧ Text.isBlank space = true ∧
      (behind = false → isWhiteSpace c = false → space = []) ∧
      Condenses (isWhiteSpace c) rest kept := by
  generalize shape : c :: kept = all at condenses
  induction condenses with
  | nil => cases shape
  | keep behind d later =>
      obtain ⟨rfl, rfl⟩ := List.cons.inj shape
      exact ⟨[], _, rfl, rfl, fun _ _ => rfl, later⟩
  | @drop behind d text _ blank beside _ ih =>
      obtain ⟨space, rest, rfl, isBlank, -, later⟩ := ih shape
      refine ⟨d :: space, rest, rfl, ?_, ?_, later⟩
      · rw [Text.isBlank, List.all_cons, blank]
        exact isBlank
      · rintro rfl visible
        rw [← shape] at beside
        have other := beside.resolve_left Bool.false_ne_true c rfl
        rw [visible] at other
        cases other

/-- What is kept of the front of a text ends as that front does. -/
theorem exists_front {start : List Char} (condenses : Condenses behind text (start ++ kept)) :
    ∃ front rest, text = front ++ rest ∧ unspaced front = unspaced start ∧
      front.getLast? = start.getLast? ∧ Condenses (blankAfter behind start) rest kept := by
  induction start generalizing behind text with
  | nil => exact ⟨[], text, rfl, rfl, rfl, condenses⟩
  | cons c start ih =>
      obtain ⟨space, rest, rfl, blank, -, later⟩ := exists_of_cons condenses
      obtain ⟨front, rest, rfl, same, last, behind⟩ := ih later
      have hidden := unspaced_eq_nil_iff.mpr blank
      refine ⟨space ++ c :: front, rest, by simp, ?_, ?_, behind⟩
      · rw [unspaced_append, hidden, List.nil_append]
        exact unspaced_cons_congr c same
      · rw [List.getLast?_append_cons, List.getLast?_cons, List.getLast?_cons, last]

/-- Nothing is left out between characters that are no white space, so that a word is never put
together from two. -/
theorem exists_of_visible {run : List Char} (visible : ∀ c ∈ run, isWhiteSpace c = false)
    (condenses : Condenses false text (run ++ kept)) :
    ∃ rest, text = run ++ rest ∧ Condenses false rest kept := by
  induction run generalizing text with
  | nil => exact ⟨text, rfl, condenses⟩
  | cons c run ih =>
      obtain ⟨here, others⟩ := List.forall_mem_cons.mp visible
      obtain ⟨space, rest, rfl, -, tight, later⟩ := exists_of_cons condenses
      rw [here] at later
      obtain ⟨rest, rfl, last⟩ := ih others later
      exact ⟨rest, by rw [tight rfl here]; rfl, last⟩

theorem head_cases (condenses : Condenses false text kept) {c : Char} (first : c ∈ text.head?) :
    isWhiteSpace c = true ∨ c ∈ kept.head? := by
  cases condenses with
  | nil => cases first
  | keep _ d later => exact .inr first
  | drop blank _ _ =>
      obtain rfl := Option.some.inj first
      exact .inl blank

/-- A word that is kept is a word of the text, with the same characters around it as far as they are
no white space. -/
theorem exists_run {start run rest : List Char} (isRun : IsMaximalRun start run rest)
    (condenses : Condenses behind text (start ++ (run ++ rest))) :
    ∃ front back, text = front ++ (run ++ back) ∧ IsMaximalRun front run back ∧
      unspaced front = unspaced start ∧ unspaced back = unspaced rest := by
  obtain ⟨front, inner, rfl, same, last, later⟩ := exists_front condenses
  have visible : ∀ c ∈ run, isWhiteSpace c = false := fun c member =>
    Unicode.isWhiteSpace_of_isWordCharacter (isRun.all c member)
  obtain ⟨c, run, rfl⟩ := List.exists_cons_of_ne_nil isRun.nonempty
  obtain ⟨here, others⟩ := List.forall_mem_cons.mp visible
  obtain ⟨space, inner, rfl, blank, -, behind⟩ := exists_of_cons later
  rw [here] at behind
  obtain ⟨back, rfl, ends⟩ := exists_of_visible others behind
  refine ⟨front ++ space, back, by simp, ⟨isRun.nonempty, isRun.all, ?_, ?_⟩, ?_,
    ends.unspaced_eq⟩
  · intro d found
    rcases List.eq_nil_or_concat' space with rfl | ⟨init, white, rfl⟩
    · rw [List.append_nil, last] at found
      exact isRun.starts d found
    · rw [← List.append_assoc, List.getLast?_concat, Option.mem_some_iff] at found
      subst found
      exact not_isWordCharacter_of_isWhiteSpace (List.all_eq_true.mp blank white (by simp))
  · intro d first
    rcases ends.head_cases first with white | kept
    · exact not_isWordCharacter_of_isWhiteSpace white
    · exact isRun.stops d kept
  · rw [unspaced_append, unspaced_eq_nil_iff.mpr blank, List.append_nil, same]

end Condenses

/-! ### The tokens of a text -/

/-- No newline is the first token or the last, or next to another. -/
def NewlinesSeparate (tokens : List String) : Prop :=
  ∀ before after, tokens = before ++ newline :: after →
    (∃ token ∈ before.getLast?, token ≠ newline) ∧ ∃ token ∈ after.head?, token ≠ newline

/-- What a token other than the newline is, with the tokens before and after it. -/
inductive IsLexeme (text : List Char) (before : List String) (token : String)
    (after : List String) : Prop
  | string (quote : Char) (body : List Char) (isQuote : quote = '"' ∨ quote = '\'')
      (absent : quote ∉ body) (shape : token = quotedText quote body)
  | word (front back : List Char) (place : text = front ++ (token.toList ++ back))
      (run : IsMaximalRun front token.toList back)
      (earlier : unspaced front = unspaced (spelled before))
      (later : unspaced back = unspaced (spelled after))
  | mark (c : Char) (visible : isWhiteSpace c = false) (notWord : isWordCharacter c = false)
      (shape : token = String.ofList [c])

theorem unspaced_spelled_tokenize (text : String) :
    unspaced (spelled (tokenize text)) = unspaced text.toList := by
  have same := (cuts_ofChars (condensed text.toList)).ungapped_eq
  rw [tokenize_eq, ← unspaced_ungapped, same, unspaced_ungapped,
    (condenses_condensed text.toList).unspaced_eq]

theorem newlinesSeparate_tokenize (text : String) : NewlinesSeparate (tokenize text) := by
  intro before after shape
  have same := (cuts_ofChars (condensed text.toList)).ungapped_eq
  have nonempty : condensed text.toList ≠ [] := by
    intro empty
    rw [tokenize_eq, empty, ofChars.eq_1] at shape
    exact absurd shape (by simp)
  have full := nil_not_mem_splitOn_condensed nonempty
  have cut : ungapped (spelled (before ++ newline :: after)) =
      ungapped (spelled before) ++ '\n' :: ungapped (spelled after) := by
    rw [spelled_append, spelled_cons, ungapped_append, ungapped_append]
    rfl
  rw [← same, ← tokenize_eq, shape, cut, Text.splitOn_append, List.mem_append, not_or] at full
  constructor
  · rcases List.eq_nil_or_concat' before with rfl | ⟨init, last, rfl⟩
    · exact absurd List.mem_cons_self full.1
    · refine ⟨last, List.getLast?_concat, ?_⟩
      rintro rfl
      have ends : ungapped (spelled (init ++ [newline])) =
          ungapped (spelled init) ++ ['\n'] := by
        rw [spelled_append, ungapped_append]
        rfl
      rw [ends, Text.splitOn_append, List.mem_append, not_or] at full
      exact absurd List.mem_cons_self full.1.2
  · cases after with
    | nil => exact absurd List.mem_cons_self full.2
    | cons first after =>
        refine ⟨first, rfl, ?_⟩
        rintro rfl
        have starts : ungapped (spelled (newline :: after)) =
            '\n' :: ungapped (spelled after) := rfl
        rw [starts, Text.splitOn, if_pos rfl] at full
        exact absurd List.mem_cons_self full.2

/-- What each token is, told by its place in the text and not by how the tokenizer came to it. -/
theorem isLexeme_tokenize (text : String) {before after : List String} {token : String}
    (shape : tokenize text = before ++ token :: after) (notNewline : token ≠ newline) :
    IsLexeme text.toList before token after := by
  have cuts := cuts_ofChars (condensed text.toList)
  rw [← tokenize_eq, shape] at cuts
  have nothing : Apart [] (condensed text.toList) := by
    rintro c ⟨⟩
  obtain ⟨start, rest, place, same, form, later, apart⟩ := cuts.exists_place nothing
  generalize spelling : token.toList = chars at form
  have written : token = String.ofList chars := by rw [← spelling, String.ofList_toList]
  cases form with
  | string isQuote absent => exact .string _ _ isQuote absent written
  | @mark c notWord solid unclosed =>
      refine .mark c ?_ notWord written
      have other : c ≠ '\n' := by
        rintro rfl
        exact notNewline written
      simpa [isGap, other] using solid
  | run nonempty all stops =>
      have isRun : IsMaximalRun start token.toList rest := by
        refine ⟨spelling ▸ nonempty, spelling ▸ all, ?_, stops⟩
        intro c last
        rw [spelling] at apart
        obtain ⟨d, word, rfl⟩ := List.exists_cons_of_ne_nil nonempty
        have goesOn := apart c last d rfl
        rw [all d List.mem_cons_self] at goesOn
        simpa using goesOn
      have condenses := condenses_condensed text.toList
      rw [place] at condenses
      obtain ⟨front, back, found, maximal, earlier, behind⟩ := condenses.exists_run isRun
      refine .word front back found maximal ?_ ?_
      · rw [earlier, ← unspaced_ungapped, same, unspaced_ungapped]
      · rw [behind, ← unspaced_ungapped, ← later.ungapped_eq, unspaced_ungapped]

/-- The tokens of a text spell it but for white space. Newlines separate tokens, and every other
token is a string, a maximal run of word characters in its place in the text, or a single mark. -/
theorem tokenize_loses_only_white_space (text : String) :
    unspaced (spelled (tokenize text)) = unspaced text.toList ∧
      NewlinesSeparate (tokenize text) ∧
      ∀ before token after, tokenize text = before ++ token :: after → token ≠ newline →
        IsLexeme text.toList before token after :=
  ⟨unspaced_spelled_tokenize text, newlinesSeparate_tokenize text,
    fun _ _ _ => isLexeme_tokenize text⟩

/-- A word behind a blank line. -/
theorem second_statement_lexeme :
    tokenize "a = \"\"\n \r\n  b2" = ["a", "=", "\"\"", "\n", "b2"] ∧ "b2" ≠ newline ∧
      IsLexeme "a = \"\"\n \r\n  b2".toList ["a", "=", "\"\"", "\n"] "b2" [] := by
  have cut : tokenize "a = \"\"\n \r\n  b2" = ["a", "=", "\"\"", "\n", "b2"] := by decide +kernel
  have notNewline : "b2" ≠ newline := by decide
  exact ⟨cut, notNewline, (tokenize_loses_only_white_space _).2.2 _ _ _ cut notNewline⟩

end Maxscript.Token
