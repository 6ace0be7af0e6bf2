import Maxscript.Proofs.Token.Hyphens

/-!
# Texts without strings

A string is found by looking ahead for the quote that closes it. In a text without quotes nothing is
looked for: the text may be cut anywhere but inside a word, and its tokens are those of its lines.
Without hyphens it has no line comment either, so that nothing is missing but the white space.
-/

namespace Maxscript.Token

open Unicode (isWhiteSpace isWordCharacter)

/-! ### Cutting -/

def Unquoted (text : List Char) : Prop := ∀ c ∈ text, ¬(c = '"' ∨ c = '\'')

theorem ofChars_word {c : Char} (word : isWordCharacter c = true) (cs : List Char) :
    ofChars (c :: cs) = String.ofList (c :: cs.takeWhile isWordCharacter) ::
      ofChars (cs.dropWhile isWordCharacter) := by
  have unquoted : quoted? c cs = none := if_neg (not_quote_of_isWordCharacter word)
  rw [ofChars]
  split
  · next found =>
      rw [unquoted] at found
      cases found
  · rw [if_pos word]

theorem not_isWordCharacter_of_isWhiteSpace {c : Char} (blank : isWhiteSpace c = true) :
    isWordCharacter c = false := by
  rw [Bool.eq_false_iff]
  intro word
  rw [Unicode.isWhiteSpace_of_isWordCharacter word] at blank
  cases blank

/-- White space is cut off, and a newline is a token of its own. -/
theorem ofChars_blank {c : Char} (blank : isWhiteSpace c = true) (cs : List Char) :
    ofChars (c :: cs) = (if c = '\n' then ["\n"] else []) ++ ofChars cs := by
  have unquoted : quoted? c cs = none :=
    if_neg fun quote => ne_quote_of_isWhiteSpace blank quote rfl
  have notWord := not_isWordCharacter_of_isWhiteSpace blank
  rw [ofChars]
  split
  · next found =>
      rw [unquoted] at found
      cases found
  · rw [if_neg (by simp [notWord])]
    by_cases newline : c = '\n'
    · subst newline
      rfl
    · rw [if_neg (by simp [newline, blank]), if_neg newline]
      rfl

theorem ofChars_isBlank {line : List Char} (blank : Text.isBlank line = true)
    (single : '\n' ∉ line) : ofChars line = [] := by
  induction line with
  | nil => rw [ofChars]
  | cons c line ih =>
      rw [Text.isBlank, List.all_cons, Bool.and_eq_true] at blank
      rw [List.mem_cons, not_or] at single
      rw [ofChars_blank blank.1, if_neg (Ne.symm single.1), List.nil_append,
        ih blank.2 single.2]

/-- The place between two texts is not inside a word. -/
def Apart (front back : List Char) : Prop :=
  ∀ c ∈ front.getLast?, ∀ d ∈ back.head?, isWordCharacter c = true → isWordCharacter d = false

theorem Apart.of_head {back : List Char} {d : Char} (stops : isWordCharacter d = false)
    (front : List Char) : Apart front (d :: back) := by
  rintro c - d ⟨⟩ -
  exact stops

theorem Apart.of_last {front : List Char} {c : Char} (stops : isWordCharacter c = false)
    (back : List Char) : Apart (front ++ [c]) back := by
  intro last found d _ word
  rw [List.getLast?_concat, Option.mem_some_iff] at found
  rw [← found, stops] at word
  cases word

theorem Apart.of_suffix {front back : List Char} (apart : Apart front back) {last : List Char}
    (ends : last <:+ front) : Apart last back := by
  obtain ⟨start, rfl⟩ := ends
  intro c found
  exact apart c (List.mem_getLast?_append_of_mem_getLast? found)

theorem Apart.of_isBlank {front back : List Char} (blank : Text.isBlank back = true) :
    Apart front back := by
  intro c _ d found _
  exact not_isWordCharacter_of_isWhiteSpace
    (List.all_eq_true.mp blank d (List.mem_of_mem_head? found))

/-- A text without quotes is cut anywhere but inside a word. With a quote in front, what is behind
could be part of a string. -/
theorem ofChars_append {front back : List Char} (unquoted : Unquoted front)
    (apart : Apart front back) : ofChars (front ++ back) = ofChars front ++ ofChars back := by
  fun_induction ofChars front with
  | case1 => rfl
  | case2 c cs body rest found =>
      rw [quoted?, if_neg (unquoted c List.mem_cons_self)] at found
      cases found
  | case3 c cs found word ih =>
      have whole : cs.takeWhile isWordCharacter ++ cs.dropWhile isWordCharacter = cs :=
        List.takeWhile_append_dropWhile
      have later : Unquoted (cs.dropWhile isWordCharacter) := fun d member =>
        unquoted d (List.mem_cons_of_mem _ ((List.dropWhile_sublist _).subset member))
      have ends : cs.dropWhile isWordCharacter <:+ c :: cs :=
        (List.dropWhile_suffix _).trans (List.suffix_cons c cs)
      rw [List.cons_append, ofChars_word word, List.takeWhile_append, List.dropWhile_append,
        List.cons_append, ← ih later (apart.of_suffix ends)]
      cases rest : cs.dropWhile isWordCharacter with
      | cons next others =>
          have short : (cs.takeWhile isWordCharacter).length ≠ cs.length := by
            intro same
            have lengths := congrArg List.length whole
            rw [List.length_append, same, rest, List.length_cons] at lengths
            omega
          rw [if_neg short]
          rfl
      | nil =>
          -- The text ends in a word, so the rest does not go on with it.
          rw [rest, List.append_nil] at whole
          have all : ∀ d ∈ c :: cs, isWordCharacter d = true := by
            intro d member
            rcases List.mem_cons.mp member with rfl | inside
            · exact word
            · rw [← whole] at inside
              exact List.mem_takeWhile_imp inside
          have stops : ∀ d ∈ back.head?, isWordCharacter d = false := by
            intro d first
            have last : (c :: cs).getLast (List.cons_ne_nil c cs) ∈ (c :: cs).getLast? := by
              rw [List.getLast?_eq_some_getLast (List.cons_ne_nil c cs)]
              rfl
            exact apart _ last d first (all _ (List.getLast_mem _))
          have none : back.takeWhile isWordCharacter = [] ∧
              back.dropWhile isWordCharacter = back := by
            cases back with
            | nil => exact ⟨rfl, rfl⟩
            | cons d back => simp [stops d rfl]
          rw [whole, if_pos rfl, none.1, none.2, List.append_nil]
          rfl
  | case4 c cs found notWord mark ih =>
      have later := ih (fun d member => unquoted d (List.mem_cons_of_mem _ member))
        (apart.of_suffix (List.suffix_cons c cs))
      rw [List.cons_append, List.cons_append, ← later]
      by_cases blank : isWhiteSpace c = true
      · have newline : c = '\n' := by simpa [blank] using mark
        rw [ofChars_blank blank, if_pos newline, newline]
        rfl
      · exact ofChars_mark (unquoted c List.mem_cons_self) (by simpa using notWord)
          (by simpa using blank) _
  | case5 c cs found notWord blank ih =>
      have later := ih (fun d member => unquoted d (List.mem_cons_of_mem _ member))
        (apart.of_suffix (List.suffix_cons c cs))
      rw [not_or] at blank
      rw [List.cons_append, ofChars_blank (by simpa using blank.2), if_neg blank.1,
        List.nil_append, later]

/-- White space at the end of a line makes no token. -/
theorem ofChars_append_isBlank {front blank : List Char} (unquoted : Unquoted front)
    (isBlank : Text.isBlank blank = true) (single : '\n' ∉ blank) :
    ofChars (front ++ blank) = ofChars front := by
  rw [ofChars_append unquoted (.of_isBlank isBlank), ofChars_isBlank isBlank single,
    List.append_nil]

/-! ### Line by line -/

/-- The tokens of the lines that are not blank, with newlines between them. -/
def lineTokens (text : List Char) : List String :=
  ["\n"].intercalate
    (((Text.splitOn '\n' text).filter fun line => !Text.isBlank line).map ofChars)

/-- The lines of a text without quotes are cut one by one, and a newline is put between their
tokens. -/
theorem ofChars_joined {lines : List (List Char)} (unquoted : ∀ line ∈ lines, Unquoted line) :
    ofChars (joined lines) = ["\n"].intercalate (lines.map ofChars) := by
  induction lines with
  | nil => exact ofChars.eq_1
  | cons line rest ih =>
      obtain ⟨here, others⟩ := List.forall_mem_cons.mp unquoted
      cases rest with
      | nil => rw [joined_single, List.map_singleton, List.intercalate_singleton]
      | cons next rest =>
          have newline : isWordCharacter '\n' = false := not_isWordCharacter (by decide)
          rw [joined_cons line (List.cons_ne_nil next rest),
            ofChars_append here (.of_head newline line), ofChars_blank (by decide), if_pos rfl,
            ih others, List.map_cons, List.map_cons, List.map_cons, List.intercalate_cons_cons,
            List.append_assoc]

/-- A carriage return at the end of a line makes no token. -/
theorem ofChars_dropReturn {line : List Char} (unquoted : Unquoted line) :
    ofChars (Text.dropReturn line) = ofChars line := by
  rcases Text.dropReturn_cases line with kept | ⟨front, rfl, dropped⟩
  · rw [kept]
  · have here : Unquoted front := fun c member => unquoted c (List.mem_append_left _ member)
    rw [dropped, ofChars_append_isBlank here (by decide) (by decide)]

theorem map_ofChars_linesOf {pieces : List (List Char)}
    (unquoted : ∀ piece ∈ pieces, Unquoted piece) :
    ((Text.linesOf pieces).filter fun line => !Text.isBlank line).map ofChars =
      (pieces.filter fun line => !Text.isBlank line).map ofChars := by
  fun_induction Text.linesOf pieces with
  | case1 => rfl
  | case2 last empty =>
      rw [List.isEmpty_iff.mp empty]
      rfl
  | case3 last full => rfl
  | case4 line rest several ih =>
      obtain ⟨here, others⟩ := List.forall_mem_cons.mp unquoted
      rw [List.filter_cons, List.filter_cons, Text.isBlank_dropReturn]
      split
      · rw [List.map_cons, List.map_cons, ofChars_dropReturn here, ih others]
      · exact ih others

/-- A script without quotes is cut line by line, and lines without tokens are left out together with
their line breaks. -/
theorem tokenize_eq_lineTokens {source : String} (unquoted : Unquoted source.toList) :
    tokenize source = lineTokens source.toList := by
  have pieces : ∀ piece ∈ Text.splitOn '\n' source.toList, Unquoted piece :=
    fun _ member _ inside => unquoted _ (Text.mem_of_mem_splitOn member inside)
  have lines : ∀ line ∈ (Text.lines source.toList).filter fun line => !Text.isBlank line,
      Unquoted line :=
    fun line member => Text.forall_mem_linesOf pieces line (List.mem_of_mem_filter member)
  rw [lineTokens, ← map_ofChars_linesOf pieces, ← Text.lines, ← ofChars_joined lines]
  rfl

def Uncommented (text : List Char) : Prop := ∀ c ∈ text, ¬(c = '"' ∨ c = '\'') ∧ c ≠ '-'

theorem Uncommented.unquoted {text : List Char} (plain : Uncommented text) : Unquoted text :=
  fun c member => (plain c member).1

theorem Uncommented.append {front back : List Char} (first : Uncommented front)
    (second : Uncommented back) : Uncommented (front ++ back) :=
  List.forall_mem_append.mpr ⟨first, second⟩

theorem stripLineComment_eq {line : List Char} (plain : Uncommented line) :
    stripLineComment line = Text.trimEnd line := by
  have whole := beforeComment_append plain []
  rw [List.append_nil, beforeComment, List.append_nil] at whole
  rw [stripLineComment, whole]

theorem forall_mem_joined {p : Char → Prop} (newline : p '\n') {lines : List (List Char)}
    (all : ∀ line ∈ lines, ∀ c ∈ line, p c) : ∀ c ∈ joined lines, p c := by
  induction lines with
  | nil => exact List.forall_mem_nil _
  | cons line rest ih =>
      obtain ⟨here, others⟩ := List.forall_mem_cons.mp all
      cases rest with
      | nil =>
          rw [joined_single]
          exact here
      | cons next rest =>
          rw [joined_cons line (List.cons_ne_nil next rest), List.forall_mem_append,
            List.forall_mem_cons]
          exact ⟨here, newline, ih others⟩

section

variable {source : String} (plain : Uncommented source.toList)
include plain

theorem uncommented_of_mem_splitOn {piece : List Char}
    (member : piece ∈ Text.splitOn '\n' source.toList) : Uncommented piece :=
  fun c inside => plain c (Text.mem_of_mem_splitOn member inside)

/-- Without hyphens only white space is removed, from the ends of the lines. -/
theorem map_stripLineComment : (Text.splitOn '\n' source.toList).map stripLineComment =
    (Text.splitOn '\n' source.toList).map Text.trimEnd := by
  apply List.map_congr_left
  intro piece member
  exact stripLineComment_eq (uncommented_of_mem_splitOn plain member)

theorem uncommented_stripLineComments : Uncommented (stripLineComments source).toList := by
  rw [toList_stripLineComments, map_stripLineComment plain]
  refine forall_mem_joined (by decide) ?_
  intro line member c found
  obtain ⟨piece, inside, rfl⟩ := List.mem_map.mp member
  exact uncommented_of_mem_splitOn plain inside c ((Text.isPrefix_trimEnd piece).subset found)

/-- A line has the tokens that it has without the white space at its end. -/
theorem ofChars_trimEnd {piece : List Char} (member : piece ∈ Text.splitOn '\n' source.toList) :
    ofChars (Text.trimEnd piece) = ofChars piece := by
  obtain ⟨space, shape, isBlank⟩ := Text.exists_trimEnd_append piece
  have kept : Unquoted (Text.trimEnd piece) := fun c found =>
    (uncommented_of_mem_splitOn plain member).unquoted c
      ((Text.isPrefix_trimEnd piece).subset found)
  have single : '\n' ∉ space := by
    intro newline
    apply Text.not_mem_of_mem_splitOn member
    rw [shape]
    exact List.mem_append_right _ newline
  conv_rhs => rw [shape, ofChars_append_isBlank kept isBlank single]

/-- Without hyphens, taking comments away makes no difference to the tokens of any line. -/
theorem lineTokens_stripLineComments :
    lineTokens (stripLineComments source).toList = lineTokens source.toList := by
  have blank : (fun line => !Text.isBlank line) ∘ Text.trimEnd =
      fun line => !Text.isBlank line := by
    funext line
    rw [Function.comp_apply, Text.isBlank_trimEnd]
  rw [lineTokens, lineTokens, splitOn_stripLineComments, map_stripLineComment plain,
    List.filter_map, blank, List.map_map]
  congr 1
  apply List.map_congr_left
  intro piece member
  exact ofChars_trimEnd plain (List.mem_of_mem_filter member)

theorem stripTokenComments_eq : stripTokenComments (tokenize source) = tokenize source := by
  rw [stripTokenComments_eq_self_iff, hyphens_infix_tokenize_iff]
  intro pair
  have hyphen : '-' ∈ visibleFrom none source.toList := pair.subset List.mem_cons_self
  have code := List.mem_of_mem_filter hyphen
  exact (plain '-' ((codeFrom_sublist none source.toList).subset code)).2 rfl

end

/-- Without quotes and hyphens, a script loses nothing before its marks are merged. -/
theorem lex_eq {source : String} (plain : Uncommented source.toList) :
    lex source = mergeLigatures (lineTokens source.toList) := by
  have stripped := uncommented_stripLineComments plain
  rw [lex, stripTokenComments_eq stripped, tokenize_eq_lineTokens stripped.unquoted,
    lineTokens_stripLineComments plain]

/-! ### Something around the lines -/

theorem intercalate_front {α : Type} (separator front first : List α) (rest : List (List α)) :
    separator.intercalate ((front ++ first) :: rest) =
      front ++ separator.intercalate (first :: rest) := by
  cases rest with
  | nil => rw [List.intercalate_singleton, List.intercalate_singleton]
  | cons next rest =>
      rw [List.intercalate_cons_cons, List.intercalate_cons_cons, List.append_assoc,
        List.append_assoc, List.append_assoc]

theorem intercalate_back {α : Type} (separator last back : List α) (init : List (List α)) :
    separator.intercalate (init ++ [last ++ back]) =
      separator.intercalate (init ++ [last]) ++ back := by
  induction init with
  | nil => simp only [List.nil_append, List.intercalate_singleton]
  | cons first init ih =>
      rw [List.cons_append, List.cons_append,
        List.intercalate_cons_of_ne_nil (List.append_ne_nil_of_right_ne_nil _ (by simp)),
        List.intercalate_cons_of_ne_nil (List.append_ne_nil_of_right_ne_nil _ (by simp)), ih,
        List.append_assoc (first ++ separator)]

/-- A text in a line of its own, or in several lines, between two texts that can be seen. Blank
lines are left out between them, whatever the two are. -/
theorem exists_lineTokens_between {body : List Char} (unquoted : Unquoted body) :
    ∃ inner, ∀ front back, Unquoted front → '\n' ∉ front → '\n' ∉ back →
      Text.isBlank front = false → Text.isBlank back = false →
      (∀ text, Apart front text) → (∀ text, Apart text back) →
      lineTokens (front ++ (body ++ back)) = ofChars front ++ (inner ++ ofChars back) := by
  obtain ⟨first, rest, shape⟩ := List.exists_cons_of_ne_nil (Text.splitOn_ne_nil '\n' body)
  have pieces {piece : List Char} (member : piece ∈ Text.splitOn '\n' body) : Unquoted piece :=
    fun c inside => unquoted c (Text.mem_of_mem_splitOn member inside)
  rcases List.eq_nil_or_concat' rest with rfl | ⟨init, last, rfl⟩
  · refine ⟨ofChars first, ?_⟩
    intro front back unquotedFront singleFront singleBack visibleFront visibleBack left right
    have behind := @Text.splitOn_back '\n' back singleBack body first [] shape
    have around := Text.splitOn_front singleFront behind
    have firstUnquoted : Unquoted first := pieces (shape ▸ List.mem_cons_self)
    have shown : Text.isBlank (front ++ (first ++ back)) = false := by
      rw [Text.isBlank_append, visibleFront, Bool.false_and]
    rw [lineTokens, around, List.filter_cons_of_pos (by simp [shown]), List.filter_nil,
      List.map_singleton, List.intercalate_singleton, ofChars_append unquotedFront (left _),
      ofChars_append firstUnquoted (right _)]
  · refine ⟨["\n"].intercalate (ofChars first ::
      ((init.filter fun line => !Text.isBlank line).map ofChars ++ [ofChars last])), ?_⟩
    intro front back unquotedFront singleFront singleBack visibleFront visibleBack left right
    have behind := @Text.splitOn_back '\n' back singleBack body last (first :: init) shape
    rw [List.cons_append] at behind
    have around := Text.splitOn_front singleFront behind
    have lastUnquoted : Unquoted last := pieces (by simp [shape])
    have shownFirst : Text.isBlank (front ++ first) = false := by
      rw [Text.isBlank_append, visibleFront, Bool.false_and]
    have shownLast : Text.isBlank (last ++ back) = false := by
      rw [Text.isBlank_append, visibleBack, Bool.and_false]
    rw [lineTokens, around, List.filter_cons_of_pos (by simp [shownFirst]), List.filter_append,
      List.filter_cons_of_pos (by simp [shownLast]), List.filter_nil, List.map_cons,
      List.map_append, List.map_singleton, ofChars_append unquotedFront (left _),
      ofChars_append lastUnquoted (right _), intercalate_front, ← List.cons_append,
      intercalate_back, List.cons_append]

end Maxscript.Token
