import Maxscript.Token.Normal

/-!
# What tokens look like

White space separates tokens and is part of none, except inside quotes and for the newline, which
is a token by itself. So every other token starts with a character that can be seen, and stays what
it is when white space is trimmed from the front of a text that starts with it.

A token that is cut from a text is a string in quotes, a run of word characters or a single
character. Merging and normalizing only add operators and the Python spelling of literals, so a
text of another form can only be read where a name was respelled.
-/

namespace Maxscript

namespace Unicode

def Ranges.points (ranges : Ranges) : List Nat :=
  ranges.flatMap fun (first, last) => List.range' first (last + 1 - first)

theorem Ranges.mem_points_of_covers {ranges : Ranges} {code : Nat}
    (h : ranges.covers code = true) : code ∈ ranges.points := by
  induction ranges with
  | nil => cases h
  | cons range rest ih =>
      obtain ⟨first, last⟩ := range
      have below : ¬code < first := by
        intro below
        simp [covers, below] at h
      rw [points, List.flatMap_cons, List.mem_append]
      by_cases inside : code ≤ last
      · left
        rw [List.mem_range'_1]
        omega
      · right
        rw [covers, if_neg below, if_neg inside] at h
        exact ih h

/-- The two tables have no code point in common. -/
theorem isWhiteSpace_of_isWordCharacter {c : Char} (h : isWordCharacter c = true) :
    isWhiteSpace c = false := by
  have disjoint : ∀ code ∈ whiteSpace.points, isWordCharacter (Char.ofNat code) = false := by
    decide +kernel
  cases blank : isWhiteSpace c with
  | false => rfl
  | true =>
      have := disjoint c.toNat (Ranges.mem_points_of_covers blank)
      rw [Char.ofNat_toNat, h] at this
      cases this

end Unicode

/-- Whether a text starts with a character that is not white space. -/
def Text.startsVisibly (text : String) : Bool :=
  text.toList.head?.any fun c => !Unicode.isWhiteSpace c

namespace Token

open Text (startsVisibly)

theorem isWhiteSpace_of_quoted? {c : Char} {cs body rest : List Char}
    (h : quoted? c cs = some (body, rest)) : Unicode.isWhiteSpace c = false := by
  rw [quoted?] at h
  split at h
  · next quote =>
      rcases quote with rfl | rfl
      · decide
      · decide
  · cases h

theorem startsVisibly_of_mem_ofChars {cs : List Char} {token : String} (h : token ∈ ofChars cs)
    (notNewline : token ≠ newline) : startsVisibly token = true := by
  have starts {c : Char} (rest : List Char) (visible : Unicode.isWhiteSpace c = false) :
      startsVisibly (String.ofList (c :: rest)) = true := by
    simp [startsVisibly, visible]
  fun_induction ofChars cs with
  | case1 => cases h
  | case2 c cs body rest found _ ih =>
      rcases List.mem_cons.mp h with rfl | h
      · exact starts _ (isWhiteSpace_of_quoted? found)
      · exact ih h
  | case3 c cs found word ih =>
      rcases List.mem_cons.mp h with rfl | h
      · exact starts _ (Unicode.isWhiteSpace_of_isWordCharacter word)
      · exact ih h
  | case4 c cs found notWord mark ih =>
      rcases List.mem_cons.mp h with rfl | h
      · rcases mark with rfl | visible
        · exact absurd rfl notNewline
        · exact starts _ (by simpa using visible)
      · exact ih h
  | case5 c cs found notWord blank ih => exact ih h

/-- The forms of the tokens that a text is cut into. -/
def IsCut (token : String) : Prop :=
  isQuoted token = true ∨ token.toList.all Unicode.isWordCharacter = true ∨ token.length = 1

instance (token : String) : Decidable (IsCut token) :=
  inferInstanceAs (Decidable (_ ∨ _ ∨ _))

/-- What is known of a token from its text alone, whichever script it was cut from. -/
theorem isCut_of_mem_ofChars {cs : List Char} {token : String} (h : token ∈ ofChars cs) :
    IsCut token := by
  fun_induction ofChars cs with
  | case1 => cases h
  | case2 c cs body rest found _ ih =>
      rcases List.mem_cons.mp h with rfl | h
      · left
        rw [quoted?] at found
        split at found
        · next quote => simpa [isQuoted] using quote
        · cases found
      · exact ih h
  | case3 c cs found word ih =>
      rcases List.mem_cons.mp h with rfl | h
      · right; left
        rw [String.toList_ofList, List.all_cons, word, Bool.true_and]
        exact List.all_takeWhile
      · exact ih h
  | case4 c cs found notWord mark ih =>
      rcases List.mem_cons.mp h with rfl | h
      · right; right
        exact String.length_ofList
      · exact ih h
  | case5 c cs found notWord blank ih => exact ih h

theorem stripTokenCommentsFrom_sublist (inside : Bool) (tokens : List String) :
    List.Sublist (stripTokenCommentsFrom inside tokens) tokens := by
  fun_induction stripTokenCommentsFrom inside tokens with
  | case1 => exact .slnil
  | case2 rest ih => exact ih.cons_cons _
  | case3 token rest notNewline ih => exact ih.cons _
  | case4 token rest comment ih => exact ih.cons _
  | case5 token rest code ih => exact ih.cons_cons _

/-- Merging makes no token but the merged one. -/
theorem mem_of_mem_mergeSequence {sequence token : String} {tokens : List String}
    (h : token ∈ mergeSequence sequence tokens) : token = sequence ∨ token ∈ tokens := by
  fun_induction mergeSequence sequence tokens with
  | case1 => cases h
  | case2 first rest empty => exact .inr h
  | case3 first rest mark marks spelled found ih =>
      rcases List.mem_cons.mp h with rfl | h
      · exact .inl rfl
      · rcases ih h with same | later
        · exact .inl same
        · exact .inr (List.mem_cons_of_mem _ (List.mem_of_mem_drop later))
  | case4 first rest mark marks spelled other ih =>
      rcases List.mem_cons.mp h with rfl | h
      · exact .inr List.mem_cons_self
      · rcases ih h with same | later
        · exact .inl same
        · exact .inr (List.mem_cons_of_mem _ later)

theorem mem_of_mem_mergeLigatures {token : String} {tokens : List String}
    (h : token ∈ mergeLigatures tokens) : token ∈ ligatures ∨ token ∈ tokens := by
  have merged (sequences : List String) (tokens : List String)
      (h : token ∈ sequences.foldl (fun tokens sequence => mergeSequence sequence tokens) tokens) :
      token ∈ sequences ∨ token ∈ tokens := by
    induction sequences generalizing tokens with
    | nil => exact .inr h
    | cons sequence rest ih =>
        rcases ih _ h with later | first
        · exact .inl (List.mem_cons_of_mem _ later)
        · rcases mem_of_mem_mergeSequence first with rfl | kept
          · exact .inl List.mem_cons_self
          · exact .inr kept
  exact merged ligatures tokens h

theorem isCut_of_mem_lex {source token : String} (h : token ∈ lex source) :
    token ∈ ligatures ∨ IsCut token := by
  rcases mem_of_mem_mergeLigatures h with merged | kept
  · exact .inl merged
  · exact .inr (isCut_of_mem_ofChars ((stripTokenCommentsFrom_sublist false _).subset kept))

/-- Of the tokens of a script, only the newline starts with white space, so that a line is never
indented by a token. -/
theorem startsVisibly_of_mem_lex {source token : String} (h : token ∈ lex source)
    (notNewline : token ≠ newline) : startsVisibly token = true := by
  have ligature : ∀ token ∈ ligatures, startsVisibly token = true := by decide
  rcases mem_of_mem_mergeLigatures h with merged | kept
  · exact ligature token merged
  · have cut := (stripTokenCommentsFrom_sublist false _).subset kept
    exact startsVisibly_of_mem_ofChars cut notNewline

/-! ### Normal form -/

theorem stripBlockCommentsFrom_sublist (inside : Bool) (tokens : List String) :
    List.Sublist (stripBlockCommentsFrom inside tokens) tokens := by
  fun_induction stripBlockCommentsFrom inside tokens with
  | case1 => exact .slnil
  | case2 token rest ih => exact ih.cons _
  | case3 rest ih => exact ih.cons _
  | case4 token rest code ih => exact ih.cons_cons _

/-- A token in normal form is one of the script, or spells a literal. -/
theorem mem_of_mem_normalize {token : String} {tokens : List String}
    (h : token ∈ normalize tokens) :
    token ∈ tokens ∨ token ∈ literals.map Prod.snd := by
  obtain ⟨kept, member, rfl⟩ := List.mem_map.mp h
  cases found : literal? kept with
  | none =>
      left
      exact (stripBlockCommentsFrom_sublist false tokens).subset (List.mem_filter.mp member).1
  | some spelling =>
      right
      obtain ⟨front, back, shape, -⟩ := List.lookup_eq_some_iff.mp found
      rw [shape]
      simp

/-- A token that is read is one in normal form, or what a word in normal form is respelled to. A new
spelling can be any text. -/
theorem mem_of_mem_ofSource {registry : Registry} {source token : String}
    (h : token ∈ ofSource registry source) :
    token ∈ normalize (lex source) ∨
      ∃ word ∈ normalize (lex source), isWord word = true ∧ registry.rename? word = some token := by
  obtain ⟨word, member, rfl⟩ := List.mem_map.mp h
  by_cases isName : isWord word = true
  · rw [if_pos isName]
    cases found : registry.rename? word with
    | none => exact .inl member
    | some target => exact .inr ⟨word, member, isName, found⟩
  · rw [if_neg isName]
    exact .inl member

/-- A text that no rule of the language spells is read only where a word was respelled to it. -/
theorem renamed_of_mem_ofSource {registry : Registry} {source token : String}
    (h : token ∈ ofSource registry source) (notCut : ¬IsCut token)
    (notMerged : token ∉ ligatures) (notLiteral : token ∉ literals.map Prod.snd) :
    ∃ word ∈ normalize (lex source), isWord word = true ∧ registry.rename? word = some token := by
  rcases mem_of_mem_ofSource h with normal | renamed
  · rcases mem_of_mem_normalize normal with lexed | literal
    · rcases isCut_of_mem_lex lexed with merged | cut
      · exact absurd merged notMerged
      · exact absurd cut notCut
    · exact absurd literal notLiteral
  · exact renamed

/-! ### Words, strings and marks -/

def otherTokens : List String :=
  ["\n", ":", ":=", "(", ")", "[", "]", ",", "#", "."] ++ operators

theorem not_isWord {mark : String} (other : mark ∈ otherTokens) : isWord mark = false := by
  have all : (otherTokens.all fun mark => !isWord mark) = true := by decide +kernel
  simpa using List.all_eq_true.mp all mark other

theorem ne_of_isWord {token mark : String} (word : isWord token = true)
    (other : mark ∈ otherTokens) : token ≠ mark := by
  rintro rfl
  rw [not_isWord other] at word
  cases word

theorem not_mem_of_isWord {token : String} (word : isWord token = true) {marks : List String}
    (others : ∀ mark ∈ marks, mark ∈ otherTokens) : token ∉ marks :=
  fun member => ne_of_isWord word (others token member) rfl

/-- Words and strings are told from all other tokens by their first character, so no list of marks
has one of them in it. -/
theorem not_mem_of_isWord_or_isQuoted {token : String}
    (value : (isWord token || isQuoted token) = true) {marks : List String}
    (others : ∀ mark ∈ marks, mark ∈ otherTokens) : token ∉ marks := by
  intro member
  have all : (otherTokens.all fun mark => !isQuoted mark) = true := by decide
  have unquoted : isQuoted token = false := by
    simpa using List.all_eq_true.mp all token (others token member)
  rw [unquoted, Bool.or_false] at value
  exact not_mem_of_isWord value others member

end Token

end Maxscript
