import Maxscript.Proofs.Token.Cutting

/-!
# Literals with escaped quotes

Two rules say where a string ends. When line comments are removed, a backslash takes the quote after
it into the string. When the text is cut, the string ends at the next quote, whatever stands before
it. So no literal is taken for a comment, and one is cut out as a whole exactly if it has no escaped
quote.
-/

namespace Maxscript.Token

open Unicode (isWhiteSpace isWordCharacter)

theorem newline_not_mem_of_isLiteralBody {quote : Char} {body : List Char}
    (isBody : isLiteralBody quote body = true) : '\n' ∉ body := by
  fun_induction isLiteralBody quote body with
  | case1 => exact List.not_mem_nil
  | case2 c cs ih =>
      simp only [Bool.and_eq_true, bne_iff_ne] at isBody
      simp only [List.mem_cons, not_or]
      exact ⟨by decide, Ne.symm isBody.1, ih isBody.2⟩
  | case3 c cs notPair ih =>
      simp only [Bool.and_eq_true, bne_iff_ne] at isBody
      rw [List.mem_cons, not_or]
      exact ⟨Ne.symm isBody.1.1.2, ih isBody.2⟩

theorem toList_quotedText (quote : Char) (body : List Char) :
    (quotedText quote body).toList = quote :: body ++ [quote] := String.toList_ofList

/-- A literal behind an equals sign, as characters. -/
theorem toList_assigned (body : List Char) : ("x = " ++ quotedText '"' body).toList =
    "x = \"".toList ++ (body ++ ['"']) := by
  rw [String.toList_append, toList_quotedText]
  rfl

section

variable {body : List Char} (isBody : isLiteralBody '"' body = true)
include isBody

theorem newline_not_mem_assigned : '\n' ∉ ("x = " ++ quotedText '"' body).toList := by
  have single := newline_not_mem_of_isLiteralBody isBody
  rw [toList_assigned]
  simp [single]

/-- A literal holds no comment, and nothing is trimmed behind its last quote. The scan for comments
knows escapes, other than the tokenizer. -/
theorem stripLineComments_assigned :
    stripLineComments ("x = " ++ quotedText '"' body) = "x = " ++ quotedText '"' body := by
  have start : beforeComment .code ("x = \"".toList ++ (body ++ ['"'])) =
      "x = \"".toList ++ beforeComment (.quoted '"') (body ++ ['"']) := by
    have plain : ∀ c ∈ "x = ".toList, ¬(c = '"' ∨ c = '\'') ∧ c ≠ '-' := by simp
    show beforeComment .code ("x = ".toList ++ '"' :: (body ++ ['"'])) = _
    rw [beforeComment_append plain, beforeComment, if_pos (.inl rfl)]
    rfl
  have whole : beforeComment .code ("x = \"".toList ++ (body ++ ['"'])) =
      "x = \"".toList ++ (body ++ ['"']) := by
    rw [start, beforeComment_literal (by decide) isBody]
    rfl
  have flush : Text.trimEnd ("x = \"".toList ++ (body ++ ['"'])) =
      "x = \"".toList ++ (body ++ ['"']) := by
    rw [← List.append_assoc, Text.trimEnd_front (by decide)]
    rfl
  rw [stripLineComments, Text.splitOn_eq_singleton (newline_not_mem_assigned isBody),
    List.map_singleton, toList_assigned, stripLineComment, whole, flush, ← toList_assigned,
    String.ofList_toList]
  rfl

theorem tokenize_assigned : tokenize ("x = " ++ quotedText '"' body) =
    ofChars ("x = \"".toList ++ (body ++ ['"'])) := by
  have visible : Text.isBlank ("x = " ++ quotedText '"' body).toList = false := by
    rw [toList_assigned, Text.isBlank_append]
    rfl
  rw [tokenize_eq, condensed_line (newline_not_mem_assigned isBody) visible, toList_assigned]

end

/-- The word and the sign in front of a string, with the string that ends at the first quote,
whether it is escaped or not. -/
theorem ofChars_assigned {first : List Char} (absent : '"' ∉ first) (rest : List Char) :
    ofChars ("x = \"".toList ++ (first ++ '"' :: rest)) =
      "x" :: "=" :: quotedText '"' first :: ofChars rest := by
  have string : Cuts ('"' :: first ++ ['"'] ++ rest) (quotedText '"' first :: ofChars rest) :=
    .ofList (.string (.inl rfl) absent) (cuts_ofChars rest)
  have notQuote : '=' = '"' ∨ '=' = '\'' → '=' ∉ ' ' :: ('"' :: first ++ ['"'] ++ rest) :=
    fun isQuote => absurd isQuote (by decide)
  have sign := Cuts.ofList (.mark (not_isWordCharacter (by decide)) (by decide) notQuote)
    (.gap (by decide) string)
  have isWord : isWordCharacter 'x' = true := by decide +kernel
  have word : Form (' ' :: (['='] ++ ' ' :: ('"' :: first ++ ['"'] ++ rest))) ['x'] := by
    refine .run (List.cons_ne_nil 'x' []) (List.forall_mem_singleton.mpr isWord) ?_
    rintro c ⟨⟩
    exact not_isWordCharacter (by decide)
  have cuts := Cuts.ofList word (.gap (by decide) sign)
  rw [List.cons_append, List.append_assoc] at cuts
  exact cuts.ofChars_eq

/-- What is merged behind the string leaves the word, the sign and the string alone. -/
theorem mergeLigatures_assigned (body : List Char) (rest : List String) :
    mergeLigatures ("x" :: "=" :: quotedText '"' body :: rest) =
      "x" :: "=" :: quotedText '"' body :: mergeLigatures rest := by
  have words : ∀ sequence ∈ ligatures, "x" ∉ spelling sequence := by decide
  refine @foldl_mergeSequence_append ligatures ["x", "=", quotedText '"' body] ?_ rest
  intro sequence member rest
  have inert := quotedText_not_mem (.inl rfl) body member
  have apart : ¬["=", quotedText '"' body] <+: spelling sequence := fun starts =>
    inert (starts.subset (by simp))
  show mergeSequence sequence ("x" :: "=" :: quotedText '"' body :: rest) = _
  rw [mergeSequence_inert member (words sequence member), mergeSequence_pair member apart,
    mergeSequence_inert member inert]
  rfl

/-- A literal is cut at its first quote, and what is left of it is cut like code. -/
theorem lex_assigned {body first rest : List Char} (isBody : isLiteralBody '"' body = true)
    (absent : '"' ∉ first) (shape : body ++ ['"'] = first ++ '"' :: rest) :
    lex ("x = " ++ quotedText '"' body) =
      "x" :: "=" :: quotedText '"' first :: mergeLigatures (stripTokenComments (ofChars rest)) := by
  have notHyphen : quotedText '"' first ≠ "-" := by
    intro same
    have start := congrArg (·.toList.head?) same
    rw [toList_quotedText] at start
    exact absurd start (by simp)
  rw [lex, stripLineComments_assigned isBody, tokenize_assigned isBody, shape,
    ofChars_assigned absent, stripTokenComments, stripTokenCommentsFrom_cons (by decide),
    stripTokenCommentsFrom_cons (by decide), stripTokenCommentsFrom_cons notHyphen,
    mergeLigatures_assigned, stripTokenComments]

/-- A literal is one token exactly if it has no escaped quote. -/
theorem lex_assigned_literal_iff {body : List Char} (isBody : isLiteralBody '"' body = true) :
    lex ("x = " ++ quotedText '"' body) = ["x", "=", quotedText '"' body] ↔ '"' ∉ body := by
  constructor
  · intro whole member
    obtain ⟨first, rest, rfl, absent⟩ := List.eq_append_cons_of_mem member
    have cut := lex_assigned isBody absent (List.append_assoc first _ ['"'])
    rw [whole] at cut
    simp only [List.cons.injEq, true_and] at cut
    have lengths := congrArg String.length cut.1
    simp only [quotedText, String.length_ofList, List.length_append, List.length_cons] at lengths
    omega
  · intro absent
    have nothing : mergeLigatures (stripTokenComments (ofChars [])) = [] := by
      rw [ofChars.eq_1]
      simp [stripTokenComments, stripTokenCommentsFrom, mergeLigatures, ligatures, mergeSequence]
    rw [lex_assigned isBody absent rfl, nothing]

/-- A literal with an escaped backslash, an apostrophe, brackets and what looks like comments. -/
theorem rule_literal_whole :
    isLiteralBody '"' "it's \\\\ -- /* (".toList = true ∧
      lex "x = \"it's \\\\ -- /* (\"" = ["x", "=", "\"it's \\\\ -- /* (\""] :=
  have isBody : isLiteralBody '"' "it's \\\\ -- /* (".toList = true := by decide
  ⟨isBody, (lex_assigned_literal_iff isBody).mpr (by decide)⟩

/-- A literal is cut at a quote that is escaped, and its last quote is left over. -/
theorem escaped_quote_ends_literal :
    isLiteralBody '"' "a\\\"b".toList = true ∧
      lex "x = \"a\\\"b\"" = ["x", "=", "\"a\\\"", "b", "\""] := by
  decide +kernel

end Maxscript.Token
