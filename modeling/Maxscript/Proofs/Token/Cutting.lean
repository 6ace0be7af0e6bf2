import Maxscript.Proofs.Token.Unquoted

/-!
# How a text is cut

What a token may look like depends on the text behind it: a word ends where no word character
follows, and a quote is a mark only if it is not closed later. `Form` says so for one token and
`Cuts` for all of them, without saying how the tokens are found. A text is cut in one way only, the
way `ofChars` finds. So what holds of every way to cut a text holds of its tokens: each stands in
the text, and only gaps are lost between them.
-/

namespace Maxscript.Token

open Unicode (isWhiteSpace isWordCharacter)

def spelled (tokens : List String) : List Char := tokens.flatMap String.toList

/-- What is left of a text without the white space that only sets tokens apart. -/
def ungapped (text : List Char) : List Char := text.filter fun c => !isGap c

/-- The forms of a token with a text behind it. -/
inductive Form (rest : List Char) : List Char → Prop
  | string {quote : Char} {body : List Char} (isQuote : quote = '"' ∨ quote = '\'')
      (absent : quote ∉ body) : Form rest (quote :: body ++ [quote])
  | run {word : List Char} (nonempty : word ≠ []) (all : ∀ c ∈ word, isWordCharacter c = true)
      (stops : ∀ c ∈ rest.head?, isWordCharacter c = false) : Form rest word
  | mark {c : Char} (notWord : isWordCharacter c = false) (solid : isGap c = false)
      (unclosed : c = '"' ∨ c = '\'' → c ∉ rest) : Form rest [c]

/-- A text is gaps and tokens, each in a form that it may have there. -/
inductive Cuts : List Char → List String → Prop
  | nil : Cuts [] []
  | gap {c : Char} {text : List Char} {tokens : List String} (gap : isGap c = true)
      (later : Cuts text tokens) : Cuts (c :: text) tokens
  | token {token : String} {rest : List Char} {tokens : List String}
      (form : Form rest token.toList) (later : Cuts rest tokens) :
      Cuts (token.toList ++ rest) (token :: tokens)

theorem Cuts.ofList {chars rest : List Char} {tokens : List String} (form : Form rest chars)
    (later : Cuts rest tokens) : Cuts (chars ++ rest) (String.ofList chars :: tokens) := by
  have spelling : (String.ofList chars).toList = chars := String.toList_ofList
  have cuts := Cuts.token (spelling.symm ▸ form) later
  rwa [spelling] at cuts

theorem isWordCharacter_of_isGap {c : Char} (gap : isGap c = true) : isWordCharacter c = false := by
  rw [isGap, Bool.and_eq_true] at gap
  exact not_isWordCharacter_of_isWhiteSpace gap.1

theorem isGap_iff {c : Char} : isGap c = true ↔ ¬(c = '\n' ∨ !isWhiteSpace c) := by
  simp [isGap, and_comm]

/-! ### Tokens that are found -/

/-- The tokens that are found cut the text. By the recursion of the tokenizer, with one form of
token in each of its branches. -/
theorem cuts_ofChars (cs : List Char) : Cuts cs (ofChars cs) := by
  fun_induction ofChars cs with
  | case1 => exact .nil
  | case2 c cs body rest found _ ih =>
      rw [quoted?] at found
      split at found
      · next isQuote =>
          obtain ⟨rfl, absent⟩ := of_closeQuote? found
          have cuts := Cuts.ofList (.string isQuote absent) ih
          rwa [List.append_assoc, List.cons_append, List.singleton_append] at cuts
      · cases found
  | case3 c cs found word ih =>
      have all : ∀ d ∈ c :: cs.takeWhile isWordCharacter, isWordCharacter d = true :=
        List.forall_mem_cons.mpr ⟨word, fun d member => List.mem_takeWhile_imp member⟩
      have stops : ∀ d ∈ (cs.dropWhile isWordCharacter).head?, isWordCharacter d = false := by
        intro d first
        have head := List.head?_dropWhile_not isWordCharacter cs
        rwa [Option.mem_def.mp first] at head
      have cuts := Cuts.ofList (.run (List.cons_ne_nil _ _) all stops) ih
      rwa [List.cons_append, List.takeWhile_append_dropWhile] at cuts
  | case4 c cs found notWord mark ih =>
      have solid : isGap c = false := Bool.eq_false_iff.mpr fun gap => isGap_iff.mp gap mark
      have unclosed (isQuote : c = '"' ∨ c = '\'') : c ∉ cs := fun closed =>
        not_quote_of_quoted? found ⟨isQuote, closed⟩
      exact Cuts.ofList (.mark (by simpa using notWord) solid unclosed) ih
  | case5 c cs found notWord blank ih => exact .gap (isGap_iff.mpr blank) ih

/-- A token in one of the forms is found. The form says where the token ends, as it depends on the
character behind it. -/
theorem Form.ofChars_append {rest chars : List Char} (form : Form rest chars) :
    ofChars (chars ++ rest) = String.ofList chars :: ofChars rest := by
  cases form with
  | @string quote body isQuote absent =>
      have found : quoted? quote (body ++ quote :: rest) = some (body, rest) := by
        rw [quoted?, if_pos isQuote, closeQuote?_append absent]
      rw [List.cons_append, List.cons_append, List.append_assoc, List.singleton_append, ofChars]
      split
      · next inner after cut =>
          rw [found] at cut
          obtain ⟨rfl, rfl⟩ := Prod.mk.inj (Option.some.inj cut)
          rfl
      · next lost =>
          rw [found] at lost
          cases lost
  | run nonempty all stops =>
      obtain ⟨c, word, rfl⟩ := List.exists_cons_of_ne_nil nonempty
      obtain ⟨first, others⟩ := List.forall_mem_cons.mp all
      have ends : rest.takeWhile isWordCharacter = [] ∧ rest.dropWhile isWordCharacter = rest := by
        cases rest with
        | nil => exact ⟨rfl, rfl⟩
        | cons d rest => simp [stops d rfl]
      rw [List.cons_append, ofChars_word first, List.takeWhile_append_of_pos others,
        List.dropWhile_append_of_pos others, ends.1, ends.2, List.append_nil]
  | @mark c notWord solid unclosed =>
      have unquoted : quoted? c rest = none := by
        rw [quoted?]
        split
        · next isQuote => exact closeQuote?_eq_none_iff.mpr (unclosed isQuote)
        · rfl
      have visible : c = '\n' ∨ !isWhiteSpace c :=
        not_not.mp (mt isGap_iff.mpr (by simp [solid]))
      rw [List.singleton_append, ofChars]
      split
      · next found =>
          rw [unquoted] at found
          cases found
      · rw [if_neg (by simp [notWord]), if_pos visible]

/-- A text is cut in one way only, so to know its tokens it is enough to give some that cut it. -/
theorem Cuts.ofChars_eq {text : List Char} {tokens : List String} (cuts : Cuts text tokens) :
    ofChars text = tokens := by
  induction cuts with
  | nil => exact ofChars.eq_1
  | @gap c text tokens gap _ ih =>
      rw [isGap, Bool.and_eq_true, bne_iff_ne] at gap
      rw [ofChars_blank gap.1, if_neg gap.2, List.nil_append, ih]
  | token form _ ih => rw [form.ofChars_append, ih, String.ofList_toList]

/-! ### Tokens in their place -/

@[simp] theorem ungapped_append (front back : List Char) :
    ungapped (front ++ back) = ungapped front ++ ungapped back := List.filter_append _ _

theorem ungapped_gap {c : Char} (gap : isGap c = true) (text : List Char) :
    ungapped (c :: text) = ungapped text := List.filter_cons_of_neg (by simp [gap])

theorem ungapped_solid {c : Char} (solid : isGap c = false) (text : List Char) :
    ungapped (c :: text) = c :: ungapped text := List.filter_cons_of_pos (by simp [solid])

@[simp] theorem spelled_cons (token : String) (tokens : List String) :
    spelled (token :: tokens) = token.toList ++ spelled tokens := List.flatMap_cons

@[simp] theorem spelled_append (front back : List String) :
    spelled (front ++ back) = spelled front ++ spelled back := List.flatMap_append

/-- Only gaps are lost: without white space, the tokens spell the text. Line breaks are tokens, and
so they are kept. -/
theorem Cuts.ungapped_eq {text : List Char} {tokens : List String} (cuts : Cuts text tokens) :
    ungapped (spelled tokens) = ungapped text := by
  induction cuts with
  | nil => rfl
  | gap gap _ ih => rw [ih, ungapped_gap gap]
  | token form _ ih => rw [spelled_cons, ungapped_append, ungapped_append, ih]

/-- No word goes on behind a token, so two tokens next to each other are never two halves of one
word. -/
theorem Form.apart {rest chars : List Char} (form : Form rest chars) (front : List Char) :
    Apart (front ++ chars) rest := by
  cases form with
  | @string quote body isQuote absent =>
      have notWord : isWordCharacter quote = false := by
        apply not_isWordCharacter
        rcases isQuote with rfl | rfl <;> decide
      rw [← List.append_assoc]
      exact .of_last notWord rest
  | run nonempty all stops =>
      intro _ _ d first _
      exact stops d first
  | mark notWord solid unclosed => exact .of_last notWord rest

/-- Every token stands in the text, behind what is spelled by the tokens before it and in front of
what the tokens after it are cut from. -/
theorem Cuts.exists_place {text : List Char} {before after : List String} {token : String}
    (cuts : Cuts text (before ++ token :: after)) {front : List Char} (apart : Apart front text) :
    ∃ start rest, text = start ++ (token.toList ++ rest) ∧
      ungapped start = ungapped (spelled before) ∧ Form rest token.toList ∧ Cuts rest after ∧
      Apart (front ++ start) (token.toList ++ rest) := by
  generalize shape : before ++ token :: after = tokens at cuts
  induction cuts generalizing before front with
  | nil => exact absurd shape (by simp)
  | @gap c text tokens gap _ ih =>
      obtain ⟨start, rest, rfl, same, form, later, between⟩ :=
        ih (.of_last (isWordCharacter_of_isGap gap) text : Apart (front ++ [c]) text) shape
      refine ⟨c :: start, rest, rfl, ?_, form, later, ?_⟩
      · rw [← same, ungapped_gap gap]
      · rwa [List.append_assoc, List.singleton_append] at between
  | @token first rest tokens form later ih =>
      cases before with
      | nil =>
          obtain ⟨rfl, rfl⟩ := List.cons.inj shape
          exact ⟨[], rest, rfl, rfl, form, later, by rwa [List.append_nil]⟩
      | cons head before =>
          obtain ⟨rfl, others⟩ := List.cons.inj shape
          obtain ⟨start, rest, rfl, same, found, behind, between⟩ := ih (form.apart front) others
          refine ⟨head.toList ++ start, rest, by rw [List.append_assoc], ?_, found, behind, ?_⟩
          · rw [spelled_cons, ungapped_append, ungapped_append, same]
          · rwa [List.append_assoc] at between

/-- Tokens are spelled with the characters of the text, and with no others. -/
theorem Cuts.mem_of_mem_spelled {text : List Char} {tokens : List String} (cuts : Cuts text tokens)
    {c : Char} (member : c ∈ spelled tokens) : c ∈ text := by
  induction cuts with
  | nil => exact member
  | gap _ _ ih => exact List.mem_cons_of_mem _ (ih member)
  | token form _ ih =>
      rw [spelled_cons] at member
      exact List.mem_append.mpr ((List.mem_append.mp member).imp_right ih)

/-! ### Newlines -/

/-- The text that is cut: the lines that are not blank, with newlines between them. -/
def condensed (text : List Char) : List Char :=
  joined ((Text.lines text).filter fun line => !Text.isBlank line)

theorem tokenize_eq (text : String) : tokenize text = ofChars (condensed text.toList) := rfl

/-- A line that is not blank is cut as it is, with the white space at its ends. -/
theorem condensed_line {line : List Char} (single : '\n' ∉ line)
    (visible : Text.isBlank line = false) : condensed line = line := by
  have full : line.isEmpty = false := by
    cases line with
    | nil => cases visible
    | cons c line => rfl
  rw [condensed, Text.lines, Text.splitOn_eq_singleton single, Text.linesOf, full,
    if_neg Bool.false_ne_true, List.filter_cons_of_pos (by simp [visible]), List.filter_nil,
    joined_single]

theorem splitOn_ungapped (text : List Char) :
    Text.splitOn '\n' (ungapped text) = (Text.splitOn '\n' text).map ungapped := by
  induction text with
  | nil => rfl
  | cons c text ih =>
      obtain ⟨first, rest, shape⟩ := List.exists_cons_of_ne_nil (Text.splitOn_ne_nil '\n' text)
      rw [shape, List.map_cons] at ih
      rw [Text.splitOn, shape]
      by_cases newline : c = '\n'
      · subst newline
        rw [if_pos rfl, ungapped_solid (by decide), Text.splitOn, if_pos rfl, ih]
        rfl
      · rw [if_neg newline]
        cases gap : isGap c with
        | true => rw [ungapped_gap gap, ih, List.map_cons, ungapped_gap gap]
        | false =>
            rw [ungapped_solid gap, Text.splitOn, if_neg newline, ih, List.map_cons,
              ungapped_solid gap]

theorem ungapped_eq_nil_iff {line : List Char} (single : '\n' ∉ line) :
    ungapped line = [] ↔ Text.isBlank line = true := by
  rw [ungapped, List.filter_eq_nil_iff, Text.isBlank, List.all_eq_true]
  refine forall₂_congr fun c member => ?_
  have notNewline : c ≠ '\n' := fun same => single (same ▸ member)
  simp [isGap, notNewline]

/-- Blank lines are left out, so there are never two line breaks next to each other among the
tokens. -/
theorem nil_not_mem_splitOn_condensed {text : List Char} (nonempty : condensed text ≠ []) :
    [] ∉ Text.splitOn '\n' (ungapped (condensed text)) := by
  have single : ∀ line ∈ (Text.lines text).filter (fun line => !Text.isBlank line),
      '\n' ∉ line :=
    fun line member => Text.newline_not_mem_of_mem_lines (List.mem_of_mem_filter member)
  have some : (Text.lines text).filter (fun line => !Text.isBlank line) ≠ [] := by
    intro none
    rw [condensed, none] at nonempty
    exact nonempty rfl
  rw [splitOn_ungapped, condensed, splitOn_joined some single]
  intro member
  obtain ⟨line, inside, empty⟩ := List.mem_map.mp member
  have blank := (ungapped_eq_nil_iff (single line inside)).mp empty
  simp [blank] at inside

end Maxscript.Token
