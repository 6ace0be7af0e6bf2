import Mathlib.Data.List.Basic
import Maxscript.Proofs.Text
import Maxscript.Proofs.Token.Lexer

/-!
# What is written first is read first

A text is cut from its front on, so what is written there can be followed through all the stages
from text to tokens, whatever comes behind it: it is no comment, it is cut into tokens of its own,
and these are neither merged with each other nor left out. `Passes` says so for a text and its
tokens, and texts of this kind can be put together. The last of them stands before a bracket, with
which no mark is merged.
-/

namespace Maxscript

namespace Text

theorem trimStart_reverse_ne_nil {c : Char} (visible : Unicode.isWhiteSpace c = false)
    (back : List Char) : trimStart (c :: back).reverse ≠ [] := by
  intro empty
  have kept : (back.reverse ++ [c]).dropWhile Unicode.isWhiteSpace = [] := by
    rw [← List.reverse_cons]
    exact empty
  rw [List.dropWhile_append] at kept
  split at kept
  · simp [visible] at kept
  · simp at kept

/-- Nothing is trimmed in front of a character that can be seen, so a text can be trimmed after
something was put in front of it. -/
theorem trimEnd_front {c : Char} (visible : Unicode.isWhiteSpace c = false)
    (front back : List Char) : trimEnd (front ++ c :: back) = front ++ trimEnd (c :: back) := by
  have shape : (front ++ c :: back).reverse = (c :: back).reverse ++ front.reverse := by simp
  rw [trimEnd, shape, trimStart, List.dropWhile_append, ← trimStart,
    if_neg (by simpa using trimStart_reverse_ne_nil visible back), List.reverse_append,
    List.reverse_reverse, trimEnd]

theorem exists_trimEnd_cons {c : Char} (visible : Unicode.isWhiteSpace c = false)
    (back : List Char) : ∃ kept, trimEnd (c :: back) = c :: kept := by
  obtain ⟨first, kept, shape⟩ := List.exists_cons_of_ne_nil fun empty =>
    trimStart_reverse_ne_nil visible back (List.reverse_eq_nil_iff.mp empty)
  have starts := isPrefix_trimEnd (c :: back)
  rw [trimEnd, shape, List.cons_prefix_cons] at starts
  exact ⟨kept, by rw [trimEnd, shape, starts.1]⟩

theorem dropReturn_front (front : List Char) {back : List Char} (nonempty : back ≠ []) :
    dropReturn (front ++ back) = front ++ dropReturn back := by
  obtain ⟨init, last, rfl⟩ := (List.eq_nil_or_concat' back).resolve_left nonempty
  rw [← List.append_assoc, dropReturn, dropReturn, List.reverse_concat, List.reverse_concat]
  by_cases returns : last = '\r'
  · subst returns
    simp
  · simp [returns]

/-- The first line of a text, with something in front of it. The later lines do not change. -/
theorem lines_front {front : List Char} (single : '\n' ∉ front) {c : Char} (visible : c ≠ '\n')
    (notReturn : c ≠ '\r') (back : List Char) :
    ∃ first rest, lines (c :: back) = (c :: first) :: rest ∧
      lines (front ++ c :: back) = (front ++ c :: first) :: rest := by
  obtain ⟨first, rest, shape⟩ := List.exists_cons_of_ne_nil (splitOn_ne_nil '\n' back)
  have starts : splitOn '\n' (c :: back) = (c :: first) :: rest := by
    rw [splitOn, if_neg visible, shape]
  have whole := splitOn_front single starts
  have alone : dropReturn (c :: first) = c :: dropReturn first ∨ first = [] := by
    by_cases empty : first = []
    · exact .inr empty
    · exact .inl (dropReturn_front [c] empty)
  cases rest with
  | nil =>
      refine ⟨first, [], ?_, ?_⟩
      · rw [lines, starts]
        simp [linesOf]
      · rw [lines, whole]
        simp [linesOf]
  | cons next others =>
      have kept : ∃ tail, dropReturn (c :: first) = c :: tail := by
        rcases alone with more | rfl
        · exact ⟨_, more⟩
        · exact ⟨[], by simp [dropReturn, notReturn]⟩
      obtain ⟨tail, kept⟩ := kept
      refine ⟨tail, linesOf (next :: others), ?_, ?_⟩
      · rw [lines, starts, linesOf, kept]
        simp
      · rw [lines, whole, linesOf, dropReturn_front front (List.cons_ne_nil c first), kept]
        simp

end Text

namespace Token

open Unicode (isWhiteSpace isWordCharacter)

/-! ### Stages -/

/-- The first token is left alone if the sequence does not start with it, and merging goes on behind
it. -/
theorem mergeSequence_cons {sequence token : String} {rest : List String}
    (apart : ¬spelling sequence <+: token :: rest) :
    mergeSequence sequence (token :: rest) = token :: mergeSequence sequence rest := by
  rw [mergeSequence]
  split
  · next empty => exact absurd (empty ▸ List.nil_prefix) apart
  · next mark marks shape =>
      rw [if_neg]
      rintro ⟨rfl, found⟩
      apply apart
      rw [shape, List.prefix_cons_inj]
      exact List.isPrefixOf_iff_prefix.mp found

theorem foldl_mergeSequence_append {sequences front : List String}
    (apart : ∀ sequence ∈ sequences, ∀ rest,
      mergeSequence sequence (front ++ rest) = front ++ mergeSequence sequence rest)
    (rest : List String) :
    sequences.foldl (fun tokens sequence => mergeSequence sequence tokens) (front ++ rest) =
      front ++ sequences.foldl (fun tokens sequence => mergeSequence sequence tokens) rest := by
  induction sequences generalizing rest with
  | nil => rfl
  | cons sequence sequences ih =>
      obtain ⟨here, others⟩ := List.forall_mem_cons.mp apart
      rw [List.foldl_cons, List.foldl_cons, here, ih others]

theorem stripBlockCommentsFrom_append {front : List String} (plain : "/*" ∉ front)
    (rest : List String) :
    stripBlockCommentsFrom false (front ++ rest) = front ++ stripBlockCommentsFrom false rest := by
  induction front with
  | nil => rfl
  | cons token front ih =>
      rw [List.mem_cons, not_or] at plain
      rw [List.cons_append, stripBlockCommentsFrom]
      simp only [if_neg (Ne.symm plain.1), ih plain.2, List.cons_append]

theorem ofChars_mark {c : Char} (notQuote : ¬(c = '"' ∨ c = '\''))
    (notWord : isWordCharacter c = false) (visible : isWhiteSpace c = false) (cs : List Char) :
    ofChars (c :: cs) = String.ofList [c] :: ofChars cs := by
  have unquoted : quoted? c cs = none := if_neg notQuote
  rw [ofChars]
  split
  · next found =>
      rw [unquoted] at found
      cases found
  · rw [if_neg (by simp [notWord]), if_pos (.inr (by simp [visible]))]

/-- How a token of the text is spelled when it is read. -/
def respelled (registry : Registry) (token : String) : String :=
  let literal := (literal? token).getD token
  if isWord literal then (registry.rename? literal).getD literal else literal

/-! ### Texts that pass -/

/-- The text is cut into the tokens, whatever follows, and the tokens stay as they are until they
are respelled. -/
structure Passes (text : List Char) (tokens : List String) : Prop where
  single : '\n' ∉ text
  code : ∀ rest, beforeComment .code (text ++ rest) = text ++ beforeComment .code rest
  cut : ∀ rest, ofChars (text ++ rest) = tokens ++ ofChars rest
  dashes : ∀ rest, stripTokenCommentsFrom false (tokens ++ rest) =
    tokens ++ stripTokenCommentsFrom false rest
  merged : ∀ sequence ∈ ligatures, ∀ rest,
    mergeSequence sequence (tokens ++ rest) = tokens ++ mergeSequence sequence rest
  plain : "/*" ∉ tokens
  unqualified : ∀ token ∈ tokens, isQualifier token = false

theorem Passes.nil : Passes [] [] where
  single := List.not_mem_nil
  code _ := rfl
  cut _ := rfl
  dashes _ := rfl
  merged _ _ _ := rfl
  plain := List.not_mem_nil
  unqualified := List.forall_mem_nil _

/-- Texts that pass one after the other pass together. So a text is taken apart from the front, one
token at a time. -/
theorem Passes.append {first second : List Char} {front back : List String}
    (one : Passes first front) (two : Passes second back) :
    Passes (first ++ second) (front ++ back) where
  single member := (List.mem_append.mp member).elim one.single two.single
  code rest := by rw [List.append_assoc, one.code, two.code, List.append_assoc]
  cut rest := by rw [List.append_assoc, one.cut, two.cut, List.append_assoc]
  dashes rest := by rw [List.append_assoc, one.dashes, two.dashes, List.append_assoc]
  merged sequence member rest := by
    rw [List.append_assoc, one.merged sequence member, two.merged sequence member,
      List.append_assoc]
  plain member := (List.mem_append.mp member).elim one.plain two.plain
  unqualified token member :=
    (List.mem_append.mp member).elim (one.unqualified token) (two.unqualified token)

/-- The text stands before a bracket. Its tokens may be merged with each other, and not with the
bracket. -/
structure Opens (text : List Char) (marks tokens : List String) : Prop where
  single : '\n' ∉ text
  code : ∀ rest, beforeComment .code (text ++ rest) = text ++ beforeComment .code rest
  cut : ∀ rest, ofChars (text ++ rest) = marks ++ ofChars rest
  dashes : ∀ rest, stripTokenCommentsFrom false (marks ++ "(" :: rest) =
    marks ++ stripTokenCommentsFrom false ("(" :: rest)
  merged : ∀ rest, mergeLigatures (marks ++ "(" :: rest) = tokens ++ mergeLigatures ("(" :: rest)
  plain : "/*" ∉ tokens
  unqualified : ∀ token ∈ tokens, isQualifier token = false

theorem Passes.opens {first second : List Char} {front marks tokens : List String}
    (passes : Passes first front) (opens : Opens second marks tokens) :
    Opens (first ++ second) (front ++ marks) (front ++ tokens) where
  single member := (List.mem_append.mp member).elim passes.single opens.single
  code rest := by rw [List.append_assoc, passes.code, opens.code, List.append_assoc]
  cut rest := by rw [List.append_assoc, passes.cut, opens.cut, List.append_assoc]
  dashes rest := by rw [List.append_assoc, passes.dashes, opens.dashes, List.append_assoc]
  merged rest := by
    rw [List.append_assoc, List.append_assoc, ← opens.merged]
    exact foldl_mergeSequence_append passes.merged _
  plain member := (List.mem_append.mp member).elim passes.plain opens.plain
  unqualified token member :=
    (List.mem_append.mp member).elim (passes.unqualified token) (opens.unqualified token)

/-! ### Words, strings and marks -/

def otherCharacters : List Char := "\n\"'-+*.:= ".toList

theorem not_isWordCharacter {c : Char} (member : c ∈ otherCharacters) :
    isWordCharacter c = false := by
  have all : (otherCharacters.all fun c => !isWordCharacter c) = true := by decide +kernel
  simpa using List.all_eq_true.mp all c member

def isOperatorMark (c : Char) : Bool := !isWordCharacter c && c != '"' && c != '\''

theorem isOperatorMark_of_mem {sequence : String} (member : sequence ∈ ligatures) {c : Char}
    (inside : c ∈ sequence.toList) : isOperatorMark c = true := by
  have checked : (ligatures.all fun sequence => sequence.toList.all isOperatorMark) = true := by
    decide +kernel
  exact List.all_eq_true.mp (List.all_eq_true.mp checked sequence member) c inside

theorem two_le_length_spelling {sequence : String} (member : sequence ∈ ligatures) :
    2 ≤ (spelling sequence).length := by
  have checked : ∀ sequence ∈ ligatures, 2 ≤ (spelling sequence).length := by decide
  exact checked sequence member

/-- A token that an operator does not start with is not merged. -/
theorem mergeSequence_head {sequence token : String} (member : sequence ∈ ligatures)
    (other : (spelling sequence).head? ≠ some token) (rest : List String) :
    mergeSequence sequence (token :: rest) = token :: mergeSequence sequence rest := by
  apply mergeSequence_cons
  intro starts
  have long := two_le_length_spelling member
  cases shape : spelling sequence with
  | nil => simp [shape] at long
  | cons mark marks =>
      rw [shape, List.cons_prefix_cons] at starts
      rw [shape, starts.1] at other
      exact other rfl

theorem mergeSequence_inert {sequence token : String} (member : sequence ∈ ligatures)
    (inert : token ∉ spelling sequence) (rest : List String) :
    mergeSequence sequence (token :: rest) = token :: mergeSequence sequence rest :=
  mergeSequence_head member (fun first => inert (List.mem_of_head? first)) rest

/-- A mark is not merged if no operator starts with it and the token after it, since every operator
has two marks at least. -/
theorem mergeSequence_pair {sequence token next : String} (member : sequence ∈ ligatures)
    (apart : ¬[token, next] <+: spelling sequence) (rest : List String) :
    mergeSequence sequence (token :: next :: rest) =
      token :: mergeSequence sequence (next :: rest) := by
  apply mergeSequence_cons
  intro starts
  apply apart
  have long := two_le_length_spelling member
  exact List.prefix_of_prefix_length_le (List.prefix_append [token, next] rest) starts long

theorem not_mem_spelling {token : String} {c : Char} {cs : List Char}
    (shape : token.toList = c :: cs) (notMark : isOperatorMark c = false) {sequence : String}
    (member : sequence ∈ ligatures) : token ∉ spelling sequence := by
  intro spelled
  obtain ⟨mark, inside, rfl⟩ := List.mem_map.mp spelled
  rw [String.toList_ofList, List.cons.injEq] at shape
  rw [← shape.1, isOperatorMark_of_mem member inside] at notMark
  cases notMark

theorem beforeComment_mark {c : Char} (notQuote : ¬(c = '"' ∨ c = '\'')) (notDash : c ≠ '-')
    (cs : List Char) : beforeComment .code (c :: cs) = c :: beforeComment .code cs := by
  rw [beforeComment, if_neg notQuote, if_neg fun dashes => notDash dashes.1]

/-- A comment starts with a hyphen that is not in a string. What has neither hyphens nor quotes is
kept whole, and what is behind it is code. -/
theorem beforeComment_append {front : List Char}
    (plain : ∀ c ∈ front, ¬(c = '"' ∨ c = '\'') ∧ c ≠ '-') (rest : List Char) :
    beforeComment .code (front ++ rest) = front ++ beforeComment .code rest := by
  induction front with
  | nil => rfl
  | cons c front ih =>
      obtain ⟨⟨notQuote, notDash⟩, others⟩ := List.forall_mem_cons.mp plain
      rw [List.cons_append, beforeComment_mark notQuote notDash, ih others, List.cons_append]

/-- A run of word characters that does not qualify a variable. -/
structure IsRun (text : String) : Prop where
  nonempty : text ≠ ""
  run : text.toList.all isWordCharacter = true
  unqualified : isQualifier text = false

namespace IsRun

variable {word : String} (isRun : IsRun word)
include isRun

theorem exists_cons : ∃ c cs, word.toList = c :: cs ∧ isWordCharacter c = true ∧
    cs.all isWordCharacter = true := by
  obtain ⟨c, cs, shape⟩ := List.exists_cons_of_ne_nil fun empty =>
    isRun.nonempty (String.toList_eq_nil_iff.mp empty)
  have run := isRun.run
  rw [shape, List.all_cons, Bool.and_eq_true] at run
  exact ⟨c, cs, shape, run⟩

theorem not_mem {c : Char} (other : c ∈ otherCharacters) : c ∉ word.toList := by
  intro member
  have isWord := List.all_eq_true.mp isRun.run c member
  rw [not_isWordCharacter other] at isWord
  cases isWord

theorem ne_of_mem {token : String} {c : Char} (inside : c ∈ token.toList)
    (other : c ∈ otherCharacters) : word ≠ token := by
  rintro rfl
  exact isRun.not_mem other inside

theorem code (rest : List Char) :
    beforeComment .code (word.toList ++ rest) = word.toList ++ beforeComment .code rest := by
  apply beforeComment_append
  intro c member
  have ne {other : Char} (mark : other ∈ otherCharacters) : c ≠ other := by
    rintro rfl
    exact isRun.not_mem mark member
  exact ⟨fun quote => quote.elim (ne (by decide)) (ne (by decide)), ne (by decide)⟩

theorem cut {next : Char} (stops : isWordCharacter next = false) (rest : List Char) :
    ofChars (word.toList ++ next :: rest) = word :: ofChars (next :: rest) := by
  obtain ⟨c, cs, shape, isWord, others⟩ := isRun.exists_cons
  have unquoted : quoted? c (cs ++ next :: rest) = none := by
    apply if_neg
    intro quote
    have other : c ∈ otherCharacters := by rcases quote with rfl | rfl <;> decide
    rw [not_isWordCharacter other] at isWord
    cases isWord
  have all := List.all_eq_true.mp others
  rw [shape, List.cons_append, ofChars]
  split
  · next found =>
      rw [unquoted] at found
      cases found
  · rw [if_pos isWord, List.takeWhile_append_of_pos all, List.dropWhile_append_of_pos all,
      List.takeWhile_cons_of_neg (by simp [stops]), List.dropWhile_cons_of_neg (by simp [stops]),
      List.append_nil, ← shape, String.ofList_toList]

theorem dashes (rest : List String) :
    stripTokenCommentsFrom false (word :: rest) = word :: stripTokenCommentsFrom false rest := by
  have notDash : word ≠ "-" := isRun.ne_of_mem (by decide : '-' ∈ "-".toList) (by decide)
  simp [stripTokenCommentsFrom, notDash]

theorem inert {sequence : String} (member : sequence ∈ ligatures) : word ∉ spelling sequence := by
  obtain ⟨c, cs, shape, isWord, -⟩ := isRun.exists_cons
  exact not_mem_spelling shape (by simp [isOperatorMark, isWord]) member

theorem apart (mark : String) :
    ∀ sequence ∈ ligatures, ¬[mark, word] <+: spelling sequence :=
  fun _ member starts => isRun.inert member (starts.subset (by simp))

end IsRun

/-- A word ends where the next character belongs to no word. -/
theorem Passes.word {word : String} (isRun : IsRun word) {next : Char} {text : List Char}
    {tokens : List String} (stops : isWordCharacter next = false)
    (passes : Passes (next :: text) tokens) :
    Passes (word.toList ++ next :: text) (word :: tokens) where
  single member := (List.mem_append.mp member).elim
    (isRun.not_mem (by decide)) passes.single
  code rest := by rw [List.append_assoc, isRun.code, passes.code, List.append_assoc]
  cut rest := by
    rw [List.append_assoc, List.cons_append, isRun.cut stops, ← List.cons_append, passes.cut,
      List.cons_append]
  dashes rest := by rw [List.cons_append, isRun.dashes, passes.dashes, List.cons_append]
  merged sequence member rest := by
    rw [List.cons_append, mergeSequence_inert member (isRun.inert member),
      passes.merged sequence member, List.cons_append]
  plain member := (List.mem_cons.mp member).elim
    (fun same => isRun.ne_of_mem (by decide : '*' ∈ "/*".toList) (by decide) same.symm)
    passes.plain
  unqualified := List.forall_mem_cons.mpr ⟨isRun.unqualified, passes.unqualified⟩

theorem stripTokenCommentsFrom_cons {token : String} (notDash : token ≠ "-")
    (rest : List String) :
    stripTokenCommentsFrom false (token :: rest) =
      token :: stripTokenCommentsFrom false rest := by
  simp [stripTokenCommentsFrom, notDash]

/-- A mark that is no hyphen and starts no operator with the token after it. -/
theorem Passes.mark {c : Char} {text : List Char} {next : String} {tokens : List String}
    (notQuote : ¬(c = '"' ∨ c = '\'')) (notDash : c ≠ '-') (notWord : isWordCharacter c = false)
    (visible : isWhiteSpace c = false) (unqualified : isQualifier (String.ofList [c]) = false)
    (apart : ∀ sequence ∈ ligatures, ¬[String.ofList [c], next] <+: spelling sequence)
    (passes : Passes text (next :: tokens)) :
    Passes (c :: text) (String.ofList [c] :: next :: tokens) where
  single member := by
    rcases List.mem_cons.mp member with rfl | inside
    · exact absurd visible (by decide)
    · exact passes.single inside
  code rest := by
    rw [List.cons_append, beforeComment_mark notQuote notDash, passes.code, List.cons_append]
  cut rest := by
    rw [List.cons_append, ofChars_mark notQuote notWord visible, passes.cut]
    rfl
  dashes rest := by
    have single : String.ofList [c] ≠ "-" := by
      intro same
      exact notDash (List.cons.inj (String.ofList_inj.mp same)).1
    rw [List.cons_append, stripTokenCommentsFrom_cons single, passes.dashes]
    rfl
  merged sequence member rest := by
    rw [List.cons_append, List.cons_append, mergeSequence_pair member (apart sequence member),
      ← List.cons_append, passes.merged sequence member]
    rfl
  plain member := by
    rcases List.mem_cons.mp member with same | inside
    · have length : "/*".toList.length = [c].length := by rw [same, String.toList_ofList]
      exact absurd length (by simp)
    · exact passes.plain inside
  unqualified := List.forall_mem_cons.mpr ⟨unqualified, passes.unqualified⟩

/-- A single hyphen is no comment, neither in the text nor among the tokens, where the next one must
not be a hyphen either. -/
theorem Passes.hyphen {next : Char} {text : List Char} {token : String} {tokens : List String}
    (single : next ≠ '-') (notDash : token ≠ "-")
    (apart : ∀ sequence ∈ ligatures, ¬["-", token] <+: spelling sequence)
    (passes : Passes (next :: text) (token :: tokens)) :
    Passes ('-' :: next :: text) ("-" :: token :: tokens) where
  single member := (List.mem_cons.mp member).elim (by decide) passes.single
  code rest := by
    have notComment : ¬('-' = '-' ∧ (next :: text ++ rest).head? = some '-') :=
      fun found => single (Option.some.inj found.2)
    rw [List.cons_append, beforeComment, if_neg (by decide), if_neg notComment, passes.code]
    rfl
  cut rest := by
    rw [List.cons_append, ofChars_mark (by decide) (not_isWordCharacter (by decide)) (by decide),
      passes.cut]
    rfl
  dashes rest := by
    have kept := passes.dashes rest
    rw [List.cons_append] at kept
    rw [List.cons_append, List.cons_append, stripTokenCommentsFrom]
    simp [notDash, kept]
  merged sequence member rest := by
    rw [List.cons_append, List.cons_append, mergeSequence_pair member (apart sequence member),
      ← List.cons_append, passes.merged sequence member]
    rfl
  plain member := (List.mem_cons.mp member).elim (by decide) passes.plain
  unqualified := List.forall_mem_cons.mpr ⟨by decide, passes.unqualified⟩

theorem Passes.blank {text : List Char} {tokens : List String} (passes : Passes text tokens) :
    Passes (' ' :: text) tokens where
  single member := (List.mem_cons.mp member).elim (by decide) passes.single
  code rest := by
    rw [List.cons_append, beforeComment_mark (by decide) (by decide), passes.code,
      List.cons_append]
  cut rest := by
    have unquoted : quoted? ' ' (text ++ rest) = none := if_neg (by decide)
    have notWord : isWordCharacter ' ' = false := not_isWordCharacter (by decide)
    rw [List.cons_append, ofChars]
    split
    · next found =>
        rw [unquoted] at found
        cases found
    · rw [if_neg (by simp [notWord]), if_neg (by decide), passes.cut]
  dashes := passes.dashes
  merged := passes.merged
  plain := passes.plain
  unqualified := passes.unqualified

/-- The characters between two quotes: a backslash stands before another character, and the quote
itself does not occur. -/
def isStringBody (quote : Char) : List Char → Bool
  | [] => true
  | '\\' :: c :: cs => c != quote && c != '\n' && isStringBody quote cs
  | c :: cs => c != quote && c != '\n' && c != '\\' && isStringBody quote cs

/-- The characters between the quotes of a literal: a backslash stands before another character of
the line, which may be the quote, and elsewhere the quote does not occur. -/
def isLiteralBody (quote : Char) : List Char → Bool
  | [] => true
  | '\\' :: c :: cs => c != '\n' && isLiteralBody quote cs
  | c :: cs => c != quote && c != '\n' && c != '\\' && isLiteralBody quote cs

section

variable {quote : Char} {body : List Char}

theorem isLiteralBody_of_isStringBody (isBody : isStringBody quote body = true) :
    isLiteralBody quote body = true := by
  fun_induction isStringBody quote body with
  | case1 => rfl
  | case2 c cs ih =>
      simp only [Bool.and_eq_true] at isBody
      rw [isLiteralBody, isBody.1.2, ih isBody.2]
      rfl
  | case3 c cs notPair ih =>
      simp only [Bool.and_eq_true] at isBody
      rw [isLiteralBody.eq_3 _ _ _ notPair, isBody.1.1.1, isBody.1.1.2, isBody.1.2, ih isBody.2]
      rfl

theorem not_mem_of_isStringBody (isBody : isStringBody quote body = true) {c : Char}
    (barred : c = quote ∨ c = '\n') (notEscape : c ≠ '\\') : c ∉ body := by
  fun_induction isStringBody quote body with
  | case1 => exact List.not_mem_nil
  | case2 d cs ih =>
      simp only [Bool.and_eq_true, bne_iff_ne] at isBody
      simp only [List.mem_cons, not_or]
      refine ⟨notEscape, ?_, ih isBody.2⟩
      rintro rfl
      exact barred.elim isBody.1.1 isBody.1.2
  | case3 d cs notPair ih =>
      simp only [Bool.and_eq_true, bne_iff_ne] at isBody
      rw [List.mem_cons, not_or]
      refine ⟨?_, ih isBody.2⟩
      rintro rfl
      exact barred.elim isBody.1.1.1 isBody.1.1.2

theorem beforeComment_literal (notEscape : quote ≠ '\\')
    (isBody : isLiteralBody quote body = true) (rest : List Char) :
    beforeComment (.quoted quote) (body ++ quote :: rest) =
      body ++ quote :: beforeComment .code rest := by
  fun_induction isLiteralBody quote body with
  | case1 => rw [List.nil_append, beforeComment, if_neg notEscape, if_pos rfl, List.nil_append]
  | case2 c cs ih =>
      rw [Bool.and_eq_true] at isBody
      rw [List.cons_append, List.cons_append, beforeComment, if_pos rfl, beforeComment,
        ih isBody.2]
      rfl
  | case3 c cs notPair ih =>
      simp only [Bool.and_eq_true, bne_iff_ne] at isBody
      rw [List.cons_append, beforeComment, if_neg isBody.1.2, if_neg isBody.1.1.1, ih isBody.2]
      rfl

theorem closeQuote?_append (absent : quote ∉ body) (rest : List Char) :
    closeQuote? quote (body ++ quote :: rest) = some (body, rest) := by
  induction body with
  | nil => simp [closeQuote?]
  | cons c body ih =>
      rw [List.mem_cons, not_or] at absent
      rw [List.cons_append, closeQuote?, if_neg (Ne.symm absent.1), ih absent.2]
      rfl

def quotedText (quote : Char) (body : List Char) : String :=
  String.ofList (quote :: body ++ [quote])

theorem head?_foldCase_quotedText (isQuote : quote = '"' ∨ quote = '\'') (body : List Char) :
    (Text.foldCase (quotedText quote body)).toList.head? = some quote := by
  have small : quote.toLower = quote := by rcases isQuote with rfl | rfl <;> decide
  simp [Text.foldCase, quotedText, small]

theorem isQualifier_quotedText (isQuote : quote = '"' ∨ quote = '\'') (body : List Char) :
    isQualifier (quotedText quote body) = false := by
  have starts := head?_foldCase_quotedText isQuote body
  have others : ∀ word ∈ qualifiers, word.toList.head? ≠ some quote := by
    rcases isQuote with rfl | rfl <;> decide
  rw [isQualifier, Bool.eq_false_iff]
  intro found
  exact others _ (List.contains_iff_mem.mp found) starts

theorem literal?_quotedText (isQuote : quote = '"' ∨ quote = '\'') (body : List Char) :
    literal? (quotedText quote body) = none := by
  have starts := head?_foldCase_quotedText isQuote body
  have others : ∀ entry ∈ literals, entry.1.toList.head? ≠ some quote := by
    rcases isQuote with rfl | rfl <;> decide
  rw [literal?, List.lookup_eq_none_iff]
  intro entry member
  rw [bne_iff_ne]
  intro same
  exact others entry member (same ▸ starts)

theorem quotedText_not_mem (isQuote : quote = '"' ∨ quote = '\'') (body : List Char)
    {sequence : String} (member : sequence ∈ ligatures) :
    quotedText quote body ∉ spelling sequence := by
  have shape : (quotedText quote body).toList = quote :: (body ++ [quote]) := by
    simp [quotedText]
  have notMark : isOperatorMark quote = false := by
    rcases isQuote with rfl | rfl <;> simp [isOperatorMark]
  exact not_mem_spelling shape notMark member

/-- A string is one token, and what is in it is neither cut nor merged nor taken for a comment. -/
theorem Passes.quoted (isQuote : quote = '"' ∨ quote = '\'')
    (isBody : isStringBody quote body = true) {text : List Char} {tokens : List String}
    (passes : Passes text tokens) :
    Passes ((quotedText quote body).toList ++ text) (quotedText quote body :: tokens) := by
  have notEscape : quote ≠ '\\' := by rcases isQuote with rfl | rfl <;> decide
  have shape : (quotedText quote body).toList = quote :: (body ++ [quote]) := by
    simp [quotedText]
  have ne {token : String} (other : token.toList.head? ≠ some quote) :
      quotedText quote body ≠ token := by
    rintro rfl
    rw [shape] at other
    exact other rfl
  have absent : quote ∉ body := not_mem_of_isStringBody isBody (.inl rfl) notEscape
  constructor
  · have notNewline : '\n' ≠ quote := by rcases isQuote with rfl | rfl <;> decide
    have single : '\n' ∉ body := not_mem_of_isStringBody isBody (.inr rfl) (by decide)
    simp [shape, notNewline, single, passes.single]
  · intro rest
    have scanned :=
      beforeComment_literal notEscape (isLiteralBody_of_isStringBody isBody) (text ++ rest)
    rw [passes.code] at scanned
    simp only [shape, List.cons_append, List.append_assoc, List.nil_append]
    rw [beforeComment, if_pos isQuote, scanned]
  · intro rest
    have found : quoted? quote (body ++ quote :: (text ++ rest)) = some (body, text ++ rest) := by
      rw [quoted?, if_pos isQuote, closeQuote?_append absent]
    simp only [shape, List.cons_append, List.append_assoc, List.nil_append]
    rw [ofChars]
    split
    · next inner after cut =>
        rw [found] at cut
        obtain ⟨rfl, rfl⟩ := Prod.mk.inj (Option.some.inj cut)
        rw [passes.cut]
        rfl
    · next lost =>
        rw [found] at lost
        cases lost
  · intro rest
    have notDash : quotedText quote body ≠ "-" := by
      apply ne
      rcases isQuote with rfl | rfl <;> decide
    rw [List.cons_append, stripTokenCommentsFrom_cons notDash, passes.dashes, List.cons_append]
  · intro sequence member rest
    rw [List.cons_append, mergeSequence_inert member (quotedText_not_mem isQuote body member),
      passes.merged sequence member, List.cons_append]
  · intro member
    rcases List.mem_cons.mp member with same | inside
    · refine ne ?_ same.symm
      rcases isQuote with rfl | rfl <;> decide
    · exact passes.plain inside
  · rw [List.forall_mem_cons]
    exact ⟨isQualifier_quotedText isQuote body, passes.unqualified⟩

end

/-! ### Before a bracket -/

theorem beforeComment_bracket (cs : List Char) :
    beforeComment .code ('(' :: cs) = '(' :: beforeComment .code cs := by
  rw [beforeComment, if_neg (by decide), if_neg (by simp)]

theorem splitOn_bracket {cs first : List Char} {rest : List (List Char)}
    (shape : Text.splitOn '\n' cs = first :: rest) :
    Text.splitOn '\n' ('(' :: cs) = ('(' :: first) :: rest :=
  Text.splitOn_front (by decide : '\n' ∉ ['(']) shape

/-- A line that starts with a bracket still does when its comment is gone. -/
theorem exists_stripLineComments_bracket (back : String) :
    ∃ kept, stripLineComments ("(" ++ back) = "(" ++ kept := by
  obtain ⟨first, rest, shape⟩ :=
    List.exists_cons_of_ne_nil (Text.splitOn_ne_nil '\n' back.toList)
  obtain ⟨kept, stripped⟩ :=
    Text.exists_trimEnd_cons (by decide : isWhiteSpace '(' = false) (beforeComment .code first)
  have opened : ("(" ++ back).toList = '(' :: back.toList := by simp
  have start : String.ofList ('(' :: kept) = "(" ++ String.ofList kept := by
    rw [← List.singleton_append, String.ofList_append]
  rw [stripLineComments, opened, splitOn_bracket shape, List.map_cons, stripLineComment,
    beforeComment_bracket, stripped, start, Text.joinWith_front]
  exact ⟨_, rfl⟩

theorem exists_tokenize_bracket (back : String) :
    ∃ rest, tokenize ("(" ++ back) = "(" :: rest := by
  obtain ⟨first, rest, alone, -⟩ := Text.lines_front (List.not_mem_nil : '\n' ∉ [])
    (by decide : '(' ≠ '\n') (by decide) back.toList
  have opened : ("(" ++ back).toList = '(' :: back.toList := by simp
  have visible : isWhiteSpace '(' = false := by decide
  have shown : Text.isBlank ('(' :: first) = false := by simp [Text.isBlank, visible]
  have start : String.ofList ('(' :: first) = "(" ++ String.ofList first := by
    rw [← List.singleton_append, String.ofList_append]
  rw [tokenize, opened, alone]
  simp only [List.filter_cons, shown, Bool.not_false, if_true, List.map_cons, start]
  rw [Text.joinWith_front, String.toList_append]
  exact ⟨_, ofChars_mark (by decide) (by decide) (by decide) _⟩

theorem mergeSequence_bracket {sequence : String} (member : sequence ∈ ligatures)
    (rest : List String) :
    mergeSequence sequence ("(" :: rest) = "(" :: mergeSequence sequence rest := by
  have others : ∀ sequence ∈ ligatures, (spelling sequence).head? ≠ some "(" := by decide
  exact mergeSequence_head member (others sequence member) rest

theorem mergeLigatures_bracket (rest : List String) :
    mergeLigatures ("(" :: rest) = "(" :: mergeLigatures rest :=
  @foldl_mergeSequence_append ligatures ["("] (fun _ => mergeSequence_bracket) rest

theorem mergeSequence_equals {sequence : String} (member : sequence ∈ ligatures)
    (rest : List String) :
    mergeSequence sequence ("=" :: "(" :: rest) = "=" :: "(" :: mergeSequence sequence rest := by
  have apart : ∀ sequence ∈ ligatures, ¬["=", "("] <+: spelling sequence := by decide
  rw [mergeSequence_pair member (apart sequence member), mergeSequence_bracket member]

/-- The sign before the body of a function. -/
theorem opens_equals : Opens "= ".toList ["="] ["="] where
  single := by decide
  code rest := by
    show beforeComment .code ('=' :: ' ' :: rest) = '=' :: ' ' :: beforeComment .code rest
    rw [beforeComment_mark (by decide) (by decide), beforeComment_mark (by decide) (by decide)]
  cut rest := by
    show ofChars ('=' :: ' ' :: rest) = "=" :: ofChars rest
    have blank := Passes.nil.blank.cut rest
    rw [ofChars_mark (by decide) (not_isWordCharacter (by decide)) (by decide)]
    exact congrArg ("=" :: ·) blank
  dashes rest := stripTokenCommentsFrom_cons (by decide) _
  merged rest := by
    rw [mergeLigatures_bracket]
    exact @foldl_mergeSequence_append ligatures ["=", "("] (fun _ => mergeSequence_equals) rest
  plain := by decide
  unqualified := by decide

/-- The operators before `:=` leave its marks alone, and those after it find one token. -/
theorem mergeLigatures_colon_equals (rest : List String) :
    mergeLigatures (":" :: "=" :: "(" :: rest) = ":=" :: mergeLigatures ("(" :: rest) := by
  have order : ligatures = ligatures.take 20 ++ ":=" :: ligatures.drop 21 := rfl
  have before : ∀ sequence ∈ ligatures.take 20, ¬[":", "="] <+: spelling sequence := by decide
  have after : ∀ sequence ∈ ligatures, (spelling sequence).head? ≠ some ":=" := by decide
  have early : ∀ sequence ∈ ligatures.take 20, ∀ rest, mergeSequence sequence
      ([":", "=", "("] ++ rest) = [":", "=", "("] ++ mergeSequence sequence rest := by
    intro sequence member rest
    have inside := List.mem_of_mem_take member
    show mergeSequence sequence (":" :: "=" :: "(" :: rest) = _
    rw [mergeSequence_pair inside (before sequence member), mergeSequence_equals inside]
    rfl
  have late : ∀ sequence ∈ ligatures.drop 21, ∀ rest, mergeSequence sequence
      ([":=", "("] ++ rest) = [":=", "("] ++ mergeSequence sequence rest := by
    intro sequence member rest
    have inside := List.mem_of_mem_drop member
    show mergeSequence sequence (":=" :: "(" :: rest) = _
    rw [mergeSequence_head inside (after sequence inside), mergeSequence_bracket inside]
    rfl
  have merges (rest : List String) : mergeSequence ":=" ([":", "=", "("] ++ rest) =
      [":=", "("] ++ mergeSequence ":=" rest := by
    show mergeSequence ":=" (":" :: "=" :: "(" :: rest) = _
    rw [mergeSequence]
    show ":=" :: mergeSequence ":=" ("(" :: rest) = _
    rw [mergeSequence_bracket (by decide)]
    rfl
  have run : mergeLigatures ([":", "=", "("] ++ rest) = [":=", "("] ++ mergeLigatures rest := by
    rw [mergeLigatures, mergeLigatures, order, List.foldl_append, List.foldl_append,
      List.foldl_cons, List.foldl_cons, foldl_mergeSequence_append early, merges,
      foldl_mergeSequence_append late]
  rw [mergeLigatures_bracket]
  exact run

/-- A colon that has nothing but a blank between it and the sign is merged with it. -/
theorem opens_colon_equals : Opens ": = ".toList [":", "="] [":="] where
  single := by decide
  code rest := by
    show beforeComment .code (':' :: ' ' :: ("= ".toList ++ rest)) = _
    rw [beforeComment_mark (by decide) (by decide), beforeComment_mark (by decide) (by decide),
      opens_equals.code]
    rfl
  cut rest := by
    show ofChars (':' :: ' ' :: ("= ".toList ++ rest)) = _
    have blank := Passes.nil.blank.cut ("= ".toList ++ rest)
    rw [ofChars_mark (by decide) (not_isWordCharacter (by decide)) (by decide)]
    refine (congrArg (":" :: ·) blank).trans ?_
    rw [List.nil_append, opens_equals.cut]
    rfl
  dashes rest := by
    rw [List.cons_append, stripTokenCommentsFrom_cons (by decide), opens_equals.dashes]
    rfl
  merged := mergeLigatures_colon_equals
  plain := by decide
  unqualified := by decide

/-- A word before such a text. -/
theorem Opens.word {word : String} (isRun : IsRun word) {next : Char} {text : List Char}
    {marks tokens : List String} (stops : isWordCharacter next = false)
    (opens : Opens (next :: text) marks tokens) :
    Opens (word.toList ++ next :: text) (word :: marks) (word :: tokens) where
  single member := (List.mem_append.mp member).elim
    (isRun.not_mem (by decide)) opens.single
  code rest := by rw [List.append_assoc, isRun.code, opens.code, List.append_assoc]
  cut rest := by
    rw [List.append_assoc, List.cons_append, isRun.cut stops, ← List.cons_append, opens.cut,
      List.cons_append]
  dashes rest := by rw [List.cons_append, isRun.dashes, opens.dashes, List.cons_append]
  merged rest := by
    have front : ∀ sequence ∈ ligatures, ∀ rest, mergeSequence sequence ([word] ++ rest) =
        [word] ++ mergeSequence sequence rest :=
      fun sequence member rest => mergeSequence_inert member (isRun.inert member) rest
    have kept := foldl_mergeSequence_append front (marks ++ "(" :: rest)
    exact kept.trans (congrArg (word :: ·) (opens.merged rest))
  plain member := (List.mem_cons.mp member).elim
    (fun same => isRun.ne_of_mem (by decide : '*' ∈ "/*".toList) (by decide) same.symm)
    opens.plain
  unqualified := List.forall_mem_cons.mpr ⟨isRun.unqualified, opens.unqualified⟩

section

variable {text : String} {marks tokens : List String} (opens : Opens text.toList marks tokens)
include opens

theorem Opens.stripLineComments_eq (back : String) :
    stripLineComments (text ++ ("(" ++ back)) = text ++ stripLineComments ("(" ++ back) := by
  obtain ⟨first, rest, shape⟩ :=
    List.exists_cons_of_ne_nil (Text.splitOn_ne_nil '\n' back.toList)
  have opened : ("(" ++ back).toList = '(' :: back.toList := by simp
  have stripped : stripLineComment (text.toList ++ '(' :: first) =
      text.toList ++ stripLineComment ('(' :: first) := by
    rw [stripLineComment, opens.code, beforeComment_bracket, Text.trimEnd_front (by decide),
      ← beforeComment_bracket, stripLineComment]
  rw [stripLineComments, String.toList_append, opened,
    Text.splitOn_front opens.single (splitOn_bracket shape), stripLineComments, opened,
    splitOn_bracket shape, List.map_cons, stripped, String.ofList_append, String.ofList_toList,
    Text.joinWith_front, List.map_cons]

theorem Opens.tokenize_eq (back : String) :
    tokenize (text ++ ("(" ++ back)) = marks ++ tokenize ("(" ++ back) := by
  obtain ⟨first, rest, alone, behind⟩ :=
    Text.lines_front opens.single (by decide : '(' ≠ '\n') (by decide) back.toList
  have opened : ("(" ++ back).toList = '(' :: back.toList := by simp
  have shown (front : List Char) : Text.isBlank (front ++ '(' :: first) = false := by
    have visible : isWhiteSpace '(' = false := by decide
    simp [Text.isBlank, visible]
  have shownAlone : Text.isBlank ('(' :: first) = false := shown []
  rw [tokenize, tokenize, String.toList_append, opened, alone, behind]
  simp only [List.filter_cons, shown, shownAlone, Bool.not_false, if_true, List.map_cons,
    String.ofList_append, String.ofList_toList]
  rw [Text.joinWith_front, String.toList_append, opens.cut]

/-- The tokens of a text that opens a bracket are those of its two parts. The bracket is in no
operator and no word, so that nothing joins them. -/
theorem Opens.ofSource_eq (registry : Registry) (back : String) :
    ofSource registry (text ++ ("(" ++ back)) =
      tokens.map (respelled registry) ++ ofSource registry ("(" ++ back) := by
  obtain ⟨kept, stripped⟩ := exists_stripLineComments_bracket back
  obtain ⟨rest, cut⟩ := exists_tokenize_bracket kept
  have bracket : stripTokenCommentsFrom false ("(" :: rest) =
      "(" :: stripTokenCommentsFrom false rest := by
    simp [stripTokenCommentsFrom]
  have lexed : lex (text ++ ("(" ++ back)) = tokens ++ lex ("(" ++ back) := by
    rw [lex, opens.stripLineComments_eq, stripped, opens.tokenize_eq, cut, stripTokenComments,
      opens.dashes, bracket, opens.merged, lex, stripped, cut, stripTokenComments, bracket]
  have normal : normalize (tokens ++ lex ("(" ++ back)) =
      (tokens.map fun token => (literal? token).getD token) ++ normalize (lex ("(" ++ back)) := by
    rw [normalize, stripBlockComments, stripBlockCommentsFrom_append opens.plain,
      List.filter_append, List.map_append, List.filter_eq_self.mpr]
    · rfl
    · intro token member
      simp [opens.unqualified token member]
  have both : (fun token => if isWord token then (registry.rename? token).getD token else token) ∘
      (fun token => (literal? token).getD token) = respelled registry := by
    funext token
    simp only [Function.comp_apply, respelled]
  rw [ofSource, lexed, normal, applyRenames, List.map_append, List.map_map, both, ofSource,
    applyRenames]

end

end Token

end Maxscript
