import Mathlib.Data.List.TakeWhile
import Maxscript.Proofs.Token.Front
import Maxscript.Proofs.Token.Lines

/-!
# Hyphens that are taken for a comment

Line comments are removed from the text of each line, where `--` is two characters next to each
other, and once more from the tokens, where it is two tokens next to each other. Cutting a text into
tokens forgets the white space between them, so the second pass also takes hyphens for a comment
that stand apart in the text. The texts that it leaves alone are told by their characters: no two
hyphens outside of strings have only white space of their line between them.
-/

namespace Maxscript.Token

open Unicode (isWhiteSpace isWordCharacter)

/-! ### Pairs of hyphens among tokens -/

/-- Tokens with two hyphens next to each other lose something, and others do not. -/
theorem stripTokenComments_eq_self_iff (tokens : List String) :
    stripTokenComments tokens = tokens ↔ ¬["-", "-"] <:+: tokens := by
  rw [stripTokenComments]
  induction tokens with
  | nil => simp [stripTokenCommentsFrom]
  | cons token rest ih =>
      by_cases dashes : token = "-" ∧ rest.head? = some "-"
      · have lost : (stripTokenCommentsFrom false (token :: rest)).length ≤ rest.length := by
          rw [stripTokenCommentsFrom, if_pos dashes]
          exact (stripTokenCommentsFrom_sublist true rest).length_le
        have pair : ["-", "-"] <:+: token :: rest := by
          obtain ⟨rfl, second⟩ := dashes
          obtain ⟨tail, rfl⟩ := List.head?_eq_some_iff.mp second
          exact ⟨[], tail, rfl⟩
        refine iff_of_false ?_ (not_not_intro pair)
        intro same
        rw [same, List.length_cons] at lost
        omega
      · have apart : ¬["-", "-"] <+: token :: rest := by
          intro starts
          obtain ⟨rfl, second⟩ := List.cons_prefix_cons.mp starts
          exact dashes ⟨rfl, List.head?_eq_some_iff.mpr (by
            obtain ⟨tail, rfl⟩ := second
            exact ⟨tail, rfl⟩)⟩
        rw [stripTokenCommentsFrom]
        simp only [if_neg dashes, List.cons.injEq, true_and, ih, List.infix_cons_iff, apart,
          false_or]

/-! ### The code of a text -/

/-- The characters outside the strings of a text, with the quote that opens each string. A quote
opens a string if there is another one of its kind behind it. The text may start inside a string,
which then ends at the given quote. -/
def codeFrom : Option Char → List Char → List Char
  | _, [] => []
  | some quote, c :: cs => codeFrom (if c = quote then none else some quote) cs
  | none, c :: cs => c :: codeFrom (if (c = '"' ∨ c = '\'') ∧ c ∈ cs then some c else none) cs

/-- White space that only sets tokens apart. -/
def isGap (c : Char) : Bool := isWhiteSpace c && c != '\n'

/-- The characters of the code that end up in tokens. -/
def visibleFrom (state : Option Char) (cs : List Char) : List Char :=
  (codeFrom state cs).filter fun c => !isGap c

theorem codeFrom_sublist (state : Option Char) (cs : List Char) :
    List.Sublist (codeFrom state cs) cs := by
  fun_induction codeFrom state cs with
  | case1 state => exact .slnil
  | case2 quote c cs ih => exact ih.cons c
  | case3 c cs ih => exact ih.cons_cons c

theorem codeFrom_cons {c : Char} {cs : List Char} (plain : ¬((c = '"' ∨ c = '\'') ∧ c ∈ cs)) :
    codeFrom none (c :: cs) = c :: codeFrom none cs := by
  rw [codeFrom, if_neg plain]

theorem codeFrom_string {quote : Char} {body : List Char} (absent : quote ∉ body)
    (rest : List Char) : codeFrom (some quote) (body ++ quote :: rest) = codeFrom none rest := by
  induction body with
  | nil => simp [codeFrom]
  | cons c body ih =>
      rw [List.mem_cons, not_or] at absent
      rw [List.cons_append, codeFrom, if_neg (Ne.symm absent.1), ih absent.2]

theorem not_quote_of_isWordCharacter {c : Char} (word : isWordCharacter c = true) :
    ¬(c = '"' ∨ c = '\'') := by
  rintro (rfl | rfl)
  · exact absurd word (by simp [not_isWordCharacter (by decide : '"' ∈ otherCharacters)])
  · exact absurd word (by simp [not_isWordCharacter (by decide : '\'' ∈ otherCharacters)])

theorem visibleFrom_word {run : List Char} (word : ∀ c ∈ run, isWordCharacter c = true)
    (rest : List Char) : visibleFrom none (run ++ rest) = run ++ visibleFrom none rest := by
  induction run with
  | nil => rfl
  | cons c run ih =>
      obtain ⟨first, others⟩ := List.forall_mem_cons.mp word
      have visible : isGap c = false := by
        simp [isGap, Unicode.isWhiteSpace_of_isWordCharacter first]
      have later := ih others
      rw [visibleFrom] at later ⊢
      rw [List.cons_append, codeFrom_cons fun found => not_quote_of_isWordCharacter first found.1,
        List.filter_cons_of_pos (by simp [visible]), later, List.cons_append]

/-! ### From tokens to the code -/

theorem of_closeQuote? {quote : Char} {cs body rest : List Char}
    (found : closeQuote? quote cs = some (body, rest)) :
    cs = body ++ quote :: rest ∧ quote ∉ body := by
  induction cs generalizing body with
  | nil => cases found
  | cons c cs ih =>
      rw [closeQuote?] at found
      split at found
      · next same =>
          obtain ⟨rfl, rfl⟩ := Prod.mk.inj (Option.some.inj found)
          exact ⟨by rw [same]; rfl, List.not_mem_nil⟩
      · next other =>
          obtain ⟨⟨inner, after⟩, later, shape⟩ := Option.map_eq_some_iff.mp found
          obtain ⟨rfl, rfl⟩ := Prod.mk.inj shape
          obtain ⟨rfl, absent⟩ := ih later
          refine ⟨rfl, ?_⟩
          rw [List.mem_cons, not_or]
          exact ⟨Ne.symm other, absent⟩

theorem closeQuote?_eq_none_iff {quote : Char} {cs : List Char} :
    closeQuote? quote cs = none ↔ quote ∉ cs := by
  induction cs with
  | nil => simp [closeQuote?]
  | cons c cs ih =>
      rw [closeQuote?]
      split
      · next same => simp [same]
      · next other => simp [ih, Ne.symm other]

theorem not_quote_of_quoted? {c : Char} {cs : List Char} (found : quoted? c cs = none) :
    ¬((c = '"' ∨ c = '\'') ∧ c ∈ cs) := by
  rintro ⟨isQuote, closed⟩
  rw [quoted?, if_pos isQuote] at found
  exact closeQuote?_eq_none_iff.mp found closed

/-- What is seen of a token in the code: of a string, only the quote that opens it. -/
def seen (token : String) : List Char :=
  if isQuoted token then token.toList.take 1 else token.toList

theorem seen_ofList {c : Char} {cs : List Char} :
    seen (String.ofList (c :: cs)) = if c = '"' ∨ c = '\'' then [c] else c :: cs := by
  by_cases quote : c = '"' ∨ c = '\''
  · simp [seen, isQuoted, quote]
  · simp [seen, isQuoted, quote]

/-- A character that is no part of a string is seen unless it is a gap. -/
theorem visibleFrom_cons {c : Char} {cs : List Char} (found : quoted? c cs = none) :
    visibleFrom none (c :: cs) =
      if isGap c then visibleFrom none cs else c :: visibleFrom none cs := by
  rw [visibleFrom, codeFrom_cons (not_quote_of_quoted? found), List.filter_cons]
  cases isGap c <;> rfl

/-- What is seen of a text is what is seen of its tokens. A string counts as its quote, so hyphens
inside of it are not seen. -/
theorem visibleFrom_eq (cs : List Char) : visibleFrom none cs = (ofChars cs).flatMap seen := by
  fun_induction ofChars cs with
  | case1 => rfl
  | case2 c cs body rest found _ ih =>
      have visible := isWhiteSpace_of_quoted? found
      rw [quoted?] at found
      split at found
      · next isQuote =>
          obtain ⟨rfl, absent⟩ := of_closeQuote? found
          have string : codeFrom none (c :: (body ++ c :: rest)) = c :: codeFrom none rest := by
            rw [codeFrom, if_pos ⟨isQuote, by simp⟩, codeFrom_string absent]
          rw [List.flatMap_cons, List.cons_append, seen_ofList, if_pos isQuote, ← ih, visibleFrom,
            string, List.filter_cons_of_pos (by simp [isGap, visible])]
          rfl
      · cases found
  | case3 c cs found word ih =>
      have run : ∀ d ∈ c :: cs.takeWhile isWordCharacter, isWordCharacter d = true := by
        intro d member
        rcases List.mem_cons.mp member with rfl | later
        · exact word
        · exact List.mem_takeWhile_imp later
      have whole : c :: cs = c :: cs.takeWhile isWordCharacter ++ cs.dropWhile isWordCharacter := by
        rw [List.cons_append, List.takeWhile_append_dropWhile]
      rw [List.flatMap_cons, seen_ofList, if_neg (not_quote_of_isWordCharacter word), ← ih, whole,
        visibleFrom_word run]
  | case4 c cs found notWord mark ih =>
      have visible : isGap c = false := by
        rcases mark with rfl | visible
        · decide
        · simp_all [isGap]
      rw [visibleFrom_cons found, visible, if_neg Bool.false_ne_true, List.flatMap_cons,
        seen_ofList, ih]
      split <;> rfl
  | case5 c cs found notWord blank ih =>
      have hidden : isGap c = true := by
        simp_all [isGap]
      rw [visibleFrom_cons found, if_pos hidden, ih]

theorem exists_ofList_of_mem_ofChars {cs : List Char} {token : String}
    (member : token ∈ ofChars cs) : ∃ c rest, token = String.ofList (c :: rest) := by
  fun_induction ofChars cs with
  | case1 => cases member
  | case2 c cs body rest found _ ih =>
      rcases List.mem_cons.mp member with rfl | later
      · exact ⟨c, body ++ [c], rfl⟩
      · exact ih later
  | case3 c cs found word ih =>
      rcases List.mem_cons.mp member with rfl | later
      · exact ⟨c, _, rfl⟩
      · exact ih later
  | case4 c cs found notWord mark ih =>
      rcases List.mem_cons.mp member with rfl | later
      · exact ⟨c, [], rfl⟩
      · exact ih later
  | case5 c cs found notWord blank ih => exact ih member

theorem seen_ne_nil {cs : List Char} {token : String} (member : token ∈ ofChars cs) :
    seen token ≠ [] := by
  obtain ⟨c, rest, rfl⟩ := exists_ofList_of_mem_ofChars member
  rw [seen_ofList]
  split
  · exact List.cons_ne_nil _ _
  · exact List.cons_ne_nil _ _

/-- A hyphen is seen of the token that it is, and of no other: hyphens are no part of words. -/
theorem eq_hyphen_of_seen {cs : List Char} {token : String} (member : token ∈ ofChars cs)
    (hyphen : '-' ∈ seen token) : token = "-" := by
  have cut := isCut_of_mem_ofChars member
  obtain ⟨c, rest, rfl⟩ := exists_ofList_of_mem_ofChars member
  rw [seen_ofList] at hyphen
  by_cases quote : c = '"' ∨ c = '\''
  · rw [if_pos quote, List.mem_singleton] at hyphen
    rw [← hyphen] at quote
    exact absurd quote (by decide)
  · rw [if_neg quote] at hyphen
    rcases cut with quoted | word | single
    · exact absurd (by simpa [isQuoted] using quoted) quote
    · rw [String.toList_ofList] at word
      have isWord := List.all_eq_true.mp word '-' hyphen
      rw [not_isWordCharacter (by decide)] at isWord
      cases isWord
    · rw [String.length_ofList, List.length_cons, Nat.add_eq_right, List.length_eq_zero_iff]
        at single
      subst single
      rw [← List.mem_singleton.mp hyphen]

/-- Two hyphens next to each other are two tokens next to each other, since every token between them
would be seen. -/
theorem hyphens_infix_flatMap_iff {tokens : List String}
    (nonempty : ∀ token ∈ tokens, seen token ≠ [])
    (hyphen : ∀ token ∈ tokens, '-' ∈ seen token → token = "-") :
    ['-', '-'] <:+: tokens.flatMap seen ↔ ["-", "-"] <:+: tokens := by
  induction tokens with
  | nil => simp
  | cons token rest ih =>
      obtain ⟨-, nonemptyRest⟩ := List.forall_mem_cons.mp nonempty
      obtain ⟨first, hyphenRest⟩ := List.forall_mem_cons.mp hyphen
      have later := ih nonemptyRest hyphenRest
      by_cases isHyphen : token = "-"
      · have next : ['-'] <+: rest.flatMap seen ↔ ["-"] <+: rest := by
          cases rest with
          | nil => simp
          | cons second others =>
              obtain ⟨c, cs, shape⟩ := List.exists_cons_of_ne_nil
                (nonemptyRest second List.mem_cons_self)
              simp only [List.flatMap_cons, shape, List.cons_append, List.cons_prefix_cons,
                List.nil_prefix, and_true]
              constructor
              · rintro rfl
                exact (hyphenRest second List.mem_cons_self (shape ▸ List.mem_cons_self)).symm
              · rintro rfl
                exact (List.cons.inj shape).1
        subst isHyphen
        show ['-', '-'] <:+: '-' :: rest.flatMap seen ↔ _
        rw [List.infix_cons_iff, List.infix_cons_iff, later, List.prefix_cons_inj,
          List.prefix_cons_inj, next]
      · have absent : '-' ∉ seen token := fun found => isHyphen (first found)
        have other : "-" ∉ [token] := fun found => isHyphen (List.mem_singleton.mp found).symm
        rw [List.flatMap_cons, Text.infix_append_iff_of_not_mem absent, later]
        exact (Text.infix_append_iff_of_not_mem other ["-"] rest).symm

/-- The tokens of a text have two hyphens next to each other where the code has. -/
theorem hyphens_infix_ofChars_iff (cs : List Char) :
    ["-", "-"] <:+: ofChars cs ↔ ['-', '-'] <:+: visibleFrom none cs := by
  rw [visibleFrom_eq]
  exact (hyphens_infix_flatMap_iff (fun _ => seen_ne_nil) fun _ => eq_hyphen_of_seen).symm

/-! ### Lines that are left out -/

theorem visibleFrom_some (quote c : Char) (cs : List Char) :
    visibleFrom (some quote) (c :: cs) =
      visibleFrom (if c = quote then none else some quote) cs := rfl

theorem visibleFrom_none (c : Char) (cs : List Char) :
    visibleFrom none (c :: cs) = (if isGap c then [] else [c]) ++
      visibleFrom (if (c = '"' ∨ c = '\'') ∧ c ∈ cs then some c else none) cs := by
  rw [visibleFrom, codeFrom, List.filter_cons]
  cases isGap c <;> rfl

/-- The code, or a string between two quotes of one kind. -/
def IsState (state : Option Char) : Prop := ∀ quote ∈ state, quote = '"' ∨ quote = '\''

theorem isState_none : IsState none := by
  intro quote found
  cases found

/-- Two texts that have the same kinds of quotes, and pairs of hyphens alike. -/
structure SamePairs (text other : List Char) : Prop where
  quotes : ∀ c, c = '"' ∨ c = '\'' → (c ∈ text ↔ c ∈ other)
  pairs : ∀ state, IsState state →
    (['-', '-'] <:+: visibleFrom state text ↔ ['-', '-'] <:+: visibleFrom state other)

/-- Two texts that also make pairs alike with a hyphen in front of them. -/
structure SameHyphens (text other : List Char) : Prop extends SamePairs text other where
  starts : ['-'] <+: visibleFrom none text ↔ ['-'] <+: visibleFrom none other

theorem SamePairs.refl (text : List Char) : SamePairs text text :=
  ⟨fun _ _ => Iff.rfl, fun _ _ => Iff.rfl⟩

theorem SamePairs.trans {text other third : List Char} (first : SamePairs text other)
    (second : SamePairs other third) : SamePairs text third where
  quotes c isQuote := (first.quotes c isQuote).trans (second.quotes c isQuote)
  pairs state isState := (first.pairs state isState).trans (second.pairs state isState)

theorem SameHyphens.trans {text other third : List Char} (first : SameHyphens text other)
    (second : SameHyphens other third) : SameHyphens text third where
  toSamePairs := first.toSamePairs.trans second.toSamePairs
  starts := first.starts.trans second.starts

/-- One character more in front of two texts makes no difference, whatever state the scan over them
is in. -/
theorem SameHyphens.cons {text other : List Char} (same : SameHyphens text other) (c : Char) :
    SameHyphens (c :: text) (c :: other) := by
  have opens : ((c = '"' ∨ c = '\'') ∧ c ∈ text) ↔ ((c = '"' ∨ c = '\'') ∧ c ∈ other) :=
    and_congr_right (same.quotes c)
  have inside {quote : Char} (isState : IsState (some quote)) :
      IsState (if c = quote then none else some quote) := by
    split
    · exact isState_none
    · exact isState
  have opened : IsState (if (c = '"' ∨ c = '\'') ∧ c ∈ other then some c else none) := by
    split
    · next found =>
        rintro _ ⟨⟩
        exact found.1
    · exact isState_none
  refine ⟨⟨?_, ?_⟩, ?_⟩
  · intro quote isQuote
    rw [List.mem_cons, List.mem_cons, same.quotes quote isQuote]
  · intro state isState
    cases state with
    | some quote => exact same.pairs _ (inside isState)
    | none =>
        simp only [visibleFrom_none, opens]
        cases isGap c with
        | true => exact same.pairs _ opened
        | false =>
            show ['-', '-'] <:+: c :: visibleFrom _ text ↔ ['-', '-'] <:+: c :: visibleFrom _ other
            rw [List.infix_cons_iff, List.infix_cons_iff, same.pairs _ opened]
            refine or_congr_left ?_
            -- A hyphen is no quote, so what comes after it is code again.
            by_cases hyphen : c = '-'
            · subst hyphen
              simpa using same.starts
            · simp [List.cons_prefix_cons, Ne.symm hyphen]
  · simp only [visibleFrom_none, opens]
    cases gap : isGap c with
    | true =>
        have plain : ¬(c = '"' ∨ c = '\'') := by
          rintro (rfl | rfl)
          · exact absurd gap (by decide)
          · exact absurd gap (by decide)
        simpa [plain] using same.starts
    | false =>
        show ['-'] <+: c :: visibleFrom _ text ↔ ['-'] <+: c :: visibleFrom _ other
        simp only [List.cons_prefix_cons, List.nil_prefix]

theorem SameHyphens.append {text other : List Char} (same : SameHyphens text other)
    (front : List Char) : SameHyphens (front ++ text) (front ++ other) := by
  induction front with
  | nil => exact same
  | cons c front ih => exact ih.cons c

section

variable {c : Char} (blank : isWhiteSpace c = true)
include blank

theorem ne_quote_of_isWhiteSpace {quote : Char} (isQuote : quote = '"' ∨ quote = '\'') :
    c ≠ quote := by
  rintro rfl
  rcases isQuote with rfl | rfl
  · exact absurd blank (by decide)
  · exact absurd blank (by decide)

/-- White space is seen only if it is a newline of the code. -/
theorem visibleFrom_blank {state : Option Char} (isState : IsState state) (text : List Char) :
    visibleFrom state (c :: text) =
      (if state = none ∧ c = '\n' then ['\n'] else []) ++ visibleFrom state text := by
  cases state with
  | some quote =>
      have other := ne_quote_of_isWhiteSpace blank (isState quote rfl)
      simp [visibleFrom_some, other]
  | none =>
      have plain : ¬((c = '"' ∨ c = '\'') ∧ c ∈ text) := fun found =>
        ne_quote_of_isWhiteSpace blank found.1 rfl
      rw [visibleFrom_none, if_neg plain]
      by_cases newline : c = '\n'
      · subst newline
        rfl
      · simp [isGap, blank, newline]

theorem mem_cons_iff_of_blank {quote : Char} (isQuote : quote = '"' ∨ quote = '\'')
    (text : List Char) : quote ∈ c :: text ↔ quote ∈ text := by
  have other := ne_quote_of_isWhiteSpace blank isQuote
  simp [Ne.symm other]

/-- White space is no part of a pair. -/
theorem samePairs_blank (text : List Char) : SamePairs (c :: text) text where
  quotes quote isQuote := mem_cons_iff_of_blank blank isQuote text
  pairs state isState := by
    rw [visibleFrom_blank blank isState]
    split
    · exact Text.infix_append_iff_of_not_mem (by decide) _ _
    · rfl

/-- White space other than a newline does not keep hyphens apart. -/
theorem sameHyphens_blank (gap : c ≠ '\n') (text : List Char) : SameHyphens (c :: text) text where
  toSamePairs := samePairs_blank blank text
  starts := by
    rw [visibleFrom_blank blank isState_none, if_neg fun found => gap found.2]
    rfl

end

theorem SamePairs.symm {text other : List Char} (same : SamePairs text other) :
    SamePairs other text where
  quotes c isQuote := (same.quotes c isQuote).symm
  pairs state isState := (same.pairs state isState).symm

theorem not_starts_newline (text : List Char) : ¬['-'] <+: visibleFrom none ('\n' :: text) := by
  intro starts
  rw [visibleFrom_blank (by decide) isState_none, if_pos ⟨rfl, rfl⟩] at starts
  exact absurd (List.cons_prefix_cons.mp starts).1 (by decide)

/-- A newline keeps hyphens apart. What was only known about the pairs inside of the texts is then
enough for all of them. -/
theorem SamePairs.newline {text other : List Char} (same : SamePairs text other) :
    SameHyphens ('\n' :: text) ('\n' :: other) where
  toSamePairs := (samePairs_blank (by decide) text).trans
    (same.trans (samePairs_blank (by decide) other).symm)
  starts := iff_of_false (not_starts_newline text) (not_starts_newline other)

theorem SamePairs.newline_nil {text : List Char} (same : SamePairs text []) :
    SameHyphens ('\n' :: text) [] where
  toSamePairs := (samePairs_blank (by decide) text).trans same
  starts := iff_of_false (not_starts_newline text) (by simp [visibleFrom, codeFrom])

theorem samePairs_of_isBlank {front : List Char} (blank : Text.isBlank front = true)
    (text : List Char) : SamePairs (front ++ text) text := by
  induction front with
  | nil => exact .refl text
  | cons c front ih =>
      rw [Text.isBlank, List.all_cons, Bool.and_eq_true] at blank
      exact (samePairs_blank blank.1 _).trans (ih blank.2)

theorem sameHyphens_dropReturn {text other : List Char} (same : SameHyphens text other)
    (line : List Char) : SameHyphens (line ++ text) (Text.dropReturn line ++ other) := by
  rcases Text.dropReturn_cases line with kept | ⟨front, rfl, dropped⟩
  · rw [kept]
    exact same.append line
  · have gap := sameHyphens_blank (by decide : isWhiteSpace '\r' = true) (by decide) text
    rw [dropped, List.append_assoc]
    exact (gap.trans same).append front

/-- Blank lines keep no hyphens apart that the newlines around them do not. -/
theorem samePairs_lines (pieces : List (List Char)) :
    SamePairs (joined pieces)
      (joined ((Text.linesOf pieces).filter fun line => !Text.isBlank line)) := by
  fun_induction Text.linesOf pieces with
  | case1 => exact .refl _
  | case2 last empty =>
      rw [List.isEmpty_iff.mp empty]
      exact .refl _
  | case3 last nonempty =>
      cases blank : Text.isBlank last with
      | true =>
          have nothing := samePairs_of_isBlank blank []
          rw [List.append_nil] at nothing
          simp only [List.filter_cons, blank, Bool.not_true, if_neg Bool.false_ne_true,
            List.filter_nil, joined_single]
          exact nothing
      | false =>
          simp only [List.filter_cons, blank, Bool.not_false, if_true, List.filter_nil]
          exact .refl _
  | case4 line rest several ih =>
      rw [joined_cons line several, List.filter_cons, Text.isBlank_dropReturn]
      cases blank : Text.isBlank line with
      | true =>
          exact (samePairs_of_isBlank blank _).trans ((samePairs_blank (by decide) _).trans ih)
      | false =>
          show SamePairs _ (joined (Text.dropReturn line :: _))
          by_cases last : (Text.linesOf rest).filter (fun line => !Text.isBlank line) = []
          · rw [last] at ih ⊢
            have behind := sameHyphens_dropReturn ih.newline_nil line
            rw [List.append_nil] at behind
            rw [joined_single]
            exact behind.toSamePairs
          · rw [joined_cons _ last]
            exact (sameHyphens_dropReturn ih.newline line).toSamePairs

/-- Cutting a text into tokens leaves out blank lines, which makes no pair of hyphens. -/
theorem hyphens_infix_tokenize_iff (source : String) :
    ["-", "-"] <:+: tokenize source ↔ ['-', '-'] <:+: visibleFrom none source.toList := by
  have same := samePairs_lines (Text.splitOn '\n' source.toList)
  rw [joined_splitOn] at same
  rw [same.pairs none isState_none]
  exact hyphens_infix_ofChars_iff _

/-- Two hyphens are next to each other in what is seen if there is nothing but a gap between
them. -/
theorem hyphens_infix_filter_iff (cs : List Char) :
    ['-', '-'] <:+: cs.filter (fun c => !isGap c) ↔
      ∃ front gap back, cs = front ++ '-' :: (gap ++ '-' :: back) ∧ ∀ c ∈ gap, isGap c = true := by
  constructor
  · rintro ⟨seenFront, seenBack, shape⟩
    rw [List.append_assoc] at shape
    obtain ⟨front, rest, rfl, -, later⟩ := List.filter_eq_append_iff.mp shape.symm
    obtain ⟨before, after, rfl, -, -, next⟩ := List.filter_eq_cons_iff.mp later
    obtain ⟨gap, back, rfl, hidden, -, -⟩ := List.filter_eq_cons_iff.mp next
    refine ⟨front ++ before, gap, back, by simp, ?_⟩
    intro c member
    simpa using hidden c member
  · rintro ⟨front, gap, back, rfl, hidden⟩
    have none : gap.filter (fun c => !isGap c) = [] := by
      apply List.filter_eq_nil_iff.mpr
      intro c member
      simp [hidden c member]
    have visible : isGap '-' = false := by decide
    refine ⟨front.filter fun c => !isGap c, back.filter fun c => !isGap c, ?_⟩
    simp [none, visible]

/-- The second removal of comments leaves the tokens of a text alone exactly if no two hyphens
outside of its strings have only a gap between them. -/
theorem stripTokenComments_tokenize_eq_self_iff (source : String) :
    stripTokenComments (tokenize source) = tokenize source ↔
      ¬∃ front gap back, codeFrom none source.toList = front ++ '-' :: (gap ++ '-' :: back) ∧
        ∀ c ∈ gap, isWhiteSpace c = true ∧ c ≠ '\n' := by
  have gaps : ∀ c, (isWhiteSpace c = true ∧ c ≠ '\n') ↔ isGap c = true := by simp [isGap]
  rw [stripTokenComments_eq_self_iff, hyphens_infix_tokenize_iff, visibleFrom,
    hyphens_infix_filter_iff]
  simp only [gaps]

/-- A sign behind a minus is taken for a comment, with the rest of its line. -/
theorem sign_behind_minus_removed :
    ¬['-', '-'] <:+: "a - -b\nc".toList ∧
      tokenize "a - -b\nc" = ["a", "-", "-", "b", "\n", "c"] ∧
      stripTokenComments (tokenize "a - -b\nc") = ["a", "\n", "c"] := by
  decide +kernel

end Maxscript.Token
