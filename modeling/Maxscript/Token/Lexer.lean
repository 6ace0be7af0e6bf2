import Maxscript.Token.Comment

/-!
# Cutting a text into tokens

A text is cut into quoted strings, words, newlines and single marks; white space other than the
newline only separates. Marks that spell an operator are then merged.
-/

namespace Maxscript.Token

open Unicode (isWhiteSpace isWordCharacter)

/-- Cuts at the first `quote`: the characters before it and those after it. -/
def closeQuote? (quote : Char) : List Char → Option (List Char × List Char)
  | [] => none
  | c :: cs =>
    if c = quote then some ([], cs)
    else (closeQuote? quote cs).map fun (body, rest) => (c :: body, rest)

theorem length_lt_of_closeQuote? {quote : Char} {cs body rest : List Char}
    (h : closeQuote? quote cs = some (body, rest)) : rest.length < cs.length := by
  induction cs generalizing body with
  | nil => simp [closeQuote?] at h
  | cons c cs ih =>
    rw [closeQuote?] at h
    split at h
    · simp_all
    · obtain ⟨⟨inner, after⟩, hinner, hrest⟩ := Option.map_eq_some_iff.1 h
      obtain ⟨-, rfl⟩ := Prod.mk.inj hrest
      exact Nat.lt_succ_of_lt (ih hinner)

/-- The string that starts with the character `c`, if `c` is a quote that is closed later. -/
def quoted? (c : Char) (cs : List Char) : Option (List Char × List Char) :=
  if c = '"' ∨ c = '\'' then closeQuote? c cs else none

theorem length_lt_of_quoted? {c : Char} {cs body rest : List Char}
    (h : quoted? c cs = some (body, rest)) : rest.length < cs.length := by
  rw [quoted?] at h
  split at h
  · exact length_lt_of_closeQuote? h
  · cases h

/-- The tokens of a text. A quote that is never closed is a mark like any other. -/
def ofChars : List Char → List String
  | [] => []
  | c :: cs =>
    match h : quoted? c cs with
    | some (body, rest) =>
      have := length_lt_of_quoted? h
      String.ofList (c :: body ++ [c]) :: ofChars rest
    | none =>
      if isWordCharacter c then
        String.ofList (c :: cs.takeWhile isWordCharacter) :: ofChars (cs.dropWhile isWordCharacter)
      else if c = '\n' ∨ !isWhiteSpace c then String.ofList [c] :: ofChars cs
      else ofChars cs
termination_by cs => cs.length
decreasing_by
  · exact Nat.lt_succ_of_lt this
  · exact Nat.lt_succ_of_le (List.Sublist.length_le (List.dropWhile_sublist isWordCharacter))
  · exact Nat.lt_succ_self _
  · exact Nat.lt_succ_self _

/-- The tokens of a text. Blank lines are left out, so that a newline always separates two lines
that hold something. -/
def tokenize (text : String) : List String :=
  let lines := (Text.lines text.toList).filter fun line => !Text.isBlank line
  ofChars (Text.joinWith "\n" (lines.map String.ofList)).toList

/-- The single marks that spell a text. -/
def spelling (text : String) : List String := text.toList.map fun c => String.ofList [c]

/-- Replaces each run of single marks that spells `sequence` by one token. -/
def mergeSequence (sequence : String) : List String → List String
  | [] => []
  | token :: rest =>
    match spelling sequence with
    | [] => token :: rest
    | mark :: marks =>
      if token = mark ∧ marks.isPrefixOf rest then
        sequence :: mergeSequence sequence (rest.drop marks.length)
      else token :: mergeSequence sequence rest
termination_by tokens => tokens.length
decreasing_by
  · simp only [List.length_drop, List.length_cons]
    omega
  · exact Nat.lt_succ_self _

/-- Merges the marks of every operator that has several. -/
def mergeLigatures (tokens : List String) : List String :=
  ligatures.foldl (fun tokens ligature => mergeSequence ligature tokens) tokens

/-- The tokens of a script, without line comments. -/
def lex (source : String) : List String :=
  mergeLigatures (stripTokenComments (tokenize (stripLineComments source)))

end Maxscript.Token
