import Maxscript.Proofs.Structured.Reading
import Maxscript.Proofs.Token.Lexer

/-!
# Operands by themselves

Where an operand ends depends on the piece behind it: a dot or a square bracket makes it longer, and
a colon makes a key of it. If none of these follows then a token is an operand by itself. A group in
round brackets is read as a block of what is inside it, and nothing behind it is touched.
-/

namespace Maxscript.Reader

open Structured (unread)

variable {registry : Registry}

/-! ### What follows -/

/-- What comes next is neither a member nor an index of what is before it. -/
structure Apart (rest : List Piece) : Prop where
  noMember : ∀ piece ∈ rest.head?, piece.is "." = false
  noIndex : ∀ piece ∈ rest.head?, piece.is "[" = false

/-- What comes next belongs to another parameter or argument, or to none. -/
structure Ends (rest : List Piece) : Prop extends Apart rest where
  noColon : ∀ piece ∈ rest.head?, piece.is ":" = false

theorem head_is_of_not_mem {token mark : String} {marks : List String} (other : token ∉ marks)
    (member : mark ∈ marks) (rest : List Piece) :
    ∀ piece ∈ (.token token :: rest : List Piece).head?, piece.is mark = false := by
  rintro _ ⟨⟩
  exact Piece.is_of_not_mem other member

theorem apart_cons {token : String} (h : token ∉ [".", "["]) (rest : List Piece) :
    Apart (.token token :: rest) where
  noMember := head_is_of_not_mem h (by decide) rest
  noIndex := head_is_of_not_mem h (by decide) rest

theorem Apart.not_startsWith {rest : List Piece} (apart : Apart rest) :
    startsWith "." rest = false := by
  cases rest with
  | nil => rfl
  | cons piece rest => exact apart.noMember piece rfl

theorem ends_nil : Ends [] where
  noMember := by simp
  noIndex := by simp
  noColon := by simp

theorem ends_cons {token : String} (h : token ∉ [".", "[", ":"]) (rest : List Piece) :
    Ends (.token token :: rest) where
  noMember := head_is_of_not_mem h (by decide) rest
  noIndex := head_is_of_not_mem h (by decide) rest
  noColon := head_is_of_not_mem h (by decide) rest

theorem memberRun_of_head {pieces : List Piece}
    (next : ∀ piece ∈ pieces.head?, piece.is "." = false) :
    memberRun pieces = ([], pieces) := by
  unfold memberRun
  split
  · next dot word rest =>
      rw [if_neg (by simp [next dot rfl])]
  · rfl

theorem fuse?_of_head {pieces : List Piece}
    (next : ∀ piece ∈ pieces.head?, piece.is "." = false) (base : Piece) :
    fuse? base pieces = none := by
  rw [fuse?, memberRun_of_head next]

/-- An operand is joined with all members behind it at once. -/
theorem fuse?_of_members {base : Piece} {pieces left : List Piece} {words : List String}
    (run : memberRun pieces = (words, left)) (members : words ≠ [])
    (operand : isOperand base = true) :
    fuse? base pieces = some (applyMembers base words.reverse, left) := by
  rw [fuse?, run]
  cases words with
  | nil => exact absurd rfl members
  | cons word words => simp only [operand, if_true]

theorem fuse?_of_alone {base : Piece} {pieces left : List Piece} {words : List String}
    (run : memberRun pieces = (words, left)) (alone : ¬(words ≠ [] ∧ isOperand base = true)) :
    fuse? base pieces = none := by
  rw [fuse?, run]
  cases words with
  | nil => rfl
  | cons word words =>
      have barred : ¬isOperand base = true := fun operand => alone ⟨by simp, operand⟩
      simp only [if_neg barred]

theorem key?_of_head {rest : List Piece} (noColon : ∀ piece ∈ rest.head?, piece.is ":" = false)
    (first : Piece) : key? first rest = none := by
  unfold key?
  split
  · next colon _ _ => rw [if_neg (by simp [noColon colon rfl])]
  · rfl

theorem key?_colon {key : String} (isWord : Token.isWord key = true) (rest : List Piece) :
    key? (.token key) (.token ":" :: rest) = some (key, rest) := by
  simp [key?, isWord]

theorem key?_of_not_isWord {token : String} (other : Token.isWord token = false)
    (rest : List Piece) : key? (.token token) rest = none := by
  cases rest with
  | nil => rfl
  | cons next rest => simp [key?, other]

/-- An operand is complete where neither a member nor an index follows. All lemmas that read
operands end here. -/
theorem trailers_eq {operand : Piece} {rest : List Piece}
    (apart : fuse? operand rest = none)
    (noIndex : ∀ piece ∈ rest.head?, piece.is "[" = false) (indent : Nat) :
    (unbounded registry).trailers indent operand rest = .ok (operand, rest) := by
  rw [unbounded_trailers, readTrailers.eq_def]
  simp only [apart]
  cases rest with
  | nil => rfl
  | cons next inner =>
      have other := noIndex next rfl
      simp only [other]
      rfl

theorem Apart.trailers_eq {rest : List Piece} (apart : Apart rest) (operand : Piece)
    (indent : Nat) : (unbounded registry).trailers indent operand rest = .ok (operand, rest) :=
  Reader.trailers_eq (fuse?_of_head apart.noMember operand) apart.noIndex indent

/-! ### Tokens and groups -/

/-- The tokens that are no words are listed once, and a word is none of them. Readers test for marks
before they test for words. -/
theorem is_of_isWord {text mark : String} (isWord : Token.isWord text = true)
    (other : mark ∈ Token.otherTokens) : (Piece.token text).is mark = false := by
  simpa using Token.ne_of_isWord isWord other

/-- A word or a string is none of the marks. -/
theorem is_of_value {text mark : String} (value : (Token.isWord text || Token.isQuoted text) = true)
    (other : mark ∈ Token.otherTokens) : (Piece.token text).is mark = false :=
  Piece.is_of_not_mem (Token.not_mem_of_isWord_or_isQuoted value (by simpa using other))
    (List.mem_singleton_self mark)

/-- A token that no bracket, array or sign starts with is an operand by itself. It may be any other
mark: readers do not check that it is a value. -/
theorem bareOperand_token {token : String} (plain : token ∉ ["(", "[", "#", "-"]) (indent : Nat)
    (rest : List Piece) :
    (unbounded registry).bareOperand indent (.token token) rest = .ok (.token token, rest) := by
  simp_all [bareOperand, pure, Except.pure]

theorem operand_token {token : String} (plain : token ∉ ["(", "[", "#", "-"]) {rest : List Piece}
    (apart : Apart rest) (indent : Nat) :
    (unbounded registry).operand indent (.token token) rest = .ok (.token token, rest) := by
  rw [operand, bareOperand_token plain]
  exact apart.trailers_eq (.token token) indent

theorem block_eq_map (reader : Reader) (indent : Nat) (role : Role) (pieces : List Piece) :
    reader.block indent role pieces =
      .block indent role <$> reader.items indent [] (trim pieces) := by
  rw [block]
  cases reader.items indent [] (trim pieces) with
  | error _ => rfl
  | ok items => rfl

/-- A word or a string in front leaves round brackets as they are, even if the string has brackets
in its text. -/
theorem balanced_value {text : String} (value : (Token.isWord text || Token.isQuoted text) = true)
    {rest : List Piece} (tail : Extent.Balanced rest) : Extent.Balanced (.token text :: rest) :=
  Extent.balanced_token (Token.not_mem_of_isWord_or_isQuoted value (by decide)) tail

section

variable {inner : List Piece}

/-- What stands in balanced brackets is cut out whole: the scan for the end of the group does not
stop at a bracket inside of it. -/
theorem cut_group (balanced : Extent.Balanced inner) (rest : List Piece) :
    cut (.token "(" :: inner ++ .token ")" :: rest)
      (Extent.group (.token "(" :: inner ++ .token ")" :: rest) 0).inside = .ok inner := by
  have fits : 1 ≤ inner.length + 1 ∧
      inner.length + 1 ≤ (Piece.token "(" :: inner ++ .token ")" :: rest).length := by
    simp only [List.length_append, List.length_cons]
    omega
  rw [Extent.group_balanced balanced, cut_eq_ok fits]
  simp

theorem drop_group (balanced : Extent.Balanced inner) (rest : List Piece) :
    (Piece.token "(" :: inner ++ .token ")" :: rest).drop
      (Extent.group (.token "(" :: inner ++ .token ")" :: rest) 0).after = rest := by
  rw [Extent.group_balanced balanced]
  simp

/-- A group in balanced brackets is read by itself, as a block of its own, and what is behind it is
left as it was. -/
theorem groupAt_balanced (reader : Reader) (indent : Nat) (role : Role)
    (balanced : Extent.Balanced inner) (rest : List Piece) :
    reader.groupAt indent role (.token "(") (inner ++ .token ")" :: rest) =
      (fun block => (block, rest)) <$> reader.block indent role inner := by
  have cutOut := cut_group balanced rest
  have behind := drop_group balanced rest
  simp only [List.cons_append] at cutOut behind
  rw [groupAt]
  simp only [blockOf, cutOut, behind]
  rfl

end

theorem operand_group (indent : Nat) {inner : List Piece} (balanced : Extent.Balanced inner)
    {rest : List Piece} (apart : Apart rest) :
    (unbounded registry).operand indent (.token "(") (inner ++ .token ")" :: rest) =
      (fun block => (block, rest)) <$> (unbounded registry).block indent .group inner := by
  rw [operand, bareOperand, if_pos (Piece.is_self "("), groupAt_balanced _ _ _ balanced]
  cases (unbounded registry).block indent .group inner with
  | error _ => rfl
  | ok block => exact apart.trailers_eq block indent

/-! ### Arguments -/

/-- Parameters or arguments before those that were read behind them. -/
def prepend (front : List Piece) (reading : Reading (List Piece)) : Reading (List Piece) :=
  (front ++ reading.1, reading.2)

theorem map_prepend (first second : List Piece) (result : Result (Reading (List Piece))) :
    prepend first <$> (prepend second <$> result) = prepend (first ++ second) <$> result := by
  cases result with
  | error _ => rfl
  | ok reading =>
      show Except.ok (prepend first (prepend second reading)) =
        .ok (prepend (first ++ second) reading)
      rw [prepend, prepend, prepend, List.append_assoc]

@[simp] theorem map_prepend_nil (result : Result (Reading (List Piece))) :
    prepend [] <$> result = result := by
  cases result with
  | error _ => rfl
  | ok reading => rfl

section

variable (indent : Nat)

/-- A word or a string goes on with the arguments, unless it is one of the words that end them. -/
theorem not_endsArguments {token : String}
    (value : (Token.isWord token || Token.isQuoted token) = true)
    (word : Text.foldCase token ∉ argumentStopWords) : endsArguments token = false := by
  have stop : token ∉ argumentStops := Token.not_mem_of_isWord_or_isQuoted value (by decide)
  have operator : token ∉ Token.operators := Token.not_mem_of_isWord_or_isQuoted value (by decide)
  have ligature : token ∉ Token.ligatures := by
    intro member
    have all : (Token.ligatures.all fun mark => !(Token.isWord mark || Token.isQuoted mark)) =
        true := by
      decide +kernel
    have other := List.all_eq_true.mp all token member
    rw [value] at other
    cases other
  simp [endsArguments, Token.isOperator, Token.isLigature, stop, operator, ligature, word]

/-- An operand that is neither a group nor a key is an argument, and the arguments go on behind it.
-/
theorem arguments_operand {first : Piece} {rest : List Piece} (notOpen : first.is "(" = false)
    (noKey : key? first rest = none) (goes : first.isTokenWith endsArguments = false) :
    (unbounded registry).arguments indent (first :: rest) =
      (unbounded registry).operand indent first rest >>= fun reading =>
        prepend [reading.1] <$> (unbounded registry).arguments indent reading.2 := by
  rw [unbounded_arguments, readArguments]
  simp only [notOpen, noKey, goes]
  cases (unbounded registry).operand indent first rest with
  | error _ => rfl
  | ok reading =>
      simp only [bind, Except.bind]
      cases (unbounded registry).arguments indent reading.2 with
      | error _ => rfl
      | ok _ => rfl

/-- A group is an argument by itself, unless it is empty. Its contents are no list of arguments,
even if there are commas among them. -/
theorem arguments_group {inner : List Piece} (balanced : Extent.Balanced inner)
    (nonempty : inner ≠ []) (rest : List Piece) :
    (unbounded registry).arguments indent (.token "(" :: inner ++ .token ")" :: rest) =
      (unbounded registry).block indent .argument inner >>= fun block =>
        prepend [block] <$> (unbounded registry).arguments indent rest := by
  have holds : ¬inner.length + 1 ≤ 1 := by
    have := List.length_pos_iff.mpr nonempty
    omega
  rw [unbounded_arguments, List.cons_append, readArguments]
  simp only [Piece.is_self, if_true]
  rw [← List.cons_append, Extent.group_balanced balanced, if_neg holds,
    groupAt_balanced _ _ _ balanced]
  cases (unbounded registry).block indent .argument inner with
  | error _ => rfl
  | ok block =>
      simp only [Functor.map, Except.map, bind, Except.bind]
      cases (unbounded registry).arguments indent rest with
      | error _ => rfl
      | ok _ => rfl

/-- Empty brackets end the arguments: `f()` is a call without any, and what follows it belongs to
the statement. -/
theorem arguments_empty (rest : List Piece) :
    (unbounded registry).arguments indent (.token "(" :: .token ")" :: rest) = .ok ([], rest) := by
  have group : Extent.group (.token "(" :: .token ")" :: rest) 0 = ⟨⟨1, 1⟩, 2⟩ :=
    Extent.group_balanced .nil rest
  rw [unbounded_arguments, readArguments]
  simp only [Piece.is_self, if_true, group]
  rfl

/-- A key and a colon, and the value behind them, which is a single operand. The arguments go on
behind the value. -/
theorem arguments_keyed {key : String} (isWord : Token.isWord key = true) (rest : List Piece) :
    (unbounded registry).arguments indent (.token key :: .token ":" :: rest) =
      (unbounded registry).keyValue indent argumentStops rest >>= fun reading =>
        prepend [.binding indent key reading.1 true] <$>
          (unbounded registry).arguments indent reading.2 := by
  have notOpen := is_of_isWord isWord (by decide : "(" ∈ Token.otherTokens)
  rw [unbounded_arguments, readArguments]
  simp only [notOpen, key?_colon isWord]
  cases (unbounded registry).keyValue indent argumentStops rest with
  | error _ => rfl
  | ok reading =>
      simp only [bind, Except.bind]
      cases (unbounded registry).arguments indent reading.2 with
      | error _ => rfl
      | ok _ => rfl

theorem keyValue_operand {stops : List String} {first : Piece}
    (goes : first.isTokenWith stops.contains = false) (rest : List Piece) :
    (unbounded registry).keyValue indent stops (first :: rest) =
      (fun reading => (some reading.1, reading.2)) <$>
        (unbounded registry).operand indent first rest := by
  rw [keyValue, goes]
  rfl

end

end Maxscript.Reader
