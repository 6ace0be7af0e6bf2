import Maxscript.Proofs.Nesting
import Maxscript.Proofs.Reader.Operand

/-!
# Locality

The elements between two brackets are the same whatever stands behind the closing one. The reader
does not search for that bracket: it reads one element after the other, calls with all their
arguments, members, indices and casts, and stops where it meets the bracket. What makes this safe is
that all of these end at a closing bracket at the latest, if the tokens before it are properly
nested.

A reading *stays* before a bracket if it depends on the tokens before it only, and leaves some of
them, again properly nested. Every reader of operands stays, given that the readers that it asks do
so for fewer tokens (`Local`).
-/

namespace Maxscript.Reader

open Structured (unread)

def brackets : List Bracket := [.round, .square]

def closings : List String := [")", "]"]

section

variable {α β : Type} {close : String} {tokens left : List String}

/-- Before the bracket `close`, a reading takes some of the tokens, and does not look further. -/
def Stays (close : String) (tokens : List String) (read : List Piece → Result (Reading α)) : Prop :=
  ∃ outcome : Result (α × List String),
    Meets outcome (fun reading => WellNested brackets [] reading.2 ∧
      reading.2.length ≤ tokens.length) ConvertError.Any ∧
    ∀ rest, read (unread tokens ++ .token close :: rest) =
      (fun reading => (reading.1, unread reading.2 ++ .token close :: rest)) <$> outcome

/-- A reading takes all the tokens before the bracket `close`, and that bracket. -/
def Closes (close : String) (tokens : List String) (read : List Piece → Result (Reading α)) :
    Prop :=
  ∃ outcome : Result α, ∀ rest,
    read (unread tokens ++ .token close :: rest) = (fun value => (value, rest)) <$> outcome

theorem Stays.done {read : List Piece → Result (Reading α)} (nested : WellNested brackets [] left)
    (fits : left.length ≤ tokens.length) (value : α)
    (same : ∀ rest, read (unread tokens ++ .token close :: rest) =
      .ok (value, unread left ++ .token close :: rest)) :
    Stays close tokens read :=
  ⟨.ok (value, left), ⟨nested, fits⟩, same⟩

theorem Stays.fails {read : List Piece → Result (Reading α)} (error : ConvertError)
    (same : ∀ rest, read (unread tokens ++ .token close :: rest) = .error error) :
    Stays close tokens read :=
  ⟨.error error, trivial, same⟩

theorem Stays.of_eq {read other : List Piece → Result (Reading α)} (stays : Stays close left other)
    (fits : left.length ≤ tokens.length)
    (same : ∀ rest, read (unread tokens ++ .token close :: rest) =
      other (unread left ++ .token close :: rest)) :
    Stays close tokens read := by
  obtain ⟨outcome, meets, reads⟩ := stays
  refine ⟨outcome, meets.mono fun reading holds => ⟨holds.1, holds.2.trans fits⟩, ?_⟩
  intro rest
  rw [same, reads]

/-- Readers that stay before the bracket can follow each other. The second one is given what the
first has left, which is nested again and not longer. -/
theorem Stays.bind {read : List Piece → Result (Reading α)}
    {next : α → List Piece → Result (Reading β)} (first : Stays close tokens read)
    (second : ∀ value left, WellNested brackets [] left → left.length ≤ tokens.length →
      Stays close left (next value)) :
    Stays close tokens fun pieces => read pieces >>= fun reading => next reading.1 reading.2 := by
  obtain ⟨outcome, meets, reads⟩ := first
  cases outcome with
  | error error =>
      refine .fails error fun rest => ?_
      rw [reads]
      rfl
  | ok reading =>
      refine (second reading.1 reading.2 meets.1 meets.2).of_eq meets.2 fun rest => ?_
      rw [reads]
      rfl

theorem Stays.map {read : List Piece → Result (Reading α)} (first : Stays close tokens read)
    (f : α → β) :
    Stays close tokens fun pieces => read pieces >>= fun reading =>
      .ok (f reading.1, reading.2) := by
  have second (value : α) (left : List String) (nested : WellNested brackets [] left)
      (_ : left.length ≤ tokens.length) :
      Stays close left fun pieces => (.ok (f value, pieces) : Result (Reading β)) :=
    .done nested le_rfl (f value) fun _ => rfl
  exact first.bind second

theorem Stays.prepend {read : List Piece → Result (Reading (List Piece))}
    (first : Stays close tokens read) (argument : Piece) :
    Stays close tokens fun pieces => Reader.prepend [argument] <$> read pieces := by
  refine (first.map (argument :: ·)).of_eq le_rfl fun rest => ?_
  cases read (unread tokens ++ .token close :: rest) with
  | error _ => rfl
  | ok reading => rfl

/-- A reader that stays before the bracket, followed by one that closes it, closes it. This is how
the elements of an array come to their end. -/
theorem Stays.closes {read : List Piece → Result (Reading α)}
    {next : α → List Piece → Result (Reading β)} (first : Stays close tokens read)
    (second : ∀ value left, WellNested brackets [] left → left.length ≤ tokens.length →
      Closes close left (next value)) :
    Closes close tokens fun pieces => read pieces >>= fun reading => next reading.1 reading.2 := by
  obtain ⟨outcome, meets, reads⟩ := first
  cases outcome with
  | error error =>
      refine ⟨.error error, fun rest => ?_⟩
      change read _ >>= _ = _
      rw [reads]
      rfl
  | ok reading =>
      obtain ⟨outcome, closes⟩ := second reading.1 reading.2 meets.1 meets.2
      refine ⟨outcome, fun rest => ?_⟩
      change read _ >>= _ = _
      rw [reads, ← closes]
      rfl

theorem Closes.map {read : List Piece → Result (Reading α)} (closes : Closes close tokens read)
    (f : α → β) :
    Closes close tokens fun pieces => read pieces >>= fun reading =>
      .ok (f reading.1, reading.2) := by
  obtain ⟨outcome, reads⟩ := closes
  refine ⟨f <$> outcome, fun rest => ?_⟩
  change read _ >>= _ = _
  rw [reads]
  cases outcome with
  | error _ => rfl
  | ok value => rfl

/-- What closes a bracket of its own stays before the next one: seen from outside, a group is a
single step. -/
theorem Closes.stays {read : List Piece → Result (Reading α)} {other : String}
    (closes : Closes other tokens read) (nested : WellNested brackets [] left) :
    Stays close (tokens ++ other :: left) read := by
  obtain ⟨outcome, reads⟩ := closes
  refine ⟨(fun value => (value, left)) <$> outcome, ?_, ?_⟩
  · cases outcome with
    | error _ => trivial
    | ok value => exact ⟨nested, by grind⟩
  · intro rest
    rw [Structured.unread_append, Structured.unread_cons, List.append_assoc, List.cons_append,
      reads]
    cases outcome with
    | error _ => rfl
    | ok value => rfl

end

/-! ### Closing brackets and nested tokens -/

section

variable {close : String} (closing : close ∈ closings)
include closing

theorem closing_is {mark : String} (other : mark ∉ closings) :
    (Piece.token close).is mark = false := by
  rw [Piece.is_token, beq_eq_false_iff_ne]
  rintro rfl
  exact other closing

theorem closing_not_value : (Token.isWord close || Token.isQuoted close) = false := by
  revert close
  decide

theorem closing_no_digit : close.toList.head?.any Char.isDigit = false := by
  revert close
  decide

theorem closing_ends : endsArguments close = true := by
  revert close
  decide

theorem closing_head (rest : List Piece) {mark : String} (other : mark ∉ closings) :
    ∀ piece ∈ (Piece.token close :: rest).head?, piece.is mark = false := by
  rintro _ ⟨⟩
  exact closing_is closing other

end

/-- Nested tokens start with a token that is no bracket, or with a group. This is the case split of
every lemma below, and both remainders are nested again. -/
theorem nested_cases {tokens : List String} (nested : WellNested brackets [] tokens) :
    tokens = [] ∨
      (∃ token rest, tokens = token :: rest ∧ token ∉ ["(", ")", "[", "]"] ∧
        WellNested brackets [] rest) ∨
      (∃ inner rest, tokens = "(" :: inner ++ ")" :: rest ∧ WellNested brackets [] inner ∧
        WellNested brackets [] rest) ∨
      ∃ inner rest, tokens = "[" :: inner ++ "]" :: rest ∧ WellNested brackets [] inner ∧
        WellNested brackets [] rest := by
  cases nested with
  | nil => exact .inl rfl
  | @cons _ rest token free _ tail =>
      obtain ⟨notOpen, notClose⟩ := free .round (by decide)
      obtain ⟨notSquare, notCloseSquare⟩ := free .square (by decide)
      refine .inr (.inl ⟨token, rest, rfl, ?_, tail⟩)
      simp_all
  | @group _ inner rest kind known inside tail =>
      cases kind with
      | round => exact .inr (.inr (.inl ⟨inner, rest, rfl, inside, tail⟩))
      | square => exact .inr (.inr (.inr ⟨inner, rest, rfl, inside, tail⟩))
      | curly => exact absurd known (by decide)

/-- Behind a token that is no bracket the tokens are nested. -/
theorem nested_tail {token : String} {rest : List String}
    (nested : WellNested brackets [] (token :: rest)) (free : token ∉ ["(", "["]) :
    WellNested brackets [] rest := by
  rcases nested_cases nested with shape | ⟨_, _, shape, -, tail⟩ | ⟨_, _, shape, -, -⟩ |
    ⟨_, _, shape, -, -⟩
  · cases shape
  · cases shape
    exact tail
  · rw [(List.cons.inj shape).1] at free
    exact absurd (by decide) free
  · rw [(List.cons.inj shape).1] at free
    exact absurd (by decide) free

theorem not_mem_of_holds (p : String → Bool) {token : String} (holds : p token = true)
    {marks : List String} (others : ∀ mark ∈ marks, p mark = false) : token ∉ marks := by
  intro member
  rw [others token member] at holds
  cases holds

/-- The first of nested tokens closes nothing, so a reader that looks for the end of its list does
not find it there. -/
theorem not_mem_closings {token : String} {rest : List String}
    (nested : WellNested brackets [] (token :: rest)) : token ∉ closings := by
  rcases nested_cases nested with shape | ⟨_, _, shape, free, -⟩ | ⟨_, _, shape, -, -⟩ |
    ⟨_, _, shape, -, -⟩
  · cases shape
  · cases shape
    have closings_subset : closings ⊆ ["(", ")", "[", "]"] := by decide
    exact fun member => free (closings_subset member)
  · rw [(List.cons.inj shape).1]
    decide
  · rw [(List.cons.inj shape).1]
    decide

/-! ### Readers -/

/-- The readers stay if they are asked for fewer tokens than `size`. -/
structure Local (registry : Registry) (size : Nat) : Prop where
  trailers : ∀ tokens, tokens.length < size → WellNested brackets [] tokens → ∀ close ∈ closings,
    ∀ indent operand, Stays close tokens ((unbounded registry).trailers indent operand)
  arguments : ∀ tokens, tokens.length < size → WellNested brackets [] tokens → ∀ close ∈ closings,
    ∀ indent, Stays close tokens ((unbounded registry).arguments indent)
  elements : ∀ tokens, tokens.length < size → WellNested brackets [] tokens → ∀ close ∈ closings,
    ∀ indent, Closes close tokens ((unbounded registry).elements indent close)

theorem Local.mono {registry : Registry} {size fewer : Nat} (holds : Local registry size)
    (fits : fewer ≤ size) : Local registry fewer where
  trailers tokens inside := holds.trailers tokens (inside.trans_le fits)
  arguments tokens inside := holds.arguments tokens (inside.trans_le fits)
  elements tokens inside := holds.elements tokens (inside.trans_le fits)

section

variable {registry : Registry} {close : String} (closing : close ∈ closings) (indent : Nat)
include closing

/-- The members at the front end before the bracket, which is no dot. How many tokens they take does
not depend on what is behind it. -/
theorem memberRun_stays : (tokens : List String) → WellNested brackets [] tokens →
    ∃ words left, WellNested brackets [] left ∧ left.length + 2 * words.length = tokens.length ∧
      ∀ rest, memberRun (unread tokens ++ .token close :: rest) =
        (words, unread left ++ .token close :: rest)
  | [], nested =>
      ⟨[], [], nested, rfl, fun rest => memberRun_of_head (closing_head closing rest (by decide))⟩
  | [token], nested => by
      refine ⟨[], [token], nested, rfl, fun rest => ?_⟩
      have notWord := (Bool.or_eq_false_iff.mp (closing_not_value closing)).1
      simp [memberRun, notWord]
  | dot :: word :: rest, nested => by
      by_cases member : (Piece.token dot).is "." = true ∧ Token.isWord word = true
      · have notDot : dot ∉ ["(", "["] := by
          have : dot = "." := by simpa using member.1
          rw [this]
          decide
        have notWord : word ∉ ["(", "["] := Token.not_mem_of_isWord member.2 (by decide)
        obtain ⟨words, left, inside, length, reads⟩ :=
          memberRun_stays rest (nested_tail (nested_tail nested notDot) notWord)
        refine ⟨word :: words, left, inside, by grind, fun behind => ?_⟩
        simp only [Structured.unread_cons, List.cons_append, memberRun, member, Bool.and_self,
          if_true, reads]
      · refine ⟨[], dot :: word :: rest, nested, rfl, fun behind => ?_⟩
        simp only [Structured.unread_cons, List.cons_append, memberRun]
        rw [if_neg (by simpa using member)]

/-- A member or an index takes some of the tokens, and the operand goes on with what is left. That
it stays there is known of shorter lists. -/
theorem trailers_stays {tokens : List String} (shorter : Local registry tokens.length)
    (nested : WellNested brackets [] tokens) (operand : Piece) :
    Stays close tokens ((unbounded registry).trailers indent operand) := by
  obtain ⟨words, left, inside, length, run⟩ := memberRun_stays closing tokens nested
  by_cases members : words ≠ [] ∧ isOperand operand = true
  · have fewer : left.length < tokens.length := by
      have := List.length_pos_iff.mpr members.1
      omega
    have fused := shorter.trailers left fewer inside close closing indent
      (applyMembers operand words.reverse)
    refine fused.of_eq fewer.le fun rest => ?_
    rw [unbounded_trailers, readTrailers.eq_def, fuse?_of_members (run rest) members.1 members.2]
  · have alone (rest : List Piece) := fuse?_of_alone (run rest) members
    have ends (none : ∀ rest, ∀ piece ∈ (unread tokens ++ .token close :: rest).head?,
        piece.is "[" = false) : Stays close tokens ((unbounded registry).trailers indent operand) :=
      .done nested le_rfl operand fun rest => trailers_eq (alone rest) (none rest) indent
    rcases nested_cases nested with rfl | ⟨token, others, rfl, free, -⟩ |
      ⟨inner, others, rfl, -, -⟩ | ⟨inner, others, rfl, inside, tail⟩
    · exact ends fun rest => closing_head closing rest (by decide)
    · apply ends
      rintro rest _ ⟨⟩
      exact Piece.is_of_not_mem free (by decide)
    · apply ends
      rintro rest _ ⟨⟩
      decide
    · have fewer : inner.length < ("[" :: inner ++ "]" :: others).length := by
        simp only [List.length_append, List.length_cons]
        omega
      have indices : Stays close (inner ++ "]" :: others)
          ((unbounded registry).elements indent "]") :=
        (shorter.elements inner fewer inside "]" (by decide) indent).stays tail
      have others (found : List Piece) (left : List String) (nested : WellNested brackets [] left)
          (fits : left.length ≤ (inner ++ "]" :: others).length) :
          Stays close left
            ((unbounded registry).trailers indent (.access indent (some operand) found)) :=
        shorter.trailers left (by simp at fits ⊢; omega) nested close closing indent _
      refine (indices.bind others).of_eq (by simp) fun rest => ?_
      rw [unbounded_trailers, readTrailers.eq_def, alone]
      rfl

/-- The cast of a value, if `as` and a type follow it. -/
def castBehind (indent : Nat) (value : Piece) (pieces : List Piece) : Result (Reading Piece) :=
  match pieces with
  | mark :: type :: after =>
    if mark.isKeyword "as" then do
      let cast ← castTo indent value type
      return (cast, after)
    else return (value, pieces)
  | _ => return (value, pieces)

/-- Behind an `as` the next token is the type. The bracket is none, and so it is refused if it comes
there. -/
theorem castBehind_as_stays {mark : String} {others : List String} (value : Piece)
    (nested : WellNested brackets [] (mark :: others))
    (casts : (Piece.token mark).isKeyword "as" = true) :
    Stays close (mark :: others) (castBehind indent value) := by
  cases others with
  | nil =>
      have noTarget : CastTarget.ofWord? close = none := by
        revert close
        decide
      refine .fails (.unsupportedCast close) fun rest => ?_
      simp only [Structured.unread_cons, Structured.unread_nil, List.cons_append,
        List.nil_append, castBehind, casts, castTo, Piece.text?_token, Option.getD_some, noTarget]
      rfl
  | cons type left =>
      cases found : CastTarget.ofWord? type with
      | none =>
          refine .fails (.unsupportedCast type) fun rest => ?_
          simp only [Structured.unread_cons, List.cons_append, castBehind, casts, castTo,
            Piece.text?_token, Option.getD_some, found]
          rfl
      | some target =>
          have notMark : mark ∉ ["(", "["] :=
            not_mem_of_holds (fun mark => (Piece.token mark).isKeyword "as") casts (by decide)
          have notType : type ∉ ["(", "["] := by
            have isTarget : (CastTarget.ofWord? type).isSome = true := by rw [found]; rfl
            exact not_mem_of_holds (fun type => (CastTarget.ofWord? type).isSome) isTarget
              (by decide)
          have inside := nested_tail (nested_tail nested notMark) notType
          refine .done inside (by grind) (.cast indent target value) fun rest => ?_
          simp only [Structured.unread_cons, List.cons_append, castBehind, casts, castTo,
            Piece.text?_token, Option.getD_some, found]
          rfl

theorem castBehind_stays {tokens : List String} (value : Piece)
    (nested : WellNested brackets [] tokens) :
    Stays close tokens (castBehind indent value) := by
  cases tokens with
  | nil =>
      have notCast : (Piece.token close).isKeyword "as" = false := by
        revert close
        decide
      refine .done nested le_rfl value fun rest => ?_
      cases rest with
      | nil => rfl
      | cons next rest =>
          simp only [Structured.unread_nil, List.nil_append, castBehind, notCast]
          rfl
  | cons mark others =>
      by_cases casts : (Piece.token mark).isKeyword "as" = true
      · exact castBehind_as_stays closing indent value nested casts
      · refine .done nested le_rfl value fun rest => ?_
        cases others with
        | nil =>
            simp only [Structured.unread_cons, Structured.unread_nil, List.cons_append,
              List.nil_append, castBehind, casts]
            rfl
        | cons type left =>
            simp only [Structured.unread_cons, List.cons_append, castBehind, casts]
            rfl

theorem sentinel_stays {tokens : List String} (shorter : Local registry tokens.length)
    (nested : WellNested brackets [] tokens) :
    Stays close tokens ((unbounded registry).sentinel indent (.token "#")) := by
  have mark {token : String} {others : List String} (shape : tokens = token :: others)
      (notOpen : token ≠ "(") :
      Stays close tokens ((unbounded registry).sentinel indent (.token "#")) := by
    subst shape
    have going : (Piece.token token).is "(" = false := by simpa using notOpen
    by_cases value : (Token.isWord token || Token.isQuoted token) = true
    · have tail := nested_tail nested (Token.not_mem_of_isWord_or_isQuoted value (by decide))
      refine .done tail (by simp) (.token (nameLiteral token)) fun rest => ?_
      simp only [Structured.unread_cons, List.cons_append, sentinel, going, Piece.text?_token,
        value]
      rfl
    · refine .done nested le_rfl (.token "#") fun rest => ?_
      simp only [Structured.unread_cons, List.cons_append, sentinel, going, Piece.text?_token,
        value]
      rfl
  rcases nested_cases nested with rfl | ⟨token, others, shape, free, -⟩ |
    ⟨inner, others, rfl, inside, tail⟩ | ⟨inner, others, shape, -, -⟩
  · refine .done .nil le_rfl (.token "#") fun rest => ?_
    have notOpen := closing_is closing (by decide : "(" ∉ closings)
    simp only [Structured.unread_nil, List.nil_append, sentinel, notOpen, Piece.text?_token,
      closing_not_value closing]
    rfl
  · exact mark shape fun same => free (by simp [same])
  · have fewer : inner.length < ("(" :: inner ++ ")" :: others).length := by
      simp only [List.length_append, List.length_cons]
      omega
    have elements : Stays close (inner ++ ")" :: others)
        ((unbounded registry).elements indent ")") :=
      (shorter.elements inner fewer inside ")" (by decide) indent).stays tail
    exact (elements.map (Piece.array indent)).of_eq (by simp) fun _ => rfl
  · exact mark shape (by decide)

theorem negated_stays {tokens : List String} (nested : WellNested brackets [] tokens) :
    Stays close tokens fun pieces => .ok (negated (.token "-") pieces) := by
  have alone {token : String} {others : List String} (shape : tokens = token :: others) :
      Stays close tokens fun pieces => .ok (negated (.token "-") pieces) := by
    subst shape
    by_cases digit : token.toList.head?.any Char.isDigit = true
    · have free : token ∉ ["(", "["] :=
        not_mem_of_holds (fun token => token.toList.head?.any Char.isDigit) digit (by decide)
      refine .done (nested_tail nested free) (by simp) (.token ("-" ++ token)) fun rest => ?_
      simp only [Structured.unread_cons, List.cons_append, negated, if_pos digit]
    · refine .done nested le_rfl (.token "-") fun rest => ?_
      simp only [Structured.unread_cons, List.cons_append, negated, if_neg digit]
  cases tokens with
  | nil =>
      have noDigit := closing_no_digit closing
      refine .done .nil le_rfl (.token "-") fun rest => ?_
      simp only [Structured.unread_nil, List.nil_append, negated, noDigit]
      rfl
  | cons token others => exact alone rfl

section

variable {first : String} {others : List String} (shorter : Local registry (first :: others).length)
  (nested : WellNested brackets [] (first :: others))
include shorter nested

theorem bareOperand_stays :
    Stays close others ((unbounded registry).bareOperand indent (.token first)) := by
  have fewer : Local registry others.length := shorter.mono (by simp)
  rcases nested_cases nested with shape | ⟨token, rest, shape, free, tail⟩ |
    ⟨inner, rest, shape, inside, tail⟩ | ⟨inner, rest, shape, inside, tail⟩
  · cases shape
  · cases shape
    by_cases hash : first = "#"
    · subst hash
      exact (sentinel_stays closing indent fewer tail).of_eq le_rfl fun _ => rfl
    by_cases minus : first = "-"
    · subst minus
      exact (negated_stays closing tail).of_eq le_rfl fun _ => rfl
    · refine .done tail le_rfl (.token first) fun rest => bareOperand_token ?_ indent _
      simp_all
  · obtain ⟨rfl, rfl⟩ := List.cons.inj shape
    have balanced := inside.balanced (by decide : .round ∈ brackets)
    have group : Closes ")" inner ((unbounded registry).bareOperand indent (.token "(")) :=
      ⟨(unbounded registry).block indent .group (unread inner), fun rest =>
        groupAt_balanced _ indent .group balanced rest⟩
    exact group.stays tail
  · obtain ⟨rfl, rfl⟩ := List.cons.inj shape
    have indices : Stays close (inner ++ "]" :: rest)
        ((unbounded registry).elements indent "]") :=
      (fewer.elements inner (by simp) inside "]" (by decide) indent).stays tail
    exact (indices.map (Piece.access indent none)).of_eq le_rfl fun _ => rfl

theorem operand_stays :
    Stays close others ((unbounded registry).operand indent (.token first)) := by
  have bare := bareOperand_stays closing indent shorter nested
  have trailers (operand : Piece) (left : List String) (inside : WellNested brackets [] left)
      (fits : left.length ≤ others.length) :
      Stays close left ((unbounded registry).trailers indent operand) :=
    shorter.trailers left (by grind) inside close closing indent operand
  exact (bare.bind trailers).of_eq le_rfl fun _ => rfl

theorem callOrOperand_stays :
    Stays close others ((unbounded registry).callOrOperand indent (.token first)) := by
  have dot (rest : List Piece) : startsWith "." (unread others ++ .token close :: rest) =
      startsWith "." (unread others) := by
    cases others with
    | nil => exact closing_is closing (by decide)
    | cons next others => rfl
  by_cases calls : registry.isKnownCall first = true ∧ startsWith "." (unread others) = false
  · have callee (rest : List Piece) : (unbounded registry).callee? (.token first)
        (unread others ++ .token close :: rest) = some first := by
      simp [callee?, calls, dot]
    have isWord : Token.isWord first = true := (Bool.and_eq_true_iff.mp calls.1).1
    have tail := nested_tail nested (Token.not_mem_of_isWord isWord (by decide))
    have arguments := shorter.arguments others (by simp) tail close closing indent
    let call (found : List Piece) : Piece :=
      .call indent first found (registry.isBuiltinCall first)
    refine (arguments.map call).of_eq le_rfl fun rest => ?_
    simp only [callOrOperand, callee]
    rfl
  · have callee (rest : List Piece) : (unbounded registry).callee? (.token first)
        (unread others ++ .token close :: rest) = none := by
      have unknown : ¬((unbounded registry).registry.isKnownCall first = true ∧
        startsWith "." (unread others) = false) := calls
      simp only [callee?, Piece.text?_token, dot]
      rw [if_neg (by simpa using unknown)]
    refine (operand_stays closing indent shorter nested).of_eq le_rfl fun rest => ?_
    simp only [callOrOperand, callee]

theorem element_stays :
    Stays close others ((unbounded registry).element indent (.token first)) := by
  have value := callOrOperand_stays closing indent shorter nested
  have cast (value : Piece) (left : List String) (inside : WellNested brackets [] left)
      (_ : left.length ≤ others.length) : Stays close left (castBehind indent value) :=
    castBehind_stays closing indent value inside
  exact (value.bind cast).of_eq le_rfl fun _ => rfl

end

/-- The reader of elements ends at the bracket and nowhere else. It is the only one of these readers
that takes the bracket away. -/
theorem elements_closes {tokens : List String} (shorter : Local registry tokens.length)
    (nested : WellNested brackets [] tokens) :
    Closes close tokens ((unbounded registry).elements indent close) := by
  cases tokens with
  | nil =>
      refine ⟨.ok [], fun rest => ?_⟩
      rw [unbounded_elements, Structured.unread_nil, List.nil_append, readElements,
        if_pos (Piece.is_self close)]
      rfl
  | cons first others =>
      have going := Piece.is_of_not_mem (not_mem_closings nested) closing
      by_cases separates : isSeparator (.token first) = true
      · have free : first ∉ ["(", "["] :=
          not_mem_of_holds (fun token => isSeparator (.token token)) separates (by decide)
        obtain ⟨outcome, reads⟩ :=
          shorter.elements others (by simp) (nested_tail nested free) close closing indent
        refine ⟨outcome, fun rest => ?_⟩
        rw [← reads, unbounded_elements, Structured.unread_cons, List.cons_append, readElements]
        simp only [going, separates]
        rfl
      · have more (element : Piece) (left : List String) (inside : WellNested brackets [] left)
            (fits : left.length ≤ others.length) :
            Closes close left fun pieces => (unbounded registry).elements indent close pieces >>=
              fun reading => .ok (element :: reading.1, reading.2) :=
          (shorter.elements left (by grind) inside close closing indent).map (element :: ·)
        obtain ⟨outcome, reads⟩ := (element_stays closing indent shorter nested).closes more
        refine ⟨outcome, fun rest => ?_⟩
        rw [← reads, unbounded_elements, Structured.unread_cons, List.cons_append, readElements]
        simp only [going, separates]
        rfl

theorem keyValue_stays {tokens : List String} (shorter : Local registry tokens.length)
    (nested : WellNested brackets [] tokens) :
    Stays close tokens ((unbounded registry).keyValue indent argumentStops) := by
  cases tokens with
  | nil =>
      refine .done .nil le_rfl none fun rest => ?_
      have stops : (Piece.token close).isTokenWith argumentStops.contains = true := by
        revert close
        decide
      simp only [Structured.unread_nil, List.nil_append, keyValue, stops]
      rfl
  | cons first others =>
      by_cases stops : (Piece.token first).isTokenWith argumentStops.contains = true
      · refine .done nested le_rfl none fun rest => ?_
        simp only [Structured.unread_cons, List.cons_append, keyValue, stops]
        rfl
      · refine ((operand_stays closing indent shorter nested).map some).of_eq (by simp)
          fun rest => ?_
        simp only [Structured.unread_cons, List.cons_append, keyValue, stops]
        rfl

/-- The arguments behind one that was read are those of a shorter list. -/
theorem argumentsBehind_stays {tokens left : List String} (shorter : Local registry tokens.length)
    (argument : Piece) (inside : WellNested brackets [] left)
    (fits : left.length < tokens.length) : Stays close left fun pieces =>
      prepend [argument] <$> (unbounded registry).arguments indent pieces :=
  (shorter.arguments left fits inside close closing indent).prepend argument

theorem arguments_keyed_stays {key : String} {behind : List String}
    (shorter : Local registry (key :: ":" :: behind).length)
    (nested : WellNested brackets [] (key :: ":" :: behind)) (isWord : Token.isWord key = true) :
    Stays close (key :: ":" :: behind) ((unbounded registry).arguments indent) := by
  have free := Token.not_mem_of_isWord isWord (by decide : ∀ mark ∈ ["(", "["], _)
  have inside := nested_tail (nested_tail nested free) (by decide)
  have fewer : behind.length ≤ (key :: ":" :: behind).length := by
    simp only [List.length_cons]
    omega
  have value := keyValue_stays closing indent (shorter.mono fewer) inside
  have others (value : Option Piece) (left : List String) (inside : WellNested brackets [] left)
      (fits : left.length ≤ behind.length) : Stays close left fun pieces =>
        prepend [.binding indent key value true] <$>
          (unbounded registry).arguments indent pieces :=
    argumentsBehind_stays closing indent shorter _ inside (by grind)
  exact (value.bind others).of_eq fewer fun rest => arguments_keyed indent isWord _

/-- An argument that starts with a token other than a round bracket: a key with its value, or an
operand. -/
theorem arguments_cons_stays {first : String} {others : List String}
    (shorter : Local registry (first :: others).length)
    (nested : WellNested brackets [] (first :: others))
    (notOpen : (Piece.token first).is "(" = false) :
    Stays close (first :: others) ((unbounded registry).arguments indent) := by
  by_cases keyed : Token.isWord first = true ∧ others.head? = some ":"
  · obtain ⟨behind, rfl⟩ := List.head?_eq_some_iff.mp keyed.2
    exact arguments_keyed_stays closing indent shorter nested keyed.1
  · have noKey (rest : List Piece) :
        key? (.token first) (unread others ++ .token close :: rest) = none := by
      cases others with
      | nil => exact key?_of_head (closing_head closing rest (by decide)) _
      | cons next others =>
          simp only [Structured.unread_cons, List.cons_append, key?, Piece.text?_token]
          rw [if_neg (by simpa using keyed)]
    by_cases ends : (Piece.token first).isTokenWith endsArguments = true
    · refine .done nested le_rfl [] fun rest => ?_
      rw [unbounded_arguments, Structured.unread_cons, List.cons_append, readArguments]
      simp only [notOpen, noKey, ends]
      rfl
    · have argument := operand_stays closing indent shorter nested
      have later (argument : Piece) (left : List String) (inside : WellNested brackets [] left)
          (fits : left.length ≤ others.length) : Stays close left fun pieces =>
            prepend [argument] <$> (unbounded registry).arguments indent pieces :=
        argumentsBehind_stays closing indent shorter argument inside (by grind)
      exact (argument.bind later).of_eq (by simp) fun rest =>
        arguments_operand indent notOpen (noKey rest) (Bool.not_eq_true _ ▸ ends)

theorem arguments_group_stays {inner others : List String}
    (shorter : Local registry ("(" :: inner ++ ")" :: others).length)
    (inside : WellNested brackets [] inner) (tail : WellNested brackets [] others) :
    Stays close ("(" :: inner ++ ")" :: others) ((unbounded registry).arguments indent) := by
  have shape (rest : List Piece) :
      unread ("(" :: inner ++ ")" :: others) ++ .token close :: rest =
        .token "(" :: unread inner ++ .token ")" :: (unread others ++ .token close :: rest) := by
    simp
  by_cases empty : inner = []
  · subst empty
    have fewer : others.length ≤ (["("] ++ ")" :: others).length := by
      simp only [List.length_append, List.length_cons]
      omega
    exact .done tail fewer [] fun rest => arguments_empty indent _
  · have balanced := inside.balanced (by decide : .round ∈ brackets)
    have nonempty : unread inner ≠ [] := by simpa [unread] using empty
    cases read : (unbounded registry).block indent .argument (unread inner) with
    | error error =>
        refine .fails error fun rest => ?_
        rw [shape, arguments_group indent balanced nonempty, read]
        rfl
    | ok block =>
        have later := argumentsBehind_stays closing indent shorter block tail (by grind)
        refine later.of_eq (by grind) fun rest => ?_
        rw [shape, arguments_group indent balanced nonempty, read]
        rfl

/-- Arguments without brackets end at the latest before a closing bracket, and leave it to whoever
has opened it. -/
theorem arguments_stays {tokens : List String} (shorter : Local registry tokens.length)
    (nested : WellNested brackets [] tokens) :
    Stays close tokens ((unbounded registry).arguments indent) := by
  rcases nested_cases nested with rfl | ⟨first, others, rfl, free, -⟩ |
    ⟨inner, others, rfl, inside, tail⟩ | ⟨inner, others, rfl, -, -⟩
  · -- Nothing is left but the bracket, which is no argument and ends them.
    have notOpen := closing_is closing (by decide : "(" ∉ closings)
    have notWord := (Bool.or_eq_false_iff.mp (closing_not_value closing)).1
    have noKey (rest : List Piece) := key?_of_not_isWord notWord rest
    have ends : (Piece.token close).isTokenWith endsArguments = true := closing_ends closing
    refine .done .nil le_rfl [] fun rest => ?_
    rw [unbounded_arguments, Structured.unread_nil, List.nil_append, readArguments]
    simp only [notOpen, noKey, ends]
    rfl
  · have notOpen : (Piece.token first).is "(" = false := Piece.is_of_not_mem free (by decide)
    exact arguments_cons_stays closing indent shorter nested notOpen
  · exact arguments_group_stays closing indent shorter inside tail
  · exact arguments_cons_stays closing indent shorter nested (by decide)

end

/-- Before a closing bracket, the readers of operands do not look further. The induction is on the
number of tokens, as the readers call each other on shorter lists. -/
theorem isLocal (registry : Registry) (size : Nat) : Local registry size := by
  induction size with
  | zero => exact ⟨by simp, by simp, by simp⟩
  | succ size ih =>
      have fewer {tokens : List String} (fits : tokens.length < size + 1) :
          Local registry tokens.length :=
        ih.mono (Nat.le_of_lt_succ fits)
      constructor
      · intro tokens fits nested close closing indent operand
        exact trailers_stays closing indent (fewer fits) nested operand
      · intro tokens fits nested close closing indent
        exact arguments_stays closing indent (fewer fits) nested
      · intro tokens fits nested close closing indent
        exact elements_closes closing indent (fewer fits) nested

def elementsOf (registry : Registry) (indent : Nat) (close : String) (contents : List String) :
    Result (List Piece) :=
  Prod.fst <$> (unbounded registry).elements indent close (unread contents ++ [.token close])

/-- What stands behind the closing bracket makes no difference, neither to the elements nor to
whether they can be read. -/
theorem elements_eq {registry : Registry} {contents : List String}
    (nested : WellNested brackets [] contents) {close : String} (closing : close ∈ closings)
    (indent : Nat) (rest : List Piece) :
    (unbounded registry).elements indent close (unread contents ++ .token close :: rest) =
      (fun found => (found, rest)) <$> elementsOf registry indent close contents := by
  obtain ⟨outcome, reads⟩ := elements_closes closing indent (isLocal registry _) nested
  rw [elementsOf, reads, reads]
  cases outcome with
  | error _ => rfl
  | ok found => rfl

end Maxscript.Reader
