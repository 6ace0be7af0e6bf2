import Maxscript.Proofs.Reader.Definition
import Maxscript.Proofs.Signature.Text

/-!
# Reading the parameters of a signature

Each parameter becomes one binding with its default as it is written, except for numbers. A number
is put together from several tokens only if it is a minus sign before digits, or digits around a
point: of every other number the first part becomes the default, and the digits that are left become
parameters of their own. So a list of parameters is read as it is written exactly if all its numbers
are of these forms; if not, there are more bindings than parameters.
-/

namespace Maxscript.Signature

open Reader (unbounded Ends ends_cons memberRun_of_head fuse?_of_head key?_of_head trailers_eq
  bareOperand_token prepend map_prepend map_prepend_nil parameterStops parameters_cons
  parameters_keyed parameters_loose)
open Structured (unread)
open Token (respelled otherTokens ne_of_isWord not_mem_of_isWord)

variable {registry : Registry}

/-! ### What is read -/

namespace Number

/-- The default that a number is read to, and the tokens that are left of it. -/
def reading (number : Number registry) : String × List String :=
  match number.negative, number.mantissa with
  | false, .integer digits => (digits.text, number.power)
  | false, .decimal whole fraction => (whole.text ++ "." ++ fraction.text, number.power)
  | false, .point fraction => (".", fraction.text :: number.power)
  | true, .integer digits => ("-" ++ digits.text, number.power)
  | true, .decimal whole fraction => ("-" ++ whole.text, "." :: fraction.text :: number.power)
  | true, .point fraction => ("-", "." :: fraction.text :: number.power)

/-- Whether a number is read to a single default. -/
def isWhole (number : Number registry) : Bool :=
  number.exponent.isNone && match number.negative, number.mantissa with
    | _, .integer _ => true
    | false, .decimal _ _ => true
    | _, _ => false

end Number

namespace Default

def spelled : Default registry → String
  | .ofWord word => word.spelled
  | .ofNumber number => String.join number.tokens
  | .ofString quotation => quotation.text

def reading : Default registry → String × List String
  | .ofWord word => (word.spelled, [])
  | .ofNumber number => number.reading
  | .ofString quotation => (quotation.text, [])

def isWhole : Default registry → Bool
  | .ofNumber number => number.isWhole
  | _ => true

end Default

namespace Parameter

def binding (indent : Nat) : Parameter registry → Piece
  | .positional word => .binding indent word.spelled none false
  | .keyed key default => .binding indent key.spelled (some (.token default.spelled)) true

def bindings (indent : Nat) : Parameter registry → List Piece
  | .positional word => [.binding indent word.spelled none false]
  | .keyed key default =>
    .binding indent key.spelled (some (.token default.reading.1)) true ::
      (default.reading.2.filter Token.isWord).map (.binding indent · none false)

def isWhole : Parameter registry → Bool
  | .positional _ => true
  | .keyed _ default => default.isWhole

end Parameter

/-! ### Operands -/

/-- Characters that are no letters or numbers: the signs and quotes that a default starts with. -/
theorem not_isAlphanumeric {c : Char} (other : c = '-' ∨ c = '"' ∨ c = '\'') :
    Unicode.isAlphanumeric c = false := by
  rcases other with rfl | rfl | rfl <;> decide

namespace Digits

variable (digits : Digits registry)

theorem head?_foldCase : ∃ c ∈ figures, (Text.foldCase digits.text).toList.head? = some c := by
  obtain ⟨c, member, head⟩ := digits.exists_figure
  have all : (figures.all fun c => c.toLower == c) = true := by decide
  have small : c.toLower = c := by simpa using List.all_eq_true.mp all c member
  refine ⟨c, member, ?_⟩
  simp [Text.foldCase, List.head?_map, head, small]

theorem foldCase_not_mem {words : List String}
    (letters : words.all (fun word => word.toList.head?.all fun c => !figures.contains c) = true) :
    Text.foldCase digits.text ∉ words := by
  intro found
  obtain ⟨c, member, head⟩ := digits.head?_foldCase
  have letter := List.all_eq_true.mp letters _ found
  rw [head, Option.all_some, List.contains_iff_mem.mpr member] at letter
  cases letter

theorem isOperand : Reader.isOperand (.token digits.text) = true := by
  have unreserved : Token.isReserved digits.text = false := by
    rw [Token.isReserved, Bool.eq_false_iff]
    intro found
    exact digits.foldCase_not_mem (by decide) (List.contains_iff_mem.mp found)
  simp [Reader.isOperand, digits.isWord, unreserved]

theorem negated (rest : List Piece) :
    Reader.negated (.token "-") (.token digits.text :: rest) =
      (.token ("-" ++ digits.text), rest) := by
  obtain ⟨c, member, head⟩ := digits.exists_figure
  have all : figures.all Char.isDigit = true := by decide
  have isDigit := List.all_eq_true.mp all c member
  rw [Reader.negated, if_pos (by simp [head, isDigit])]

/-- Digits behind a point are taken for a member, so a decimal is put together by the same rule as a
name with members. -/
theorem memberRun_eq (fraction : Digits registry) {rest : List Piece}
    (noMember : ∀ piece ∈ rest.head?, piece.is "." = false) :
    Reader.memberRun (.token "." :: .token fraction.text :: rest) = ([fraction.text], rest) := by
  rw [Reader.memberRun, if_pos (by simp [fraction.isWord]), memberRun_of_head noMember]

theorem fuse?_eq (fraction : Digits registry) {rest : List Piece}
    (noMember : ∀ piece ∈ rest.head?, piece.is "." = false) :
    Reader.fuse? (.token digits.text) (.token "." :: .token fraction.text :: rest) =
      some (.token (digits.text ++ "." ++ fraction.text), rest) := by
  have uncounted : Text.foldCase fraction.text ≠ "count" := fun same =>
    fraction.foldCase_not_mem (by decide : ["count"].all _ = true) (by simp [same])
  rw [Reader.fuse?, fraction.memberRun_eq noMember]
  simp [digits.isOperand, Reader.applyMembers, uncounted, Reader.joinMembers, String.append_assoc]

end Digits

/-- What starts with a sign cannot have members. A negative decimal therefore falls apart at its
point. -/
theorem fuse?_signed {token : String} (signed : token.toList.head? = some '-')
    (rest : List Piece) : Reader.fuse? (.token token) rest = none := by
  obtain ⟨others, shape⟩ : ∃ others, token.toList = '-' :: others := by
    rw [List.head?_eq_some_iff] at signed
    exact signed
  have notWord : Token.isWord token = false := by
    simp [Token.isWord, shape, not_isAlphanumeric (.inl rfl)]
  have other {mark : String} (differs : mark.toList.head? ≠ some '-') : token ≠ mark := by
    rintro rfl
    exact differs signed
  have barred : Reader.isOperand (.token token) = false := by
    have close : token ≠ ")" := other (by decide)
    have closeSquare : token ≠ "]" := other (by decide)
    simp [Reader.isOperand, notWord, Token.isQuoted, shape, close, closeSquare]
  rw [Reader.fuse?]
  split
  · rfl
  · rw [if_neg (by simp [barred])]

/-! ### Defaults -/

/-- Tokens that are not the whole default of a key. -/
def edgeMarks : List String := parameterStops ++ ["(", "[", "#", "-"]

theorem Number.map_respelled (number : Number registry) :
    number.tokens.map (respelled registry) = number.tokens := by
  have dot : respelled registry "." = "." := respelled_mark (by decide)
  have sign (sign : Sign) : respelled registry sign.text = sign.text := by
    cases sign with
    | plus => exact respelled_mark (by decide)
    | minus => exact respelled_mark (by decide)
  have minus : respelled registry "-" = "-" := sign .minus
  have power : number.power.map (respelled registry) = number.power := by
    rw [Number.power]
    split
    · rfl
    · next digits _ => simp [sign, digits.kept]
  have mantissa : number.mantissa.tokens.map (respelled registry) = number.mantissa.tokens := by
    cases number.mantissa with
    | integer digits => simp [Mantissa.tokens, digits.kept]
    | decimal whole fraction => simp [Mantissa.tokens, whole.kept, dot, fraction.kept]
    | point fraction => simp [Mantissa.tokens, dot, fraction.kept]
  rw [Number.tokens, List.map_append, List.map_append, power, mantissa]
  split
  · simp [minus]
  · rfl

namespace Quotation

variable (quotation : Quotation)

theorem head?_text : quotation.text.toList.head? = some quotation.quote := by
  simp [text, Token.quotedText]

theorem isWord_text : Token.isWord quotation.text = false := by
  have shape : quotation.text.toList =
      quotation.quote :: (quotation.body ++ [quotation.quote]) := by
    simp [text, Token.quotedText]
  have notUnderscore : quotation.quote ≠ '_' := by
    rcases quotation.isQuote with quote | quote <;> simp [quote]
  simp [Token.isWord, shape, not_isAlphanumeric (.inr quotation.isQuote), notUnderscore]

theorem respelled_text : respelled registry quotation.text = quotation.text := by
  have unspelled := Token.literal?_quotedText quotation.isQuote quotation.body
  rw [← text] at unspelled
  simp [respelled, unspelled, quotation.isWord_text]

theorem not_mem_edgeMarks : quotation.text ∉ edgeMarks := by
  intro member
  have start := quotation.head?_text
  have others : (edgeMarks.all fun mark =>
      mark.toList.head? != some '"' && mark.toList.head? != some '\'') = true := by
    decide
  have other := List.all_eq_true.mp others _ member
  rw [start] at other
  rcases quotation.isQuote with quote | quote <;> simp [quote] at other

end Quotation

section

variable (indent : Nat)

theorem keyValue_token {token : String} (plain : token ∉ edgeMarks) (rest : List Piece) :
    (unbounded registry).keyValue indent parameterStops (.token token :: rest) =
      (fun reading => (some reading.1, reading.2)) <$>
        (unbounded registry).trailers indent (.token token) rest := by
  rw [edgeMarks, List.mem_append, not_or] at plain
  have going : (Piece.token token).isTokenWith parameterStops.contains = false := by
    simpa using plain.1
  rw [Reader.keyValue, going, Reader.operand, bareOperand_token plain.2]
  rfl

theorem keyValue_minus (rest : List Piece) :
    (unbounded registry).keyValue indent parameterStops (.token "-" :: rest) =
      (fun reading => (some reading.1, reading.2)) <$>
        (unbounded registry).trailers indent (Reader.negated (.token "-") rest).1
          (Reader.negated (.token "-") rest).2 := by
  rfl

variable {rest : List Piece} (ends : Ends rest)
include ends

/-- What is left of a number before what follows it. The exponent and its sign are no trailers, so
the value ends before them. -/
theorem Number.ends_power (number : Number registry) : Ends (unread number.power ++ rest) := by
  rw [Number.power]
  split
  · exact ends
  · next sign digits _ =>
      cases sign with
      | plus => exact ends_cons (by decide) _
      | minus => exact ends_cons (by decide) _

/-- How much of a number is read as a value: its digits, a sign or a fraction, but not all of them
together. -/
theorem Number.keyValue_eq (number : Number registry) :
    (unbounded registry).keyValue indent parameterStops (unread number.tokens ++ rest) =
      .ok (some (.token number.reading.1), unread number.reading.2 ++ rest) := by
  have after := number.ends_power ends
  have bare (operand : Piece) : (unbounded registry).trailers indent operand
      (unread number.power ++ rest) = .ok (operand, unread number.power ++ rest) :=
    trailers_eq (fuse?_of_head after.noMember operand) after.noIndex indent
  have first (digits : Digits registry) : digits.text ∉ edgeMarks :=
    not_mem_of_isWord digits.isWord (by decide)
  have apart (digits : Digits registry) (others : List Piece) :
      Ends (.token digits.text :: others) :=
    ends_cons (not_mem_of_isWord digits.isWord (by decide)) others
  obtain ⟨negative, mantissa, exponent⟩ := number
  generalize shape : Number.power ⟨negative, mantissa, exponent⟩ = power at after bare
  cases negative with
  | false =>
      cases mantissa with
      | integer digits =>
          simp only [tokens, reading, shape]
          show (unbounded registry).keyValue indent parameterStops
            (.token digits.text :: (unread power ++ rest)) = _
          rw [keyValue_token indent (first digits), bare]
          rfl
      | decimal whole fraction =>
          simp only [tokens, reading, shape]
          show (unbounded registry).keyValue indent parameterStops (.token whole.text ::
            .token "." :: .token fraction.text :: (unread power ++ rest)) = _
          rw [keyValue_token indent (first whole), Reader.unbounded_trailers,
            Reader.readTrailers.eq_def]
          simp only [whole.fuse?_eq fraction after.noMember, bare]
          rfl
      | point fraction =>
          have next := apart fraction (unread power ++ rest)
          simp only [tokens, reading, shape]
          show (unbounded registry).keyValue indent parameterStops
            (.token "." :: .token fraction.text :: (unread power ++ rest)) = _
          rw [keyValue_token indent (by decide),
            trailers_eq (fuse?_of_head next.noMember _) next.noIndex]
          rfl
  | true =>
      cases mantissa with
      | integer digits =>
          simp only [tokens, reading, shape]
          show (unbounded registry).keyValue indent parameterStops
            (.token "-" :: .token digits.text :: (unread power ++ rest)) = _
          rw [keyValue_minus, digits.negated, bare]
          rfl
      | decimal whole fraction =>
          simp only [tokens, reading, shape]
          show (unbounded registry).keyValue indent parameterStops (.token "-" ::
            .token whole.text :: .token "." :: .token fraction.text :: (unread power ++ rest)) = _
          rw [keyValue_minus, whole.negated,
            trailers_eq (fuse?_signed (by simp) _) (by simp)]
          rfl
      | point fraction =>
          simp only [tokens, reading, shape]
          show (unbounded registry).keyValue indent parameterStops
            (.token "-" :: .token "." :: .token fraction.text :: (unread power ++ rest)) = _
          have alone : Reader.negated (.token "-")
              (.token "." :: .token fraction.text :: (unread power ++ rest)) =
                (.token "-", .token "." :: .token fraction.text :: (unread power ++ rest)) := by
            rfl
          rw [keyValue_minus, alone, trailers_eq (fuse?_signed rfl _) (by simp)]
          rfl

/-- A default is read up to the point where its first value ends, and what is left of it stays among
the parameters. -/
theorem Default.keyValue_eq (default : Default registry) :
    (unbounded registry).keyValue indent parameterStops
        (unread (default.tokens.map (respelled registry)) ++ rest) =
      .ok (some (.token default.reading.1), unread default.reading.2 ++ rest) := by
  have bare (operand : Piece) : (unbounded registry).trailers indent operand rest =
      .ok (operand, rest) :=
    trailers_eq (fuse?_of_head ends.noMember operand) ends.noIndex indent
  cases default with
  | ofWord word =>
      show (unbounded registry).keyValue indent parameterStops (.token word.spelled :: rest) = _
      rw [keyValue_token indent (not_mem_of_isWord word.isWord_spelled (by decide)), bare]
      simp only [reading, Functor.map, Except.map, Structured.unread_nil, List.nil_append]
  | ofNumber number =>
      rw [tokens, number.map_respelled]
      exact number.keyValue_eq indent ends
  | ofString quotation =>
      rw [tokens, List.map_singleton, quotation.respelled_text]
      show (unbounded registry).keyValue indent parameterStops (.token quotation.text :: rest) = _
      rw [keyValue_token indent quotation.not_mem_edgeMarks, bare]
      rfl

end

/-! ### Parameters -/

section

variable (indent : Nat)

/-- A number consists of digits, signs and points. None of them ends the parameters, so what is left
of it is read on with. -/
theorem Number.all_tokens (number : Number registry) :
    (number.tokens.all fun token => Token.isWord token || ["-", "+", "."].contains token) =
      true := by
  have power : (number.power.all fun token =>
      Token.isWord token || ["-", "+", "."].contains token) = true := by
    rw [Number.power]
    split
    · rfl
    · next sign digits _ => cases sign <;> simp [Sign.text, digits.isWord]
  have mantissa : (number.mantissa.tokens.all fun token =>
      Token.isWord token || ["-", "+", "."].contains token) = true := by
    cases number.mantissa with
    | integer digits => simp [Mantissa.tokens, digits.isWord]
    | decimal whole fraction => simp [Mantissa.tokens, whole.isWord, fraction.isWord]
    | point fraction => simp [Mantissa.tokens, fraction.isWord]
  rw [tokens, List.all_append, List.all_append, power, mantissa]
  split
  · simp
  · rfl

theorem Number.reading_suffix (number : Number registry) : number.reading.2 <:+ number.tokens := by
  obtain ⟨negative, mantissa, exponent⟩ := number
  cases negative with
  | false =>
      cases mantissa with
      | integer digits => exact ⟨[digits.text], rfl⟩
      | decimal whole fraction => exact ⟨[whole.text, ".", fraction.text], rfl⟩
      | point fraction => exact ⟨["."], rfl⟩
  | true =>
      cases mantissa with
      | integer digits => exact ⟨["-", digits.text], rfl⟩
      | decimal whole fraction => exact ⟨["-", whole.text], rfl⟩
      | point fraction => exact ⟨["-"], rfl⟩

theorem Number.not_mem_of_mem_reading {number : Number registry} {token : String}
    (member : token ∈ number.reading.2) : token ∉ ["=", ":"] := by
  have inside := number.reading_suffix.subset member
  have kind := List.all_eq_true.mp number.all_tokens token inside
  rw [Bool.or_eq_true] at kind
  rcases kind with isWord | mark
  · exact not_mem_of_isWord isWord (by decide)
  · have apart : (["-", "+", "."].all fun mark => mark != "=" && mark != ":") = true := by decide
    simpa using List.all_eq_true.mp apart token (List.contains_iff_mem.mp mark)

theorem Default.not_mem_of_mem_reading {default : Default registry} {token : String}
    (member : token ∈ default.reading.2) : token ∉ ["=", ":"] := by
  cases default with
  | ofWord word => cases member
  | ofNumber number => exact Number.not_mem_of_mem_reading member
  | ofString quotation => cases member

theorem Word.ends (word : Word registry) (rest : List Piece) : Ends (.token word.spelled :: rest) :=
  ends_cons (not_mem_of_isWord word.isWord_spelled (by decide)) rest

theorem Parameter.ends (parameter : Parameter registry) (rest : List Piece) :
    Ends (unread (parameter.tokens.map (respelled registry)) ++ rest) := by
  cases parameter with
  | positional word => exact word.ends _
  | keyed key default => exact key.ends _

/-- A parameter is read to its bindings: the one that is meant, and one for each word that is left
of its default. -/
theorem Parameter.parameters_eq (parameter : Parameter registry) {rest : List Piece}
    (ends : Ends rest) :
    (unbounded registry).parameters indent
        (unread (parameter.tokens.map (respelled registry)) ++ rest) =
      prepend (parameter.bindings indent) <$> (unbounded registry).parameters indent rest := by
  cases parameter with
  | positional word =>
      have notEnd := ne_of_isWord word.isWord_spelled (by decide : "=" ∈ otherTokens)
      show (unbounded registry).parameters indent (.token word.spelled :: rest) = _
      rw [parameters_cons indent notEnd ends.noColon, List.filter_cons_of_pos word.isWord_spelled]
      rfl
  | keyed key default =>
      have colon : respelled registry ":" = ":" := respelled_mark (by decide)
      have loose : ∀ token ∈ default.reading.2, token ∉ ["=", ":"] :=
        fun _ => Default.not_mem_of_mem_reading
      rw [tokens, List.map_cons, List.map_cons, colon]
      show (unbounded registry).parameters indent (.token key.spelled :: .token ":" ::
        (unread (default.tokens.map (respelled registry)) ++ rest)) = _
      rw [parameters_keyed indent key.isWord_spelled, default.keyValue_eq indent ends]
      show prepend _ <$>
        (unbounded registry).parameters indent (unread default.reading.2 ++ rest) = _
      rw [parameters_loose indent loose ends.noColon, map_prepend]
      rfl

/-- Parameter by parameter, each with the bindings that it is read to. The induction needs that
every parameter ends what is before it. -/
theorem parameters_eq (parameters : List (Parameter registry)) {rest : List Piece}
    (ends : Ends rest) :
    (unbounded registry).parameters indent
        (unread ((parameters.flatMap Parameter.tokens).map (respelled registry)) ++ rest) =
      prepend (parameters.flatMap (Parameter.bindings indent)) <$>
        (unbounded registry).parameters indent rest := by
  induction parameters with
  | nil => exact (map_prepend_nil _).symm
  | cons parameter others ih =>
      have next : Ends
          (unread ((others.flatMap Parameter.tokens).map (respelled registry)) ++ rest) := by
        cases others with
        | nil => exact ends
        | cons other others =>
            rw [List.flatMap_cons, List.map_append, Structured.unread_append, List.append_assoc]
            exact other.ends _
      rw [List.flatMap_cons, List.map_append, Structured.unread_append, List.append_assoc,
        parameter.parameters_eq indent next, ih, map_prepend, List.flatMap_cons]

end

/-! ### What is read as it is written -/

theorem Number.power_eq_nil {number : Number registry} (noPower : number.exponent.isNone = true) :
    number.power = [] := by
  rw [Option.isNone_iff_eq_none] at noPower
  rw [power, noPower]

theorem Number.reading_of_isWhole {number : Number registry} (whole : number.isWhole = true) :
    number.reading = (String.join number.tokens, []) := by
  rw [isWhole, Bool.and_eq_true] at whole
  have none := power_eq_nil whole.1
  have shape := whole.2
  obtain ⟨negative, mantissa, exponent⟩ := number
  cases negative with
  | false =>
      cases mantissa with
      | integer digits => simp [reading, tokens, Mantissa.tokens, none]
      | decimal whole fraction =>
          simp [reading, tokens, Mantissa.tokens, none, String.append_assoc]
      | point fraction => cases shape
  | true =>
      cases mantissa with
      | integer digits => simp [reading, tokens, Mantissa.tokens, none]
      | decimal whole fraction => cases shape
      | point fraction => cases shape

theorem Number.power_suffix (number : Number registry) : number.power <:+ number.reading.2 := by
  obtain ⟨negative, mantissa, exponent⟩ := number
  cases negative with
  | false =>
      cases mantissa with
      | integer digits => exact List.suffix_rfl
      | decimal whole fraction => exact List.suffix_rfl
      | point fraction => exact ⟨[fraction.text], rfl⟩
  | true =>
      cases mantissa with
      | integer digits => exact List.suffix_rfl
      | decimal whole fraction => exact ⟨[".", fraction.text], rfl⟩
      | point fraction => exact ⟨[".", fraction.text], rfl⟩

/-- Digits are left of every other number, and digits are a word. This is where a default is torn
into two parameters. -/
theorem Number.exists_digits_left {number : Number registry} (broken : number.isWhole = false) :
    ∃ digits : Digits registry, digits.text ∈ number.reading.2 := by
  cases power : number.exponent with
  | some signed =>
      refine ⟨signed.2, number.power_suffix.subset ?_⟩
      simp [Number.power, power]
  | none =>
      obtain ⟨negative, mantissa, exponent⟩ := number
      obtain rfl : exponent = none := power
      cases negative with
      | false =>
          cases mantissa with
          | integer digits => cases broken
          | decimal whole fraction => cases broken
          | point fraction => exact ⟨fraction, by simp [reading]⟩
      | true =>
          cases mantissa with
          | integer digits => cases broken
          | decimal whole fraction => exact ⟨fraction, by simp [reading]⟩
          | point fraction => exact ⟨fraction, by simp [reading]⟩

theorem Parameter.bindings_of_isWhole {parameter : Parameter registry}
    (whole : parameter.isWhole = true) (indent : Nat) :
    parameter.bindings indent = [parameter.binding indent] := by
  cases parameter with
  | positional word => rw [bindings, binding]
  | keyed key default =>
      have read : default.reading = (default.spelled, []) := by
        cases default with
        | ofWord word => rw [Default.reading, Default.spelled]
        | ofNumber number => exact Number.reading_of_isWhole whole
        | ofString quotation => rfl
      rw [bindings, binding, read, List.filter_nil, List.map_nil]

/-- A parameter whose default is torn has a second binding at least, and no later one can make up
for it. -/
theorem Parameter.two_le_length_bindings {parameter : Parameter registry}
    (broken : parameter.isWhole = false) (indent : Nat) :
    2 ≤ (parameter.bindings indent).length := by
  cases parameter with
  | positional word => cases broken
  | keyed key default =>
      cases default with
      | ofWord word => cases broken
      | ofNumber number =>
          obtain ⟨digits, left⟩ := Number.exists_digits_left broken
          have found := List.length_pos_of_mem (List.mem_filter.mpr ⟨left, digits.isWord⟩)
          simp only [bindings, Default.reading, List.length_cons, List.length_map]
          omega
      | ofString quotation => cases broken

theorem Parameter.length_bindings_pos (parameter : Parameter registry) (indent : Nat) :
    0 < (parameter.bindings indent).length := by
  cases parameter with
  | positional word => exact Nat.one_pos
  | keyed key default => exact Nat.succ_pos _

section

variable (indent : Nat)

theorem flatMap_bindings_of_isWhole {parameters : List (Parameter registry)}
    (whole : parameters.all Parameter.isWhole = true) :
    parameters.flatMap (Parameter.bindings indent) = parameters.map (Parameter.binding indent) := by
  induction parameters with
  | nil => rfl
  | cons parameter others ih =>
      rw [List.all_cons, Bool.and_eq_true] at whole
      rw [List.flatMap_cons, List.map_cons, Parameter.bindings_of_isWhole whole.1, ih whole.2,
        List.singleton_append]

theorem length_le_flatMap_bindings (parameters : List (Parameter registry)) :
    parameters.length ≤ (parameters.flatMap (Parameter.bindings indent)).length := by
  induction parameters with
  | nil => exact Nat.le_refl 0
  | cons parameter others ih =>
      have here := parameter.length_bindings_pos indent
      rw [List.flatMap_cons, List.length_append, List.length_cons]
      omega

/-- If a default is not read to a single one, there are more bindings than parameters, so the
function cannot be read as it is written. -/
theorem length_lt_flatMap_bindings {parameters : List (Parameter registry)}
    (broken : parameters.all Parameter.isWhole = false) :
    parameters.length < (parameters.flatMap (Parameter.bindings indent)).length := by
  induction parameters with
  | nil => cases broken
  | cons parameter others ih =>
      rw [List.flatMap_cons, List.length_append, List.length_cons]
      cases whole : parameter.isWhole with
      | false =>
          have here := Parameter.two_le_length_bindings whole indent
          have rest := length_le_flatMap_bindings indent others
          omega
      | true =>
          rw [List.all_cons, whole, Bool.true_and] at broken
          have here := parameter.length_bindings_pos indent
          have rest := ih broken
          omega

end

end Maxscript.Signature
