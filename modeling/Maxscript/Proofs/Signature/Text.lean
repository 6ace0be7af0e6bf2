import Mathlib.Data.List.Basic
import Maxscript.Piece
import Maxscript.Proofs.Token.Front

/-!
# The text of a signature

A function starts with `fn`, its name, its parameters and `=`. A parameter is a word, or a key with
a default: a word, a number or a string. The last key may stand without a default. `Signature.text`
writes this down, and here the text is followed through the lexer: it is cut into the tokens that it
is made of, except that the colon of a last key is merged with the `=` after it.
-/

namespace Maxscript

namespace Signature

open Token (Passes Opens IsRun respelled ligatures otherTokens not_isWord ne_of_isWord
  not_mem_of_isWord)

variable {registry : Registry}

/-! ### What is written -/

/-- A word of the text that is read as a word. -/
structure Word (registry : Registry) where
  text : String
  isRun : IsRun text
  isWord : Token.isWord (respelled registry text) = true

def looksLikeWord (registry : Registry) (text : String) : Bool :=
  text != "" && text.toList.all Unicode.isWordCharacter && !Token.isQualifier text &&
    Token.isWord (respelled registry text)

def Word.ofText (text : String) (checked : looksLikeWord registry text = true) : Word registry :=
  have parts : ((text ≠ "" ∧ text.toList.all Unicode.isWordCharacter = true) ∧
      Token.isQualifier text = false) ∧ Token.isWord (respelled registry text) = true := by
    simpa [looksLikeWord] using checked
  ⟨text, ⟨parts.1.1.1, parts.1.1.2, parts.1.2⟩, parts.2⟩

def Word.spelled (word : Word registry) : String := respelled registry word.text

def figures : List Char := "0123456789".toList

/-- The digits of a number, and what letters it may have behind them. -/
structure Digits (registry : Registry) where
  text : String
  isRun : IsRun text
  digit : text.toList.head?.any figures.contains = true
  kept : respelled registry text = text

def Digits.ofText (text : String) (checked : (looksLikeWord registry text &&
    text.toList.head?.any figures.contains && respelled registry text == text) = true) :
    Digits registry :=
  have parts : (looksLikeWord registry text = true ∧
      text.toList.head?.any figures.contains = true) ∧ respelled registry text = text := by
    simpa only [Bool.and_eq_true, beq_iff_eq] using checked
  ⟨text, (Word.ofText text parts.1.1).isRun, parts.1.2, parts.2⟩

/-- The digits of a number without its sign, with or without a point. -/
inductive Mantissa (registry : Registry) where
  | integer (digits : Digits registry)
  | decimal (whole fraction : Digits registry)
  | point (fraction : Digits registry)

def Mantissa.tokens : Mantissa registry → List String
  | .integer digits => [digits.text]
  | .decimal whole fraction => [whole.text, ".", fraction.text]
  | .point fraction => [".", fraction.text]

inductive Sign where
  | plus
  | minus

def Sign.text : Sign → String
  | .plus => "+"
  | .minus => "-"

/-- A number. An exponent without a sign belongs to the digits before it. -/
structure Number (registry : Registry) where
  negative : Bool
  mantissa : Mantissa registry
  exponent : Option (Sign × Digits registry)

namespace Number

def power (number : Number registry) : List String :=
  match number.exponent with
  | none => []
  | some (sign, digits) => [sign.text, digits.text]

def tokens (number : Number registry) : List String :=
  (if number.negative then ["-"] else []) ++ number.mantissa.tokens ++ number.power

end Number

/-- A string in quotes of either kind, without such a quote inside. -/
structure Quotation where
  quote : Char
  body : List Char
  isQuote : quote = '"' ∨ quote = '\''
  isBody : Token.isStringBody quote body = true

def Quotation.text (quotation : Quotation) : String :=
  Token.quotedText quotation.quote quotation.body

inductive Default (registry : Registry) where
  | ofWord (word : Word registry)
  | ofNumber (number : Number registry)
  | ofString (quotation : Quotation)

namespace Default

def tokens : Default registry → List String
  | .ofWord word => [word.text]
  | .ofNumber number => number.tokens
  | .ofString quotation => [quotation.text]

end Default

inductive Parameter (registry : Registry) where
  | positional (word : Word registry)
  | keyed (key : Word registry) (default : Default registry)

namespace Parameter

def tokens : Parameter registry → List String
  | .positional word => [word.text]
  | .keyed key default => key.text :: ":" :: default.tokens

/-- A parameter is written without anything between its tokens. -/
def text (parameter : Parameter registry) : String := String.join parameter.tokens ++ " "

end Parameter

end Signature

/-- The start of a function. The last key, if there is one, has no default. -/
structure Signature (registry : Registry) where
  name : Signature.Word registry
  parameters : List (Signature.Parameter registry)
  lastKey : Option (Signature.Word registry)

namespace Signature

open Token (Passes Opens IsRun respelled ligatures otherTokens not_isWord ne_of_isWord
  not_mem_of_isWord)

variable {registry : Registry}

/-- The text up to the bracket of the body. -/
def text (signature : Signature registry) : String :=
  "fn " ++ signature.name.text ++ " " ++
    String.join (signature.parameters.map Parameter.text) ++
    match signature.lastKey with
    | none => "= "
    | some key => key.text ++ ": = "

def tokens (signature : Signature registry) : List String :=
  "fn" :: signature.name.text :: signature.parameters.flatMap Parameter.tokens ++
    match signature.lastKey with
    | none => ["="]
    | some key => [key.text, ":="]

/-! ### Words and digits -/

theorem respelled_mark {mark : String} (other : mark ∈ otherTokens) :
    respelled registry mark = mark := by
  have unspelled : ∀ mark ∈ otherTokens, Token.literal? mark = none := by decide
  simp [respelled, unspelled mark other, not_isWord other]

theorem Word.isWord_spelled (word : Word registry) : Token.isWord word.spelled = true := word.isWord

namespace Digits

variable (digits : Digits registry)

theorem exists_figure : ∃ c ∈ figures, digits.text.toList.head? = some c := by
  have digit := digits.digit
  cases shape : digits.text.toList.head? with
  | none => simp [shape] at digit
  | some c =>
      rw [shape, Option.any_some] at digit
      exact ⟨c, List.contains_iff_mem.mp digit, rfl⟩

theorem isWord : Token.isWord digits.text = true := by
  obtain ⟨c, member, head⟩ := digits.exists_figure
  have all : (figures.all Unicode.isAlphanumeric) = true := by decide +kernel
  have alphanumeric := List.all_eq_true.mp all c member
  rw [Token.isWord.eq_def]
  cases shape : digits.text.toList with
  | nil => simp [shape] at head
  | cons first rest =>
      obtain rfl : first = c := by simpa [shape] using head
      simp [alphanumeric]

end Digits

/-! ### What the text is cut into -/

/-- A text that can stand behind a sign or a colon. -/
structure Leads (next : Char) (text : List Char) (token : String) (tokens : List String) :
    Prop where
  single : next ≠ '-'
  notDash : token ≠ "-"
  apart : ∀ mark ∈ [":", "-"], ∀ sequence ∈ ligatures, ¬[mark, token] <+: Token.spelling sequence
  passes : Passes (next :: text) (token :: tokens)

section

variable {text : List Char} {tokens : List String}

theorem Digits.leads (digits : Digits registry)
    (passes : Passes (digits.text.toList ++ text) (digits.text :: tokens)) :
    ∃ next others, digits.text.toList ++ text = next :: others ∧
      Leads next others digits.text tokens := by
  obtain ⟨c, cs, shape, -⟩ := digits.isRun.exists_cons
  rw [shape] at passes ⊢
  refine ⟨c, cs ++ text, rfl, ?_, ?_, ?_, passes⟩
  · rintro rfl
    exact digits.isRun.not_mem (by decide : '-' ∈ Token.otherCharacters) (by simp [shape])
  · exact ne_of_isWord digits.isWord (by decide)
  · exact fun mark _ => digits.isRun.apart mark

theorem Digits.passes_point (fraction : Digits registry)
    (passes : Passes (fraction.text.toList ++ text) (fraction.text :: tokens)) :
    Passes ('.' :: (fraction.text.toList ++ text)) ("." :: fraction.text :: tokens) :=
  passes.mark (by decide) (by decide) (Token.not_isWordCharacter (by decide)) (by decide)
    (by decide) (fraction.isRun.apart ".")

theorem Digits.passes_sign (digits : Digits registry) (sign : Sign)
    (passes : Passes (digits.text.toList ++ text) (digits.text :: tokens)) :
    Passes (sign.text.toList ++ (digits.text.toList ++ text))
      (sign.text :: digits.text :: tokens) := by
  cases sign with
  | plus =>
      exact passes.mark (by decide) (by decide) (Token.not_isWordCharacter (by decide))
        (by decide) (by decide) (digits.isRun.apart "+")
  | minus =>
      obtain ⟨next, others, shape, leads⟩ := digits.leads passes
      rw [shape]
      exact leads.passes.hyphen leads.single leads.notDash (leads.apart "-" (by decide))

end

namespace Number

variable (number : Number registry)

/-- What is behind the digits of a number starts with a character that is not part of words, so the
digits are a token by themselves. -/
theorem passes_power : ∃ next text, (String.join number.power).toList ++ [' '] = next :: text ∧
    next ∈ Token.otherCharacters ∧ Passes (next :: text) number.power := by
  have blank : Passes [' '] [] := Passes.nil.blank
  rw [power]
  split
  · exact ⟨' ', [], by simp, by decide, blank⟩
  · next sign digits _ =>
      have passes := digits.passes_sign sign
        (Passes.word digits.isRun (Token.not_isWordCharacter (by decide)) blank)
      cases sign with
      | plus => exact ⟨'+', digits.text.toList ++ [' '], by simp [Sign.text], by decide, passes⟩
      | minus => exact ⟨'-', digits.text.toList ++ [' '], by simp [Sign.text], by decide, passes⟩

theorem passes_digits (digits : Digits registry) :
    Passes (digits.text.toList ++ ((String.join number.power).toList ++ [' ']))
      (digits.text :: number.power) := by
  obtain ⟨next, text, shape, other, passes⟩ := number.passes_power
  rw [shape]
  exact Passes.word digits.isRun (Token.not_isWordCharacter other) passes

theorem leads : ∃ next text token tokens,
    (String.join (number.mantissa.tokens ++ number.power)).toList ++ [' '] = next :: text ∧
      number.mantissa.tokens ++ number.power = token :: tokens ∧ Leads next text token tokens := by
  cases number.mantissa with
  | integer digits =>
      obtain ⟨next, text, shape, leads⟩ := digits.leads (number.passes_digits digits)
      refine ⟨next, text, _, _, ?_, rfl, leads⟩
      rw [← shape]
      simp [Mantissa.tokens]
  | decimal whole fraction =>
      have point := fraction.passes_point (number.passes_digits fraction)
      obtain ⟨next, text, shape, leads⟩ := whole.leads
        (Passes.word whole.isRun (Token.not_isWordCharacter (by decide)) point)
      refine ⟨next, text, _, _, ?_, rfl, leads⟩
      rw [← shape]
      simp [Mantissa.tokens]
  | point fraction =>
      have point := fraction.passes_point (number.passes_digits fraction)
      refine ⟨_, _, _, _, ?_, rfl, ?_, ?_, ?_, point⟩
      · simp [Mantissa.tokens]
      · decide
      · decide
      · decide

/-- A number is cut into its tokens, and the first is not merged with a colon. A default may follow
its key without a blank. -/
theorem passes : ∃ token tokens, number.tokens = token :: tokens ∧
    (∀ sequence ∈ ligatures, ¬[":", token] <+: Token.spelling sequence) ∧
    Passes ((String.join number.tokens).toList ++ [' ']) (token :: tokens) := by
  obtain ⟨next, text, token, tokens, shape, cut, leads⟩ := number.leads
  rw [Number.tokens, List.append_assoc, cut]
  rw [cut] at shape
  split
  · refine ⟨"-", token :: tokens, rfl, by decide, ?_⟩
    have hyphen := leads.passes.hyphen leads.single leads.notDash (leads.apart "-" (by decide))
    rw [← shape] at hyphen
    simpa using hyphen
  · refine ⟨token, tokens, rfl, leads.apart ":" (by decide), ?_⟩
    rw [List.nil_append, shape]
    exact leads.passes

end Number

theorem Default.passes (default : Default registry) :
    ∃ token tokens, default.tokens = token :: tokens ∧
      (∀ sequence ∈ ligatures, ¬[":", token] <+: Token.spelling sequence) ∧
      Passes ((String.join default.tokens).toList ++ [' ']) (token :: tokens) := by
  have blank : Passes [' '] [] := Passes.nil.blank
  cases default with
  | ofWord word =>
      refine ⟨word.text, [], rfl, word.isRun.apart ":", ?_⟩
      have passes := Passes.word word.isRun (Token.not_isWordCharacter (by decide)) blank
      simpa [tokens] using passes
  | ofNumber number => exact number.passes
  | ofString quotation =>
      have passes := Passes.quoted quotation.isQuote quotation.isBody blank
      refine ⟨quotation.text, [], rfl, ?_, ?_⟩
      · intro sequence member starts
        have spelled : quotation.text ∈ Token.spelling sequence := starts.subset (by simp)
        exact Token.quotedText_not_mem quotation.isQuote quotation.body member spelled
      · simpa [tokens, Quotation.text] using passes

/-- A parameter is cut into its tokens. The blank behind it is part of its text, which is why
parameters can be put next to each other. -/
theorem Parameter.passes (parameter : Parameter registry) :
    Passes parameter.text.toList parameter.tokens := by
  have blank : Passes [' '] [] := Passes.nil.blank
  cases parameter with
  | positional word =>
      have passes := Passes.word word.isRun (Token.not_isWordCharacter (by decide)) blank
      simpa [text, tokens] using passes
  | keyed key default =>
      obtain ⟨token, others, shape, apart, passes⟩ := default.passes
      have colon := passes.mark (by decide : ¬(':' = '"' ∨ ':' = '\'')) (by decide)
        (Token.not_isWordCharacter (by decide)) (by decide) (by decide) apart
      have whole := Passes.word key.isRun (Token.not_isWordCharacter (by decide)) colon
      rw [← shape] at whole
      simpa [text, tokens] using whole

theorem passes_parameters (parameters : List (Parameter registry)) :
    Passes (String.join (parameters.map Parameter.text)).toList
      (parameters.flatMap Parameter.tokens) := by
  induction parameters with
  | nil => exact Passes.nil
  | cons parameter others ih =>
      rw [List.map_cons, String.join_cons, String.toList_append, List.flatMap_cons]
      exact parameter.passes.append ih

theorem isRun_fn : IsRun "fn" where
  nonempty := by decide
  run := by decide +kernel
  unqualified := by decide

/-- Nothing of the text is merged, but for the colon of a last key and the sign behind it. -/
theorem exists_opens (signature : Signature registry) :
    ∃ marks, Opens signature.text.toList marks signature.tokens := by
  have blank : Passes [' '] [] := Passes.nil.blank
  have keyword : Passes "fn ".toList ["fn"] :=
    Passes.word isRun_fn (Token.not_isWordCharacter (by decide)) blank
  have name : Passes (signature.name.text.toList ++ [' ']) [signature.name.text] :=
    Passes.word signature.name.isRun (Token.not_isWordCharacter (by decide)) blank
  have front := (keyword.append name).append (passes_parameters signature.parameters)
  have whole {ending : String} {marks last : List String}
      (text_eq : signature.text.toList = "fn ".toList ++ (signature.name.text.toList ++ [' ']) ++
        (String.join (signature.parameters.map Parameter.text)).toList ++ ending.toList)
      (tokens_eq : signature.tokens = ["fn"] ++ [signature.name.text] ++
        signature.parameters.flatMap Parameter.tokens ++ last)
      (opens : Opens ending.toList marks last) :
      ∃ marks, Opens signature.text.toList marks signature.tokens := by
    rw [text_eq, tokens_eq]
    exact ⟨_, front.opens opens⟩
  cases last : signature.lastKey with
  | none =>
      apply whole _ _ Token.opens_equals
      · simp [text, last]
      · simp [tokens, last]
  | some key =>
      have ending : Opens (key.text ++ ": = ").toList [key.text, ":", "="] [key.text, ":="] := by
        rw [String.toList_append]
        exact Opens.word key.isRun (Token.not_isWordCharacter (by decide)) Token.opens_colon_equals
      apply whole _ _ ending
      · simp [text, last]
      · simp [tokens, last]

/-- The tokens of a function whose body is given by its tokens. The bracket of the body keeps the
two parts of the text apart. -/
theorem ofSource_eq (signature : Signature registry) (source : String) :
    Token.ofSource registry (signature.text ++ ("(" ++ source)) =
      signature.tokens.map (respelled registry) ++ Token.ofSource registry ("(" ++ source) := by
  obtain ⟨marks, opens⟩ := signature.exists_opens
  exact opens.ofSource_eq registry source

end Signature

end Maxscript
