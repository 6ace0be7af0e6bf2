import Maxscript.Proofs.Convert
import Maxscript.Proofs.Operand.Reading

/-!
# Places of an operand

There are two ways to read the members and indices of an operand. The reader of arguments and of
the values of keys goes forward from the base. The pass over a block finds a dot or a bracket behind
what it has already read, goes back to it, and looks at the joined operand again.

Both build the same piece, or fail alike. There is one place where members and indices are not even
looked for: behind a group in round brackets that is an argument by itself. They become arguments of
their own then.
-/

namespace Maxscript.Operand

open Reader (unbounded Apart prepend brackets elementsOf elements_eq isOperand applyMembers)
open Structured (unread)

variable {registry : Registry}

/-! ### The pass over members and indices -/

def leadingWords : List Postfix → List String
  | .member word :: rest => word.text :: leadingWords rest
  | _ => []

theorem leadingWords_members (members : List Word) {tail : List Postfix} (indexed : Indexed tail) :
    leadingWords (members.map .member ++ tail) = members.map Word.text := by
  induction members with
  | nil =>
      cases tail with
      | nil => rfl
      | cons first rest =>
          obtain ⟨contents, rfl⟩ := indexed first rfl
          rfl
  | cons word members ih =>
      rw [List.map_cons, List.cons_append, leadingWords, ih]
      rfl

/-- An operand that is complete is passed by the step of the pass, as it is no word that starts a
construct and no known function. -/
theorem step_solid (indent : Nat) {piece : Piece} (solid : Solid piece) {after : List Piece}
    (words : ∀ text, piece.text? = some text → Text.foldCase text ∉ Reader.stepWords ∧
      (unbounded registry).callee? (.token text) after = none) (before : List Piece) :
    (unbounded registry).step indent before piece after = .ok ⟨piece :: before, after⟩ := by
  cases found : piece.text? with
  | none =>
      rw [Reader.step, found]
      rfl
  | some text =>
      obtain rfl : piece = .token text := Piece.eq_token_of_text? found
      have free := Token.not_mem_of_isWord_or_isQuoted (solid text rfl).1
        (by decide : ∀ mark ∈ Reader.stepMarks, _)
      rw [Reader.step_mark (words text rfl).1 (words text rfl).2, Reader.stepMark_of_not_mem free]

/-- What members were joined to has a dot in it, and no word that the pass acts on has one. -/
theorem not_mem_stepWords_of_dot {text : String} (dot : '.' ∈ text.toList) :
    Text.foldCase text ∉ Reader.stepWords := by
  have noDot : ∀ word ∈ Reader.stepWords, '.' ∉ word.toList := by decide
  exact fun member => noDot _ member (Reader.mem_foldCase_of_dot dot)

theorem notClose_of_solid {piece : Piece} (solid : Solid piece) : piece.is ")" = false := by
  cases found : piece.text? with
  | none => simp [Piece.is, found]
  | some text =>
      rw [Piece.eq_token_of_text? found]
      exact Reader.is_of_value (solid text found).1 (by decide)

/-- The pass reads an index of the operand behind its cursor as the rules for operands do, and goes
on with the whole as one piece. -/
theorem items_index (indent : Nat) {base : Piece} (operand : isOperand base = true)
    (contents : Contents) (rest : List Piece) :
    (unbounded registry).items indent [base]
        (.token "[" :: (unread contents.tokens ++ .token "]" :: rest)) =
      elementsOf registry indent "]" contents.tokens >>= fun indices =>
        (unbounded registry).items indent [.access indent (some base) indices] rest := by
  have callee : registry.isKnownCall "[" = false := by
    rw [Registry.isKnownCall, Token.not_isWord (by decide), Bool.false_and]
  rw [Reader.items_step (by decide), Reader.step_mark (by decide)
    (Reader.callee?_of_unknown callee _)]
  simp only [Reader.stepMark, if_true, Reader.accessAt]
  rw [elements_eq contents.nested (by decide)]
  cases elementsOf registry indent "]" contents.tokens with
  | error _ => rfl
  | ok indices => simp [Functor.map, Except.map, bind, Except.bind, operand, pure, Except.pure]

/-- The pass joins all members in one go. It comes to the dot with the base behind its cursor, and
back to the joined piece afterwards. -/
theorem items_members (indent : Nat) {base : Piece} (operand : isOperand base = true)
    {members : List Word} (nonempty : members ≠ []) {rest : List Piece}
    (next : ∀ piece ∈ rest.head?, piece.is "." = false) :
    (unbounded registry).items indent [base]
        (unread (tokensOf (members.map .member)) ++ rest) =
      (unbounded registry).items indent []
        (applyMembers base (members.map Word.text).reverse :: rest) := by
  have words : members.map Word.text ≠ [] := by simpa using nonempty
  have fused := Reader.fuse?_of_members (memberRun_members members next) words operand
  obtain ⟨word, others, rfl⟩ := List.exists_cons_of_ne_nil nonempty
  have callee : registry.isKnownCall "." = false := by
    rw [Registry.isKnownCall, Token.not_isWord (by decide), Bool.false_and]
  rw [List.map_cons, unread_member, List.cons_append, List.cons_append] at fused ⊢
  rw [Reader.items_step (by decide), Reader.step_mark (by decide)
    (Reader.callee?_of_unknown callee _)]
  have back (after : List Piece) : (unbounded registry).stepMark indent [base] (.token ".") "."
      after = .ok (Reader.memberAt [base] (.token ".") after) := by
    simp [Reader.stepMark, pure, Except.pure]
  rw [back, Reader.memberAt, fused]
  rfl

/-- The pass over a block applies members and indices from left to right, as the rules for operands
do. The name that is joined first must not be that of a known function, or the pass would call it.
-/
theorem items_applyAll (indent : Nat) (postfixes : List Postfix) (base : Piece) (solid : Solid base)
    (unknown : ∀ text, base.text? = some text →
      registry.isKnownCall (joined text (leadingWords postfixes)) = false) :
    (unbounded registry).items indent [base] (unread (tokensOf postfixes)) =
      (fun piece => [piece]) <$> applyAll registry indent base [] postfixes := by
  induction length : postfixes.length using Nat.strong_induction_on generalizing postfixes base with
  | _ size ih =>
      obtain ⟨members, tail, rfl, indexed⟩ := exists_members postfixes
      by_cases none : members = []
      · subst none
        cases tail with
        | nil => exact Structured.items_nil indent [base]
        | cons first more =>
            obtain ⟨contents, rfl⟩ := indexed first rfl
            have shape := unread_index contents more []
            rw [List.append_nil, List.append_nil] at shape
            rw [List.map_nil, List.nil_append, applyAll, applyMembers, shape,
              items_index indent solid.isOperand]
            cases elementsOf registry indent "]" contents.tokens with
            | error _ => rfl
            | ok indices =>
                exact ih more.length (by simp at length; omega) more
                  (.access indent (some base) indices) (solid_of_construct rfl)
                  (by simp [Piece.text?]) rfl
      · have words : members.map Word.text ≠ [] := by simpa using none
        have fewer : tail.length < size := by
          have := List.length_pos_iff.mpr none
          simp at length
          omega
        have ready := solid.applyMembers words
        have next : ∀ piece ∈ (unread (tokensOf tail) ++ []).head?, piece.is "." = false :=
          indexed.noMember (by simp)
        have asked (text : String)
            (found : (applyMembers base (members.map Word.text).reverse).text? = some text) :
            '.' ∈ text.toList ∧ registry.isKnownCall text = false := by
          obtain ⟨first, isFirst, rfl⟩ := text?_applyMembers words found
          have other := unknown first isFirst
          rw [leadingWords_members members indexed] at other
          exact ⟨dot_mem_joined first words, other⟩
        rw [List.append_nil] at next
        rw [applyAll_members, List.append_nil, indexed.applyAll_eq, unread_postfixes,
          items_members indent solid.isOperand none next,
          Reader.items_step (notClose_of_solid ready), step_solid indent ready]
        · refine ih tail.length fewer tail _ ready ?_ rfl
          intro text found
          have none : leadingWords tail = [] := leadingWords_members [] indexed
          simpa [none, joined] using (asked text found).2
        · intro text found
          exact ⟨not_mem_stepWords_of_dot (asked text found).1,
            Reader.callee?_of_unknown (asked text found).2 _⟩

/-! ### The pass over a base -/

namespace Base

variable (base : Base) (indent : Nat)

/-- At the front of a block, the pass reads a base as an operand is read. Further on it may index or
multiply what is before it instead. -/
theorem stepMark_eq (pieces : List Piece) :
    (unbounded registry).stepMark indent [] (.token base.first) base.first pieces =
      Reader.passed [] <$> (unbounded registry).bareOperand indent (.token base.first) pieces := by
  cases base with
  | value atom =>
      rw [first, Reader.stepMark_of_not_mem
          (Token.not_mem_of_isWord_or_isQuoted atom.isValue (by decide)),
        Reader.bareOperand_token (Token.not_mem_of_isWord_or_isQuoted atom.isValue (by decide))]
      rfl
  | group contents => rfl
  | bracket contents =>
      change (unbounded registry).elements indent "]" pieces >>= _ =
        Reader.passed [] <$> ((unbounded registry).elements indent "]" pieces >>= _)
      cases (unbounded registry).elements indent "]" pieces with
      | error _ => rfl
      | ok reading => rfl
  | array contents => rfl
  | symbol name => rfl

theorem step_eq (words : Text.foldCase base.first ∉ Reader.stepWords) {after : List Piece}
    (callee : (unbounded registry).callee? (.token base.first) (unread base.others ++ after) =
      none) :
    (unbounded registry).step indent [] (.token base.first) (unread base.others ++ after) =
      (fun piece => ⟨[piece], after⟩) <$> base.outcome registry indent := by
  rw [Reader.step_mark words callee, base.stepMark_eq, base.bareOperand_eq]
  cases base.outcome registry indent with
  | error _ => rfl
  | ok piece => rfl

end Base

/-- An operand that the pass over a block does not take for anything else: its base is no word with
a meaning of its own, and with the members behind it no function. -/
structure IsPlain (registry : Registry) (operand : Operand) : Prop where
  unreserved : operand.base.isReserved = false
  word : Text.foldCase operand.base.first ∉ ["struct", "mapped", "as"]
  unknown : ∀ text, operand.base.text? = some text →
    registry.isKnownCall (joined text (leadingWords operand.postfixes)) = false

namespace IsPlain

variable {operand : Operand} (plain : operand.IsPlain registry)
include plain

theorem first_not_mem {words : List String}
    (known : ∀ word ∈ words, word ∈ Token.reserved ++ ["struct", "mapped", "as"])
    (marks : ∀ mark ∈ ["(", "[", "#"], Text.foldCase mark ∉ words) :
    Text.foldCase operand.base.first ∉ words := by
  rcases operand.base.first_cases with ⟨atom, shape⟩ | mark
  · intro member
    rcases List.mem_append.mp (known _ member) with reserved | word
    · have unreserved := plain.unreserved
      rw [shape] at reserved unreserved
      have found : Token.isReserved atom.text = true := List.contains_iff_mem.mpr reserved
      rw [Base.isReserved, found] at unreserved
      cases unreserved
    · exact plain.word word
  · exact marks _ mark

/-- The pass does not take the base for a function: it is none, or a member follows it. -/
theorem callee? :
    (unbounded registry).callee? (.token operand.base.first)
      (unread operand.base.others ++ unread (tokensOf operand.postfixes)) = none := by
  rcases operand.base.first_cases with ⟨atom, shape⟩ | mark
  · have unknown := plain.unknown atom.text (by rw [shape]; rfl)
    rw [shape]
    have alone (none : leadingWords operand.postfixes = []) (rest : List Piece) :
        (unbounded registry).callee? (.token atom.text) rest = Option.none := by
      apply Reader.callee?_of_unknown
      rwa [none, joined, List.map_nil, String.join_nil, String.append_empty] at unknown
    cases postfixes : operand.postfixes with
    | nil => exact alone (by rw [postfixes]; rfl) _
    | cons first rest =>
        cases first with
        | member word =>
            have dot : Reader.startsWith "." (unread (tokensOf (.member word :: rest))) = true :=
              rfl
            simp [Reader.callee?, Base.first, Base.others, dot]
        | index contents => exact alone (by rw [postfixes]; rfl) _
  · apply Reader.callee?_of_unknown
    have other : operand.base.first ∈ Token.otherTokens :=
      (by decide : ∀ token ∈ ["(", "[", "#"], token ∈ Token.otherTokens) _ mark
    rw [Registry.isKnownCall, Token.not_isWord other, Bool.false_and]

end IsPlain

/-! ### Statements -/

theorem exists_last {postfixes : List Postfix} (postfixed : postfixes ≠ []) :
    ∃ front last, tokensOf postfixes = front ++ [last] ∧
      (Token.isWord last = true ∨ last = "]") := by
  obtain ⟨others, final, rfl⟩ : ∃ others final, postfixes = others ++ [final] :=
    ⟨_, _, (List.dropLast_concat_getLast postfixed).symm⟩
  cases final with
  | member word =>
      refine ⟨tokensOf others ++ ["."], word.text, ?_, .inl word.isWord⟩
      simp [tokensOf, Postfix.tokens]
  | index contents =>
      refine ⟨tokensOf others ++ "[" :: contents.tokens, "]", ?_, .inr rfl⟩
      simp [tokensOf, Postfix.tokens]

/-- Nothing is trimmed from an operand with members or indices: it ends with a word or a square
bracket. -/
theorem trim_eq {operand : Operand} (postfixed : operand.postfixes ≠ []) :
    Reader.trim (unread operand.tokens) = unread operand.tokens := by
  obtain ⟨front, last, shape, kind⟩ := exists_last postfixed
  refine Reader.trim_eq_of_last ?_ ?_
  · rintro _ ⟨⟩
    exact Reader.isSeparator_of_not_mem (operand.base.first_not_mem (by decide) (by decide))
  · intro piece member
    have whole : unread operand.tokens =
        unread (operand.base.first :: operand.base.others ++ front) ++ [.token last] := by
      simp [tokens, shape]
    rw [whole, List.getLast?_concat] at member
    cases Option.mem_some.mp member
    rcases kind with isWord | rfl
    · exact ⟨Reader.isSeparator_of_not_mem (Token.not_mem_of_isWord isWord (by decide)),
        Reader.is_of_isWord isWord (by decide)⟩
    · exact ⟨by decide, by decide⟩

/-- By itself, an operand becomes the only item of its block. -/
theorem IsPlain.block_eq {operand : Operand} (plain : operand.IsPlain registry)
    (postfixed : operand.postfixes ≠ []) (indent : Nat) (role : Role) :
    (unbounded registry).block indent role (unread operand.tokens) =
      (fun piece => .block indent role [piece]) <$> operand.outcome registry indent := by
  have notClose : (Piece.token operand.base.first).is ")" = false :=
    Piece.is_of_not_mem (operand.base.first_not_mem (by decide) (by decide))
      (List.mem_singleton_self ")")
  have words : Text.foldCase operand.base.first ∉ Reader.stepWords :=
    plain.first_not_mem (by decide) (by decide)
  rw [Reader.block_eq_map, trim_eq postfixed, tokens, List.cons_append, Structured.unread_cons,
    Structured.unread_append, Reader.items_step notClose,
    operand.base.step_eq indent words plain.callee?, outcome]
  cases read : operand.base.outcome registry indent with
  | error _ => rfl
  | ok piece =>
      have items := items_applyAll indent operand.postfixes piece
        (operand.base.solid indent plain.unreserved read) (by
          rw [operand.base.text?_of_outcome indent read]
          exact plain.unknown)
      change Piece.block indent role <$> (unbounded registry).items indent [piece] _ =
        (fun piece => .block indent role [piece]) <$>
          applyAll registry indent piece [] operand.postfixes
      rw [items]
      cases applyAll registry indent piece [] operand.postfixes with
      | error _ => rfl
      | ok piece => rfl

/-! ### Arguments -/

theorem unread_tokens (operand : Operand) (rest : List Piece) :
    unread operand.tokens ++ rest = .token operand.base.first ::
      (unread (operand.base.others ++ tokensOf operand.postfixes) ++ rest) := rfl

theorem noColon_of_postfixed {postfixes : List Postfix} (postfixed : postfixes ≠ [])
    (rest : List Piece) :
    ∀ piece ∈ (unread (tokensOf postfixes) ++ rest).head?, piece.is ":" = false := by
  obtain ⟨first, others, rfl⟩ := List.exists_cons_of_ne_nil postfixed
  cases first with
  | member word =>
      rintro _ ⟨⟩
      decide
  | index contents =>
      rintro _ ⟨⟩
      decide

theorem Base.first_ne_of_open {base : Base} (open_ : base.isGroup = false) : base.first ≠ "(" := by
  cases base with
  | value atom =>
      have other := Token.not_mem_of_isWord_or_isQuoted atom.isValue (by decide : ∀ mark ∈ ["("], _)
      simpa [first] using other
  | group contents => cases open_
  | bracket contents => exact (by decide : "[" ≠ "(")
  | array contents => exact (by decide : "#" ≠ "(")
  | symbol name => exact (by decide : "#" ≠ "(")

namespace IsPlain

variable {operand : Operand} (plain : operand.IsPlain registry) (indent : Nat) {rest : List Piece}
  (apart : Apart rest)
include plain apart

/-- As the value of a key, an operand is read with all its members and indices, also if it starts
with a group. -/
theorem arguments_keyed {key : String} (isWord : Token.isWord key = true) :
    (unbounded registry).arguments indent
        (.token key :: .token ":" :: (unread operand.tokens ++ rest)) =
      operand.outcome registry indent >>= fun piece =>
        prepend [.binding indent key (some piece) true] <$>
          (unbounded registry).arguments indent rest := by
  have goes : (Piece.token operand.base.first).isTokenWith Reader.argumentStops.contains =
      false := by
    have other := operand.base.first_not_mem (by decide : ∀ mark ∈ Reader.argumentStops, _)
      (by decide)
    simpa using other
  rw [Reader.arguments_keyed indent isWord, unread_tokens, Reader.keyValue_operand indent goes,
    operand.operand_eq (fun _ => plain.unreserved) indent apart]
  cases operand.outcome registry indent with
  | error _ => rfl
  | ok piece => rfl

/-- Behind a base that is no group, the members and indices belong to the argument. -/
theorem arguments_eq (postfixed : operand.postfixes ≠ []) (open_ : operand.base.isGroup = false) :
    (unbounded registry).arguments indent (unread operand.tokens ++ rest) =
      operand.outcome registry indent >>= fun piece =>
        prepend [piece] <$> (unbounded registry).arguments indent rest := by
  have notOpen : (Piece.token operand.base.first).is "(" = false := by
    simpa using operand.base.first_ne_of_open open_
  have noKey : Reader.key? (.token operand.base.first)
      (unread (operand.base.others ++ tokensOf operand.postfixes) ++ rest) = none := by
    rcases operand.base.first_cases with ⟨atom, shape⟩ | mark
    · rw [shape, Base.others, List.nil_append]
      exact Reader.key?_of_head (noColon_of_postfixed postfixed rest) _
    · have all : ∀ token ∈ ["(", "[", "#"], Token.isWord token = false := by decide
      exact Reader.key?_of_not_isWord (all _ mark) _
  have goes : (Piece.token operand.base.first).isTokenWith Reader.endsArguments = false := by
    have word : Text.foldCase operand.base.first ∉ Reader.argumentStopWords :=
      plain.first_not_mem (by decide) (by decide)
    rcases operand.base.first_cases with ⟨atom, shape⟩ | mark
    · rw [shape] at word ⊢
      exact Reader.not_endsArguments atom.isValue word
    · have all : ∀ token ∈ ["(", "[", "#"], Reader.endsArguments token = false := by decide
      exact all _ mark
  rw [unread_tokens, Reader.arguments_operand indent notOpen noKey goes,
    operand.operand_eq (fun _ => plain.unreserved) indent apart]
  cases operand.outcome registry indent with
  | error _ => rfl
  | ok piece => rfl

end IsPlain

/-- With members and indices behind it, a construct becomes something that is no block. So it
differs from the block that a group alone is read to. -/
theorem not_block_of_applyAll {indent : Nat} {base piece : Piece} {pending : List String}
    {postfixes : List Postfix} (construct : base.text? = none)
    (postfixed : pending ≠ [] ∨ postfixes ≠ [])
    (read : applyAll registry indent base pending postfixes = .ok piece) (level : Nat) (role : Role)
    (items : List Piece) : piece ≠ .block level role items := by
  induction postfixes generalizing base pending with
  | nil =>
      obtain ⟨last, before, rfl⟩ :=
        List.exists_cons_of_ne_nil (postfixed.resolve_right fun none => none rfl)
      rw [applyAll, applyMembers] at read
      split at read
      · rintro rfl
        cases read
      · rintro rfl
        cases base with
        | token text => cases construct
        | _ => cases read
  | cons first rest ih =>
      cases first with
      | member word => exact ih construct (.inl (by simp)) read
      | index contents =>
          rw [applyAll] at read
          cases found : elementsOf registry indent "]" contents.tokens with
          | error _ =>
              rw [found] at read
              cases read
          | ok indices =>
              rw [found] at read
              by_cases none : rest = []
              · subst none
                rintro rfl
                cases read
              · exact ih rfl (.inr none) read

/-- A group that is an argument is taken without what follows it, so it is not what the operand is
read to elsewhere. -/
theorem first_argument_ne {operand : Operand} (grouped : operand.base.isGroup = true)
    (postfixed : operand.postfixes ≠ []) {indent : Nat} {piece : Piece}
    (read : operand.outcome registry indent = .ok piece) (rest others left : List Piece) :
    (unbounded registry).arguments indent (unread operand.tokens ++ rest) ≠
      .ok (piece :: others, left) := by
  obtain ⟨base, postfixes⟩ := operand
  cases base with
  | group contents =>
      have shape : unread (Operand.mk (.group contents) postfixes).tokens ++ rest =
          .token "(" :: unread contents.tokens ++
            .token ")" :: (unread (tokensOf postfixes) ++ rest) := by
        simp [tokens, Base.first, Base.others]
      have noBlock (level : Nat) (role : Role) (items : List Piece) :
          piece ≠ .block level role items := by
        rw [outcome, Base.outcome, Reader.block_eq_map] at read
        cases inside : (unbounded registry).items indent []
            (Reader.trim (unread contents.tokens)) with
        | error _ =>
            rw [inside] at read
            cases read
        | ok found =>
            rw [inside] at read
            have construct : (Piece.block indent .group found).text? = none := rfl
            exact not_block_of_applyAll construct (.inr postfixed) read level role items
      rw [shape]
      by_cases empty : contents.tokens = []
      · have none : (unbounded registry).arguments indent
            (.token "(" :: .token ")" :: (unread (tokensOf postfixes) ++ rest)) =
              .ok ([], unread (tokensOf postfixes) ++ rest) :=
          Reader.arguments_empty indent _
        rw [empty, Structured.unread_nil, List.singleton_append, none]
        rintro ⟨⟩
      · have balanced := contents.nested.balanced (by decide : .round ∈ brackets)
        have nonempty : unread contents.tokens ≠ [] := by simpa [unread] using empty
        rw [Reader.arguments_group indent balanced nonempty, Reader.block_eq_map]
        cases (unbounded registry).items indent [] (Reader.trim (unread contents.tokens)) with
        | error _ => rintro ⟨⟩
        | ok items =>
            intro same
            obtain ⟨reading, -, shape⟩ := exists_ok_of_map same
            exact noBlock indent .argument items (List.cons.inj (Prod.mk.inj shape).1).1.symm
  | _ => cases grouped

/-- What an operand is read to wherever it stands: by itself it is the only item of its block, and
as the value of a key or as an argument it is the same piece. The exception is an argument that
starts with a group in round brackets, which ends at its bracket. -/
structure ReadAlike (registry : Registry) (operand : Operand) (indent : Nat) (role : Role)
    (outcome : Result Piece) : Prop where
  statement : readBlock registry indent role (operand.tokens.map .token) =
    (fun piece => .block indent role [piece]) <$> outcome
  keyed : ∀ key rest, Token.isWord key = true → Apart rest →
    (unbounded registry).arguments indent
        (.token key :: .token ":" :: (operand.tokens.map .token ++ rest)) =
      outcome >>= fun piece => prepend [.binding indent key (some piece) true] <$>
        (unbounded registry).arguments indent rest
  argument : operand.base.isGroup = false → ∀ rest, Apart rest →
    (unbounded registry).arguments indent (operand.tokens.map .token ++ rest) =
      outcome >>= fun piece => prepend [piece] <$> (unbounded registry).arguments indent rest
  group : operand.base.isGroup = true → ∀ piece, outcome = .ok piece → ∀ rest others left,
    (unbounded registry).arguments indent (operand.tokens.map .token ++ rest) ≠
      .ok (piece :: others, left)

/-- Members and indices are read alike wherever an operand stands, except behind a group in round
brackets that is an argument. -/
theorem exists_read_alike (operand : Operand) (plain : operand.IsPlain registry)
    (postfixed : operand.postfixes ≠ []) (indent : Nat) (role : Role) :
    ∃ outcome, ReadAlike registry operand indent role outcome := by
  refine ⟨operand.outcome registry indent, ?_, ?_, ?_, ?_⟩
  · rw [readBlock_eq]
    exact plain.block_eq postfixed indent role
  · intro key rest isWord apart
    exact plain.arguments_keyed indent apart isWord
  · intro open_ rest apart
    exact plain.arguments_eq indent apart postfixed open_
  · intro grouped piece read rest others left
    exact first_argument_ne grouped postfixed read rest others left

def known : Registry := Registry.empty.classify "f" .userFunction

def counted : Operand where
  base := .value ⟨"x", by decide⟩
  postfixes := [.member ⟨"y", by decide⟩,
    .index ⟨["f", "1", ",", "#", "(", "2", ")"],
      .cons (by decide) (by decide) (.cons (by decide) (by decide)
        (.cons (by decide) (by decide) (.cons (by decide) (by decide)
          (.group (by decide : Bracket.round ∈ brackets)
            (.cons (by decide) (by decide) .nil) .nil))))⟩,
    .member ⟨"count", by decide⟩]

theorem counted_read_alike :
    counted.IsPlain known ∧ ∃ outcome, ReadAlike known counted 0 .root outcome := by
  have plain : counted.IsPlain known := by
    refine ⟨by decide, by decide, ?_⟩
    rintro _ ⟨⟩
    decide +kernel
  exact ⟨plain, exists_read_alike counted plain (by simp [counted]) 0 .root⟩

/-- Behind a group that is an argument, the dot and the member become arguments. -/
theorem group_argument_ends_early :
    convert known "(a).b" = .ok "(a).b" ∧ convert known "f k:(a).b" = .ok "f(k=(a).b)" ∧
      convert known "f (a).b" = .ok "f(a, ., b)" := by
  rw [convert_eq, convert_eq, convert_eq]
  decide +kernel

end Maxscript.Operand
