import Maxscript.Proofs.Extent.Grammar
import Maxscript.Proofs.Reader.Budget
import Maxscript.Proofs.Structured.Program

/-!
# Reading structured programs

The tokens of a structured program are read to the blocks that the program has by itself: plain
tokens stay as they are, and each construct becomes a single piece whose parts are the blocks of
the programs that it nests.
-/

namespace Maxscript.Structured

open Reader (unbounded)

variable {registry : Registry}

/-- Tokens before they are read. -/
def unread (tokens : List String) : List Piece := tokens.map .token

@[simp] theorem unread_nil : unread [] = [] := rfl

@[simp] theorem unread_cons (token : String) (rest : List String) :
    unread (token :: rest) = .token token :: unread rest := rfl

@[simp] theorem unread_append (front back : List String) :
    unread (front ++ back) = unread front ++ unread back := List.map_append

@[simp] theorem length_unread (tokens : List String) : (unread tokens).length = tokens.length :=
  List.length_map _

mutual

def Statement.pieces (indent : Nat) : Statement registry → List Piece
  | .line phrase => unread phrase.tokens
  | .conditional condition consequent none =>
    [.conditional indent (.block indent .condition (unread condition.tokens))
      (.block (indent + 1) .consequent (Program.pieces (indent + 1) consequent)) none]
  | .conditional condition consequent (some alternative) =>
    [.conditional indent (.block indent .condition (unread condition.tokens))
      (.block (indent + 1) .consequent (Program.pieces (indent + 1) consequent))
      (some (.block (indent + 1) .alternative (Program.pieces (indent + 1) alternative)))]
  | .loop header body =>
    [.loop indent (.block indent .loopHeader (unread header.tokens)) false
      (some (.block (indent + 1) .loopBody (Program.pieces (indent + 1) body)))]
  | .attempt attempted [] =>
    [.attempt indent (.block (indent + 1) .attempted (Program.pieces (indent + 1) attempted)) none]
  | .attempt attempted (first :: rest) =>
    [.attempt indent (.block (indent + 1) .attempted (Program.pieces (indent + 1) attempted))
      (some (.block (indent + 1) .handler (Program.pieces (indent + 1) (first :: rest))))]
  | .function name parameters body =>
    [.function indent name.text
      (parameters.map fun parameter => .binding indent parameter.text none false)
      (.block (indent + 1) .functionBody (Program.pieces (indent + 1) body))]

/-- What the statements of a program at `indent` are read to, with the newlines between them. -/
def Program.pieces (indent : Nat) : List (Statement registry) → List Piece
  | [] => []
  | [statement] => Statement.pieces indent statement
  | statement :: next :: rest =>
    Statement.pieces indent statement ++ .token "\n" :: Program.pieces indent (next :: rest)

end

/-! ### Tokens that are passed over -/

/-- A piece that no scanner and no step acts on. -/
structure Quiet (piece : Piece) : Prop where
  mark : ∀ mark ∈ activeMarks, piece.is mark = false
  word : ∀ word ∈ activeWords, piece.isKeyword word = false

theorem Quiet.not_separator {piece : Piece} (h : Quiet piece) :
    Reader.isSeparator piece = false := by
  simp [Reader.isSeparator, Piece.isNewline, h.mark "\n" (by decide), h.mark "," (by decide)]

namespace IsPlain

theorem quiet {token : String} (h : IsPlain registry token) : Quiet (.token token) where
  mark _ active := Piece.is_of_not_mem h.mark active
  word word active := by
    have : Text.foldCase token ≠ word := fun same => h.word (same ▸ active)
    simpa using this

theorem step_eq {token : String} (h : IsPlain registry token) (indent : Nat)
    (before after : List Piece) :
    (unbounded registry).step indent before (.token token) after =
      .ok ⟨.token token :: before, after⟩ := by
  have callee : (unbounded registry).callee? (.token token) after = none := by
    simp [Reader.callee?, unbounded, h.call]
  have words : Text.foldCase token ∉ Reader.stepWords :=
    fun member => h.word ((by decide : Reader.stepWords ⊆ activeWords) member)
  have marks : token ∉ Reader.stepMarks :=
    fun member => h.mark ((by decide : Reader.stepMarks ⊆ activeMarks) member)
  rw [Reader.step_mark words callee, Reader.stepMark_of_not_mem marks]

/-- A plain token becomes an item of its block, and nothing before it or behind it is changed. -/
theorem items_eq {token : String} (h : IsPlain registry token) (indent : Nat)
    (before after : List Piece) :
    (unbounded registry).items indent before (.token token :: after) =
      (unbounded registry).items indent (.token token :: before) after := by
  have close : (Piece.token token).is ")" = false := h.quiet.mark ")" (by decide)
  rw [Reader.unbounded_items, Reader.readItems, if_neg (by simp [close]), h.step_eq]
  rfl

end IsPlain

theorem items_newline (indent : Nat) (before after : List Piece) :
    (unbounded registry).items indent before (.token "\n" :: after) =
      (unbounded registry).items indent (.token "\n" :: before) after := by
  have callee : (unbounded registry).callee? (.token "\n") after = none := by
    have : Token.isWord "\n" = false := by decide
    simp [Reader.callee?, Registry.isKnownCall, this]
  have step : (unbounded registry).step indent before (.token "\n") after =
      .ok ⟨.token "\n" :: before, after⟩ := by
    have folded : Text.foldCase "\n" = "\n" := by decide
    simp [Reader.step, Reader.stepToken, Reader.stepMark, callee, folded, pure, Except.pure]
  rw [Reader.unbounded_items, Reader.readItems, if_neg (by decide), step]
  rfl

theorem items_nil (indent : Nat) (before : List Piece) :
    (unbounded registry).items indent before [] = .ok before.reverse := by
  rw [Reader.unbounded_items]
  rfl

theorem balanced_of_quiet {pieces : List Piece} (quiet : ∀ piece ∈ pieces, Quiet piece) :
    Extent.Balanced pieces := by
  induction pieces with
  | nil => exact .nil
  | cons piece rest ih =>
      have first := quiet piece List.mem_cons_self
      refine .cons (first.mark "(" (by decide)) (first.mark ")" (by decide)) (ih ?_)
      exact fun other member => quiet other (List.mem_cons_of_mem _ member)

namespace Phrase

theorem quiet (phrase : Phrase registry) : ∀ piece ∈ unread phrase.tokens, Quiet piece := by
  intro piece member
  obtain ⟨token, inside, rfl⟩ := List.mem_map.mp member
  exact (phrase.plain token inside).quiet

theorem items_eq (phrase : Phrase registry) (indent : Nat) (before after : List Piece) :
    (unbounded registry).items indent before (unread phrase.tokens ++ after) =
      (unbounded registry).items indent ((unread phrase.tokens).reverse ++ before) after := by
  have all (tokens : List String) (plain : ∀ token ∈ tokens, IsPlain registry token) :
      (unbounded registry).items indent before (unread tokens ++ after) =
        (unbounded registry).items indent ((unread tokens).reverse ++ before) after := by
    induction tokens generalizing before with
    | nil => rfl
    | cons token rest ih =>
        have first := plain token List.mem_cons_self
        rw [unread_cons, List.cons_append, first.items_eq,
          ih _ fun other member => plain other (List.mem_cons_of_mem _ member)]
        simp
  exact all phrase.tokens phrase.plain

theorem bare (phrase : Phrase registry) : Reader.Bare (unread phrase.tokens) where
  head piece member := by
    have first := phrase.quiet piece (List.mem_of_mem_head? member)
    exact ⟨first.not_separator, first.mark "(" (by decide)⟩
  last piece member := (phrase.quiet piece (List.mem_of_getLast? member)).not_separator

theorem block_eq (phrase : Phrase registry) (indent : Nat) (role : Role) :
    (unbounded registry).block indent role (unread phrase.tokens) =
      .ok (.block indent role (unread phrase.tokens)) := by
  have items := phrase.items_eq indent [] []
  rw [List.append_nil, List.append_nil, items_nil, List.reverse_reverse] at items
  rw [Reader.block, phrase.bare.trim_eq, items]
  rfl

end Phrase

/-! ### Extents of phrases and groups -/

theorem isCondition_quiet {pieces : List Piece} (quiet : ∀ piece ∈ pieces, Quiet piece) :
    Extent.IsCondition pieces := by
  apply Extent.isCondition_of_forall
  intro piece member
  have first := quiet piece member
  refine ⟨first.mark "(" (by decide), first.mark ")" (by decide), first.word "if" (by decide), ?_⟩
  rw [Extent.endsCondition, first.word "then" (by decide), first.word "do" (by decide)]
  rfl

/-- The header of a loop reaches up to its `do`, since no token of a phrase opens a bracket or ends
a header. -/
theorem loopHeader_quiet {pieces : List Piece} (quiet : ∀ piece ∈ pieces, Quiet piece)
    (rest : List Piece) :
    Reader.loopHeader 0 false (pieces ++ .token "do" :: rest) = (pieces.length, false) := by
  induction pieces with
  | nil =>
      simp only [List.nil_append, Reader.loopHeader]
      rw [if_neg (by decide), if_neg (by decide), if_pos (by decide)]
      rfl
  | cons piece pieces ih =>
      have first := quiet piece List.mem_cons_self
      have tail := ih fun other member => quiet other (List.mem_cons_of_mem _ member)
      simp [Reader.loopHeader, Piece.isNewline, first.mark "(" (by decide),
        first.mark ")" (by decide), first.mark "\n" (by decide), first.word "do" (by decide),
        first.word "collect" (by decide), tail]

theorem unread_bracketed (tokens : List String) :
    unread (bracketed tokens) = .token "(" :: unread tokens ++ [.token ")"] := by
  simp [bracketed]

section

variable {tokens : List String} (balanced : Extent.Balanced (unread tokens)) (rest : List Piece)
include balanced

theorem closingParen_bracketed :
    Extent.closingParen (unread (bracketed tokens) ++ rest) 0 + 1 =
      (unread (bracketed tokens)).length := by
  have close := Extent.closingParen_group balanced rest
  simpa [unread_bracketed] using close

theorem clauseEnd_bracketed :
    Extent.clauseEnd (unread (bracketed tokens) ++ rest) 0 =
      (unread (bracketed tokens)).length := by
  rw [← closingParen_bracketed balanced rest]
  rfl

theorem consequent_bracketed :
    Extent.consequent (unread (bracketed tokens) ++ rest) 0 =
      ⟨0, (unread (bracketed tokens)).length⟩ := by
  rw [← closingParen_bracketed balanced rest]
  rfl

theorem bodyEnd_bracketed :
    Reader.bodyEnd (unread (bracketed tokens) ++ rest) = (unread (bracketed tokens)).length := by
  rw [← closingParen_bracketed balanced rest]
  rfl

theorem attemptedEnd_bracketed :
    Reader.attemptedEnd (unread (bracketed tokens) ++ rest) =
      (unread (bracketed tokens)).length := by
  rw [← clauseEnd_bracketed balanced rest]
  rfl

end

/-- A part at the front is cut out and read by itself, so the lemmas about blocks can be used for
the parts of a construct. -/
theorem blockOf_front (reader : Reader) (indent : Nat) (role : Role) (front back : List Piece) :
    reader.blockOf indent role (front ++ back) ⟨0, front.length⟩ =
      reader.block indent role front := by
  have inside : front.length ≤ (front ++ back).length := by simp
  rw [Reader.blockOf, Reader.cut_eq_ok ⟨Nat.zero_le _, inside⟩, List.drop_zero, List.take_left]
  rfl

/-! ### Where programs start and end -/

theorem balanced_bracketed {tokens : List String} (inside : Extent.Balanced (unread tokens)) :
    Extent.Balanced (unread (bracketed tokens)) := by
  rw [unread_bracketed]
  exact .group inside .nil

theorem Name.balanced_cons (name : Name) {rest : List Piece} (tail : Extent.Balanced rest) :
    Extent.Balanced (.token name.text :: rest) := by
  refine .cons ?_ ?_ tail
  · simpa using name.notOpen
  · simpa using name.notClose

theorem Parameter.ne_mark (parameter : Parameter) {mark : String} (h : Token.isWord mark = false) :
    parameter.text ≠ mark := by
  intro same
  rw [← same, parameter.isWord] at h
  cases h

theorem balanced_parameters (parameters : List Parameter) :
    Extent.Balanced (unread (parameters.map Parameter.text)) := by
  induction parameters with
  | nil => exact .nil
  | cons parameter rest ih =>
      refine .cons ?_ ?_ ih
      · simpa using parameter.ne_mark (by decide : Token.isWord "(" = false)
      · simpa using parameter.ne_mark (by decide : Token.isWord ")" = false)

theorem Phrase.balanced (phrase : Phrase registry) : Extent.Balanced (unread phrase.tokens) :=
  balanced_of_quiet phrase.quiet

mutual

/-- The brackets of a statement match. All constructs find the ends of their parts by this, and
nothing else is needed of what is inside. -/
theorem Statement.balanced : (statement : Statement registry) →
    Extent.Balanced (unread statement.tokens)
  | .line phrase => phrase.balanced
  | .conditional condition consequent none => by
      have inside := balanced_bracketed (Program.balanced consequent)
      simp only [Statement.tokens, List.cons_append, unread_cons, unread_append]
      refine .cons (by decide) (by decide) (condition.balanced.append ?_)
      exact .cons (by decide) (by decide) inside
  | .conditional condition consequent (some alternative) => by
      have inside := balanced_bracketed (Program.balanced consequent)
      have other := balanced_bracketed (Program.balanced alternative)
      simp only [Statement.tokens, List.cons_append, List.append_assoc, unread_cons,
        unread_append]
      refine .cons (by decide) (by decide) (condition.balanced.append ?_)
      refine .cons (by decide) (by decide) (inside.append ?_)
      exact .cons (by decide) (by decide) other
  | .loop header body => by
      have inside := balanced_bracketed (Program.balanced body)
      simp only [Statement.tokens, List.cons_append, unread_cons, unread_append]
      refine .cons (by decide) (by decide) (header.balanced.append ?_)
      exact .cons (by decide) (by decide) inside
  | .attempt attempted handler => by
      have inside := balanced_bracketed (Program.balanced attempted)
      have other := balanced_bracketed (Program.balanced handler)
      simp only [Statement.tokens, List.cons_append, unread_cons, unread_append]
      refine .cons (by decide) (by decide) (inside.append ?_)
      exact .cons (by decide) (by decide) other
  | .function name parameters body => by
      have inside := balanced_bracketed (Program.balanced body)
      simp only [Statement.tokens, List.cons_append, unread_cons, unread_append]
      refine .cons (by decide) (by decide) (name.balanced_cons ?_)
      refine (balanced_parameters parameters).append ?_
      exact .cons (by decide) (by decide) inside

theorem Program.balanced : (program : List (Statement registry)) →
    Extent.Balanced (unread (Program.tokens program))
  | [] => .nil
  | [statement] => statement.balanced
  | statement :: next :: rest => by
      rw [Program.tokens, unread_append]
      exact statement.balanced.append (.cons (by decide) (by decide) (Program.balanced _))

end

/-- A piece that a statement can start with. -/
structure Opens (piece : Piece) : Prop where
  separator : Reader.isSeparator piece = false
  notOpen : piece.is "(" = false
  notClose : piece.is ")" = false
  notElse : piece.isKeyword "else" = false

theorem Quiet.opens {piece : Piece} (h : Quiet piece) : Opens piece :=
  ⟨h.not_separator, h.mark "(" (by decide), h.mark ")" (by decide), h.word "else" (by decide)⟩

theorem Statement.opens (statement : Statement registry) :
    ∃ first rest, statement.tokens = first :: rest ∧ Opens (.token first) := by
  cases statement with
  | line phrase =>
      obtain ⟨first, rest, shape⟩ := List.exists_cons_of_ne_nil phrase.nonempty
      have plain := phrase.plain first (by rw [shape]; exact List.mem_cons_self)
      exact ⟨first, rest, shape, plain.quiet.opens⟩
  | conditional condition consequent alternative =>
      cases alternative with
      | none => exact ⟨"if", _, rfl, by decide, by decide, by decide, by decide⟩
      | some alternative => exact ⟨"if", _, rfl, by decide, by decide, by decide, by decide⟩
  | loop header body => exact ⟨"for", _, rfl, by decide, by decide, by decide, by decide⟩
  | attempt attempted handler => exact ⟨"try", _, rfl, by decide, by decide, by decide, by decide⟩
  | function name parameters body =>
      exact ⟨"fn", _, rfl, by decide, by decide, by decide, by decide⟩

theorem last_bracketed (front : List String) (word : String) (tokens : List String) :
    ∀ piece ∈ (unread (front ++ word :: bracketed tokens)).getLast?,
      Reader.isSeparator piece = false := by
  intro piece member
  have shape : front ++ word :: bracketed tokens = (front ++ word :: "(" :: tokens) ++ [")"] := by
    simp [bracketed]
  rw [shape, unread_append, unread_cons, unread_nil, List.getLast?_concat] at member
  cases Option.mem_some.mp member
  decide

theorem Statement.ends (statement : Statement registry) :
    ∀ piece ∈ (unread statement.tokens).getLast?, Reader.isSeparator piece = false := by
  cases statement with
  | line phrase => exact phrase.bare.last
  | conditional condition consequent alternative =>
      cases alternative with
      | none => exact last_bracketed ("if" :: condition.tokens) "then" _
      | some alternative => exact last_bracketed _ "else" _
  | loop header body => exact last_bracketed ("for" :: header.tokens) "do" _
  | attempt attempted handler => exact last_bracketed _ "catch" _
  | function name parameters body => exact last_bracketed _ "=" _

theorem Program.opens (statement : Statement registry) (rest : Program registry) :
    ∃ first after, Program.tokens (statement :: rest) = first :: after ∧ Opens (.token first) := by
  obtain ⟨first, after, shape, opens⟩ := statement.opens
  cases rest with
  | nil => exact ⟨first, after, shape, opens⟩
  | cons next rest =>
      refine ⟨first, after ++ "\n" :: Program.tokens (next :: rest), ?_, opens⟩
      rw [Program.tokens, shape, List.cons_append]

theorem Program.ends (program : Program registry) :
    ∀ piece ∈ (unread (Program.tokens program)).getLast?, Reader.isSeparator piece = false := by
  induction program with
  | nil =>
      intro piece member
      cases member
  | cons statement rest ih =>
      cases rest with
      | nil => exact statement.ends
      | cons next rest =>
          obtain ⟨first, after, shape, -⟩ := Program.opens next rest
          rw [shape] at ih
          rw [Program.tokens, shape]
          simpa [List.getLast?_append, List.getLast?_cons] using ih

/-- There is nothing around the tokens of a program that trimming would take away: it starts with no
separator or bracket and ends with no separator. -/
theorem Program.bare (program : Program registry) :
    Reader.Bare (unread (Program.tokens program)) := by
  refine ⟨?_, Program.ends program⟩
  intro piece member
  cases program with
  | nil => cases member
  | cons statement rest =>
      obtain ⟨first, after, shape, opens⟩ := Program.opens statement rest
      rw [shape, unread_cons, List.head?_cons] at member
      cases Option.mem_some.mp member
      exact ⟨opens.separator, opens.notOpen⟩

/-! ### Constructs -/

/-- The tokens of a nested program, in their brackets, are read to a block of `pieces`. -/
structure Reads (registry : Registry) (indent : Nat) (tokens : List String)
    (pieces : List Piece) : Prop where
  balanced : Extent.Balanced (unread tokens)
  block : ∀ role, (unbounded registry).block indent role (unread (bracketed tokens)) =
    .ok (.block indent role pieces)

theorem Program.reads {program : Program registry} {indent : Nat}
    (items : (unbounded registry).items indent [] (unread (Program.tokens program)) =
      .ok (Program.pieces indent program)) :
    Reads registry indent (Program.tokens program) (Program.pieces indent program) := by
  refine ⟨Program.balanced program, ?_⟩
  intro role
  rw [Reader.block, unread_bracketed, Reader.trim_group (Program.balanced program),
    (Program.bare program).trim_eq, items]
  rfl

section

variable {indent : Nat} {tokens others : List String} {pieces otherPieces : List Piece}

/-- A clause that does not start with another `if` is cut out and read by itself. -/
theorem alternative_clause {clause rest : List Piece} {block : Piece}
    (first : ∀ piece ∈ (clause ++ rest).head?,
      piece.isNewline = false ∧ piece.isKeyword "if" = false)
    (extent : Extent.clauseEnd (clause ++ rest) 0 = clause.length)
    (read : (unbounded registry).block (indent + 1) .alternative clause = .ok block) :
    (unbounded registry).alternative indent (clause ++ rest) = .ok (block, rest) := by
  have skipped : Reader.skipNewline (clause ++ rest) = clause ++ rest := by
    cases shape : clause ++ rest with
    | nil => rfl
    | cons piece others =>
        rw [shape] at first
        rw [Reader.skipNewline, if_neg (by simp [(first piece rfl).1])]
  have unchained : Reader.after? "if" (clause ++ rest) = none := by
    cases shape : clause ++ rest with
    | nil => rfl
    | cons piece others =>
        rw [shape] at first
        rw [Reader.after?, if_neg (by simp [(first piece rfl).2])]
  simp only [Reader.alternative, skipped, unchained]
  rw [extent, blockOf_front, read, List.drop_left]
  rfl

theorem alternative_bracketed (read : Reads registry (indent + 1) tokens pieces)
    (rest : List Piece) :
    (unbounded registry).alternative indent (unread (bracketed tokens) ++ rest) =
      .ok (.block (indent + 1) .alternative pieces, rest) := by
  refine alternative_clause ?_ (clauseEnd_bracketed read.balanced rest) (read.block _)
  intro piece member
  cases Option.mem_some.mp member
  decide

/-- Up to its consequent, a conditional is read alike with and without an alternative. -/
theorem readConditional_front (condition : Phrase registry) {ending : String}
    (ends : ending = "then" ∨ ending = "do") {clause rest : List Piece} {consequent : Piece}
    (extent : Extent.consequent (clause ++ rest) 0 = ⟨0, clause.length⟩)
    (read : (unbounded registry).block (indent + 1) .consequent clause = .ok consequent) :
    (unbounded registry).readConditional indent
        (unread condition.tokens ++ .token ending :: (clause ++ rest)) =
      (match Reader.afterElse? rest with
      | none => .ok (.conditional indent (.block indent .condition (unread condition.tokens))
          consequent none, rest)
      | some branch => do
        let (alternative, rest) ← (unbounded registry).alternative indent branch
        return (.conditional indent (.block indent .condition (unread condition.tokens))
          consequent (some alternative), rest)) := by
  let after := Piece.token ending :: (clause ++ rest)
  have conditionEnd : Extent.conditionEnd (unread condition.tokens ++ after) 0 =
      (unread condition.tokens).length := by
    have isEnd : Extent.endsCondition (.token ending) = true := by
      rcases ends with rfl | rfl <;> decide
    rw [Extent.conditionEnd, List.drop_zero,
      (isCondition_quiet condition.quiet).conditionLength_eq isEnd]
    simp
  have behind : (unread condition.tokens ++ after).drop ((unread condition.tokens).length + 1) =
      clause ++ rest := by
    rw [List.drop_append]
    simp [after]
  change (unbounded registry).readConditional indent (unread condition.tokens ++ after) = _
  simp only [Reader.readConditional, conditionEnd, blockOf_front, condition.block_eq, behind,
    extent, read, List.drop_left]
  rfl

theorem loop_bracketed (header : Phrase registry)
    (read : Reads registry (indent + 1) tokens pieces) (rest : List Piece) :
    (unbounded registry).loop indent
        (unread header.tokens ++ .token "do" :: (unread (bracketed tokens) ++ rest)) =
      .ok (.loop indent (.block indent .loopHeader (unread header.tokens)) false
        (some (.block (indent + 1) .loopBody pieces)), rest) := by
  have found (after : List Piece) :
      Reader.after? "do" (Reader.skipNewlines (.token "do" :: after)) = some after := by
    rw [Reader.skipNewlines, List.dropWhile_cons_of_neg (by decide), Reader.after?,
      if_pos (by decide)]
  have skipped : Reader.skipNewlines (unread (bracketed tokens) ++ rest) =
      unread (bracketed tokens) ++ rest := rfl
  simp only [Reader.loop, loopHeader_quiet header.quiet, blockOf_front, header.block_eq,
    List.drop_left, found, skipped, clauseEnd_bracketed read.balanced, read.block]
  rfl

theorem skipNewlines_eq {pieces : List Piece}
    (first : ∀ piece ∈ pieces.head?, piece.isNewline = false) :
    Reader.skipNewlines pieces = pieces := by
  cases pieces with
  | nil => rfl
  | cons piece rest => exact List.dropWhile_cons_of_neg (by simp [first piece rfl])

/-- A handler is dropped if there is nothing in it, and read as a block otherwise. -/
def handlerOf (registry : Registry) (indent : Nat) (inner : List Piece) : Result (Option Piece) :=
  if Reader.isEmptyHandler inner then .ok none
  else some <$> (unbounded registry).block indent .handler inner

/-- A handler in brackets belongs to the clause before it, if that reaches up to `catch`. An empty
one is left out. -/
theorem attempt_handled {clause inner : List Piece}
    (first : ∀ piece ∈ clause.head?, piece.isNewline = false) (balanced : Extent.Balanced inner)
    (rest : List Piece)
    (extent : Reader.attemptedEnd (clause ++ .token "catch" ::
      (.token "(" :: inner ++ .token ")" :: rest)) = clause.length) :
    (unbounded registry).attempt indent (clause ++ .token "catch" ::
        (.token "(" :: inner ++ .token ")" :: rest)) = do
      let attempted ← (unbounded registry).block (indent + 1) .attempted clause
      let handler ← handlerOf registry (indent + 1) inner
      return (.attempt indent attempted handler, rest) := by
  let group := Piece.token "(" :: inner ++ [.token ")"]
  have shape : Piece.token "(" :: inner ++ .token ")" :: rest = group ++ rest := by simp [group]
  have close := Extent.closingParen_group balanced rest
  rw [shape] at extent close ⊢
  have starts : Reader.skipNewlines (clause ++ .token "catch" :: (group ++ rest)) =
      clause ++ .token "catch" :: (group ++ rest) := by
    apply skipNewlines_eq
    cases clause with
    | nil =>
        rintro _ ⟨⟩
        decide
    | cons piece others => exact first
  have found : Reader.after? "catch" (Reader.skipNewlines (.token "catch" :: (group ++ rest))) =
      some (group ++ rest) := by
    rw [Reader.skipNewlines, List.dropWhile_cons_of_neg (by decide), Reader.after?,
      if_pos (by decide)]
  have opened : Reader.skipNewlines (group ++ rest) = group ++ rest := rfl
  have stop : Extent.clauseEnd (group ++ rest) 0 = group.length := by
    change Extent.closingParen (group ++ rest) 0 + 1 = group.length
    rw [close]
    simp [group]
  have cutOut : Reader.cut (group ++ rest) ⟨0, group.length⟩ = .ok group := by
    have inside : group.length ≤ (group ++ rest).length := by simp
    rw [Reader.cut_eq_ok ⟨Nat.zero_le _, inside⟩, List.drop_zero, List.take_left]
  have empty : Reader.isEmptyHandler group = Reader.isEmptyHandler inner := by
    simp [Reader.isEmptyHandler, group]
  have block : (unbounded registry).block (indent + 1) .handler group =
      (unbounded registry).block (indent + 1) .handler inner := by
    rw [Reader.block, Reader.trim_group balanced]
    rfl
  simp only [Reader.attempt, starts, extent, blockOf_front, List.drop_left, found, opened, stop,
    cutOut]
  cases (unbounded registry).block (indent + 1) .attempted clause with
  | error _ => rfl
  | ok attempted =>
      simp only [bind, Except.bind, empty, block, handlerOf]
      by_cases isEmpty : Reader.isEmptyHandler inner = true
      · rw [if_pos isEmpty, if_pos isEmpty]
        rfl
      · rw [if_neg isEmpty, if_neg isEmpty]

theorem attempt_bracketed (read : Reads registry (indent + 1) tokens pieces)
    (handler : Reads registry (indent + 1) others otherPieces) (rest : List Piece) :
    (unbounded registry).attempt indent (unread (bracketed tokens) ++
        .token "catch" :: (unread (bracketed others) ++ rest)) =
      .ok (.attempt indent (.block (indent + 1) .attempted pieces)
        (if Reader.isEmptyHandler (unread others) then none
          else some (.block (indent + 1) .handler otherPieces)), rest) := by
  have shape : unread (bracketed others) ++ rest =
      .token "(" :: unread others ++ .token ")" :: rest := by
    simp [bracketed]
  have extent := attemptedEnd_bracketed read.balanced
    (.token "catch" :: (unread (bracketed others) ++ rest))
  have handled := handler.block .handler
  have first : ∀ piece ∈ (unread (bracketed tokens)).head?, piece.isNewline = false := by
    rintro _ ⟨⟩
    decide
  rw [unread_bracketed, Reader.block, Reader.trim_group handler.balanced] at handled
  rw [shape] at extent ⊢
  rw [attempt_handled first handler.balanced rest extent, read.block, handlerOf]
  by_cases isEmpty : Reader.isEmptyHandler (unread others) = true
  · rw [if_pos isEmpty, if_pos isEmpty]
    rfl
  · rw [if_neg isEmpty, if_neg isEmpty, Reader.block, handled]
    rfl

theorem parameters_eq (parameters : List Parameter) (indent : Nat) (rest : List Piece) :
    (unbounded registry).parameters indent
        (unread (parameters.map Parameter.text) ++ .token "=" :: rest) =
      .ok (parameters.map fun parameter => .binding indent parameter.text none false,
        .token "=" :: rest) := by
  induction parameters with
  | nil =>
      rw [Reader.unbounded_parameters]
      rfl
  | cons parameter others ih =>
      let after := unread (others.map Parameter.text) ++ .token "=" :: rest
      have body : (Piece.token parameter.text).is "=" = false := by
        simpa using parameter.ne_mark (by decide : Token.isWord "=" = false)
      have unkeyed : Reader.key? (.token parameter.text) after = none := by
        cases others with
        | nil =>
            simp [Reader.key?, after]
        | cons next others =>
            have notColon := next.ne_mark (by decide : Token.isWord ":" = false)
            simp [Reader.key?, after, notColon]
      change (unbounded registry).parameters indent (.token parameter.text :: after) = _
      rw [Reader.unbounded_parameters]
      simp only [Reader.readParameters, body, unkeyed, after, ih, Piece.text?_token,
        parameter.isWord, if_true]
      rfl

theorem function_bracketed (name : Name) (parameters : List Parameter)
    (read : Reads registry (indent + 1) tokens pieces) (rest : List Piece) :
    (unbounded registry).function indent (.token name.text ::
        (unread (parameters.map Parameter.text) ++
          .token "=" :: (unread (bracketed tokens) ++ rest))) =
      .ok (.function indent name.text
        (parameters.map fun parameter => .binding indent parameter.text none false)
        (.block (indent + 1) .functionBody pieces), rest) := by
  have skipped : Reader.skipNewlines (unread (bracketed tokens) ++ rest) =
      unread (bracketed tokens) ++ rest := rfl
  simp only [Reader.function, Reader.nameAt, Piece.text?_token, Option.getD_some,
    parameters_eq parameters indent]
  simp only [bind, Except.bind, List.drop_succ_cons, List.drop_zero, skipped,
    bodyEnd_bracketed read.balanced, blockOf_front, read.block, List.drop_left]
  rfl

end

/-! ### Programs -/

/-- A construct that starts at `first` becomes a single item, and the pass goes on behind it. Each
construct is brought into its block by this lemma. -/
theorem items_construct {indent : Nat} {before after rest : List Piece} {first construct : Piece}
    {reading : Result (Reading Piece)} (notClose : first.is ")" = false)
    (step : (unbounded registry).step indent before first after = Reader.passed before <$> reading)
    (read : reading = .ok (construct, rest)) :
    (unbounded registry).items indent before (first :: after) =
      (unbounded registry).items indent (construct :: before) rest := by
  rw [Reader.unbounded_items, Reader.readItems, if_neg (by simp [notClose]), step, read]
  rfl

theorem step_if (indent : Nat) (before after : List Piece) :
    (unbounded registry).step indent before (.token "if") after =
      Reader.passed before <$> (unbounded registry).readConditional indent after := by
  have folded : Text.foldCase "if" = "if" := by decide
  simp [Reader.step, folded]

theorem step_try (indent : Nat) (before after : List Piece) :
    (unbounded registry).step indent before (.token "try") after =
      Reader.passed before <$> (unbounded registry).attempt indent after := by
  have folded : Text.foldCase "try" = "try" := by decide
  simp [Reader.step, folded]

theorem step_fn (indent : Nat) (before after : List Piece) :
    (unbounded registry).step indent before (.token "fn") after =
      Reader.passed before <$> (unbounded registry).function indent after := by
  have folded : Text.foldCase "fn" = "fn" := by decide
  simp [Reader.step, folded]

/-- A known function of the name `for` would be called instead, since calls are tested first. The
other words of constructs cannot be taken from them. -/
theorem step_for (unknown : registry.isKnownCall "for" = false) (indent : Nat)
    (before after : List Piece) :
    (unbounded registry).step indent before (.token "for") after =
      Reader.passed before <$> (unbounded registry).loop indent after := by
  have folded : Text.foldCase "for" = "for" := by decide
  have callee : (unbounded registry).callee? (.token "for") after = none := by
    simp [Reader.callee?, unbounded, unknown]
  simp [Reader.step, Reader.stepToken, folded, callee]

theorem isEmptyHandler_nil : Reader.isEmptyHandler (unread []) = true := rfl

/-- A handler with a statement in it is not empty. -/
theorem isEmptyHandler_cons (statement : Statement registry) (rest : Program registry) :
    Reader.isEmptyHandler (unread (Program.tokens (statement :: rest))) = false := by
  obtain ⟨first, after, shape, opens⟩ := Program.opens statement rest
  have notNewline : (Piece.token first).isNewline = false := by
    have := opens.separator
    rw [Reader.isSeparator, Bool.or_eq_false_iff] at this
    exact this.1
  rw [shape, Reader.isEmptyHandler, List.all_eq_false]
  refine ⟨.token first, by simp, ?_⟩
  simp [opens.notOpen, opens.notClose, notNewline]

/-- Nothing that comes after a statement of a program is taken for its alternative, as no statement
starts with `else`. -/
theorem afterElse?_newline (statement : Statement registry) (rest : Program registry) :
    Reader.afterElse? (.token "\n" :: unread (Program.tokens (statement :: rest))) = none := by
  obtain ⟨first, after, shape, opens⟩ := Program.opens statement rest
  rw [shape, unread_cons, Reader.afterElse?, if_pos (by decide), Reader.after?,
    if_neg (by simp [opens.notElse])]

mutual

/-- A statement is read to its pieces, unless an `else` after it makes it longer. By induction on
the statement, together with the programs in its brackets. -/
theorem Statement.items_eq (indent : Nat) (before rest : List Piece)
    (last : Reader.afterElse? rest = none) : (statement : Statement registry) →
    (statement.hasLoop = true → registry.isKnownCall "for" = false) →
    (unbounded registry).items indent before (unread statement.tokens ++ rest) =
      (unbounded registry).items indent ((statement.pieces indent).reverse ++ before) rest
  | .line phrase, _ => phrase.items_eq indent before rest
  | .conditional condition consequent none, loops => by
      have read := Program.reads (Program.items_eq (indent + 1) [] consequent loops)
      simp only [Statement.tokens, List.cons_append, List.append_assoc, unread_cons,
        unread_append]
      refine items_construct (by decide) (step_if _ _ _) ?_
      rw [readConditional_front condition (.inl rfl) (consequent_bracketed read.balanced rest)
        (read.block _), last]
  | .conditional condition consequent (some alternative), loops => by
      have read := Program.reads (Program.items_eq (indent + 1) [] consequent
        fun inside => loops (by simp [Statement.hasLoop, inside]))
      have other := Program.reads (Program.items_eq (indent + 1) [] alternative
        fun inside => loops (by simp [Statement.hasLoop, inside]))
      have branch : Reader.afterElse?
          (.token "else" :: (unread (bracketed (Program.tokens alternative)) ++ rest)) =
            some (unread (bracketed (Program.tokens alternative)) ++ rest) := by
        rw [Reader.afterElse?, if_neg (by decide), Reader.after?, if_pos (by decide)]
      simp only [Statement.tokens, List.cons_append, List.append_assoc, unread_cons,
        unread_append]
      refine items_construct (by decide) (step_if _ _ _) ?_
      simp only [readConditional_front condition (.inl rfl)
        (consequent_bracketed read.balanced _) (read.block _), branch, alternative_bracketed other]
      rfl
  | .loop header body, loops => by
      have unknown := loops rfl
      have read := Program.reads (Program.items_eq (indent + 1) [] body fun _ => unknown)
      simp only [Statement.tokens, List.cons_append, List.append_assoc, unread_cons,
        unread_append]
      exact items_construct (by decide) (step_for unknown _ _ _) (loop_bracketed header read rest)
  | .attempt attempted [], loops => by
      have read := Program.reads (Program.items_eq (indent + 1) [] attempted
        fun inside => loops (by simp [Statement.hasLoop, inside]))
      have handler := Program.reads (Program.items_eq (indent + 1) [] []
        fun inside => loops (by simp [Statement.hasLoop, inside]))
      simp only [Statement.tokens, List.cons_append, List.append_assoc, unread_cons,
        unread_append]
      refine items_construct (by decide) (step_try _ _ _) ?_
      rw [attempt_bracketed read handler rest, Program.tokens, if_pos isEmptyHandler_nil]
  | .attempt attempted (first :: others), loops => by
      have read := Program.reads (Program.items_eq (indent + 1) [] attempted
        fun inside => loops (by simp [Statement.hasLoop, inside]))
      have handler := Program.reads (Program.items_eq (indent + 1) [] (first :: others)
        fun inside => loops (by simp [Statement.hasLoop, inside]))
      simp only [Statement.tokens, List.cons_append, List.append_assoc, unread_cons,
        unread_append]
      refine items_construct (by decide) (step_try _ _ _) ?_
      rw [attempt_bracketed read handler rest, if_neg (by simp [isEmptyHandler_cons])]
  | .function name parameters body, loops => by
      have read := Program.reads (Program.items_eq (indent + 1) [] body loops)
      simp only [Statement.tokens, List.cons_append, List.append_assoc, unread_cons,
        unread_append]
      exact items_construct (by decide) (step_fn _ _ _)
        (function_bracketed name parameters read rest)

theorem Program.items_eq (indent : Nat) (before : List Piece) :
    (program : List (Statement registry)) →
    (Program.hasLoop program = true → registry.isKnownCall "for" = false) →
    (unbounded registry).items indent before (unread (Program.tokens program)) =
      .ok (before.reverse ++ Program.pieces indent program)
  | [], _ => by
      rw [Program.tokens, Program.pieces, unread_nil, items_nil, List.append_nil]
  | [statement], loops => by
      have read := Statement.items_eq indent before [] rfl statement
        fun inside => loops (by simp [Program.hasLoop, inside])
      rw [List.append_nil, items_nil] at read
      rw [Program.tokens, read, Program.pieces, List.reverse_append, List.reverse_reverse]
  | statement :: next :: rest, loops => by
      have read := Statement.items_eq indent before _ (afterElse?_newline next rest) statement
        fun inside => loops (by simp [Program.hasLoop, inside])
      have after := Program.items_eq indent
        (.token "\n" :: ((statement.pieces indent).reverse ++ before)) (next :: rest)
        fun inside => loops (by rw [Program.hasLoop, inside, Bool.or_true])
      rw [Program.tokens, unread_append, unread_cons, read, items_newline, after, Program.pieces]
      simp

end

/-- Reading a structured program gives the block of its statements, at any indentation and in any
role. -/
theorem readBlock_program (indent : Nat) (role : Role) (program : Program registry)
    (loops : Program.hasLoop program = true → registry.isKnownCall "for" = false) :
    readBlock registry indent role (unread (Program.tokens program)) =
      .ok (.block indent role (Program.pieces indent program)) := by
  rw [readBlock_eq, Reader.block, (Program.bare program).trim_eq,
    Program.items_eq indent [] program loops]
  rfl

end Maxscript.Structured
