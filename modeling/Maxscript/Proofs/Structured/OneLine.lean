import Maxscript.Proofs.Convert
import Maxscript.Proofs.Reader.Newline
import Maxscript.Proofs.Structured.Reading

/-!
# Conditionals on one line

Conditionals may be nested on a line without any brackets. An `else` then belongs to the nearest
`if` before it that has none yet. The statements that can be written so are given as trees, in
which it is settled beforehand which `else` belongs to which `if`: a conditional with an `else` has
a consequent in which every `if` has its own, as any other would take the `else` for itself.

Three parts of the reader have to agree on this. The consequent is cut out by a count of the `if`s
that still wait for an `else`; it is read by itself, without sight of what follows; and an `if`
after an `else` is read from the list as it stands, with everything that follows.

An `else` on the next line is another matter. The consequent ends with its line, so that `else`
belongs to the first `if` of the line before it, whatever waits for one further on.
-/

namespace Maxscript.Structured

open Reader (unbounded)

variable {registry : Registry} {closed : Bool}

inductive Ending where
  | thenWord
  | doWord

def Ending.text : Ending → String
  | .thenWord => "then"
  | .doWord => "do"

theorem Ending.text_eq (ending : Ending) : ending.text = "then" ∨ ending.text = "do" := by
  cases ending with
  | thenWord => exact .inl rfl
  | doWord => exact .inr rfl

/-- A statement on one line, which is `closed` if each `if` in it has an `else`. Plain tokens may
come before a conditional, as in an assignment. -/
inductive OneLine (registry : Registry) : Bool → Type where
  | line (phrase : Phrase registry) : OneLine registry true
  | after {closed : Bool} (phrase : Phrase registry) (statement : OneLine registry closed) :
      OneLine registry closed
  | choice {closed : Bool} (condition : Phrase registry) (ending : Ending)
      (consequent : OneLine registry true) (alternative : OneLine registry closed) :
      OneLine registry closed
  | only {closed : Bool} (condition : Phrase registry) (ending : Ending)
      (consequent : OneLine registry closed) : OneLine registry false

namespace OneLine

def tokens {closed : Bool} : OneLine registry closed → List String
  | .line phrase => phrase.tokens
  | .after phrase statement => phrase.tokens ++ statement.tokens
  | .choice condition ending consequent alternative =>
    "if" :: condition.tokens ++ ending.text :: consequent.tokens ++ "else" :: alternative.tokens
  | .only condition ending consequent =>
    "if" :: condition.tokens ++ ending.text :: consequent.tokens

/-- A conditional at `indent`, by what there is in its clauses. -/
def conditionalPiece (indent : Nat) (condition : Phrase registry) (consequent : List Piece)
    (alternative : Option (List Piece)) : Piece :=
  .conditional indent (.block indent .condition (unread condition.tokens))
    (.block (indent + 1) .consequent consequent)
    (alternative.map (.block (indent + 1) .alternative))

/-- What a statement at `indent` stands for. A conditional in an alternative is all there is in the
block of that alternative. -/
def pieces {closed : Bool} (indent : Nat) : OneLine registry closed → List Piece
  | .line phrase => unread phrase.tokens
  | .after phrase statement => unread phrase.tokens ++ statement.pieces indent
  | .choice condition _ consequent alternative =>
    [conditionalPiece indent condition (consequent.pieces (indent + 1))
      (some (alternative.pieces (indent + 1)))]
  | .only condition _ consequent =>
    [conditionalPiece indent condition (consequent.pieces (indent + 1)) none]

/-- How many `if`s still wait for an `else`. -/
def pending {closed : Bool} : OneLine registry closed → Nat
  | .line _ => 0
  | .after _ statement => statement.pending
  | .choice _ _ _ alternative => alternative.pending
  | .only _ _ consequent => consequent.pending + 1

theorem pending_eq_zero : (statement : OneLine registry true) → statement.pending = 0
  | .line _ => rfl
  | .after _ statement => pending_eq_zero statement
  | .choice _ _ _ alternative => pending_eq_zero alternative

theorem opens (statement : OneLine registry closed) :
    ∃ first rest, statement.tokens = first :: rest ∧ Opens (.token first) := by
  have plain (phrase : Phrase registry) (others : List String) :
      ∃ first rest, phrase.tokens ++ others = first :: rest ∧ Opens (.token first) := by
    obtain ⟨first, rest, shape⟩ := List.exists_cons_of_ne_nil phrase.nonempty
    have quiet := (phrase.plain first (by rw [shape]; exact List.mem_cons_self)).quiet
    exact ⟨first, rest ++ others, by rw [shape, List.cons_append], quiet.opens⟩
  cases statement with
  | line phrase =>
      rw [tokens, ← List.append_nil phrase.tokens]
      exact plain phrase []
  | after phrase statement => exact plain phrase statement.tokens
  | choice condition ending consequent alternative =>
      exact ⟨"if", _, rfl, by decide, by decide, by decide, by decide⟩
  | only condition ending consequent =>
      exact ⟨"if", _, rfl, by decide, by decide, by decide, by decide⟩

/-- What comes before a statement does not change how the list ends. -/
theorem ends_append {statement : OneLine registry closed}
    (ends : ∀ piece ∈ (unread statement.tokens).getLast?, Reader.isSeparator piece = false)
    (front : List String) :
    ∀ piece ∈ (unread (front ++ statement.tokens)).getLast?, Reader.isSeparator piece = false := by
  obtain ⟨first, rest, shape, -⟩ := statement.opens
  intro piece member
  apply ends piece
  simpa [shape, List.getLast?_append, List.getLast?_cons] using member

theorem ends (statement : OneLine registry closed) :
    ∀ piece ∈ (unread statement.tokens).getLast?, Reader.isSeparator piece = false := by
  induction statement with
  | line phrase => exact phrase.bare.last
  | after phrase statement ih => exact ends_append ih phrase.tokens
  | choice condition ending consequent alternative _ ih =>
      have shape : tokens (.choice condition ending consequent alternative) =
          ("if" :: condition.tokens ++ ending.text :: consequent.tokens ++ ["else"]) ++
            alternative.tokens := by simp [tokens]
      rw [shape]
      exact ends_append ih _
  | only condition ending consequent ih =>
      have shape : tokens (.only condition ending consequent) =
          ("if" :: condition.tokens ++ [ending.text]) ++ consequent.tokens := by simp [tokens]
      rw [shape]
      exact ends_append ih _

theorem bare (statement : OneLine registry closed) : Reader.Bare (unread statement.tokens) := by
  constructor
  · intro piece member
    obtain ⟨first, rest, shape, opens⟩ := statement.opens
    rw [shape, unread_cons, List.head?_cons] at member
    cases Option.mem_some.mp member
    exact ⟨opens.separator, opens.notOpen⟩
  · exact statement.ends

end OneLine

/-! ### How far a clause extends -/

theorem statementLength_quiet {pieces : List Piece} (quiet : ∀ piece ∈ pieces, Quiet piece)
    (pending : Nat) (rest : List Piece) :
    Extent.statementLength 0 pending (pieces ++ rest) =
      pieces.length + Extent.statementLength 0 pending rest := by
  induction pieces with
  | nil => exact (Nat.zero_add _).symm
  | cons piece pieces ih =>
      have first := quiet piece List.mem_cons_self
      have tail := ih fun other member => quiet other (List.mem_cons_of_mem _ member)
      simp only [List.cons_append, Extent.statementLength, Piece.isNewline,
        first.mark "(" (by decide), first.mark ")" (by decide), first.mark "\n" (by decide),
        first.word "if" (by decide), first.word "else" (by decide), tail, List.length_cons]
      simp only [Bool.false_eq_true, if_false, Nat.lt_irrefl]
      omega

theorem statementLength_ending (ending : Ending) (pending : Nat) (rest : List Piece) :
    Extent.statementLength 0 pending (.token ending.text :: rest) =
      Extent.statementLength 0 pending rest + 1 := by
  cases ending with
  | thenWord => rfl
  | doWord => rfl

@[simp] theorem statementLength_if (pending : Nat) (rest : List Piece) :
    Extent.statementLength 0 pending (.token "if" :: rest) =
      Extent.statementLength 0 (pending + 1) rest + 1 := rfl

@[simp] theorem statementLength_else (pending : Nat) (rest : List Piece) :
    Extent.statementLength 0 (pending + 1) (.token "else" :: rest) =
      Extent.statementLength 0 pending rest + 1 := rfl

/-- The count passes over a whole statement, and goes on with the `if`s that it left waiting. By
induction on the statement, for any count at its start. -/
theorem OneLine.statementLength_tokens (statement : OneLine registry closed) (pending : Nat)
    (rest : List Piece) :
    Extent.statementLength 0 pending (unread statement.tokens ++ rest) =
      statement.tokens.length + Extent.statementLength 0 (pending + statement.pending) rest := by
  induction statement generalizing pending rest with
  | line phrase =>
      rw [tokens, OneLine.pending, statementLength_quiet phrase.quiet, length_unread, Nat.add_zero]
  | after phrase statement ih =>
      rw [tokens, OneLine.pending, unread_append, List.append_assoc,
        statementLength_quiet phrase.quiet, ih, length_unread, List.length_append, Nat.add_assoc]
  | choice condition ending consequent alternative ihConsequent ihAlternative =>
      simp only [tokens, OneLine.pending, unread_append, unread_cons, List.cons_append,
        List.append_assoc, statementLength_if, statementLength_quiet condition.quiet,
        statementLength_ending, ihConsequent, consequent.pending_eq_zero, Nat.add_zero,
        statementLength_else, ihAlternative, length_unread, List.length_cons, List.length_append]
      omega
  | only condition ending consequent ih =>
      simp only [tokens, OneLine.pending, unread_append, unread_cons, List.cons_append,
        List.append_assoc, statementLength_if, statementLength_quiet condition.quiet,
        statementLength_ending, ih, length_unread, List.length_cons, List.length_append]
      rw [show pending + 1 + consequent.pending = pending + (consequent.pending + 1) by omega]
      omega

section

variable (statement : OneLine registry closed) {rest : List Piece}
variable (stops : Extent.statementLength 0 statement.pending rest = 0)
include stops

theorem OneLine.statementEnd_eq :
    Extent.statementEnd (unread statement.tokens ++ rest) 0 =
      (unread statement.tokens).length := by
  rw [Extent.statementEnd, List.drop_zero, statement.statementLength_tokens, Nat.zero_add, stops,
    length_unread]
  omega

theorem OneLine.consequent_eq :
    Extent.consequent (unread statement.tokens ++ rest) 0 =
      ⟨0, (unread statement.tokens).length⟩ := by
  have extent := statement.statementEnd_eq stops
  obtain ⟨first, others, shape, opens⟩ := statement.opens
  have notNewline := (Bool.or_eq_false_iff.mp opens.separator).1
  rw [← extent, shape, unread_cons, List.cons_append, Extent.consequent, List.drop_zero]
  simp only [opens.notOpen, notNewline, Bool.false_eq_true, if_false]

theorem OneLine.clauseEnd_eq :
    Extent.clauseEnd (unread statement.tokens ++ rest) 0 = (unread statement.tokens).length := by
  have extent := statement.statementEnd_eq stops
  obtain ⟨first, others, shape, opens⟩ := statement.opens
  rw [← extent, shape, unread_cons, List.cons_append, Extent.clauseEnd, List.drop_zero]
  simp only [opens.notOpen, Bool.false_eq_true, if_false]

end

/-! ### What a statement is read to -/

/-- A statement ends here: nothing follows, or a newline that no `else` comes after. -/
structure EndsLine (rest : List Piece) : Prop where
  newline : ∀ piece ∈ rest.head?, piece.isNewline = true
  noElse : ∀ piece ∈ rest.tail.head?, piece.isKeyword "else" = false

namespace EndsLine

variable {rest : List Piece}

theorem nil : EndsLine [] := ⟨by simp, by simp⟩

theorem afterElse?_eq (h : EndsLine rest) : Reader.afterElse? rest = none := by
  cases rest with
  | nil => rfl
  | cons first others =>
      rw [Reader.afterElse?, if_pos (h.newline first rfl)]
      cases others with
      | nil => rfl
      | cons second others =>
          rw [Reader.after?, if_neg (by simp [h.noElse second rfl])]

/-- Where a line ends the statement ends, however many `if`s are waiting for an `else`. An `else` on
the next line comes too late for them. -/
theorem statementLength_eq (h : EndsLine rest) (pending : Nat) :
    Extent.statementLength 0 pending rest = 0 := by
  cases rest with
  | nil => rfl
  | cons first others =>
      have newline := h.newline first rfl
      rw [Piece.eq_token_of_text? (beq_iff_eq.mp newline)]
      rfl

end EndsLine

namespace OneLine

/-- The statement is read to its pieces, as items of a block and behind an `else`. -/
structure IsRead (statement : OneLine registry closed) : Prop where
  items : ∀ indent before rest, EndsLine rest →
    (unbounded registry).items indent before (unread statement.tokens ++ rest) =
      (unbounded registry).items indent ((statement.pieces indent).reverse ++ before) rest
  alternative : ∀ indent rest, EndsLine rest →
    (unbounded registry).alternative indent (unread statement.tokens ++ rest) =
      .ok (.block (indent + 1) .alternative (statement.pieces (indent + 1)), rest)

theorem items_nil_eq {statement : OneLine registry closed} {indent : Nat} {before : List Piece}
    (items : (unbounded registry).items indent before (unread statement.tokens ++ []) =
      (unbounded registry).items indent ((statement.pieces indent).reverse ++ before) []) :
    (unbounded registry).items indent before (unread statement.tokens) =
      .ok (before.reverse ++ statement.pieces indent) := by
  rw [List.append_nil, items_nil, List.reverse_append, List.reverse_reverse] at items
  exact items

/-- A clause that was cut out is read to the block of its pieces. -/
theorem block_eq {statement : OneLine registry closed} {indent : Nat} (role : Role)
    (items : (unbounded registry).items indent [] (unread statement.tokens ++ []) =
      (unbounded registry).items indent ((statement.pieces indent).reverse ++ []) []) :
    (unbounded registry).block indent role (unread statement.tokens) =
      .ok (.block indent role (statement.pieces indent)) := by
  rw [Reader.block, statement.bare.trim_eq, items_nil_eq items]
  rfl

/-- A clause that starts with a plain token is cut out, also behind an `else`. It is enough to know
how its items are read. -/
theorem isRead_of_items {statement : OneLine registry closed}
    (first : ∀ piece ∈ (unread statement.tokens).head?, piece.isKeyword "if" = false)
    (items : ∀ indent before rest, EndsLine rest →
      (unbounded registry).items indent before (unread statement.tokens ++ rest) =
        (unbounded registry).items indent ((statement.pieces indent).reverse ++ before) rest) :
    IsRead statement := by
  refine ⟨items, ?_⟩
  intro indent rest ended
  apply alternative_clause
  · intro piece member
    obtain ⟨head, others, shape, opens⟩ := statement.opens
    rw [shape, unread_cons] at first
    rw [shape, unread_cons, List.cons_append, List.head?_cons] at member
    cases Option.mem_some.mp member
    exact ⟨(Bool.or_eq_false_iff.mp opens.separator).1, first _ rfl⟩
  · exact statement.clauseEnd_eq (ended.statementLength_eq _)
  · exact block_eq _ (items (indent + 1) [] [] .nil)

/-- A conditional is one item of its block, and the only one of an alternative. There it is not cut
out first, but read where it stands. -/
theorem isRead_of_conditional {statement : OneLine registry closed} {rest : List String}
    {made : Nat → Piece} (tokens : statement.tokens = "if" :: rest)
    (pieces : ∀ indent, statement.pieces indent = [made indent])
    (read : ∀ indent after, EndsLine after →
      (unbounded registry).readConditional indent (unread rest ++ after) =
        .ok (made indent, after)) :
    IsRead statement := by
  constructor
  · intro indent before after ended
    rw [tokens, pieces, unread_cons, List.cons_append]
    exact items_construct (by decide) (step_if _ _ _) (read indent after ended)
  · intro indent after ended
    have chained : Reader.after? "if" (.token "if" :: (unread rest ++ after)) =
        some (unread rest ++ after) := by
      rw [Reader.after?, if_pos (by decide)]
    have skipped : Reader.skipNewline (.token "if" :: (unread rest ++ after)) =
        .token "if" :: (unread rest ++ after) := rfl
    rw [tokens, pieces, unread_cons, List.cons_append]
    simp only [Reader.alternative, skipped, chained, Reader.unbounded_conditional,
      read (indent + 1) after ended]
    rfl

@[simp] theorem afterElse?_else (rest : List Piece) :
    Reader.afterElse? (.token "else" :: rest) = some rest := by
  rw [Reader.afterElse?, if_neg (by decide), Reader.after?, if_pos (by decide)]

theorem afterElse?_newline (rest : List Piece) :
    Reader.afterElse? (.token "\n" :: .token "else" :: rest) = some rest := by
  rw [Reader.afterElse?, if_pos (by decide), Reader.after?, if_pos (by decide)]

section

variable (condition : Phrase registry) (ending : Ending) {consequent : OneLine registry closed}
variable (inner : IsRead consequent) (indent : Nat)
include inner

/-- An `else` that no `if` of the consequent waits for starts the alternative, on the same line or
on the next. -/
theorem readConditional_else {other : Bool} {alternative : OneLine registry other}
    (outer : IsRead alternative) {rest after : List Piece} (ended : EndsLine after)
    (stops : Extent.statementLength 0 consequent.pending rest = 0)
    (found : Reader.afterElse? rest = some (unread alternative.tokens ++ after)) :
    (unbounded registry).readConditional indent (unread condition.tokens ++ .token ending.text ::
        (unread consequent.tokens ++ rest)) =
      .ok (conditionalPiece indent condition (consequent.pieces (indent + 1))
        (some (alternative.pieces (indent + 1))), after) := by
  have block := block_eq .consequent (inner.items (indent + 1) [] [] .nil)
  simp only [readConditional_front condition ending.text_eq (consequent.consequent_eq stops) block,
    found, outer.alternative indent after ended]
  rfl

theorem readConditional_only {after : List Piece} (ended : EndsLine after) :
    (unbounded registry).readConditional indent (unread condition.tokens ++ .token ending.text ::
        (unread consequent.tokens ++ after)) =
      .ok (conditionalPiece indent condition (consequent.pieces (indent + 1)) none, after) := by
  have block := block_eq .consequent (inner.items (indent + 1) [] [] .nil)
  have stops := ended.statementLength_eq consequent.pending
  simp only [readConditional_front condition ending.text_eq (consequent.consequent_eq stops) block,
    ended.afterElse?_eq]
  rfl

end

/-- Every statement is read to its pieces. By induction on the statement, whose type says whether an
`if` in it still waits for an `else`. -/
theorem isRead (statement : OneLine registry closed) : IsRead statement := by
  induction statement with
  | line phrase =>
      apply isRead_of_items
      · intro piece member
        exact (phrase.quiet piece (List.mem_of_mem_head? member)).word "if" (by decide)
      · intro indent before rest _
        exact phrase.items_eq indent before rest
  | after phrase statement ih =>
      apply isRead_of_items
      · intro piece member
        obtain ⟨first, rest, shape⟩ := List.exists_cons_of_ne_nil phrase.nonempty
        have plain := phrase.plain first (by rw [shape]; exact List.mem_cons_self)
        rw [tokens, shape, List.cons_append, unread_cons] at member
        cases Option.mem_some.mp member
        exact plain.quiet.word "if" (by decide)
      · intro indent before rest ended
        rw [tokens, pieces, unread_append, List.append_assoc, phrase.items_eq,
          ih.items indent _ rest ended, List.reverse_append, List.append_assoc]
  | choice condition ending consequent alternative ihConsequent ihAlternative =>
      have shape : tokens (.choice condition ending consequent alternative) =
          "if" :: (condition.tokens ++ ending.text :: (consequent.tokens ++
            "else" :: alternative.tokens)) := by simp [tokens]
      apply isRead_of_conditional shape (fun _ => rfl)
      intro indent after ended
      have stops : Extent.statementLength 0 consequent.pending
          (.token "else" :: (unread alternative.tokens ++ after)) = 0 := by
        rw [consequent.pending_eq_zero]
        rfl
      simp only [unread_append, unread_cons, List.append_assoc, List.cons_append]
      exact readConditional_else condition ending ihConsequent indent ihAlternative ended stops
        (afterElse?_else _)
  | only condition ending consequent ih =>
      have shape : tokens (.only condition ending consequent) =
          "if" :: (condition.tokens ++ ending.text :: consequent.tokens) := by simp [tokens]
      apply isRead_of_conditional shape (fun _ => rfl)
      intro indent after ended
      simp only [unread_append, unread_cons, List.append_assoc, List.cons_append]
      exact readConditional_only condition ending ih indent ended

end OneLine

/-- A statement on one line is read to the conditionals that it was written from: by itself, as the
last line of a block, and before a line that does not start with `else`. What comes before it and
after it in its block is not touched. -/
theorem oneLine_read_as_written (statement : OneLine registry closed) (indent : Nat) :
    (∀ role, readBlock registry indent role (unread statement.tokens) =
      .ok (.block indent role (statement.pieces indent))) ∧
    (∀ before, (unbounded registry).items indent before (unread statement.tokens) =
      .ok (before.reverse ++ statement.pieces indent)) ∧
    ∀ before others, (∀ piece ∈ others.head?, piece.isKeyword "else" = false) →
      (unbounded registry).items indent before (unread statement.tokens ++ .token "\n" :: others) =
        (fun items => before.reverse ++ statement.pieces indent ++ .token "\n" :: items) <$>
          (unbounded registry).items indent [] others := by
  have read := statement.isRead
  refine ⟨?_, ?_, ?_⟩
  · intro role
    rw [readBlock_eq]
    exact OneLine.block_eq role (read.items indent [] [] .nil)
  · intro before
    exact OneLine.items_nil_eq (read.items indent before [] .nil)
  · intro before others noElse
    have ended : EndsLine (.token "\n" :: others) := ⟨by simp, noElse⟩
    have separated := Reader.items_onto ((statement.pieces indent).reverse ++ before) []
      registry indent others
    rw [List.reverse_append, List.reverse_reverse] at separated
    rw [read.items indent before _ ended, items_newline]
    exact separated

/-- Two conditionals in each other, where the second `if` takes the only `else`. -/
def innerChoice : OneLine Registry.empty false :=
  .only (.ofTokens ["a"] (by decide) (by decide +kernel)) .thenWord
    (.choice (.ofTokens ["b"] (by decide) (by decide +kernel)) .doWord
      (.line (.ofTokens ["x"] (by decide) (by decide +kernel)))
      (.only (.ofTokens ["c"] (by decide) (by decide +kernel)) .thenWord
        (.line (.ofTokens ["y"] (by decide) (by decide +kernel)))))

theorem innerChoice_read :
    (unbounded Registry.empty).items 0 [] (unread ["if", "a", "then", "if", "b", "do", "x", "else",
        "if", "c", "then", "y"] ++ .token "\n" :: [.token "z"]) =
      .ok [.conditional 0 (.block 0 .condition [.token "a"])
        (.block 1 .consequent [.conditional 1 (.block 1 .condition [.token "b"])
          (.block 2 .consequent [.token "x"])
          (some (.block 2 .alternative [.conditional 2 (.block 2 .condition [.token "c"])
            (.block 3 .consequent [.token "y"]) none]))]) none, .token "\n", .token "z"] := by
  have noElse : ∀ piece ∈ [Piece.token "z"].head?, piece.isKeyword "else" = false := by
    intro piece member
    cases Option.mem_some.mp member
    decide
  exact (oneLine_read_as_written innerChoice 0).2.2 [] [.token "z"] noElse

/-! ### An alternative on the next line -/

section

variable {other : Bool}

/-- A conditional with its alternative behind the consequent. -/
def sameLine (condition : Phrase registry) (ending : Ending) (consequent : OneLine registry closed)
    (alternative : OneLine registry other) : List String :=
  "if" :: (condition.tokens ++ ending.text :: (consequent.tokens ++ "else" :: alternative.tokens))

/-- A conditional with its alternative on the line after the consequent. -/
def nextLine (condition : Phrase registry) (ending : Ending) (consequent : OneLine registry closed)
    (alternative : OneLine registry other) : List String :=
  "if" :: (condition.tokens ++ ending.text ::
    (consequent.tokens ++ "\n" :: "else" :: alternative.tokens))

/-- The statement with an `else` behind it, which goes to the last `if` that waits for one. -/
def OneLine.attach (alternative : OneLine registry other) :
    OneLine registry false → Σ closed, OneLine registry closed
  | .after phrase statement => ⟨_, .after phrase (attach alternative statement).2⟩
  | .choice condition ending consequent rest =>
    ⟨_, .choice condition ending consequent (attach alternative rest).2⟩
  | @OneLine.only _ true condition ending consequent =>
    ⟨_, .choice condition ending consequent alternative⟩
  | @OneLine.only _ false condition ending consequent =>
    ⟨_, .only condition ending (attach alternative consequent).2⟩

theorem OneLine.tokens_attach (alternative : OneLine registry other) :
    (statement : OneLine registry false) →
    (attach alternative statement).2.tokens = statement.tokens ++ "else" :: alternative.tokens
  | .after phrase statement => by
      rw [attach, tokens, tokens_attach alternative statement, tokens, List.append_assoc]
  | .choice condition ending consequent rest => by
      rw [attach, tokens, tokens_attach alternative rest, tokens]
      simp
  | @OneLine.only _ true condition ending consequent => by
      rw [attach, tokens, tokens]
  | @OneLine.only _ false condition ending consequent => by
      rw [attach, tokens, tokens_attach alternative consequent, tokens]
      simp

variable (condition : Phrase registry) (ending : Ending) (alternative : OneLine registry other)
variable (indent : Nat) (role : Role)

theorem sameLine_closed (consequent : OneLine registry true) :
    sameLine condition ending consequent alternative =
      (OneLine.choice condition ending consequent alternative).tokens := by
  simp [sameLine, OneLine.tokens]

theorem sameLine_open (consequent : OneLine registry false) :
    sameLine condition ending consequent alternative =
      (OneLine.only condition ending (OneLine.attach alternative consequent).2).tokens := by
  rw [OneLine.tokens, OneLine.tokens_attach]
  simp [sameLine]

/-- The consequent ends with its line, and takes no `else` from the next one. So the `else` is left
to the first `if` of the line. -/
theorem readBlock_nextLine (consequent : OneLine registry closed) :
    readBlock registry indent role (unread (nextLine condition ending consequent alternative)) =
      .ok (.block indent role [OneLine.conditionalPiece indent condition
        (consequent.pieces (indent + 1)) (some (alternative.pieces (indent + 1)))]) := by
  let rest := condition.tokens ++ ending.text ::
    (consequent.tokens ++ "\n" :: "else" :: alternative.tokens)
  have bare : Reader.Bare (unread ("if" :: rest)) := by
    constructor
    · intro piece member
      cases Option.mem_some.mp member
      decide
    · have shape : "if" :: rest = ("if" :: condition.tokens ++ ending.text :: consequent.tokens ++
          ["\n", "else"]) ++ alternative.tokens := by simp [rest]
      rw [shape]
      exact OneLine.ends_append alternative.ends _
  have found : Reader.afterElse? (.token "\n" :: .token "else" :: unread alternative.tokens) =
      some (unread alternative.tokens ++ []) := by
    rw [OneLine.afterElse?_newline, List.append_nil]
  have read := OneLine.readConditional_else condition ending consequent.isRead indent
    alternative.isRead .nil rfl found
  have items := items_construct (by decide) (step_if indent [] _) read
  rw [items_nil] at items
  rw [readBlock_eq, Reader.block, nextLine, bare.trim_eq]
  simp only [rest, unread_cons, unread_append, items]
  rfl

/-- An `else` on the next line belongs to the first `if` of the line before it. This is the `if`
that it belongs to on the same line exactly if no other one in the consequent waits for an
`else`. -/
theorem nextLine_read_alike_iff (consequent : OneLine registry closed) :
    readBlock registry indent role (unread (nextLine condition ending consequent alternative)) =
      .ok (.block indent role [OneLine.conditionalPiece indent condition
        (consequent.pieces (indent + 1)) (some (alternative.pieces (indent + 1)))]) ∧
    (readBlock registry indent role (unread (sameLine condition ending consequent alternative)) =
        readBlock registry indent role (unread (nextLine condition ending consequent alternative)) ↔
      closed = true) := by
  have next := readBlock_nextLine condition ending alternative indent role consequent
  refine ⟨next, ?_⟩
  rw [next]
  cases closed with
  | true =>
      rw [sameLine_closed, readBlock_eq,
        OneLine.block_eq role (OneLine.isRead _ |>.items indent [] [] .nil)]
      simp [OneLine.pieces]
  | false =>
      rw [sameLine_open, readBlock_eq,
        OneLine.block_eq role (OneLine.isRead _ |>.items indent [] [] .nil)]
      simp [OneLine.pieces, OneLine.conditionalPiece]

end

/-- With a conditional in its consequent that has no `else`, a conditional changes its meaning when
its `else` moves to the next line. -/
theorem else_moves_to_first_if :
    convert .empty "if a then if b then x else y" =
        .ok "if a:\n\tif b:\n\t\tx\n\telse:\n\t\ty" ∧
      convert .empty "if a then if b then x\nelse y" =
        .ok "if a:\n\tif b:\n\t\tx\nelse:\n\ty" := by
  rw [convert_eq, convert_eq]
  decide +kernel

end Maxscript.Structured
