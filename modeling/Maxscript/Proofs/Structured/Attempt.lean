import Maxscript.Proofs.Convert
import Maxscript.Proofs.Nesting
import Maxscript.Proofs.Reader.Newline
import Maxscript.Proofs.Reader.Operand

/-!
# Attempts without brackets

What `try` attempts need not stand in brackets, and is then looked for up to the next newline or
`catch`. Every other clause ends at a newline outside brackets only. So an attempt that goes on
over several lines inside brackets is cut in the middle of them: the lines behind the first are left
to the block around it, with the `catch`, and the attempt has no handler.
-/

namespace Maxscript.Structured

variable {registry : Registry}

open Reader (unbounded)

/-- A statement for `try` to attempt, without brackets around it. Its newlines stand inside
brackets. -/
structure LooseClause where
  tokens : List String
  nested : WellNested [.round] ["\n"] tokens
  nonempty : tokens ≠ []
  loose : tokens.head? ≠ some "("
  noCatch : ∀ token ∈ tokens, Text.foldCase token ≠ "catch"

/-- What stands in the brackets of a handler. -/
structure HandlerClause where
  tokens : List String
  nested : WellNested [.round] [] tokens

def attemptTokens (clause : LooseClause) (handler : HandlerClause) : List String :=
  "try" :: (clause.tokens ++ "catch" :: ("(" :: handler.tokens ++ [")"]))

/-! ### Where the clause ends -/

namespace LooseClause

variable (clause : LooseClause) {front back : List String}

/-- What stands before the first newline of the clause, or all of it if there is none. -/
structure StartsLine (front : List String) : Prop where
  nonempty : front ≠ []
  loose : front.head? ≠ some "("
  single : "\n" ∉ front
  noCatch : ∀ token ∈ front, Text.foldCase token ≠ "catch"

theorem startsLine (shape : clause.tokens = front ++ back) (nonempty : front ≠ [])
    (single : "\n" ∉ front) : StartsLine front where
  nonempty := nonempty
  loose := by
    obtain ⟨token, rest, rfl⟩ := List.exists_cons_of_ne_nil nonempty
    have first := clause.loose
    rwa [shape] at first
  single := single
  noCatch token member :=
    clause.noCatch token (shape ▸ List.mem_append_left back member)

theorem newline_free : Bracket.Free [.round] "\n" := by decide

/-- The clause does not start with a newline, so something stands before the first one, and the
attempt is not empty. -/
theorem ne_nil_of_newline (shape : clause.tokens = front ++ "\n" :: back) : front ≠ [] := by
  rintro rfl
  have first := clause.nested.head?_ne List.mem_cons_self newline_free
  rw [shape] at first
  exact first rfl

/-- The bracket around a newline is closed behind it, since newlines of a clause only stand inside
of brackets. -/
theorem closing_mem (shape : clause.tokens = front ++ "\n" :: back) : ")" ∈ back := by
  obtain ⟨kind, known, closes⟩ := clause.nested.exists_closing_behind List.mem_cons_self
    newline_free shape
  rwa [List.mem_singleton.mp known] at closes

/-- The bracket that closes the group keeps `catch` away from the end of the line, and so the line
has no handler. -/
theorem after?_catch (shape : clause.tokens = front ++ "\n" :: back) (rest : List Piece) :
    Reader.after? "catch" (Reader.skipNewlines (.token "\n" :: (unread back ++ rest))) = none := by
  have behind : Reader.skipNewlines (.token "\n" :: (unread back ++ rest)) =
      Reader.skipNewlines (unread back ++ rest) :=
    List.dropWhile_cons_of_pos (by decide)
  rw [behind, Reader.skipNewlines, List.dropWhile_append]
  cases kept : (unread back).dropWhile Piece.isNewline with
  | nil =>
      have all := List.dropWhile_eq_nil_iff.mp kept (.token ")")
        (List.mem_map_of_mem (clause.closing_mem shape))
      exact absurd all (by decide)
  | cons piece others =>
      have member : piece ∈ unread back :=
        (List.dropWhile_sublist Piece.isNewline).subset (kept ▸ List.mem_cons_self)
      obtain ⟨token, inside, rfl⟩ := List.mem_map.mp member
      have other : Text.foldCase token ≠ "catch" := by
        apply clause.noCatch
        rw [shape]
        simp [inside]
      simp [Reader.after?, other]

end LooseClause

namespace LooseClause.StartsLine

variable {front : List String} (starts : StartsLine front)
include starts

theorem head (piece : Piece) (member : piece ∈ (unread front).head?) :
    piece.isNewline = false := by
  obtain ⟨token, found, rfl⟩ := List.mem_map.mp (List.mem_of_mem_head? member)
  have : token ≠ "\n" := fun same => starts.single (same ▸ found)
  simpa using this

/-- Without brackets around it, what is attempted ends at the first newline or `catch`. Brackets
inside of it are not counted. -/
theorem attemptedEnd_eq {stop : String} (stops : stop = "\n" ∨ stop = "catch")
    (rest : List Piece) :
    Reader.attemptedEnd (unread front ++ .token stop :: rest) = (unread front).length := by
  have first : Reader.startsWith "(" (unread front ++ .token stop :: rest) = false := by
    obtain ⟨token, others, rfl⟩ := List.exists_cons_of_ne_nil starts.nonempty
    have notOpen : token ≠ "(" := fun same => starts.loose (congrArg some same)
    simpa [Reader.startsWith] using notOpen
  have taken : (unread front ++ .token stop :: rest).takeWhile
      (fun piece => !(piece.isNewline || piece.isKeyword "catch")) = unread front := by
    rw [List.takeWhile_append_of_pos, List.takeWhile_cons_of_neg, List.append_nil]
    · rcases stops with rfl | rfl
      · decide
      · decide
    · intro piece member
      obtain ⟨token, found, rfl⟩ := List.mem_map.mp member
      have notNewline : token ≠ "\n" := fun same => starts.single (same ▸ found)
      simp [notNewline, starts.noCatch token found]
  rw [Reader.attemptedEnd, first, if_neg Bool.false_ne_true, taken]

end LooseClause.StartsLine

/-! ### What is read -/

section

variable (clause : LooseClause) (handler : HandlerClause) (indent : Nat)

/-- On a single line, the clause reaches up to `catch`, and what is in the brackets behind it is the
handler. -/
theorem attempt_whole (single : "\n" ∉ clause.tokens) :
    (unbounded registry).attempt indent
        (unread (clause.tokens ++ "catch" :: ("(" :: handler.tokens ++ [")"]))) = do
      let attempted ← (unbounded registry).block (indent + 1) .attempted (unread clause.tokens)
      let handled ← handlerOf registry (indent + 1) (unread handler.tokens)
      return (.attempt indent attempted handled, []) := by
  have starts := clause.startsLine (List.append_nil _).symm clause.nonempty single
  have extent := starts.attemptedEnd_eq (.inr rfl)
    (.token "(" :: unread handler.tokens ++ [.token ")"])
  have shape : unread (clause.tokens ++ "catch" :: ("(" :: handler.tokens ++ [")"])) =
      unread clause.tokens ++ .token "catch" ::
        (.token "(" :: unread handler.tokens ++ .token ")" :: []) := by
    simp
  rw [shape, attempt_handled starts.head (handler.nested.balanced (by decide)) [] extent]

/-- With more than one line, only the first is attempted, and nothing handles its errors: `catch` is
too far away to be seen. -/
theorem attempt_first_line {front back : List String}
    (shape : clause.tokens = front ++ "\n" :: back) (single : "\n" ∉ front) (rest : List Piece) :
    (unbounded registry).attempt indent (unread clause.tokens ++ rest) =
      (fun attempted => (.attempt indent attempted none, .token "\n" :: (unread back ++ rest))) <$>
        (unbounded registry).block (indent + 1) .attempted (unread front) := by
  have starts := clause.startsLine shape (clause.ne_nil_of_newline shape) single
  have extent := starts.attemptedEnd_eq (.inl rfl) (unread back ++ rest)
  have begins : Reader.skipNewlines (unread front ++ .token "\n" :: (unread back ++ rest)) =
      unread front ++ .token "\n" :: (unread back ++ rest) := by
    apply skipNewlines_eq
    obtain ⟨token, others, rfl⟩ := List.exists_cons_of_ne_nil starts.nonempty
    exact starts.head
  have unhandled := clause.after?_catch shape rest
  rw [shape, unread_append, unread_cons, List.append_assoc, List.cons_append]
  simp only [Reader.attempt, begins, extent, blockOf_front, List.drop_left, unhandled]
  cases (unbounded registry).block (indent + 1) .attempted (unread front) with
  | error _ => rfl
  | ok attempted => rfl

theorem bare_attemptTokens : Reader.Bare (unread (attemptTokens clause handler)) := by
  constructor
  · rintro _ ⟨⟩
    decide
  · have last : unread (attemptTokens clause handler) =
        unread ("try" :: (clause.tokens ++ "catch" :: "(" :: handler.tokens)) ++
          [.token ")"] := by
      simp [attemptTokens]
    rw [last, List.getLast?_concat]
    rintro _ ⟨⟩
    decide

theorem readBlock_attemptTokens (role : Role) :
    readBlock registry indent role (unread (attemptTokens clause handler)) =
      (unbounded registry).attempt indent
          (unread (clause.tokens ++ "catch" :: ("(" :: handler.tokens ++ [")"]))) >>=
        fun reading => Piece.block indent role <$>
          (unbounded registry).items indent [reading.1] reading.2 := by
  rw [readBlock_eq, Reader.block_eq_map, (bare_attemptTokens clause handler).trim_eq,
    attemptTokens, unread_cons, Reader.items_step (by decide), step_try]
  cases (unbounded registry).attempt indent
      (unread (clause.tokens ++ "catch" :: ("(" :: handler.tokens ++ [")"]))) with
  | error _ => rfl
  | ok reading => rfl

theorem isEmptyHandler_unread (tokens : List String) :
    Reader.isEmptyHandler (unread tokens) = true ↔ ∀ token ∈ tokens, token ∈ ["(", ")", "\n"] := by
  simp [Reader.isEmptyHandler, unread, or_assoc]

/-- The lines behind the first are read as if the attempt before them were another statement. -/
theorem readBlock_first_line {front back : List String}
    (shape : clause.tokens = front ++ "\n" :: back) (single : "\n" ∉ front) (role : Role) :
    readBlock registry indent role (unread (attemptTokens clause handler)) = do
      let attempted ← readBlock registry (indent + 1) .attempted (unread front)
      let items ← (unbounded registry).items indent []
        (unread (back ++ "catch" :: ("(" :: handler.tokens ++ [")"])))
      return .block indent role (.attempt indent attempted none :: .token "\n" :: items) := by
  rw [readBlock_attemptTokens, unread_append, attempt_first_line clause indent shape single,
    readBlock_eq, unread_append]
  cases (unbounded registry).block (indent + 1) .attempted (unread front) with
  | error _ => rfl
  | ok attempted =>
      let piece := Piece.attempt indent attempted none
      let after := unread back ++ unread ("catch" :: ("(" :: handler.tokens ++ [")"]))
      have onto : (unbounded registry).items indent [.token "\n", piece] after =
          (fun items => piece :: .token "\n" :: items) <$>
            (unbounded registry).items indent [] after :=
        Reader.items_onto [piece] [] registry indent after
      show Piece.block indent role <$>
        (unbounded registry).items indent [piece] (.token "\n" :: after) = _
      rw [items_newline, onto]
      cases (unbounded registry).items indent [] after with
      | error _ => rfl
      | ok items => rfl

/-- What `try` attempts without brackets is read as a whole, with its handler, exactly if it stands
on one line. A newline ends it even inside brackets: what comes before the first one is attempted
without a handler, and the rest is left to the block around it. -/
theorem loose_attempt_read_whole_iff (role : Role) {attempted handled : Piece}
    (readClause : readBlock registry (indent + 1) .attempted (unread clause.tokens) =
      .ok attempted)
    (readHandler : readBlock registry (indent + 1) .handler (unread handler.tokens) =
      .ok handled) :
    (readBlock registry indent role (unread (attemptTokens clause handler)) =
        .ok (.block indent role [.attempt indent attempted
          (if ∀ token ∈ handler.tokens, token ∈ ["(", ")", "\n"] then none else some handled)]) ↔
      "\n" ∉ clause.tokens) ∧
    ∀ front back, clause.tokens = front ++ "\n" :: back → "\n" ∉ front →
      readBlock registry indent role (unread (attemptTokens clause handler)) = do
        let first ← readBlock registry (indent + 1) .attempted (unread front)
        let items ← (unbounded registry).items indent []
          (unread (back ++ "catch" :: ("(" :: handler.tokens ++ [")"])))
        return .block indent role (.attempt indent first none :: .token "\n" :: items) := by
  refine ⟨⟨?_, ?_⟩, fun front back shape single =>
    readBlock_first_line clause handler indent shape single role⟩
  · intro whole broken
    obtain ⟨front, back, shape, single⟩ := List.eq_append_cons_of_mem broken
    rw [readBlock_first_line clause handler indent shape single role] at whole
    cases first : readBlock registry (indent + 1) .attempted (unread front) with
    | error _ =>
        rw [first] at whole
        cases whole
    | ok _ =>
        cases later : (unbounded registry).items indent []
            (unread (back ++ "catch" :: ("(" :: handler.tokens ++ [")"]))) with
        | error _ =>
            rw [first, later] at whole
            cases whole
        | ok _ =>
            rw [first, later] at whole
            simp [bind, Except.bind, pure, Except.pure] at whole
  · intro single
    rw [readBlock_eq] at readClause readHandler
    have handles : handlerOf registry (indent + 1) (unread handler.tokens) =
        .ok (if ∀ token ∈ handler.tokens, token ∈ ["(", ")", "\n"] then none
          else some handled) := by
      rw [handlerOf, readHandler]
      by_cases empty : ∀ token ∈ handler.tokens, token ∈ ["(", ")", "\n"]
      · rw [if_pos empty, if_pos ((isEmptyHandler_unread _).mpr empty)]
      · rw [if_neg empty, if_neg fun found => empty ((isEmptyHandler_unread _).mp found)]
        rfl
    rw [readBlock_attemptTokens, attempt_whole clause handler indent single, readClause, handles]
    show Piece.block indent role <$> (unbounded registry).items indent [_] [] = _
    rw [items_nil]
    rfl

end

/-- A call with an argument in brackets, on one line. -/
def guardedCall : LooseClause where
  tokens := ["foo", "(", "a", ")"]
  nested := .cons (by decide) (by decide)
    (.group (by decide : Bracket.round ∈ [.round]) (.cons (by decide) (by decide) .nil) .nil)
  nonempty := by decide
  loose := by decide
  noCatch := by decide

def twoLineHandler : HandlerClause where
  tokens := ["b", "\n", "c"]
  nested := .cons (by decide) (by decide) (.cons (by decide) (by decide)
    (.cons (by decide) (by decide) .nil))

theorem guardedCall_read_whole :
    readBlock .empty 1 .attempted (unread guardedCall.tokens) =
        .ok (.block 1 .attempted [.token "foo", .block 1 .group [.token "a"]]) ∧
      readBlock .empty 1 .handler (unread twoLineHandler.tokens) =
        .ok (.block 1 .handler [.token "b", .token "\n", .token "c"]) ∧
      readBlock .empty 0 .root (unread ["try", "foo", "(", "a", ")", "catch", "(", "b", "\n", "c",
          ")"]) =
        .ok (.block 0 .root [.attempt 0
          (.block 1 .attempted [.token "foo", .block 1 .group [.token "a"]])
          (some (.block 1 .handler [.token "b", .token "\n", .token "c"]))]) := by
  have clause : readBlock .empty 1 .attempted (unread guardedCall.tokens) =
      .ok (.block 1 .attempted [.token "foo", .block 1 .group [.token "a"]]) := by
    with_unfolding_all rfl
  have handler : readBlock .empty 1 .handler (unread twoLineHandler.tokens) =
      .ok (.block 1 .handler [.token "b", .token "\n", .token "c"]) := by
    with_unfolding_all rfl
  exact ⟨clause, handler, (loose_attempt_read_whole_iff guardedCall twoLineHandler 0 .root clause
    handler).1.mpr (by decide)⟩

/-- A call that goes on to the next line inside its brackets is cut there. -/
theorem second_line_not_attempted :
    convert .empty "try foo ( a ) catch ( b )" = .ok "try: foo (a)\nexcept: b" ∧
      convert .empty "try foo (\na ) catch ( b )" =
        .ok "try: foo None\nexcept: pass\na ) catch ( b )" := by
  rw [convert_eq, convert_eq]
  decide +kernel

end Maxscript.Structured
