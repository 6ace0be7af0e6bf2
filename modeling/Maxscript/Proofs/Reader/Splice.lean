import Maxscript.Proofs.Reader.Budget

/-!
# A pass is a sequence of splices

Each step of the pass over a block replaces one run of pieces, around the cursor, by at most one
piece, and goes on in front of that piece or behind it. Everything else stays as it was. What is in
front of the cursor gets shorter with every step, so the pass over any list ends.

The steps are counted in `Scans`, and `Answers` says how the pass ends: at a bracket that closes
nothing, at the end of the list, or at a cast that is refused.
-/

namespace Maxscript

/-- How many pieces a cursor has behind it. -/
def Cursor.index (cursor : Cursor) : Nat := cursor.before.length

/-- What is at and in front of a cursor. The index counts from the other end, and both are needed to
compare a step with a splice. -/
@[simp] theorem Cursor.length_sub_index (cursor : Cursor) :
    cursor.pieces.length - cursor.index = cursor.after.length := by
  rw [Cursor.pieces, Cursor.index, List.length_append, List.length_reverse]
  omega

namespace Reader

/-- `new` arises from `old` by putting `made` in the place of the pieces from `start` to `stop`. -/
structure IsSplice (old new : Cursor) (start stop : Nat) (made : List Piece) : Prop where
  start_le : start ≤ old.index
  index_lt : old.index < stop
  stop_le : stop ≤ old.pieces.length
  atMostOne : made.length ≤ 1
  notClose : ∀ piece ∈ made, piece.is ")" = false
  pieces : new.pieces = old.pieces.take start ++ made ++ old.pieces.drop stop
  index : new.index = start ∨ new.index = start + made.length
  progress : new.pieces.length - new.index < old.pieces.length - old.index

/-- The steps of a reader at pieces that the pass does not stop at are splices. -/
def Splices (reader : Reader) (indent : Nat) : Prop :=
  ∀ before piece after cursor, piece.is ")" = false →
    reader.step indent before piece after = .ok cursor →
    ∃ start stop made, IsSplice ⟨before, piece :: after⟩ cursor start stop made

/-- A splice leaves what was `earlier` and what is `left` of the list. What lies between them is
taken, and at most one piece is made of it. -/
theorem isSplice_of_shape {before after earlier left : List Piece} {piece : Piece} {new : Cursor}
    (taken made : List Piece) (behind : before = taken ++ earlier) (below : left <:+ after)
    (atMostOne : made.length ≤ 1) (notClose : ∀ piece ∈ made, piece.is ")" = false)
    (pieces : new.pieces = earlier.reverse ++ made ++ left)
    (index : new.index = earlier.length ∨ new.index = earlier.length + made.length)
    (progress : new.after.length ≤ after.length) :
    ∃ start stop made, IsSplice ⟨before, piece :: after⟩ new start stop made := by
  obtain ⟨read, rfl⟩ := below
  subst behind
  let run := taken.reverse ++ piece :: read
  have old : Cursor.pieces ⟨taken ++ earlier, piece :: (read ++ left)⟩ =
      earlier.reverse ++ run ++ left := by
    simp [Cursor.pieces, run]
  have size : run.length = taken.length + 1 + read.length := by
    simp only [run, List.length_append, List.length_reverse, List.length_cons]
    omega
  refine ⟨earlier.length, earlier.length + run.length, made, ?_⟩
  constructor
  · simp [Cursor.index]
  · simp only [Cursor.index, List.length_append]
    omega
  · rw [old]
    simp only [List.length_append, List.length_reverse]
    omega
  · exact atMostOne
  · exact notClose
  · have front : (earlier.reverse ++ run ++ left).take earlier.length = earlier.reverse := by
      rw [List.append_assoc]
      exact List.take_left' (List.length_reverse)
    have back : (earlier.reverse ++ run ++ left).drop (earlier.length + run.length) = left :=
      List.drop_left' (by rw [List.length_append, List.length_reverse])
    rw [old, front, back, pieces]
  · exact index
  · rw [Cursor.length_sub_index, Cursor.length_sub_index]
    exact Nat.lt_succ_of_le progress

/-- Every move is a splice. The range depends on the move: a construct may reach back over what it
is made of, and a comma is replaced by nothing. -/
theorem Move.isSplice {before after : List Piece} {piece : Piece} {cursor : Cursor}
    (move : Move before piece after cursor) :
    ∃ start stop made, IsSplice ⟨before, piece :: after⟩ cursor start stop made := by
  have progress := move.advances
  have alone {made : Piece} (settled : Settled made) :
      ∀ piece ∈ [made], piece.is ")" = false :=
    List.forall_mem_singleton.mpr settled.is_close
  cases move with
  | pass settled =>
      exact isSplice_of_shape [] [piece] rfl (List.suffix_refl after)
        (Nat.le_refl 1) (alone settled) (by simp [Cursor.pieces]) (.inr rfl) progress
  | drop =>
      exact isSplice_of_shape [] [] rfl (List.suffix_refl after)
        (Nat.zero_le 1) (List.forall_mem_nil _) (by simp [Cursor.pieces]) (.inl rfl) progress
  | @build taken earlier left made shape settled below =>
      exact isSplice_of_shape taken [made] shape below
        (Nat.le_refl 1) (alone settled) (by simp [Cursor.pieces]) (.inr rfl) progress
  | @join base fused earlier left shape dotted below shorter =>
      exact isSplice_of_shape [base] [fused] shape below
        (Nat.le_refl 1) (alone dotted.settled) (by simp [Cursor.pieces]) (.inl rfl) progress

section

variable {fault : ConvertError → Prop} {reader : Reader}

/-- A reader that any list can be given to moves. Nothing is asked of the list, since a pass that is
cut short by its budget has no next cursor. -/
theorem Progresses.moves (asked : reader.Progresses (fun _ => True) fault)
    (casts : ∀ typeName, fault (.unsupportedCast typeName)) (indent : Nat) (before : List Piece)
    {piece : Piece} (notClose : piece.is ")" = false) (after : List Piece) :
    Meets (reader.step indent before piece after) (Move before piece after) fault :=
  asked.step (fun _ _ _ _ _ _ => casts _) indent before notClose (fun _ _ _ _ _ => casts _)
    fun _ _ => trivial

theorem Progresses.splices (asked : reader.Progresses (fun _ => True) fault)
    (casts : ∀ typeName, fault (.unsupportedCast typeName)) (indent : Nat) :
    Splices reader indent := by
  intro before piece after cursor notClose taken
  exact ((asked.moves casts indent before notClose after).of_ok taken).isSplice

end

/-! ### Passes -/

/-- A pass that takes exactly so many steps from the one cursor to the other. -/
inductive Scans (reader : Reader) (indent : Nat) : Nat → Cursor → Cursor → Prop
  | rest (cursor : Cursor) : Scans reader indent 0 cursor cursor
  | step {before after : List Piece} {piece : Piece} {next last : Cursor} {steps : Nat}
      (notClose : piece.is ")" = false)
      (taken : reader.step indent before piece after = .ok next)
      (others : Scans reader indent steps next last) :
      Scans reader indent (steps + 1) ⟨before, piece :: after⟩ last

/-- What the pass answers when it has come to a cursor. -/
inductive Answers (reader : Reader) (indent : Nat) : Cursor → Result (List Piece) → Prop
  | items {last : Cursor} (stops : ∀ piece ∈ last.after.head?, piece.is ")" = true) :
      Answers reader indent last (.ok last.pieces)
  | refusal {before after : List Piece} {piece : Piece} {typeName : String}
      (notClose : piece.is ")" = false)
      (refused : reader.step indent before piece after = .error (.unsupportedCast typeName)) :
      Answers reader indent ⟨before, piece :: after⟩ (.error (.unsupportedCast typeName))

/-- Every step takes at least one piece off what is in front of the cursor, and so there are no more
steps than pieces. -/
theorem Scans.length_le {reader : Reader} {indent steps : Nat} {first last : Cursor}
    (splices : Splices reader indent) (scans : Scans reader indent steps first last) :
    steps + last.after.length ≤ first.after.length := by
  induction scans with
  | rest cursor => omega
  | step notClose taken others ih =>
      obtain ⟨start, stop, made, splice⟩ := splices _ _ _ _ notClose taken
      have progress := splice.progress
      rw [Cursor.length_sub_index, Cursor.length_sub_index] at progress
      omega

theorem unbounded_splices (registry : Registry) (indent : Nat) :
    Splices (unbounded registry) indent :=
  (unbounded_safe registry).splices (fun typeName => ⟨typeName, rfl⟩) indent

/-- The pass from any cursor comes to an end, where it answers. By induction on what is in front of
the cursor, which every step makes shorter. -/
theorem items_answers (registry : Registry) (indent : Nat) (first : Cursor) :
    ∃ steps last, Scans (unbounded registry) indent steps first last ∧
      Answers (unbounded registry) indent last
        ((unbounded registry).items indent first.before first.after) := by
  -- Each step leaves less in front of the cursor, whatever it does behind it.
  induction length : first.after.length using Nat.strong_induction_on generalizing first with
  | _ size ih =>
      obtain ⟨before, after⟩ := first
      simp only [unbounded_items]
      cases after with
      | nil =>
          refine ⟨0, ⟨before, []⟩, .rest _, ?_⟩
          have answer : Answers (unbounded registry) indent ⟨before, []⟩ _ := .items (by simp)
          rwa [Cursor.pieces, List.append_nil] at answer
      | cons piece rest =>
          rw [readItems]
          by_cases closes : piece.is ")" = true
          · rw [if_pos closes]
            exact ⟨0, ⟨before, piece :: rest⟩, .rest _, .items (by simpa using closes)⟩
          · rw [if_neg closes]
            have notClose := Bool.eq_false_iff.mpr closes
            have moves := (unbounded_safe registry).moves (fun typeName => ⟨typeName, rfl⟩) indent
              before notClose rest
            rcases moves.ok_or_cast with ⟨next, taken⟩ | ⟨typeName, refused⟩
            · have shorter : next.after.length < size := by
                have := (moves.of_ok taken).advances
                rw [List.length_cons] at length
                omega
              obtain ⟨steps, last, scans, answers⟩ := ih _ shorter next rfl
              refine ⟨steps + 1, last, .step notClose taken scans, ?_⟩
              rw [taken]
              exact answers
            · refine ⟨0, _, .rest _, ?_⟩
              rw [refused]
              exact .refusal notClose refused

/-- Every step of the pass over a block is a splice that makes progress, so the pass ends, after at
most as many steps as there are pieces. The readers with a budget splice as well. -/
theorem readBlock_scan_splices (registry : Registry) (indent : Nat) :
    (∀ depth, Splices (atDepth registry depth) indent) ∧ Splices (unbounded registry) indent ∧
    ∀ role pieces, ∃ steps last answer, steps ≤ pieces.length ∧
      Scans (unbounded registry) indent steps ⟨[], trim pieces⟩ last ∧
      Answers (unbounded registry) indent last answer ∧
      readBlock registry indent role pieces = Piece.block indent role <$> answer := by
  refine ⟨fun depth => (atDepth_progresses registry depth).splices (fun _ => trivial) indent,
    unbounded_splices registry indent, fun role pieces => ?_⟩
  obtain ⟨steps, last, scans, answers⟩ := items_answers registry indent ⟨[], trim pieces⟩
  refine ⟨steps, last, _, ?_, scans, answers, ?_⟩
  · have bound := scans.length_le (unbounded_splices registry indent)
    have trimmed := length_trim_le pieces
    dsimp only at bound
    omega
  · rw [readBlock_eq]
    rfl

/-- The step at an `as` takes the assignment before it along, and the word that follows. -/
theorem assigned_cast_splices :
    ∃ next, (unbounded .empty).step 0 [.token "x", .token "+=", .token "total"] (.token "as")
        [.token "Integer", .token "y"] = .ok next ∧
      next.pieces =
        [.statement 0 [.token "total", .token "+=", .cast 0 .integer (.token "x")], .token "y"] ∧
      ∃ start stop made, IsSplice ⟨[.token "x", .token "+=", .token "total"],
        [.token "as", .token "Integer", .token "y"]⟩ next start stop made := by
  have taken : (unbounded .empty).step 0 [.token "x", .token "+=", .token "total"] (.token "as")
      [.token "Integer", .token "y"] =
        .ok ⟨[.statement 0 [.token "total", .token "+=", .cast 0 .integer (.token "x")]],
          [.token "y"]⟩ := by
    rfl
  exact ⟨_, taken, rfl, (readBlock_scan_splices .empty 0).2.1 _ _ _ _ (by decide) taken⟩

end Reader

end Maxscript
