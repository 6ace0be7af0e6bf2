import Maxscript.Extent

/-!
# Extents stay inside their list

Whatever the nesting of a script, each scanner answers with indices of the list it was given: it
starts where it was told to, it does not run past the end, and the extents of parts do not turn
backwards. Nothing here assumes that brackets match.
-/

namespace Maxscript.Extent

/-- The extent is one of `pieces`, and not turned backwards. -/
def Fits (extent : Extent) (pieces : List Piece) : Prop :=
  extent.start ≤ extent.stop ∧ extent.stop ≤ pieces.length

theorem lt_length_of_balancePoint? {depth : Int} {pieces : List Piece} {offset : Nat}
    (h : balancePoint? depth pieces = some offset) : offset < pieces.length := by
  induction pieces generalizing depth offset with
  | nil => cases h
  | cons piece rest ih =>
      simp only [balancePoint?] at h
      split at h
      · cases h
        exact Nat.succ_pos _
      · obtain ⟨inner, found, rfl⟩ := Option.map_eq_some_iff.1 h
        exact Nat.succ_lt_succ (ih found)

/-- The bracket that closes a group is looked for in the list. If there is none, the last index
stands in for it. -/
theorem closingParen_lt {pieces : List Piece} {start : Nat} (h : start < pieces.length) :
    closingParen pieces start < pieces.length := by
  rw [closingParen]
  split
  · next offset found =>
      have := lt_length_of_balancePoint? found
      rw [List.length_drop] at this
      omega
  · omega

theorem le_closingParen {pieces : List Piece} {start : Nat} (h : start < pieces.length) :
    start ≤ closingParen pieces start := by
  rw [closingParen]
  split <;> omega

theorem conditionLength_le (depth : Int) (pendingIfs : Nat) (pieces : List Piece) :
    conditionLength depth pendingIfs pieces ≤ pieces.length := by
  induction pieces generalizing depth pendingIfs with
  | nil => exact Nat.le_refl _
  | cons piece rest ih =>
      simp only [conditionLength, List.length_cons]
      repeat' split
      all_goals first
        | exact Nat.zero_le _
        | exact Nat.succ_le_succ (ih _ _)

/-- The end of a condition is never behind the end of the list, where it is looked for last. -/
theorem conditionEnd_le (pieces : List Piece) (start : Nat) :
    conditionEnd pieces start ≤ pieces.length := by
  have := conditionLength_le 0 0 (pieces.drop start)
  rw [List.length_drop] at this
  rw [conditionEnd]
  omega

theorem statementLength_le (depth pendingIfs : Nat) (pieces : List Piece) :
    statementLength depth pendingIfs pieces ≤ pieces.length := by
  induction pieces generalizing depth pendingIfs with
  | nil => exact Nat.le_refl _
  | cons piece rest ih =>
      simp only [statementLength, List.length_cons]
      repeat' split
      all_goals first
        | exact Nat.zero_le _
        | exact Nat.succ_le_succ (ih _ _)

theorem statementEnd_le (pieces : List Piece) (start : Nat) :
    statementEnd pieces start ≤ pieces.length := by
  have := statementLength_le 0 0 (pieces.drop start)
  rw [List.length_drop] at this
  rw [statementEnd]
  omega

/-- A statement does not end before it starts, so the extent of a clause is never turned backwards.
-/
theorem le_statementEnd {pieces : List Piece} {start : Nat} (h : start ≤ pieces.length) :
    start ≤ statementEnd pieces start := by
  rw [statementEnd]
  omega

theorem separatorOffset_le (depths : Depths) (pieces : List Piece) :
    separatorOffset depths pieces ≤ pieces.length := by
  induction pieces generalizing depths with
  | nil => exact Nat.le_refl _
  | cons piece rest ih =>
      simp only [separatorOffset]
      split
      · exact Nat.zero_le _
      · exact Nat.succ_le_succ (ih _)

theorem separatorEnd_le (pieces : List Piece) (start : Nat) :
    separatorEnd pieces start ≤ pieces.length := by
  have := separatorOffset_le {} (pieces.drop start)
  rw [List.length_drop] at this
  rw [separatorEnd]
  omega

/-- A consequent may start on the next line, but never behind its own end. So cutting it out of the
list cannot fail. -/
theorem consequent_fits (pieces : List Piece) (start : Nat) :
    (consequent pieces start).Fits pieces := by
  rw [consequent]
  split
  · exact ⟨Nat.le_refl _, Nat.le_refl _⟩
  · next first rest remaining =>
      have total : start + (rest.length + 1) = pieces.length := by
        have := congrArg List.length remaining
        rw [List.length_drop, List.length_cons] at this
        omega
      have inside : start < pieces.length := by omega
      split
      · exact ⟨Nat.le_succ_of_le (le_closingParen inside), closingParen_lt inside⟩
      · split
        · split
          · next opened =>
              have below : start + 1 < pieces.length := by
                cases rest with
                | nil => simp at opened
                | cons _ _ =>
                    rw [List.length_cons] at total
                    omega
              exact ⟨Nat.le_succ_of_le (le_closingParen below), closingParen_lt below⟩
          · exact ⟨le_statementEnd inside, statementEnd_le _ _⟩
        · exact ⟨le_statementEnd (Nat.le_of_lt inside), statementEnd_le _ _⟩

theorem clauseEnd_le (pieces : List Piece) (start : Nat) :
    clauseEnd pieces start ≤ pieces.length := by
  rw [clauseEnd]
  split
  · exact Nat.le_refl _
  · next first rest remaining =>
      split
      · have := congrArg List.length remaining
        rw [List.length_drop, List.length_cons] at this
        exact closingParen_lt (by omega)
      · exact statementEnd_le _ _

/-- The inside of a group is an extent of the list behind the bracket that opens it, also when
nothing closes the group. -/
theorem group_inside_fits (mark : Piece) (rest : List Piece) :
    (group (mark :: rest) 0).inside.Fits (mark :: rest) ∧
      1 ≤ (group (mark :: rest) 0).inside.start := by
  have := @closingParen_lt (mark :: rest) 0 (Nat.succ_pos _)
  simp only [group]
  split
  · next closed =>
      simp only [Bool.and_eq_true, decide_eq_true_eq] at closed
      exact ⟨⟨closed.1, Nat.le_of_lt this⟩, Nat.le_refl _⟩
  · refine ⟨⟨Nat.min_le_right _ _, Nat.le_refl _⟩, ?_⟩
    simp only [List.length_cons]
    omega

/-- What follows a group starts behind the bracket that opens it. -/
theorem one_le_group_after (mark : Piece) (rest : List Piece) :
    1 ≤ (group (mark :: rest) 0).after := by
  simp only [group]
  split
  · exact Nat.succ_le_succ (Nat.zero_le _)
  · exact Nat.succ_le_succ (Nat.zero_le _)

/-- What follows a group starts in the list or at its end. When nothing closes the group, nothing
follows it. -/
theorem group_after_le (mark : Piece) (rest : List Piece) :
    (group (mark :: rest) 0).after ≤ (mark :: rest).length := by
  simp only [group]
  split
  · exact closingParen_lt (Nat.succ_pos _)
  · exact Nat.le_refl _

end Maxscript.Extent
