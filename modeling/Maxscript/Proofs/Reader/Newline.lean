import Maxscript.Proofs.Reader.Splice

/-!
# What a newline separates

A step of the pass over a block looks back at the pieces before the cursor, but never past a
newline: a newline is no operand, so nothing is indexed, cast, multiplied or asked for a member
across it. What was read of earlier lines therefore stays as it is, and the lines after a newline
are read as if they came first.
-/

namespace Maxscript

/-- The cursor with earlier lines, nearest piece first, behind what it has behind it. -/
def Cursor.onto (earlier : List Piece) (cursor : Cursor) : Cursor :=
  ⟨cursor.before ++ .token "\n" :: earlier, cursor.after⟩

namespace Reader

variable {reader : Reader} {indent : Nat} (earlier before : List Piece)

theorem map_passed_onto (result : Result (Reading Piece)) :
    passed (before ++ .token "\n" :: earlier) <$> result =
      Cursor.onto earlier <$> (passed before <$> result) := by
  cases result with
  | ok reading => rfl
  | error error => rfl

/-- A newline has no members. This is what keeps a line that starts with a dot apart from the line
before it. -/
theorem fuse?_newline (rest : List Piece) : fuse? (.token "\n") rest = none := by
  have notOperand : isOperand (.token "\n") = false := by decide
  rw [fuse?]
  split
  · rfl
  · rw [notOperand]
    rfl

/-- Members are joined to the piece right before the dot only, and a newline is no piece that could
have any. -/
theorem memberAt_onto (dot : Piece) (after : List Piece) :
    memberAt (before ++ .token "\n" :: earlier) dot after =
      (memberAt before dot after).onto earlier := by
  cases before with
  | nil =>
      simp only [List.nil_append, memberAt, fuse?_newline]
      rfl
  | cons base before =>
      simp only [List.cons_append, memberAt]
      cases fuse? base (dot :: after) with
      | none => rfl
      | some fused => rfl

/-- A cast looks back at most three pieces, to see whether it belongs to an assignment, and does not
look past a newline. -/
theorem castAt_onto (operand type : Piece) (rest : List Piece) :
    castAt indent operand (before ++ .token "\n" :: earlier) type rest =
      Cursor.onto earlier <$> castAt indent operand before type rest := by
  have notLigature : (Piece.token "\n").isTokenWith Token.isLigature = false := by decide
  have notOperand : isOperand (.token "\n") = false := by decide
  simp only [castAt]
  cases castTo indent operand type with
  | error error => rfl
  | ok cast =>
      -- An operator and its target are looked for right behind the operand.
      match before with
      | [] =>
          cases earlier with
          | nil => rfl
          | cons target earlier =>
              simp only [List.nil_append, bind, Except.bind, notLigature, Bool.false_and]
              rfl
      | [operator] =>
          simp only [List.cons_append, List.nil_append, bind, Except.bind, notOperand,
            Bool.and_false]
          rfl
      | operator :: target :: before =>
          simp only [List.cons_append, bind, Except.bind]
          by_cases assigned : (operator.isTokenWith Token.isLigature && isOperand target) = true
          · rw [if_pos assigned, if_pos assigned]
            rfl
          · rw [if_neg assigned, if_neg assigned]
            rfl

theorem accessAt_onto (rest : List Piece) :
    reader.accessAt indent (before ++ .token "\n" :: earlier) rest =
      Cursor.onto earlier <$> reader.accessAt indent before rest := by
  have notOperand : isOperand (.token "\n") = false := by decide
  simp only [accessAt]
  cases reader.elements indent "]" rest with
  | error error => rfl
  | ok reading =>
      cases before with
      | nil =>
          simp only [List.nil_append, bind, Except.bind, notOperand]
          rfl
      | cons base before =>
          simp only [List.cons_append, bind, Except.bind]
          by_cases indexed : isOperand base = true
          · rw [if_pos indexed, if_pos indexed]
            rfl
          · rw [if_neg indexed, if_neg indexed]
            rfl

theorem factorAt_onto (operator : Piece) (after : List Piece) :
    reader.factorAt indent (before ++ .token "\n" :: earlier) operator after =
      Cursor.onto earlier <$> reader.factorAt indent before operator after := by
  cases before with
  | nil =>
      cases after with
      | nil => rfl
      | cons right rest =>
          simp only [List.nil_append, factorAt, Piece.isNewline_token, beq_self_eq_true,
            Bool.true_or, if_true]
          rfl
  | cons left before =>
      cases after with
      | nil => rfl
      | cons right rest =>
          simp only [List.cons_append, factorAt]
          by_cases broken : (left.isNewline || right.isNewline) = true
          · rw [if_pos broken, if_pos broken]
            rfl
          · rw [if_neg broken, if_neg broken, productAt, productAt]
            cases reader.element indent right rest with
            | error error => rfl
            | ok reading => rfl

/-- A test that does not depend on what is behind the cursor. The steps of the pass are made of such
tests, and this lemma goes through them one by one. -/
theorem ite_onto {condition : Prop} [Decidable condition] {yes no yes' no' : Result Cursor}
    (ifTrue : yes' = Cursor.onto earlier <$> yes) (ifFalse : no' = Cursor.onto earlier <$> no) :
    (if condition then yes' else no') =
      Cursor.onto earlier <$> (if condition then yes else no) := by
  by_cases h : condition
  · rw [if_pos h, if_pos h, ifTrue]
  · rw [if_neg h, if_neg h, ifFalse]

theorem stepMark_onto (piece : Piece) (text : String) (after : List Piece) :
    reader.stepMark indent (before ++ .token "\n" :: earlier) piece text after =
      Cursor.onto earlier <$> reader.stepMark indent before piece text after := by
  rw [stepMark, stepMark]
  apply ite_onto
  · exact accessAt_onto earlier before after
  apply ite_onto
  · exact map_passed_onto earlier before _
  apply ite_onto
  · exact map_passed_onto earlier before _
  apply ite_onto
  · exact factorAt_onto earlier before piece after
  apply ite_onto
  · rfl
  apply ite_onto
  · rw [memberAt_onto]
    rfl
  · rfl

theorem stepToken_onto (piece : Piece) (text : String) (after : List Piece) :
    reader.stepToken indent (before ++ .token "\n" :: earlier) piece text after =
      Cursor.onto earlier <$> reader.stepToken indent before piece text after := by
  have notOperand : isOperand (.token "\n") = false := by decide
  rw [stepToken.eq_def, stepToken.eq_def]
  cases reader.callee? piece after with
  | some name => exact map_passed_onto earlier before _
  | none =>
      apply ite_onto
      · exact map_passed_onto earlier before _
      apply ite_onto
      · cases after with
        | nil =>
            cases before with
            | nil => rfl
            | cons operand before => rfl
        | cons type rest =>
            cases before with
            | nil =>
                simp only [List.nil_append, notOperand]
                rfl
            | cons operand before =>
                apply ite_onto
                · exact castAt_onto earlier before operand type rest
                · rfl
      · exact stepMark_onto earlier before piece text after

/-- A step on a line sees only this line. Whatever it takes back lies behind the last newline, and
earlier lines can be put aside meanwhile. -/
theorem step_onto (piece : Piece) (after : List Piece) :
    reader.step indent (before ++ .token "\n" :: earlier) piece after =
      Cursor.onto earlier <$> reader.step indent before piece after := by
  rw [step, step]
  cases piece.text? with
  | none => rfl
  | some text =>
      apply ite_onto
      · exact map_passed_onto earlier before _
      apply ite_onto
      · exact map_passed_onto earlier before _
      apply ite_onto
      · rfl
      apply ite_onto
      · exact map_passed_onto earlier before _
      apply ite_onto
      · exact map_passed_onto earlier before _
      · exact stepToken_onto earlier before piece text after

/-- Earlier lines are left alone by the whole pass, by induction over its steps: a script can be
read one line after the other. -/
theorem items_onto (registry : Registry) (indent : Nat) (after : List Piece) :
    (unbounded registry).items indent (before ++ .token "\n" :: earlier) after =
      (fun items => earlier.reverse ++ .token "\n" :: items) <$>
        (unbounded registry).items indent before after := by
  induction length : after.length using Nat.strong_induction_on generalizing before after with
  | _ size ih =>
      rw [unbounded_items, unbounded_items]
      cases after with
      | nil =>
          simp only [readItems, List.reverse_append, List.reverse_cons, List.append_assoc]
          rfl
      | cons piece rest =>
          rw [readItems, readItems]
          by_cases closes : piece.is ")" = true
          · rw [if_pos closes, if_pos closes]
            simp only [List.reverse_append, List.reverse_cons, List.append_assoc]
            rfl
          · rw [if_neg closes, if_neg closes, step_onto earlier before piece rest]
            have moves := (unbounded_safe registry).moves (fun typeName => ⟨typeName, rfl⟩) indent
              before (Bool.eq_false_iff.mpr closes) rest
            cases taken : (unbounded registry).step indent before piece rest with
            | error error => rfl
            | ok next =>
                have shorter : next.after.length < size := by
                  have := (moves.of_ok taken).advances
                  rw [List.length_cons] at length
                  omega
                exact ih _ shorter next.before next.after rfl

end Reader

end Maxscript
