import Mathlib.Data.List.TakeWhile
import Maxscript.Reader.Block

/-!
# What one step of a pass can do

The rules for the pieces of a block are many, but each of them does one of four things: it passes
over the current piece, drops it, puts a construct in its place and in that of its neighbours, or
joins it with the piece before it and looks at the result again. `Move` lists these. What holds all
along a pass is proved from it, without a look at the rules.

The pass leaves nothing behind that it would act on. So the items of a block are settled, up to a
bracket that closes nothing, where the pass stops.
-/

namespace Maxscript.Reader

/-- Marks that a pass over a block acts on or stops at, whatever is around them. -/
def reducibleMarks : List String := ["(", ")", "[", ","]

/-- Words that a pass over a block acts on, whatever is around them. -/
def reducibleWords : List String := ["struct", "fn", "function", "if", "try", "for"]

/-- A piece that the pass over a block leaves behind. -/
def Settled (piece : Piece) : Prop :=
  ∀ text, piece.text? = some text → text ∉ reducibleMarks ∧ Text.foldCase text ∉ reducibleWords

/-- All items before the first bracket that closes nothing are settled. -/
def Dense (items : List Piece) : Prop :=
  ∀ item ∈ items.takeWhile fun item => !item.is ")", Settled item

/-- A construct, or a text with a dot in it, which no mark or word of the language has. -/
def Dotted (piece : Piece) : Prop := ∀ text, piece.text? = some text → '.' ∈ text.toList

section

variable {piece : Piece}

theorem settled_of_construct (construct : piece.text? = none) : Settled piece := by
  intro text found
  rw [construct] at found
  cases found

/-- A token is settled if no step of the pass starts at it: it is none of the marks and none of the
words that are reduced. -/
theorem settled_of_text {text : String} (found : piece.text? = some text)
    (marks : text ∉ reducibleMarks) (words : Text.foldCase text ∉ reducibleWords) :
    Settled piece := by
  intro other found'
  rw [found] at found'
  obtain rfl := Option.some.inj found'
  exact ⟨marks, words⟩

theorem settled_of_is {text : String} (h : piece.is text = true) (marks : text ∉ reducibleMarks)
    (words : Text.foldCase text ∉ reducibleWords) : Settled piece :=
  settled_of_text (beq_iff_eq.mp h) marks words

theorem dotted_of_construct (construct : piece.text? = none) : Dotted piece := by
  intro text found
  rw [construct] at found
  cases found

/-- Folding the case keeps dots, and no word that the readers know has one. So a name with members
is never taken for a word. -/
theorem mem_foldCase_of_dot {text : String} (dot : '.' ∈ text.toList) :
    '.' ∈ (Text.foldCase text).toList := by
  rw [Text.foldCase, String.toList_ofList]
  exact List.mem_map_of_mem dot

/-- What members have been joined to is settled. It is the only kind of piece that the pass looks at
again, and so it cannot go on forever. -/
theorem Dotted.settled (dotted : Dotted piece) : Settled piece := by
  have noMark : ∀ mark ∈ reducibleMarks, '.' ∉ mark.toList := by decide
  have noWord : ∀ word ∈ reducibleWords, '.' ∉ word.toList := by decide
  intro text found
  have dot := dotted text found
  exact ⟨fun member => noMark text member dot,
    fun member => noWord _ member (mem_foldCase_of_dot dot)⟩

theorem Dotted.isKeyword_as (dotted : Dotted piece) : piece.isKeyword "as" = false := by
  rw [Piece.isKeyword]
  cases found : piece.text? with
  | none => rfl
  | some text =>
      have other : Text.foldCase text ≠ "as" := by
        intro same
        have dot := mem_foldCase_of_dot (dotted text found)
        rw [same] at dot
        exact absurd dot (by decide)
      simpa using other

theorem Settled.is_close (settled : Settled piece) : piece.is ")" = false := by
  rw [Piece.is]
  cases found : piece.text? with
  | none => rfl
  | some text =>
      have other : text ≠ ")" := by
        rintro rfl
        exact (settled ")" found).1 (by decide)
      simpa using other

end

theorem dense_of_settled {items : List Piece} (settled : ∀ item ∈ items, Settled item) :
    Dense items :=
  fun item member => settled item ((List.takeWhile_sublist _).subset member)

/-- What the pass has left behind stays in front, and what is behind a bracket that closes nothing
does not count: no step was ever taken there. -/
theorem dense_of_close {front rest : List Piece} {close : Piece}
    (settled : ∀ piece ∈ front, Settled piece) (closes : close.is ")" = true) :
    Dense (front ++ close :: rest) := by
  intro item member
  rw [List.takeWhile_append] at member
  split at member
  · rw [List.takeWhile_cons_of_neg (by simp [closes]), List.append_nil] at member
    exact settled item member
  · exact settled item ((List.takeWhile_sublist _).subset member)

/-! ### Members -/

theorem joinMembers_dotted (base : Piece) {words : List String} (nonempty : words ≠ []) :
    Dotted (joinMembers base words) := by
  obtain ⟨word, rest, rfl⟩ := List.exists_cons_of_ne_nil nonempty
  cases base with
  | token text =>
      intro joined found
      obtain rfl := Option.some.inj found
      simp [String.join_cons]
  | _ => exact dotted_of_construct rfl

theorem applyMembers_dotted (base : Piece) {words : List String} (nonempty : words ≠ []) :
    Dotted (applyMembers base words) := by
  obtain ⟨last, before, rfl⟩ := List.exists_cons_of_ne_nil nonempty
  rw [applyMembers]
  split
  · exact dotted_of_construct rfl
  · exact joinMembers_dotted base (by simp)

theorem fuse?_dotted {base fused : Piece} {pieces rest : List Piece}
    (h : fuse? base pieces = some (fused, rest)) : Dotted fused := by
  rw [fuse?] at h
  split at h
  · cases h
  · next words remaining nonempty found =>
      split at h
      · cases h
        apply applyMembers_dotted
        intro empty
        exact nonempty (List.reverse_eq_nil_iff.mp empty)
      · cases h

theorem nameLiteral_dotted (name : String) : Dotted (.token (nameLiteral name)) := by
  intro text found
  obtain rfl := Option.some.inj found
  rw [nameLiteral]
  split
  · simp
  · simp

theorem memberRun_suffix (pieces : List Piece) : (memberRun pieces).2 <:+ pieces := by
  fun_induction memberRun pieces with
  | case1 dot word rest member words left found ih =>
      rw [found] at ih
      exact ih.trans ((List.suffix_cons _ rest).trans (List.suffix_cons dot _))
  | case2 dot word rest member => exact List.suffix_refl _
  | case3 pieces shape => exact List.suffix_refl _

/-- Every member takes its dot and its word off the list. The count is exact, as the budget of the
readers is one round for each token. -/
theorem memberRun_length (pieces : List Piece) :
    (memberRun pieces).2.length + 2 * (memberRun pieces).1.length = pieces.length := by
  fun_induction memberRun pieces with
  | case1 dot word rest member words left found ih =>
      rw [found] at ih
      simp only [List.length_cons] at ih ⊢
      omega
  | case2 dot word rest member => rfl
  | case3 pieces shape => rfl

/-- Joining members takes at least two tokens away, so that a reader may look at the joined piece
again and still get to the end. -/
theorem lt_of_fuse? {base fused : Piece} {pieces rest : List Piece}
    (h : fuse? base pieces = some (fused, rest)) :
    rest.length + 1 < pieces.length ∧ rest <:+ pieces := by
  have size := memberRun_length pieces
  have left := memberRun_suffix pieces
  rw [fuse?] at h
  split at h
  · cases h
  · next words remaining nonempty found =>
      rw [found] at size left
      split at h
      · cases h
        have : 0 < words.length := by
          cases words with
          | nil => exact absurd rfl nonempty
          | cons _ _ => exact Nat.succ_pos _
        exact ⟨by simp only at size; omega, left⟩
      · cases h

theorem suffix_of_fuse? {base fused dot : Piece} {after left : List Piece}
    (h : fuse? base (dot :: after) = some (fused, left)) : left <:+ after := by
  obtain ⟨shorter, below⟩ := lt_of_fuse? h
  rcases List.suffix_cons_iff.mp below with same | below
  · rw [same] at shorter
    omega
  · exact below

/-! ### Moves -/

/-- The moves of a pass that is at `piece`, with `before` behind it, nearest first, and `after` in
front of it. -/
inductive Move (before : List Piece) (piece : Piece) (after : List Piece) : Cursor → Prop
  | pass (settled : Settled piece) : Move before piece after ⟨piece :: before, after⟩
  | drop : Move before piece after ⟨before, after⟩
  /-- What was made takes the place of the piece, of those `taken` right before it and of what was
  read after it. -/
  | build (taken : List Piece) {earlier left : List Piece} {made : Piece}
      (shape : before = taken ++ earlier) (settled : Settled made) (below : left <:+ after) :
      Move before piece after ⟨made :: earlier, left⟩
  /-- The piece before a dot is joined with its members, and is looked at again. -/
  | join {base fused : Piece} {earlier left : List Piece} (shape : before = base :: earlier)
      (dotted : Dotted fused) (below : left <:+ after) (shorter : left.length < after.length) :
      Move before piece after ⟨earlier, fused :: left⟩

namespace Move

variable {before after : List Piece} {piece : Piece} {cursor : Cursor}

/-- What is in front of the pass gets shorter. The piece that is looked at again has taken the place
of at least two. -/
theorem advances (move : Move before piece after cursor) : cursor.after.length ≤ after.length := by
  cases move with
  | pass settled => exact Nat.le_refl _
  | drop => exact Nat.le_refl _
  | build taken shape settled below => exact below.length_le
  | join shape dotted below shorter => exact shorter

/-- What is behind the pass stays settled. A step may take pieces back from there, but what it
leaves in their place is settled too. -/
theorem settled (move : Move before piece after cursor)
    (all : ∀ piece ∈ before, Settled piece) : ∀ piece ∈ cursor.before, Settled piece := by
  cases move with
  | pass settled => exact List.forall_mem_cons.mpr ⟨settled, all⟩
  | drop => exact all
  | @build taken earlier left made shape settled below =>
      subst shape
      have others := (List.forall_mem_append.mp all).2
      exact List.forall_mem_cons.mpr ⟨settled, others⟩
  | @join base fused earlier left shape dotted below shorter =>
      subst shape
      exact (List.forall_mem_cons.mp all).2

end Move

theorem memberAt_moves {dot : Piece} (settled : Settled dot) (before after : List Piece) :
    Move before dot after (memberAt before dot after) := by
  rw [memberAt.eq_def]
  split
  · exact .pass settled
  · split
    · next fused left found =>
        have shorter := Nat.lt_of_succ_lt_succ (lt_of_fuse? found).1
        exact .join rfl (fuse?_dotted found) (suffix_of_fuse? found) shorter
    · exact .pass settled

end Maxscript.Reader
