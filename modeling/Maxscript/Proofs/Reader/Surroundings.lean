import Mathlib.Data.List.DropRight
import Maxscript.Proofs.Extent.Grammar
import Maxscript.Reader.Basic

/-!
# What trimming and cutting take away

A block is cut out of its list and loses what surrounds it. Nothing but separators and round
brackets is lost in this, and what is left stands together, as it did before. What trimming takes
away are layers, each of them separators at the ends or one pair of brackets.
-/

namespace Maxscript.Reader

/-- Pieces that carry nothing of their own around a block. -/
def IsSurrounding (piece : Piece) : Prop :=
  isSeparator piece = true ∨ piece.is "(" = true ∨ piece.is ")" = true

/-- `inner` is `pieces` without some of what surrounds it. -/
def Surrounds (pieces inner : List Piece) : Prop :=
  ∃ front back, pieces = front ++ inner ++ back ∧
    (∀ piece ∈ front, IsSurrounding piece) ∧ ∀ piece ∈ back, IsSurrounding piece

namespace Surrounds

theorem refl (pieces : List Piece) : Surrounds pieces pieces :=
  ⟨[], [], by simp, by simp, by simp⟩

theorem trans {pieces middle inner : List Piece} (outer : Surrounds pieces middle)
    (next : Surrounds middle inner) : Surrounds pieces inner := by
  obtain ⟨front, back, rfl, hfront, hback⟩ := outer
  obtain ⟨front', back', rfl, hfront', hback'⟩ := next
  refine ⟨front ++ front', back' ++ back, by simp only [List.append_assoc], ?_, ?_⟩
  · intro piece member
    rcases List.mem_append.mp member with h | h
    · exact hfront piece h
    · exact hfront' piece h
  · intro piece member
    rcases List.mem_append.mp member with h | h
    · exact hback' piece h
    · exact hback piece h

/-- What is surrounded lies together in the list, and readers may go on with it as with any other
part. -/
theorem isInfix {pieces inner : List Piece} (h : Surrounds pieces inner) : inner <:+: pieces := by
  obtain ⟨front, back, rfl, -, -⟩ := h
  exact ⟨front, back, rfl⟩

end Surrounds

/-! ### Layers -/

/-- What may stand around a block: separators at its ends, or a pair of brackets. -/
inductive Layer where
  | separators (front back : List String) (before : front ⊆ [",", "\n"])
      (behind : back ⊆ [",", "\n"])
  | brackets

def Layer.around : Layer → List Piece → List Piece
  | separators front back _ _, pieces => front.map .token ++ pieces ++ back.map .token
  | brackets, pieces => .token "(" :: pieces ++ [.token ")"]

/-- The pieces inside any number of layers, of which the outermost comes first. -/
def wrapped (layers : List Layer) (pieces : List Piece) : List Piece :=
  layers.foldr Layer.around pieces

@[simp] theorem wrapped_nil (pieces : List Piece) : wrapped [] pieces = pieces := rfl

@[simp] theorem wrapped_cons (layer : Layer) (layers : List Layer) (pieces : List Piece) :
    wrapped (layer :: layers) pieces = layer.around (wrapped layers pieces) := rfl

@[simp] theorem wrapped_append (outer inner : List Layer) (pieces : List Piece) :
    wrapped (outer ++ inner) pieces = wrapped outer (wrapped inner pieces) :=
  List.foldr_append

theorem isSeparator_of_subset {marks : List String} (subset : marks ⊆ [",", "\n"]) :
    ∀ piece ∈ marks.map Piece.token, isSeparator piece = true := by
  intro piece member
  obtain ⟨mark, found, rfl⟩ := List.mem_map.mp member
  have separates : ∀ mark ∈ [",", "\n"], isSeparator (.token mark) = true := by decide
  exact separates mark (subset found)

theorem isSeparator_of_not_mem {token : String} (other : token ∉ [",", "\n"]) :
    isSeparator (.token token) = false := by
  rw [isSeparator, Bool.or_eq_false_iff]
  exact ⟨Piece.is_of_not_mem other (by decide), Piece.is_of_not_mem other (by decide)⟩

theorem eq_token_of_isSeparator {piece : Piece} (separates : isSeparator piece = true) :
    piece = .token "\n" ∨ piece = .token "," := by
  rw [isSeparator, Bool.or_eq_true] at separates
  rcases separates with newline | comma
  · exact .inl (Piece.eq_token_of_text? (beq_iff_eq.mp newline))
  · exact .inr (Piece.eq_token_of_text? (beq_iff_eq.mp comma))

/-- Separators are tokens, so a list of them is given by its texts, which is what a layer keeps. -/
theorem exists_map_token_of_isSeparator {pieces : List Piece}
    (separates : ∀ piece ∈ pieces, isSeparator piece = true) :
    ∃ marks, marks ⊆ [",", "\n"] ∧ pieces = marks.map .token := by
  induction pieces with
  | nil => exact ⟨[], List.nil_subset _, rfl⟩
  | cons piece rest ih =>
      obtain ⟨first, others⟩ := List.forall_mem_cons.mp separates
      obtain ⟨marks, subset, rfl⟩ := ih others
      rcases eq_token_of_isSeparator first with rfl | rfl
      · exact ⟨"\n" :: marks, List.cons_subset.mpr ⟨by simp, subset⟩, rfl⟩
      · exact ⟨"," :: marks, List.cons_subset.mpr ⟨by simp, subset⟩, rfl⟩

theorem Layer.surrounds (layer : Layer) (pieces : List Piece) :
    Surrounds (layer.around pieces) pieces := by
  cases layer with
  | separators front back before behind =>
      refine ⟨front.map .token, back.map .token, rfl, ?_, ?_⟩
      · exact fun piece member => .inl (isSeparator_of_subset before piece member)
      · exact fun piece member => .inl (isSeparator_of_subset behind piece member)
  | brackets =>
      refine ⟨[.token "("], [.token ")"], rfl, ?_, ?_⟩
      · simp [IsSurrounding]
      · simp [IsSurrounding]

theorem surrounds_wrapped (layers : List Layer) (pieces : List Piece) :
    Surrounds (wrapped layers pieces) pieces := by
  induction layers with
  | nil => exact .refl pieces
  | cons layer layers ih => exact (layer.surrounds _).trans ih

/-! ### What trimming takes away -/

theorem trimSeparators_eq (pieces : List Piece) :
    trimSeparators pieces = (pieces.dropWhile isSeparator).rdropWhile isSeparator := rfl

theorem exists_separators_around (pieces : List Piece) : ∃ front back before behind,
    pieces = (Layer.separators front back before behind).around (trimSeparators pieces) := by
  let inner := pieces.dropWhile isSeparator
  obtain ⟨front, before, first⟩ := exists_map_token_of_isSeparator
    fun piece (member : piece ∈ pieces.takeWhile isSeparator) => List.mem_takeWhile_imp member
  obtain ⟨back, behind, last⟩ := exists_map_token_of_isSeparator
    fun piece (member : piece ∈ inner.rtakeWhile isSeparator) => List.mem_rtakeWhile_imp member
  refine ⟨front, back, before, behind, ?_⟩
  rw [Layer.around, ← first, ← last, trimSeparators_eq, List.append_assoc,
    List.rdropWhile_append_rtakeWhile, List.takeWhile_append_dropWhile]

/-- The first piece and the last are only taken for a pair if they are two brackets. Whether they
belong to each other is another question. -/
theorem eq_around_of_isWrapped {pieces : List Piece} (h : isWrapped pieces = true) :
    pieces = Layer.brackets.around pieces.tail.dropLast := by
  simp only [isWrapped, Bool.and_eq_true, decide_eq_true_eq] at h
  obtain ⟨⟨⟨long, opened⟩, closed⟩, -⟩ := h
  match pieces, long with
  | first :: second :: rest, _ =>
      have nonempty : second :: rest ≠ [] := List.cons_ne_nil _ _
      rw [List.head?_cons, Option.any_some] at opened
      rw [List.getLast?_cons_cons, List.getLast?_eq_some_getLast nonempty,
        Option.any_some] at closed
      obtain rfl := Piece.eq_token_of_text? (beq_iff_eq.mp opened)
      rw [Layer.around, List.tail_cons, ← Piece.eq_token_of_text? (beq_iff_eq.mp closed),
        List.cons_append, List.dropLast_concat_getLast]

theorem trimSeparators_isInfix (pieces : List Piece) : trimSeparators pieces <:+: pieces := by
  obtain ⟨front, back, before, behind, shape⟩ := exists_separators_around pieces
  have inside := (Layer.surrounds (.separators front back before behind)
    (trimSeparators pieces)).isInfix
  rwa [← shape] at inside

theorem unwrap_isInfix (pieces : List Piece) : unwrap pieces <:+: pieces := by
  rw [unwrap]
  split
  · next wrapped =>
      have inside := (Layer.brackets.surrounds pieces.tail.dropLast).isInfix
      rwa [← eq_around_of_isWrapped wrapped] at inside
  · exact List.infix_rfl

/-- What is kept by each of the two steps of trimming is kept by all of it. The lemmas about
trimming are instances of this. -/
theorem trim_invariant (fits : List Piece → Prop)
    (separators : ∀ pieces, fits pieces → fits (trimSeparators pieces))
    (brackets : ∀ pieces, fits pieces → fits (unwrap pieces)) {pieces : List Piece}
    (start : fits pieces) : fits (trim pieces) := by
  have once {pieces : List Piece} (start : fits pieces) : fits (unwrap (trimSeparators pieces)) :=
    brackets _ (separators _ start)
  induction pieces using trim.induct with
  | case1 pieces inner shorter ih =>
      rw [trim, if_pos shorter]
      exact ih (once start)
  | case2 pieces inner shorter =>
      rw [trim, if_neg shorter]
      exact once start

/-- Trimming takes away layers and nothing else, also if brackets do not match. The layers can be
put back around what is left. -/
theorem exists_wrapped_trim (pieces : List Piece) :
    ∃ layers, pieces = wrapped layers (trim pieces) := by
  refine trim_invariant (fun inner => ∃ layers, pieces = wrapped layers inner) ?_ ?_ ⟨[], rfl⟩
  · rintro inner ⟨layers, outside⟩
    obtain ⟨front, back, before, behind, inside⟩ := exists_separators_around inner
    refine ⟨layers ++ [.separators front back before behind], ?_⟩
    rwa [wrapped_append, wrapped_cons, wrapped_nil, ← inside]
  · rintro inner ⟨layers, outside⟩
    rw [unwrap.eq_def]
    split
    · next h =>
        refine ⟨layers ++ [.brackets], ?_⟩
        rwa [wrapped_append, wrapped_cons, wrapped_nil, ← eq_around_of_isWrapped h]
    · exact ⟨layers, outside⟩

theorem surrounds_trim (pieces : List Piece) : Surrounds pieces (trim pieces) := by
  obtain ⟨layers, shape⟩ := exists_wrapped_trim pieces
  have surrounds := surrounds_wrapped layers (trim pieces)
  rwa [← shape] at surrounds

theorem trim_isInfix (pieces : List Piece) : trim pieces <:+: pieces :=
  (surrounds_trim pieces).isInfix

theorem length_trim_le (pieces : List Piece) : (trim pieces).length ≤ pieces.length :=
  (trim_isInfix pieces).length_le

/-! ### What trimming leaves alone -/

theorem dropWhile_eq_self {pieces : List Piece}
    (h : ∀ piece ∈ pieces.head?, isSeparator piece = false) :
    pieces.dropWhile isSeparator = pieces := by
  cases pieces with
  | nil => rfl
  | cons first rest => rw [List.dropWhile_cons_of_neg (by simp [h first rfl])]

theorem trimSeparators_eq_self {pieces : List Piece}
    (head : ∀ piece ∈ pieces.head?, isSeparator piece = false)
    (last : ∀ piece ∈ pieces.getLast?, isSeparator piece = false) :
    trimSeparators pieces = pieces := by
  rw [trimSeparators, dropWhile_eq_self head, dropWhile_eq_self, List.reverse_reverse]
  rwa [List.head?_reverse]

/-- There is no layer around the pieces: no separator at either end, and no pair of brackets. -/
structure IsCore (pieces : List Piece) : Prop where
  head : ∀ piece ∈ pieces.head?, isSeparator piece = false
  last : ∀ piece ∈ pieces.getLast?, isSeparator piece = false
  unwrapped : isWrapped pieces = false

/-- A list without a layer is left as it is, and this is how the trimming of every list ends. -/
theorem IsCore.trim_eq {pieces : List Piece} (core : IsCore pieces) : trim pieces = pieces := by
  have same : unwrap (trimSeparators pieces) = pieces := by
    rw [trimSeparators_eq_self core.head core.last, unwrap, if_neg (by simp [core.unwrapped])]
  rw [trim, same, if_neg (Nat.lt_irrefl _)]

/-- There is nothing around the pieces that trimming would take away. -/
structure Bare (pieces : List Piece) : Prop where
  head : ∀ piece ∈ pieces.head?, isSeparator piece = false ∧ piece.is "(" = false
  last : ∀ piece ∈ pieces.getLast?, isSeparator piece = false

theorem Bare.trim_eq {pieces : List Piece} (h : Bare pieces) : trim pieces = pieces := by
  refine IsCore.trim_eq ⟨fun piece member => (h.head piece member).1, h.last, ?_⟩
  cases pieces with
  | nil => rfl
  | cons first rest => simp [isWrapped, (h.head first rfl).2]

/-- Pieces that end in neither a separator nor a bracket are not in brackets of their own, whatever
they start with. -/
theorem trim_eq_of_last {pieces : List Piece}
    (head : ∀ piece ∈ pieces.head?, isSeparator piece = false)
    (last : ∀ piece ∈ pieces.getLast?, isSeparator piece = false ∧ piece.is ")" = false) :
    trim pieces = pieces := by
  refine IsCore.trim_eq ⟨head, fun piece member => (last piece member).1, ?_⟩
  cases final : pieces.getLast? with
  | none => simp [isWrapped, final]
  | some piece => simp [isWrapped, final, (last piece final).2]

/-- Brackets around a balanced list make no difference to the block that it is read as, however many
layers the list has itself. -/
theorem trim_group {inner : List Piece} (balanced : Extent.Balanced inner) :
    trim (.token "(" :: inner ++ [.token ")"]) = trim inner := by
  let group := Piece.token "(" :: inner ++ [.token ")"]
  have length : group.length = inner.length + 2 := by simp [group]
  have last : group.getLast? = some (.token ")") := List.getLast?_concat
  have untouched : trimSeparators group = group := by
    refine trimSeparators_eq_self ?_ ?_
    · intro piece member
      cases Option.mem_some.mp member
      decide
    · intro piece member
      rw [last] at member
      cases Option.mem_some.mp member
      decide
  have wrapped : isWrapped group = true := by
    have close : Extent.closingParen group 0 = group.length - 1 := by
      rw [length]
      exact Extent.closingParen_group balanced []
    rw [isWrapped, close, last, length]
    simp [group]
  have inside : unwrap group = inner := by
    rw [unwrap, if_pos wrapped]
    simp [group]
  have shorter : inner.length < group.length := by omega
  change trim group = trim inner
  rw [trim, untouched, inside, if_pos shorter]

/-- An extent that fits is cut out as a whole, between what comes before it and what comes after it.
-/
theorem cut_eq_ok {pieces : List Piece} {extent : Extent}
    (h : extent.start ≤ extent.stop ∧ extent.stop ≤ pieces.length) :
    cut pieces extent = .ok ((pieces.take extent.stop).drop extent.start) := by
  rw [cut, if_pos h]

theorem append_of_cut {pieces part : List Piece} {extent : Extent}
    (h : cut pieces extent = .ok part) :
    pieces = pieces.take extent.start ++ part ++ pieces.drop extent.stop := by
  rw [cut.eq_def] at h
  split at h
  · next fits =>
      cases h
      have front : pieces.take extent.start = (pieces.take extent.stop).take extent.start := by
        rw [List.take_take, Nat.min_eq_left fits.1]
      rw [front, List.take_append_drop, List.take_append_drop]
  · cases h

end Maxscript.Reader
