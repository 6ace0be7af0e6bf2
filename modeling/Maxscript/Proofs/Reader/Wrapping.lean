import Maxscript.Proofs.Reader.Budget

/-!
# Layers around a block

Trimming brings a list to a normal form. What it leaves has no layer around it, so that trimming it
again changes nothing. Layers that are put around a list go again, in whatever order they were put
there, if the brackets of the list match: then the bracket that the scan finds for the outermost one
is its partner, and never one that a group inside the list starts or ends with.
-/

namespace Maxscript.Reader

variable {pieces : List Piece}

/-! ### The normal form -/

theorem head?_trimSeparators (pieces : List Piece) :
    ∀ piece ∈ (trimSeparators pieces).head?, isSeparator piece = false := by
  intro piece found
  have first := List.head?_dropWhile_not isSeparator pieces
  obtain ⟨back, whole⟩ := List.rdropWhile_prefix isSeparator (pieces.dropWhile isSeparator)
  rw [← whole, ← trimSeparators_eq, List.head?_append, Option.mem_def.mp found] at first
  exact first

theorem getLast?_rdropWhile (pieces : List Piece) :
    ∀ piece ∈ (pieces.rdropWhile isSeparator).getLast?, isSeparator piece = false := by
  intro piece found
  obtain ⟨nonempty, rfl⟩ := List.mem_getLast?_eq_getLast found
  exact Bool.eq_false_iff.mpr (List.rdropWhile_last_not isSeparator pieces nonempty)

theorem length_trimSeparators_le (pieces : List Piece) :
    (trimSeparators pieces).length ≤ pieces.length := by
  have start := List.rdropWhile_prefix isSeparator (pieces.dropWhile isSeparator)
  exact start.length_le.trans (List.dropWhile_suffix _).length_le

/-- What stands in brackets is shorter than the list with them, so trimming comes to an end. -/
theorem length_unwrap_lt (h : isWrapped pieces = true) :
    (unwrap pieces).length < pieces.length := by
  have shape := congrArg List.length (eq_around_of_isWrapped h)
  simp only [Layer.around, List.length_append, List.length_cons] at shape
  rw [unwrap, if_pos h]
  omega

/-- Trimming goes on until there is no layer left: neither a separator at an end nor a pair of
brackets around it all. -/
theorem isCore_trim (pieces : List Piece) : IsCore (trim pieces) := by
  induction pieces using trim.induct with
  | case1 pieces inner shorter ih =>
      rw [trim, if_pos shorter]
      exact ih
  | case2 pieces inner shorter =>
      rw [trim, if_neg shorter]
      -- A pair of brackets would have been dropped, and made the list shorter.
      have unwrapped : isWrapped (trimSeparators pieces) = false := by
        by_contra h
        rw [Bool.not_eq_false] at h
        exact shorter ((length_unwrap_lt h).trans_le (length_trimSeparators_le pieces))
      rw [unwrap, if_neg (by simp [unwrapped])]
      exact ⟨head?_trimSeparators pieces, getLast?_rdropWhile _, unwrapped⟩

@[simp] theorem trim_trim (pieces : List Piece) : trim (trim pieces) = trim pieces :=
  (isCore_trim pieces).trim_eq

/-- Where trimming starts makes no difference: it may be one round ahead. This is the recursion of
trimming without its test. -/
theorem trim_unwrap_trimSeparators (pieces : List Piece) :
    trim (unwrap (trimSeparators pieces)) = trim pieces := by
  by_cases shorter : (unwrap (trimSeparators pieces)).length < pieces.length
  · rw [trim.eq_def pieces, if_pos shorter]
  · have whole : trim pieces = unwrap (trimSeparators pieces) := by
      rw [trim.eq_def, if_neg shorter]
    rw [← whole, trim_trim]

/-! ### Balanced lists -/

theorem not_paren_of_isSeparator {piece : Piece} (separates : isSeparator piece = true) :
    piece.is "(" = false ∧ piece.is ")" = false := by
  rcases eq_token_of_isSeparator separates with rfl | rfl
  · decide
  · decide

theorem balanced_separators {marks : List Piece}
    (separate : ∀ piece ∈ marks, isSeparator piece = true) : Extent.Balanced marks := by
  induction marks with
  | nil => exact .nil
  | cons mark marks ih =>
      obtain ⟨first, others⟩ := List.forall_mem_cons.mp separate
      have plain := not_paren_of_isSeparator first
      exact .cons plain.1 plain.2 (ih others)

/-- Separators can be taken out of a balanced list anywhere, since they are not brackets. -/
theorem balanced_of_separators {front marks back : List Piece}
    (separate : ∀ piece ∈ marks, isSeparator piece = true)
    (balanced : Extent.Balanced (front ++ (marks ++ back))) : Extent.Balanced (front ++ back) := by
  induction marks with
  | nil => exact balanced
  | cons mark marks ih =>
      obtain ⟨first, others⟩ := List.forall_mem_cons.mp separate
      have plain := not_paren_of_isSeparator first
      exact ih others (balanced.erase plain.1 plain.2)

/-- A layer is balanced around a balanced list: separators do not count, and a pair of brackets is
added as a whole. -/
theorem Layer.balanced_around (layer : Layer) (balanced : Extent.Balanced pieces) :
    Extent.Balanced (layer.around pieces) := by
  cases layer with
  | separators front back before behind =>
      have first := balanced_separators (isSeparator_of_subset before)
      have last := balanced_separators (isSeparator_of_subset behind)
      exact (first.append balanced).append last
  | brackets => exact .group balanced .nil

theorem balanced_wrapped (layers : List Layer) (balanced : Extent.Balanced pieces) :
    Extent.Balanced (wrapped layers pieces) := by
  induction layers with
  | nil => exact balanced
  | cons layer layers ih => exact layer.balanced_around ih

theorem balanced_trimSeparators (balanced : Extent.Balanced pieces) :
    Extent.Balanced (trimSeparators pieces) := by
  obtain ⟨front, back, before, behind, shape⟩ := exists_separators_around pieces
  rw [shape, Layer.around, List.append_assoc] at balanced
  have start := @balanced_of_separators [] _ _ (isSeparator_of_subset before) balanced
  rw [List.nil_append, ← List.append_nil (back.map Piece.token)] at start
  have inside := balanced_of_separators (isSeparator_of_subset behind) start
  rwa [List.append_nil] at inside

/-- In a balanced list, the scan finds the partner of the first bracket, so that only a pair is
dropped. -/
theorem balanced_unwrap (balanced : Extent.Balanced pieces) : Extent.Balanced (unwrap pieces) := by
  by_cases h : isWrapped pieces = true
  · rw [unwrap, if_pos h]
    simp only [isWrapped, Bool.and_eq_true, decide_eq_true_eq, beq_iff_eq] at h
    obtain ⟨⟨⟨long, opened⟩, -⟩, close⟩ := h
    cases balanced with
    | nil => exact absurd long (Nat.not_lt_zero _)
    | cons isOpen isClose tail => simp [isOpen] at opened
    | @group inner rest inside tail =>
        rw [Extent.closingParen_group inside] at close
        have behind : rest = [] := by
          simp only [List.length_append, List.length_cons] at close
          exact List.eq_nil_of_length_eq_zero (by omega)
        subst behind
        rwa [List.cons_append, List.tail_cons, List.dropLast_concat]
  · rwa [unwrap, if_neg h]

theorem balanced_trim (balanced : Extent.Balanced pieces) : Extent.Balanced (trim pieces) :=
  trim_invariant Extent.Balanced (fun _ => balanced_trimSeparators) (fun _ => balanced_unwrap)
    balanced

/-! ### Wrapping -/

theorem trimSeparators_append {front back : List Piece}
    (before : ∀ piece ∈ front, isSeparator piece = true)
    (behind : ∀ piece ∈ back, isSeparator piece = true) (pieces : List Piece) :
    trimSeparators (front ++ pieces ++ back) = trimSeparators pieces := by
  rw [trimSeparators, List.append_assoc, List.dropWhile_append_of_pos before, List.dropWhile_append]
  split
  · next empty =>
      rw [List.dropWhile_eq_nil_iff.mpr behind, trimSeparators, List.isEmpty_iff.mp empty]
  · have turned : ∀ piece ∈ back.reverse, isSeparator piece = true :=
      fun piece member => behind piece (List.mem_reverse.mp member)
    rw [List.reverse_append, List.dropWhile_append_of_pos turned, trimSeparators]

/-- Separators at the ends of a list go in the first round, whatever the list is. Balanced brackets
are only needed for the other kind of layer. -/
theorem trim_separators {front back : List Piece}
    (before : ∀ piece ∈ front, isSeparator piece = true)
    (behind : ∀ piece ∈ back, isSeparator piece = true) (pieces : List Piece) :
    trim (front ++ pieces ++ back) = trim pieces := by
  rw [← trim_unwrap_trimSeparators, trimSeparators_append before behind,
    trim_unwrap_trimSeparators]

/-- One layer around a balanced list makes no difference to trimming. For brackets this is
`trim_group`, and separators go in the first round. -/
theorem Layer.trim_around (layer : Layer) (balanced : Extent.Balanced pieces) :
    trim (layer.around pieces) = trim pieces := by
  cases layer with
  | separators front back before behind =>
      exact trim_separators (isSeparator_of_subset before) (isSeparator_of_subset behind) pieces
  | brackets => exact trim_group balanced

theorem trim_wrapped (layers : List Layer) (balanced : Extent.Balanced pieces) :
    trim (wrapped layers pieces) = trim pieces := by
  induction layers with
  | nil => rfl
  | cons layer layers ih =>
      rw [wrapped_cons, layer.trim_around (balanced_wrapped layers balanced), ih]

/-- Layers around a balanced list make no difference to the block that it is read as. Trimming a
list twice is trimming it once, and takes away layers only. A first bracket and a last one that are
no pair stay, since the brackets of a balanced list match after trimming too. -/
theorem trim_ignores_wrapping (balanced : Extent.Balanced pieces) (layers : List Layer) :
    trim (wrapped layers pieces) = trim pieces ∧
      (∀ registry indent role, readBlock registry indent role (wrapped layers pieces) =
        readBlock registry indent role pieces) ∧
      Extent.Balanced (trim pieces) ∧
      ∀ others, trim (trim others) = trim others ∧
        ∃ dropped, others = wrapped dropped (trim others) := by
  have same := trim_wrapped layers balanced
  refine ⟨same, fun registry indent role => ?_, balanced_trim balanced, fun others => ?_⟩
  · rw [readBlock_eq, readBlock_eq, block, block, same]
  · exact ⟨trim_trim others, exists_wrapped_trim others⟩

/-- `(a) + (b)`, whose first bracket and last are no pair. -/
def sumOfGroups : List Piece :=
  [.token "(", .token "a", .token ")", .token "+", .token "(", .token "b", .token ")"]

/-- `\n , ( , ( ( (a) + (b) \n ) ) ) , \n`. -/
theorem trim_wrapped_sumOfGroups :
    Extent.Balanced sumOfGroups ∧
      trim (wrapped [.separators ["\n", ","] [",", "\n"] (by simp) (by simp), .brackets,
        .separators [","] [] (by simp) (by simp), .brackets, .brackets,
        .separators [] ["\n"] (by simp) (by simp)] sumOfGroups) = sumOfGroups := by
  have group {name : String} (plain : name ∉ ["(", ")"]) {rest : List Piece}
      (tail : Extent.Balanced rest) :
      Extent.Balanced (.token "(" :: [.token name] ++ .token ")" :: rest) :=
    .group (Extent.balanced_token plain .nil) tail
  have balanced : Extent.Balanced sumOfGroups :=
    group (by decide) (Extent.balanced_token (by decide) (group (by decide) .nil))
  have core : IsCore sumOfGroups := ⟨by decide, by decide, by decide⟩
  refine ⟨balanced, ?_⟩
  rw [(trim_ignores_wrapping balanced _).1, core.trim_eq]

end Maxscript.Reader
