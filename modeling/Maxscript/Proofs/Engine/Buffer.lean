import Maxscript.Buffer
import Maxscript.Proofs.Reader.Built
import Maxscript.Tree.Numbering

/-!
# What is ahead in a buffer

Right of the place where a buffer is read, it holds tokens that nothing was done to yet. `Points`
says which, and whatever a scanner finds in the buffer is what it finds among these tokens, as far
behind the index as it is behind their first. So every access that is derived from them is in range.
-/

namespace Maxscript

open Reader (Raw cut)
open Tree (Element elementAt elementsAt)

@[simp] theorem seen_token (text : String) : (Element.token text).seen = .token text := rfl

@[simp] theorem text?_seen_elementAt (start : Nat) (piece : Piece) :
    (elementAt start piece).seen.text? = piece.text? := by
  cases piece <;> rfl

@[simp] theorem is_seen_elementAt (start : Nat) (piece : Piece) (text : String) :
    (elementAt start piece).seen.is text = piece.is text := by
  rw [Piece.is, Piece.is, text?_seen_elementAt]

@[simp] theorem isTokenWith_seen_elementAt (start : Nat) (p : String → Bool) (piece : Piece) :
    (elementAt start piece).seen.isTokenWith p = piece.isTokenWith p := by
  rw [Piece.isTokenWith, Piece.isTokenWith, text?_seen_elementAt]

def entries (pieces : List Piece) : Buffer := pieces.map (elementAt 0)

@[simp] theorem entries_nil : entries [] = [] := rfl

@[simp] theorem entries_token (text : String) (rest : List Piece) :
    entries (.token text :: rest) = .token text :: entries rest := rfl

@[simp] theorem length_entries (pieces : List Piece) : (entries pieces).length = pieces.length :=
  List.length_map _

@[simp] theorem entries_append (front back : List Piece) :
    entries (front ++ back) = entries front ++ entries back :=
  List.map_append

@[simp] theorem Buffer.length_seen (buffer : Buffer) : buffer.seen.length = buffer.length :=
  List.length_map _

theorem Reader.Raw.exists_token {first : Piece} {rest : List Piece} (raw : Raw (first :: rest)) :
    ∃ text, first = .token text :=
  raw first List.mem_cons_self

/-- Tokens that stand together among tokens are tokens. So the extents that are cut out of a buffer
hold nothing that was read before. -/
theorem Reader.Raw.isInfix {pieces part : List Piece} (raw : Raw pieces)
    (inside : part <:+: pieces) :
    Raw part :=
  fun piece member => raw piece (inside.subset member)

theorem Reader.Raw.seen_entries {pieces : List Piece} (raw : Raw pieces) :
    (entries pieces).seen = pieces := by
  induction pieces with
  | nil => rfl
  | cons first rest ih =>
      obtain ⟨text, rfl⟩ := raw.exists_token
      exact congrArg (Piece.token text :: ·) (ih raw.tail)

/-- Tokens get no numbers, so what stands for them does not depend on how many nodes there are. -/
theorem Reader.Raw.elementsAt_eq {pieces : List Piece} (raw : Raw pieces) (start : Nat) :
    elementsAt start pieces = entries pieces := by
  induction pieces with
  | nil => rfl
  | cons first rest ih =>
      obtain ⟨text, rfl⟩ := raw.exists_token
      exact congrArg (Element.token text :: ·) (ih raw.tail)

theorem Reader.Raw.countAll_eq {pieces : List Piece} (raw : Raw pieces) :
    Tree.countAll pieces = 0 := by
  induction pieces with
  | nil => rfl
  | cons first rest ih =>
      obtain ⟨text, rfl⟩ := raw.exists_token
      rw [Tree.countAll, ih raw.tail]
      rfl

namespace Buffer

theorem skipWhile_of_shows {buffer : Buffer} {k : Nat} {p : Piece → Bool}
    (h : buffer.shows k p = true) : buffer.skipWhile p k = buffer.skipWhile p (k + 1) := by
  rw [skipWhile, dif_pos h]

theorem skipWhile_of_not_shows {buffer : Buffer} {k : Nat} {p : Piece → Bool}
    (h : ¬buffer.shows k p = true) : buffer.skipWhile p k = k := by
  rw [skipWhile, dif_neg h]

/-- From `k` on, the buffer holds the tokens `rest`. An index beyond the buffer has none ahead. -/
structure Points (buffer : Buffer) (k : Nat) (rest : List Piece) : Prop where
  raw : Raw rest
  drop_eq : buffer.drop k = entries rest

namespace Points

variable {buffer : Buffer} {k : Nat} {rest : List Piece} {text : String}

theorem all {pieces : List Piece} (raw : Raw pieces) : Points (entries pieces) 0 pieces :=
  ⟨raw, rfl⟩

theorem of_append {left : Buffer} (raw : Raw rest) (length : left.length = k) :
    Points (left ++ entries rest) k rest := by
  subst length
  exact ⟨raw, List.drop_left⟩

theorem length_eq (points : Points buffer k rest) : rest.length = buffer.length - k := by
  rw [← length_entries, ← points.drop_eq, List.length_drop]

theorem lt_length (points : Points buffer k (.token text :: rest)) : k < buffer.length := by
  have length := points.length_eq
  rw [List.length_cons] at length
  omega

theorem length_le (points : Points buffer k []) : buffer.length ≤ k :=
  Nat.sub_eq_zero_iff_le.mp points.length_eq.symm

theorem seen_drop (points : Points buffer k rest) : buffer.seen.drop k = rest := by
  rw [seen, ← List.map_drop, points.drop_eq]
  exact points.raw.seen_entries

/-- Moving the index on drops as many of the tokens ahead. It may go beyond the end, where no tokens
are left. -/
theorem drop (points : Points buffer k rest) (n : Nat) : Points buffer (k + n) (rest.drop n) := by
  refine ⟨points.raw.suffix (List.drop_suffix n rest), ?_⟩
  rw [← List.drop_drop, points.drop_eq, entries, entries, List.map_drop]

theorem tail (points : Points buffer k (.token text :: rest)) : Points buffer (k + 1) rest :=
  points.drop 1

/-- Beyond the end of the buffer there is what is at its end, which is nothing. Indices may so be
cut down to the length of the buffer. -/
theorem min_length (points : Points buffer k rest) : Points buffer (min k buffer.length) rest := by
  refine ⟨points.raw, ?_⟩
  rw [← points.drop_eq]
  rcases Nat.le_total k buffer.length with inside | beyond
  · rw [Nat.min_eq_left inside]
  · rw [Nat.min_eq_right beyond, List.drop_length, List.drop_eq_nil_of_le beyond]

theorem getElem?_eq (points : Points buffer k rest) : buffer[k]? = (entries rest).head? := by
  rw [← points.drop_eq, List.head?_drop]

theorem entry (points : Points buffer k (.token text :: rest)) :
    buffer.entry k = .ok (.token text) := by
  rw [Buffer.entry, points.getElem?_eq]
  rfl

/-- A test of the entry at the index is one of the first token ahead, and fails if there is none. -/
theorem shows (points : Points buffer k rest) (p : Piece → Bool) :
    buffer.shows k p = rest.head?.any p := by
  rw [Buffer.shows, points.getElem?_eq]
  cases rest with
  | nil => rfl
  | cons first others =>
      obtain ⟨text, rfl⟩ := points.raw.exists_token
      rfl

theorem nameAt (points : Points buffer k rest) : buffer.nameAt k = (Reader.nameAt rest).1 := by
  rw [Buffer.nameAt, points.getElem?_eq]
  cases rest with
  | nil => rfl
  | cons first others =>
      obtain ⟨text, rfl⟩ := points.raw.exists_token
      rfl

/-! ### Extents -/

/-- What is cut out of the buffer is what is cut out of the tokens ahead, with both ends of the
extent moved by the index. -/
theorem cut (points : Points buffer k rest) (inside : k ≤ buffer.length) (start stop : Nat) :
    cut buffer ⟨k + start, k + stop⟩ = entries <$> Reader.cut rest ⟨start, stop⟩ := by
  have length := points.length_eq
  have fits : k + start ≤ k + stop ∧ k + stop ≤ buffer.length ↔
      start ≤ stop ∧ stop ≤ rest.length := by
    omega
  simp only [Reader.cut, fits]
  split
  · have same : (buffer.take (k + stop)).drop (k + start) =
        entries ((rest.take stop).drop start) := by
      rw [List.drop_take, ← List.drop_drop, points.drop_eq, Nat.add_sub_add_left, entries, entries,
        List.drop_take, List.map_take, List.map_drop]
    exact congrArg Except.ok same
  · rfl

/-- Lengths that are counted from the index on do not depend on what is left of it. The same holds
of statements, members and brackets. -/
theorem conditionEnd (points : Points buffer k rest) (inside : k ≤ buffer.length) :
    Extent.conditionEnd buffer.seen k = k + Extent.conditionEnd rest 0 := by
  rw [Extent.conditionEnd, Extent.conditionEnd, points.seen_drop, length_seen,
    Nat.min_eq_left inside, Nat.zero_min, Nat.zero_add, List.drop_zero]

theorem statementEnd (points : Points buffer k rest) (inside : k ≤ buffer.length) :
    Extent.statementEnd buffer.seen k = k + Extent.statementEnd rest 0 := by
  rw [Extent.statementEnd, Extent.statementEnd, points.seen_drop, length_seen,
    Nat.min_eq_left inside, Nat.zero_min, Nat.zero_add, List.drop_zero]

theorem separatorEnd (points : Points buffer k rest) (inside : k ≤ buffer.length) :
    Extent.separatorEnd buffer.seen k = k + Extent.separatorEnd rest 0 := by
  rw [Extent.separatorEnd, Extent.separatorEnd, points.seen_drop, length_seen,
    Nat.min_eq_left inside, Nat.zero_min, Nat.zero_add, List.drop_zero]

theorem closingParen (points : Points buffer k rest) (some : rest ≠ []) :
    Extent.closingParen buffer.seen k = k + Extent.closingParen rest 0 := by
  have length := points.length_eq
  have positive := List.length_pos_of_ne_nil some
  rw [Extent.closingParen, Extent.closingParen, points.seen_drop, List.drop_zero, length_seen]
  split
  · rw [Nat.zero_add]
  · omega

theorem isClosed (points : Points buffer k rest) {close : Nat} (inside : close < rest.length) :
    buffer.isClosed k (k + close) = .ok (close > 0 && rest[close]?.any (·.is ")")) := by
  have found := points.drop close
  obtain ⟨text, shape⟩ := points.raw _ (List.getElem_mem inside)
  rw [List.drop_eq_getElem_cons inside, shape] at found
  rw [List.getElem?_eq_getElem inside, shape, Buffer.isClosed, found.entry]
  by_cases behind : 0 < close
  · rw [if_pos (Nat.lt_add_of_pos_right behind), decide_eq_true behind]
    rfl
  · rw [if_neg (by omega), decide_eq_false behind]
    rfl

theorem group (points : Points buffer k rest) (some : rest ≠ []) :
    buffer.group k = .ok ⟨⟨k + (Extent.group rest 0).inside.start,
      k + (Extent.group rest 0).inside.stop⟩, k + (Extent.group rest 0).after⟩ := by
  have length := points.length_eq
  have positive := List.length_pos_of_ne_nil some
  rw [Buffer.group, points.closingParen some, points.isClosed (Extent.closingParen_lt positive)]
  simp only [Extent.group, Nat.zero_add]
  generalize (decide (Extent.closingParen rest 0 > 0) &&
    rest[Extent.closingParen rest 0]?.any (·.is ")")) = closed
  cases closed with
  | true => rfl
  | false =>
      have start : min (k + 1) buffer.length = k + min 1 rest.length := by omega
      have stop : buffer.length = k + rest.length := by omega
      simp only [Bool.false_eq_true, if_false]
      rw [← start, ← stop]
      rfl

/-- A clause in the buffer is as long as among the tokens ahead: a group in brackets, or the rest of
a statement. -/
theorem clause (points : Points buffer k rest) (inside : k ≤ buffer.length) :
    buffer.clause k = .ok ⟨k, k + Extent.clauseEnd rest 0⟩ := by
  cases rest with
  | nil =>
      have beyond := points.length_le
      rw [Buffer.clause, if_pos beyond, Nat.le_antisymm inside beyond]
      rfl
  | cons first others =>
      obtain ⟨text, rfl⟩ := points.raw.exists_token
      rw [Buffer.clause, if_neg (Nat.not_le.mpr points.lt_length), points.entry,
        points.closingParen (List.cons_ne_nil _ _), points.statementEnd inside]
      simp only [Extent.clauseEnd, List.drop_zero]
      by_cases bracket : (Piece.token text).is "(" = true
      · rw [if_pos bracket]
        exact if_pos bracket
      · rw [if_neg bracket]
        exact if_neg bracket

theorem consequent (points : Points buffer k rest) :
    buffer.consequent k = .ok ⟨min k buffer.length + (Extent.consequent rest 0).start,
      min k buffer.length + (Extent.consequent rest 0).stop⟩ := by
  cases rest with
  | nil =>
      have beyond := points.length_le
      rw [Buffer.consequent, if_pos beyond, Nat.min_eq_right beyond]
      rfl
  | cons first others =>
      obtain ⟨text, rfl⟩ := points.raw.exists_token
      have inside := points.lt_length
      rw [Buffer.consequent, if_neg (Nat.not_le.mpr inside), points.entry,
        Nat.min_eq_left (Nat.le_of_lt inside), points.closingParen (List.cons_ne_nil _ _),
        points.statementEnd (Nat.le_of_lt inside), points.tail.shows,
        points.tail.statementEnd inside]
      simp only [Extent.consequent, List.drop_zero]
      by_cases bracket : (Piece.token text).is "(" = true
      · rw [if_pos bracket]
        exact if_pos bracket
      rw [if_neg bracket]
      refine (if_neg bracket).trans ?_
      by_cases newline : (Piece.token text).isNewline = true
      · rw [if_pos newline]
        refine (if_pos newline).trans ?_
        -- The extent among the tokens ahead is computed behind the newline as well, from index 1.
        have alone := (Points.all points.raw).tail
        by_cases opens : others.head?.any (·.is "(") = true
        · have nonempty : others ≠ [] := by
            rintro rfl
            cases opens
          have close := alone.closingParen nonempty
          rw [points.raw.seen_entries, Nat.zero_add] at close
          rw [if_pos opens, if_pos opens, points.tail.closingParen nonempty, close]
          simp only [Nat.zero_add, Nat.add_assoc]
          rfl
        · have stop := alone.statementEnd (by simp)
          rw [points.raw.seen_entries, Nat.zero_add] at stop
          rw [if_neg opens, if_neg opens, stop]
          simp only [Nat.zero_add, Nat.add_assoc]
          rfl
      · rw [if_neg newline]
        exact if_neg newline

/-! ### Skipping -/

/-- The loop over the indices counts the tokens that satisfy `p`. -/
theorem skipWhile_eq (points : Points buffer k rest) (p : Piece → Bool) :
    buffer.skipWhile p k = k + (rest.takeWhile p).length := by
  induction rest generalizing k with
  | nil => exact skipWhile_of_not_shows (by simp [points.shows])
  | cons first others ih =>
      obtain ⟨text, rfl⟩ := points.raw.exists_token
      rw [List.takeWhile_cons]
      split
      · next holds =>
          rw [skipWhile_of_shows (by rwa [points.shows]), ih points.tail, List.length_cons]
          omega
      · next fails => exact skipWhile_of_not_shows (by rwa [points.shows])

theorem skipWhile (points : Points buffer k rest) (p : Piece → Bool) :
    Points buffer (buffer.skipWhile p k) (rest.dropWhile p) ∧ k ≤ buffer.skipWhile p k ∧
      (k ≤ buffer.length → buffer.skipWhile p k ≤ buffer.length) := by
  have there := points.drop (rest.takeWhile p).length
  have behind : rest.drop (rest.takeWhile p).length = rest.dropWhile p :=
    calc rest.drop (rest.takeWhile p).length
      _ = (rest.takeWhile p ++ rest.dropWhile p).drop (rest.takeWhile p).length := by
        rw [List.takeWhile_append_dropWhile]
      _ = rest.dropWhile p := List.drop_left
  have fits : (rest.takeWhile p).length ≤ rest.length := (List.takeWhile_prefix p).length_le
  have length := points.length_eq
  rw [behind] at there
  rw [points.skipWhile_eq]
  exact ⟨there, Nat.le_add_right k _, by omega⟩

theorem skipNewlines (points : Points buffer k rest) :
    Points buffer (buffer.skipNewlines k) (Reader.skipNewlines rest) ∧
      k ≤ buffer.skipNewlines k ∧
      (k ≤ buffer.length → buffer.skipNewlines k ≤ buffer.length) :=
  points.skipWhile Piece.isNewline

end Points

/-! ### Cutting and splicing -/

section

variable {buffer middle right : Buffer} {k : Nat}

theorem length_of_drop (nonempty : middle ≠ []) (h : buffer.drop k = middle ++ right) :
    buffer.length = k + middle.length + right.length := by
  have length := congrArg List.length h
  have positive := List.length_pos_of_ne_nil nonempty
  rw [List.length_drop, List.length_append] at length
  omega

theorem cut_of_drop (nonempty : middle ≠ []) (h : buffer.drop k = middle ++ right) :
    cut buffer ⟨k, k + middle.length⟩ = .ok middle := by
  have length := length_of_drop nonempty h
  rw [Reader.cut, if_pos ⟨by dsimp only; omega, by dsimp only; omega⟩, List.drop_take,
    Nat.add_sub_cancel_left, h, List.take_left]

/-- A splice replaces exactly the entries `middle`. There must be at least one of them, or `k` could
lie beyond the end. -/
theorem splice_of_drop (nonempty : middle ≠ []) (h : buffer.drop k = middle ++ right)
    (element : Element) :
    buffer.splice ⟨k, k + middle.length⟩ element = .ok (buffer.take k ++ element :: right) := by
  have length := length_of_drop nonempty h
  rw [splice, if_pos ⟨by dsimp only; omega, by dsimp only; omega⟩, ← List.drop_drop, h,
    List.drop_left]

end

/-! ### Trimming -/

@[simp] theorem trimSeparators_entries (pieces : List Piece) :
    (entries pieces).trimSeparators = entries (Reader.trimSeparators pieces) := by
  have same : isSeparator ∘ elementAt 0 = Reader.isSeparator := by
    funext piece
    cases piece <;> rfl
  simp only [trimSeparators, Reader.trimSeparators, entries, List.dropWhile_map, ← List.map_reverse,
    same]

theorem entry_entries {pieces : List Piece} (raw : Raw pieces) {i : Nat}
    (inside : i < pieces.length) :
    ∃ text, pieces[i]? = some (.token text) ∧ (entries pieces).entry i = .ok (.token text) := by
  obtain ⟨text, shape⟩ := raw _ (List.getElem_mem inside)
  have points := (Points.all raw).drop i
  rw [List.drop_eq_getElem_cons inside, shape, Nat.zero_add] at points
  exact ⟨text, by rw [List.getElem?_eq_getElem inside, shape], points.entry⟩

theorem isWrapped_entries {pieces : List Piece} (raw : Raw pieces) :
    (entries pieces).isWrapped = .ok (Reader.isWrapped pieces) := by
  rw [isWrapped, Reader.isWrapped, length_entries, raw.seen_entries, List.head?_eq_getElem?,
    List.getLast?_eq_getElem?]
  by_cases long : pieces.length > 1
  · obtain ⟨first, atFirst, entryFirst⟩ := entry_entries raw (Nat.zero_lt_of_lt long)
    obtain ⟨last, atLast, entryLast⟩ :=
      entry_entries raw (show pieces.length - 1 < pieces.length by omega)
    rw [if_pos long, entryFirst, entryLast, atFirst, atLast, decide_eq_true long]
    rfl
  · rw [if_neg long, decide_eq_false long]
    rfl

theorem unwrap_entries {pieces : List Piece} (raw : Raw pieces) :
    (entries pieces).unwrap = .ok (entries (Reader.unwrap pieces)) := by
  rw [unwrap, isWrapped_entries raw, Reader.unwrap]
  cases wrapped : Reader.isWrapped pieces with
  | false => rfl
  | true =>
      have around := Reader.eq_around_of_isWrapped wrapped
      generalize pieces.tail.dropLast = inner at around ⊢
      rw [around, Reader.Layer.around, List.cons_append, entries_token, entries_append]
      change remove (Element.token "(" :: (entries inner ++ [Element.token ")"])).dropLast 0 = _
      rw [← List.cons_append, List.dropLast_concat]
      rfl

/-- Trimming never takes more than is there: brackets and separators come off the two ends of the
same entries, so no extent is turned backwards. -/
theorem trim_entries {pieces : List Piece} (raw : Raw pieces) :
    (entries pieces).trim = .ok (entries (Reader.trim pieces)) := by
  have once {pieces : List Piece} (raw : Raw pieces) :
      (entries pieces).trimSeparators.unwrap =
          .ok (entries (Reader.unwrap (Reader.trimSeparators pieces))) ∧
        Raw (Reader.unwrap (Reader.trimSeparators pieces)) := by
    have rawInner := raw.isInfix (Reader.trimSeparators_isInfix pieces)
    rw [trimSeparators_entries]
    exact ⟨unwrap_entries rawInner, rawInner.isInfix (Reader.unwrap_isInfix _)⟩
  induction pieces using Reader.trim.induct with
  | case1 pieces inner shorter ih =>
      obtain ⟨step, rawInner⟩ := once raw
      rw [trim, step, Reader.trim, if_pos shorter]
      change (if _ then _ else _) = _
      rw [length_entries, length_entries, if_pos shorter]
      exact ih rawInner
  | case2 pieces inner same =>
      obtain ⟨step, -⟩ := once raw
      rw [trim, step, Reader.trim, if_neg same]
      change (if _ then _ else _) = _
      rw [length_entries, length_entries, if_neg same]
      rfl

end Buffer

end Maxscript
