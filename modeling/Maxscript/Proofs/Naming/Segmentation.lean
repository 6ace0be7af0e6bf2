import Mathlib.Data.List.Basic
import Maxscript.Naming.SnakeCase

/-!
# The fewest pieces

A text is cut if known pieces spell it at all, and no spelling has fewer pieces than the cut. The
last piece of a spelling starts at a place that the pieces before it lead up to, and the table holds
how few pieces that takes. Going back through the table takes as many steps as it has counted.
-/

namespace Maxscript.Naming

/-! ### Spellings -/

/-- Pieces that make up a text one after the other, each of them known and none empty. -/
structure Spells (known : List Char → Prop) (pieces : List (List Char)) (text : List Char) :
    Prop where
  flatten : pieces.flatten = text
  nonempty : ∀ piece ∈ pieces, piece ≠ []
  known : ∀ piece ∈ pieces, known piece

variable {known : List Char → Prop}

theorem Spells.nil : Spells known [] [] :=
  ⟨rfl, List.forall_mem_nil _, List.forall_mem_nil _⟩

theorem Spells.append {pieces others : List (List Char)} {front back : List Char}
    (first : Spells known pieces front) (second : Spells known others back) :
    Spells known (pieces ++ others) (front ++ back) where
  flatten := by rw [List.flatten_append, first.flatten, second.flatten]
  nonempty := List.forall_mem_append.mpr ⟨first.nonempty, second.nonempty⟩
  known := List.forall_mem_append.mpr ⟨first.known, second.known⟩

theorem Spells.single {piece : List Char} (nonempty : piece ≠ []) (isKnown : known piece) :
    Spells known [piece] piece where
  flatten := by simp
  nonempty := by simpa using nonempty
  known := by simpa using isKnown

/-- The last piece of a spelling, and the place where it starts. -/
theorem Spells.exists_last {pieces : List (List Char)} {text : List Char}
    (spells : Spells known pieces text) (nonempty : text ≠ []) :
    ∃ init last place, pieces = init ++ [last] ∧ text = place ++ last ∧ last ≠ [] ∧ known last ∧
      Spells known init place := by
  obtain ⟨flatten, filled, isKnown⟩ := spells
  rcases List.eq_nil_or_concat' pieces with rfl | ⟨init, last, rfl⟩
  · exact absurd flatten.symm nonempty
  · obtain ⟨filledInit, filledLast⟩ := List.forall_mem_append.mp filled
    obtain ⟨knownInit, knownLast⟩ := List.forall_mem_append.mp isKnown
    refine ⟨init, last, init.flatten, rfl, ?_, ?_, ?_, rfl, filledInit, knownInit⟩
    · rw [← flatten, List.flatten_append, List.flatten_singleton]
    · exact filledLast last List.mem_cons_self
    · exact knownLast last List.mem_cons_self

/-! ### The better of several ways -/

theorem mem_of_mem_foldl_improve {ways : List Arrival} {best : Option Arrival} {way : Arrival}
    (found : way ∈ ways.foldl improve best) : way ∈ best ∨ way ∈ ways := by
  induction ways generalizing best with
  | nil => exact .inl found
  | cons first rest ih =>
      rcases ih found with here | later
      · rw [improve] at here
        split at here
        · obtain rfl := Option.some.inj here
          exact .inr List.mem_cons_self
        · exact .inl here
      · exact .inr (List.mem_cons_of_mem _ later)

theorem exists_mem_improve_le {best : Option Arrival} {found way : Arrival}
    (h : way ∈ best ∨ way = found) : ∃ better ∈ improve best found, better.count ≤ way.count := by
  rw [improve]
  rcases h with old | rfl
  · obtain rfl := Option.mem_def.mp old
    rw [Option.all_some]
    split
    · next fewer => exact ⟨found, rfl, Nat.le_of_lt (of_decide_eq_true fewer)⟩
    · exact ⟨way, rfl, Nat.le_refl _⟩
  · cases best with
    | none => exact ⟨way, rfl, Nat.le_refl _⟩
    | some old =>
        rw [Option.all_some]
        split
        · exact ⟨way, rfl, Nat.le_refl _⟩
        · next notFewer => exact ⟨old, rfl, Nat.le_of_not_lt (by simpa using notFewer)⟩

/-- The best of several ways has no more pieces than any of them. Of two that are as good, the first
is kept. -/
theorem exists_mem_foldl_improve_le {ways : List Arrival} {best : Option Arrival} {way : Arrival}
    (h : way ∈ best ∨ way ∈ ways) :
    ∃ better ∈ ways.foldl improve best, better.count ≤ way.count := by
  induction ways generalizing best way with
  | nil => exact ⟨way, h.resolve_right List.not_mem_nil, Nat.le_refl _⟩
  | cons first rest ih =>
      rw [List.foldl_cons]
      by_cases later : way ∈ rest
      · exact ih (.inr later)
      · have here : way ∈ best ∨ way = first :=
          h.imp_right fun member => (List.mem_cons.mp member).resolve_right later
        obtain ⟨better, found, fewer⟩ := exists_mem_improve_le here
        obtain ⟨least, inside, fewest⟩ := ih (.inl found)
        exact ⟨least, inside, Nat.le_trans fewest fewer⟩

/-! ### The table -/

section Table

variable {isPiece : List Char → Bool} {text : List Char}

def arrival? (isPiece : List Char → Bool) (text : List Char) (j : Nat) : Option Arrival :=
  (arrivals isPiece text j)[j]?.join

@[simp] theorem length_arrivals (j : Nat) : (arrivals isPiece text j).length = j + 1 := by
  induction j with
  | zero => rfl
  | succ j ih => rw [arrivals, List.length_append, ih, List.length_singleton]

/-- A larger table says the same of the places in a smaller one. Entries are only ever added at the
end, so the entries that are read back are the final ones. -/
theorem getElem?_arrivals {i j : Nat} (h : i ≤ j) :
    (arrivals isPiece text j)[i]?.join = arrival? isPiece text i := by
  induction j with
  | zero =>
      obtain rfl := Nat.le_zero.mp h
      rfl
  | succ j ih =>
      rcases Nat.le_succ_iff.mp h with earlier | rfl
      · rw [arrivals, List.getElem?_append_left (by simpa using Nat.lt_succ_of_le earlier),
          ih earlier]
      · rfl

theorem arrival?_succ (j : Nat) :
    arrival? isPiece text (j + 1) = ((List.range (j + 1)).filterMap
      (arriveFrom? isPiece text (arrivals isPiece text j) (j + 1))).foldl improve none := by
  rw [arrival?, arrivals, List.getElem?_append_right (by simp), length_arrivals, Nat.sub_self]
  rfl

theorem mem_arriveFrom? {table : List (Option Arrival)} {j i : Nat} {arrival : Arrival} :
    arrival ∈ arriveFrom? isPiece text table j i ↔
      ∃ earlier ∈ table[i]?.join, isPiece (between text i j) = true ∧
        arrival = ⟨earlier.count + 1, i⟩ := by
  rw [arriveFrom?]
  cases table[i]?.join with
  | none => simp
  | some earlier =>
      by_cases piece : isPiece (between text i j) = true
      · simp only [piece, Option.mem_def, Option.some.injEq, exists_eq_left', ↓reduceIte, true_and]
        exact eq_comm
      · simp [piece]

/-- The entry of a place names an earlier place that has an entry too, one piece shorter, and a
known piece between the two. -/
theorem exists_earlier {j : Nat} {arrival : Arrival}
    (found : arrival ∈ arrival? isPiece text (j + 1)) :
    arrival.start ≤ j ∧ isPiece (between text arrival.start (j + 1)) = true ∧
      ∃ earlier ∈ arrival? isPiece text arrival.start, arrival.count = earlier.count + 1 := by
  rw [arrival?_succ] at found
  have way := (mem_of_mem_foldl_improve found).resolve_left (Option.not_mem_none arrival)
  obtain ⟨i, place, from_⟩ := List.mem_filterMap.mp way
  obtain ⟨earlier, before, piece, rfl⟩ := mem_arriveFrom?.mp from_
  have le : i ≤ j := Nat.le_of_lt_succ (List.mem_range.mp place)
  rw [getElem?_arrivals le] at before
  exact ⟨le, piece, earlier, before, rfl⟩

/-- A piece leads on from a place that has an entry: the place where it ends has one as well, with
at most one piece more. -/
theorem exists_later {i j : Nat} {earlier : Arrival} (le : i ≤ j)
    (before : earlier ∈ arrival? isPiece text i)
    (piece : isPiece (between text i (j + 1)) = true) :
    ∃ arrival ∈ arrival? isPiece text (j + 1), arrival.count ≤ earlier.count + 1 := by
  rw [← getElem?_arrivals le] at before
  have way := mem_arriveFrom?.mpr ⟨earlier, before, piece, rfl⟩
  have place := List.mem_range.mpr (Nat.lt_succ_of_le le)
  rw [arrival?_succ]
  exact exists_mem_foldl_improve_le (.inr (List.mem_filterMap.mpr ⟨i, place, way⟩))

theorem take_append_between {i j : Nat} (le : i ≤ j) :
    text.take i ++ between text i j = text.take j := by
  have front : text.take i = (text.take j).take i := by rw [List.take_take, Nat.min_eq_left le]
  rw [between, front, List.take_append_drop]

theorem between_ne_nil {i j : Nat} (lt : i < j) (le : j ≤ text.length) :
    between text i j ≠ [] := by
  rw [← List.length_pos_iff, between, List.length_drop, List.length_take]
  omega

/-- The last piece of a spelling starts at a place that the others lead up to. -/
theorem Spells.exists_between {j : Nat} (le : j + 1 ≤ text.length) {pieces : List (List Char)}
    (spells : Spells known pieces (text.take (j + 1))) :
    ∃ init i, i ≤ j ∧ Spells known init (text.take i) ∧ known (between text i (j + 1)) ∧
      pieces.length = init.length + 1 := by
  have filled : text.take (j + 1) ≠ [] := between_ne_nil (Nat.succ_pos j) le
  obtain ⟨init, last, place, rfl, shape, nonempty, isKnown, before⟩ := spells.exists_last filled
  have size := congrArg List.length shape
  rw [List.length_take, List.length_append, Nat.min_eq_left le] at size
  have visible := List.length_pos_iff.mpr nonempty
  have front : text.take place.length = place := by
    have inner : text.take place.length = (text.take (j + 1)).take place.length := by
      rw [List.take_take, Nat.min_eq_left (by omega)]
    rw [inner, shape, List.take_left]
  have back : between text place.length (j + 1) = last := by
    rw [between, shape, List.drop_left]
  refine ⟨init, place.length, by omega, by rwa [front], by rwa [back], ?_⟩
  rw [List.length_append, List.length_singleton]

variable (decides : ∀ piece, isPiece piece = true ↔ known piece)

include decides

/-- Following the entries back gives a spelling of the text up to the place, with as many pieces as
its entry counts. By induction on the place, as entries point to earlier ones. -/
theorem exists_goBack {size j : Nat} (le : j ≤ size) (inside : size ≤ text.length)
    {arrival : Arrival} (found : arrival ∈ arrival? isPiece text j) :
    ∃ pieces, Spells known pieces (text.take j) ∧ pieces.length = arrival.count ∧
      ∀ later, goBack text (arrivals isPiece text size) j later = some (pieces ++ later) := by
  induction j using Nat.strongRecOn generalizing arrival with
  | _ j ih =>
      cases j with
      | zero =>
          obtain rfl := Option.some.inj found
          exact ⟨[], .nil, rfl, fun later => by rw [goBack, if_pos rfl, List.nil_append]⟩
      | succ j =>
          obtain ⟨start, piece, earlier, before, count⟩ := exists_earlier found
          have lt : arrival.start < j + 1 := Nat.lt_succ_of_le start
          obtain ⟨pieces, spells, length, back⟩ := ih _ lt (by omega) before
          refine ⟨pieces ++ [between text arrival.start (j + 1)], ?_, ?_, fun later => ?_⟩
          · rw [← take_append_between (Nat.le_of_lt lt)]
            exact spells.append (.single (between_ne_nil lt (by omega)) ((decides _).mp piece))
          · rw [List.length_append, length, List.length_singleton, count]
          · rw [goBack, if_neg (Nat.succ_ne_zero j), getElem?_arrivals le, Option.mem_def.mp found]
            simp only [if_pos lt, back, List.append_assoc, List.singleton_append]

/-- The table counts no more pieces up to a place than any spelling of the text up to there has. By
strong induction on the place, along the last piece of the spelling. -/
theorem exists_arrival?_le {j : Nat} (le : j ≤ text.length) {pieces : List (List Char)}
    (spells : Spells known pieces (text.take j)) :
    ∃ arrival ∈ arrival? isPiece text j, arrival.count ≤ pieces.length := by
  induction j using Nat.strongRecOn generalizing pieces with
  | _ j ih =>
      cases j with
      | zero => exact ⟨⟨0, 0⟩, rfl, Nat.zero_le _⟩
      | succ j =>
          obtain ⟨init, i, start, before, isKnown, length⟩ := spells.exists_between le
          obtain ⟨earlier, found, fewer⟩ := ih i (Nat.lt_succ_of_le start) (by omega) before
          obtain ⟨arrival, here, count⟩ := exists_later start found ((decides _).mpr isKnown)
          exact ⟨arrival, here, by omega⟩

end Table

/-- Where the way back is found, the table has an entry. -/
theorem exists_arrival?_of_goBack {isPiece : List Char → Bool} {text : List Char}
    {pieces : List (List Char)} (found : segment? isPiece text = some pieces) :
    ∃ arrival, arrival ∈ arrival? isPiece text text.length := by
  rw [segment?, goBack] at found
  split at found
  · next empty => exact ⟨⟨0, 0⟩, by rw [empty]; rfl⟩
  · rw [getElem?_arrivals (Nat.le_refl _)] at found
    cases here : arrival? isPiece text text.length with
    | none =>
        rw [here] at found
        cases found
    | some arrival => exact ⟨arrival, rfl⟩

/-! ### Cutting with a dictionary -/

/-- The words of a dictionary are known, and numbers in the digits of ASCII. -/
def IsKnown (words : Std.ExtTreeSet String) (piece : List Char) : Prop :=
  String.ofList piece ∈ words ∨ ∀ c ∈ piece, c.isDigit = true

theorem isPiece_iff {words : Std.ExtTreeSet String} (piece : List Char) :
    isPiece words piece = true ↔ IsKnown words piece := by
  rw [isPiece, Bool.or_eq_true, List.all_eq_true, Std.ExtTreeSet.contains_iff_mem, or_comm]
  rfl

/-- What the cut answers with spells the text. Its pieces are words of the dictionary and runs of
digits. -/
theorem spells_of_segment? {words : Std.ExtTreeSet String} {text : List Char}
    {pieces : List (List Char)} (found : segment? (isPiece words) text = some pieces) :
    Spells (IsKnown words) pieces text := by
  obtain ⟨arrival, here⟩ := exists_arrival?_of_goBack found
  obtain ⟨others, spells, -, back⟩ := exists_goBack isPiece_iff (Nat.le_refl _) (Nat.le_refl _) here
  rw [segment?, back [], List.append_nil, Option.some.injEq] at found
  rwa [← found, ← List.take_length (l := text)]

/-- If the text can be spelled at all, it is cut, and into no more pieces than that spelling has. -/
theorem exists_segment?_le {words : Std.ExtTreeSet String} {text : List Char}
    {pieces : List (List Char)} (spells : Spells (IsKnown words) pieces text) :
    ∃ fewest, segment? (isPiece words) text = some fewest ∧ fewest.length ≤ pieces.length := by
  rw [← List.take_length (l := text)] at spells
  obtain ⟨arrival, here, short⟩ := exists_arrival?_le isPiece_iff (Nat.le_refl _) spells
  obtain ⟨fewest, -, count, back⟩ := exists_goBack isPiece_iff (Nat.le_refl _) (Nat.le_refl _) here
  refine ⟨fewest, ?_, count ▸ short⟩
  rw [segment?, back, List.append_nil]

/-- A text is cut exactly if it has a spelling, and then into the fewest pieces that spell it. -/
theorem segment?_fewest (words : Std.ExtTreeSet String) (text : List Char) :
    ((∃ pieces, segment? (isPiece words) text = some pieces) ↔
      ∃ pieces, Spells (IsKnown words) pieces text) ∧
    ∀ pieces, segment? (isPiece words) text = some pieces →
      Spells (IsKnown words) pieces text ∧
        ∀ others, Spells (IsKnown words) others text → pieces.length ≤ others.length := by
  refine ⟨⟨?_, ?_⟩, ?_⟩
  · rintro ⟨pieces, found⟩
    exact ⟨pieces, spells_of_segment? found⟩
  · rintro ⟨pieces, spells⟩
    obtain ⟨fewest, found, -⟩ := exists_segment?_le spells
    exact ⟨fewest, found⟩
  · intro pieces found
    refine ⟨spells_of_segment? found, fun others spells => ?_⟩
    obtain ⟨fewest, again, short⟩ := exists_segment?_le spells
    obtain rfl := Option.some.inj (found.symm.trans again)
    exact short

end Maxscript.Naming
