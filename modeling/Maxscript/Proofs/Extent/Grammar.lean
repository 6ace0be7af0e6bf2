import Maxscript.Proofs.Extent
import Maxscript.Proofs.Parts

/-!
# Extents by their grammar

The scanners count: a bracket adds one to a depth or takes one from it, and every `if` waits for a
word of its own. A grammar nests instead. Where a script is properly nested, both find the same
ends. The bracket at which the depth comes back to zero is the one behind a balanced list, and where
it never does, no balanced list is followed by a closing bracket. A condition is passed over with
all the conditionals in it, although the `if`s that wait are not told apart by the brackets that
they stand in.

A group that nothing closes takes everything behind its bracket, but for one case: if the last piece
of all is a bracket that closes a group inside, it is taken for the end of the outer one.
-/

namespace Maxscript.Extent

variable {pieces inner rest : List Piece} {piece : Piece} {depth start close : Nat}

/-! ### Balanced lists -/

@[simp] theorem parenWeight_open : parenWeight (.token "(") = 1 := by decide

@[simp] theorem parenWeight_close : parenWeight (.token ")") = -1 := by decide

/-- Lists in which round brackets match. A construct that was already read is a single piece, so
brackets inside it do not count. -/
inductive Balanced : List Piece → Prop
  | nil : Balanced []
  | cons {piece : Piece} {rest : List Piece} (isOpen : piece.is "(" = false)
      (isClose : piece.is ")" = false) (tail : Balanced rest) : Balanced (piece :: rest)
  | group {inner rest : List Piece} (inside : Balanced inner) (tail : Balanced rest) :
      Balanced (.token "(" :: inner ++ .token ")" :: rest)

theorem Balanced.append {front back : List Piece} (first : Balanced front)
    (second : Balanced back) : Balanced (front ++ back) := by
  induction first with
  | nil => exact second
  | cons isOpen isClose _ ih => exact .cons isOpen isClose ih
  | group inside _ _ ih =>
      rw [List.append_assoc, List.cons_append]
      exact .group inside ih

theorem balanced_token {token : String} (plain : token ∉ ["(", ")"]) {rest : List Piece}
    (tail : Balanced rest) : Balanced (.token token :: rest) :=
  .cons (Piece.is_of_not_mem plain (by decide)) (Piece.is_of_not_mem plain (by decide)) tail

/-- A piece that is no bracket can be left out anywhere. By induction on the list: it stands in
front, or inside a group, or behind one. -/
theorem Balanced.erase {front back : List Piece} (isOpen : piece.is "(" = false)
    (isClose : piece.is ")" = false) (balanced : Balanced (front ++ piece :: back)) :
    Balanced (front ++ back) := by
  generalize whole : front ++ piece :: back = pieces at balanced
  induction balanced generalizing front back with
  | nil => simp at whole
  | cons firstOpen firstClose tail ih =>
      cases front with
      | nil =>
          cases whole
          exact tail
      | cons first front =>
          rw [List.cons_append, List.cons.injEq] at whole
          obtain ⟨rfl, behind⟩ := whole
          exact .cons firstOpen firstClose (ih behind)
  | @group inner rest inside tail ihInside ihTail =>
      cases front with
      | nil =>
          cases whole
          contradiction
      | cons first front =>
          rw [List.cons_append, List.cons_append, List.cons.injEq] at whole
          obtain ⟨rfl, behind⟩ := whole
          -- The piece stands inside the group or behind it, as it is not the closing bracket.
          rcases List.append_eq_append_iff.mp behind with
            ⟨between, rfl, shape⟩ | ⟨between, rfl, shape⟩
          · cases between with
            | nil =>
                cases shape
                contradiction
            | cons _ between =>
                obtain ⟨rfl, rfl⟩ := List.cons.inj shape
                have group := Balanced.group (ihInside rfl) tail
                rwa [List.cons_append, List.append_assoc] at group
          · cases between with
            | nil =>
                cases shape
                contradiction
            | cons _ between =>
                obtain ⟨rfl, rfl⟩ := List.cons.inj shape
                have group := Balanced.group inside (ihTail rfl)
                rwa [← List.cons_append, ← List.append_assoc] at group

/-- Inside brackets, a balanced list is passed over as a whole. The depth never comes to zero in it,
since it starts above zero and each bracket is closed after it was opened. -/
theorem balancePoint?_append {front : List Piece} (balanced : Balanced front) {depth : Int}
    (inside : 0 < depth) (rest : List Piece) :
    balancePoint? depth (front ++ rest) = (balancePoint? depth rest).map (· + front.length) := by
  induction balanced generalizing depth rest with
  | nil => simp
  | @cons piece tail isOpen isClose _ ih =>
      have weight : parenWeight piece = 0 := by simp [parenWeight, isOpen, isClose]
      have positive : ¬depth = 0 := by omega
      rw [List.cons_append, balancePoint?, weight, Int.add_zero]
      simp only [if_neg positive, ih inside rest, Option.map_map, List.length_cons]
      congr 1
  | @group inner tail _ _ ihInner ihTail =>
      have deeper : ¬depth + 1 = 0 := by omega
      have positive : ¬depth = 0 := by omega
      have back : depth + 1 + -1 = depth := by omega
      simp only [List.cons_append, List.append_assoc, balancePoint?, parenWeight_open,
        if_neg deeper]
      rw [ihInner (by omega) (.token ")" :: (tail ++ rest)), balancePoint?, parenWeight_close, back]
      simp only [if_neg positive, ihTail inside rest, Option.map_map]
      congr 1
      funext offset
      simp only [Function.comp_apply, List.length_cons, List.length_append]
      omega

/-- From inside one bracket, a balanced list reaches up to the bracket behind it. -/
theorem balancePoint?_close {inner : List Piece} (balanced : Balanced inner) (rest : List Piece) :
    balancePoint? 1 (inner ++ .token ")" :: rest) = some inner.length := by
  rw [balancePoint?_append balanced (by decide), balancePoint?, parenWeight_close]
  simp

/-! ### The partner of a bracket -/

/-- The bracket at `close` is the partner of the one at `start`: the pieces between them are
balanced. -/
structure IsPartner (pieces : List Piece) (start close : Nat) : Prop where
  behind : start < close
  closes : pieces[close]? = some (.token ")")
  inside : Balanced ((pieces.take close).drop (start + 1))

/-- The pieces close `depth` brackets that were opened before them, and what stands before each of
the closing brackets is balanced. -/
inductive Closes : (depth : Nat) → (pieces : List Piece) → Prop
  | done (rest : List Piece) : Closes 0 rest
  | close {depth : Nat} {inner rest : List Piece} (inside : Balanced inner)
      (further : Closes depth rest) : Closes (depth + 1) (inner ++ .token ")" :: rest)

/-- A piece that is no bracket belongs to what stands before the first closing bracket. -/
theorem Closes.cons (isOpen : piece.is "(" = false) (isClose : piece.is ")" = false)
    (closes : Closes (depth + 1) rest) : Closes (depth + 1) (piece :: rest) := by
  cases closes with
  | close inside further => exact .close (.cons isOpen isClose inside) further

/-- A bracket that is opened is the first to be closed, and then belongs to what stands before the
next closing bracket. -/
theorem Closes.opened (closes : Closes (depth + 2) rest) :
    Closes (depth + 1) (.token "(" :: rest) := by
  cases closes with
  | close inside further =>
      cases further with
      | close tail further =>
          have group := Closes.close (Balanced.group inside tail) further
          rwa [List.append_assoc, List.cons_append] at group

theorem parenWeight_cases (piece : Piece) :
    piece = .token "(" ∧ parenWeight piece = 1 ∨ piece = .token ")" ∧ parenWeight piece = -1 ∨
      piece.is "(" = false ∧ piece.is ")" = false ∧ parenWeight piece = 0 := by
  by_cases opened : piece.is "(" = true
  · obtain rfl := Piece.eq_token_of_text? (beq_iff_eq.mp opened)
    exact .inl ⟨rfl, parenWeight_open⟩
  by_cases closed : piece.is ")" = true
  · obtain rfl := Piece.eq_token_of_text? (beq_iff_eq.mp closed)
    exact .inr (.inl ⟨rfl, parenWeight_close⟩)
  · rw [Bool.not_eq_true] at opened closed
    exact .inr (.inr ⟨opened, closed, by simp [parenWeight, opened, closed]⟩)

/-- If the depth comes down to zero, every bracket that was open is closed. By induction on the
list, for every depth. -/
theorem closes_of_balancePoint? {offset : Nat}
    (found : balancePoint? ((depth + 1 : Nat) : Int) pieces = some offset) :
    Closes (depth + 1) pieces := by
  -- The scan takes one piece at a time, so all open brackets are carried along, not one of them.
  induction pieces generalizing depth offset with
  | nil => cases found
  | cons piece rest ih =>
      rcases parenWeight_cases piece with ⟨rfl, weight⟩ | ⟨rfl, weight⟩ | ⟨isOpen, isClose, weight⟩
      · have deeper : ((depth + 1 : Nat) : Int) + 1 = ((depth + 2 : Nat) : Int) := rfl
        rw [balancePoint?, weight, deeper, if_neg (by omega)] at found
        obtain ⟨further, found, -⟩ := Option.map_eq_some_iff.mp found
        exact (ih found).opened
      · have back : ((depth + 1 : Nat) : Int) + -1 = (depth : Int) := by omega
        rw [balancePoint?, weight, back] at found
        cases depth with
        | zero => exact .close .nil (.done rest)
        | succ depth =>
            rw [if_neg (by omega)] at found
            obtain ⟨further, found, -⟩ := Option.map_eq_some_iff.mp found
            exact .close .nil (ih found)
      · rw [balancePoint?, weight, Int.add_zero, if_neg (by omega)] at found
        obtain ⟨further, found, -⟩ := Option.map_eq_some_iff.mp found
        exact (ih found).cons isOpen isClose

/-- From inside one bracket, the depth comes to zero right behind a balanced list. The depth is
counted and the list is defined by its structure, so this is where the two meet. -/
theorem balancePoint?_one_eq_some_iff {offset : Nat} : balancePoint? 1 pieces = some offset ↔
    ∃ inner rest, pieces = inner ++ .token ")" :: rest ∧ Balanced inner ∧
      inner.length = offset := by
  constructor
  · intro found
    have closes : Closes (0 + 1) pieces := closes_of_balancePoint? found
    cases closes with
    | @close _ inner rest inside _ =>
        rw [balancePoint?_close inside] at found
        exact ⟨inner, rest, rfl, inside, Option.some.inj found⟩
  · rintro ⟨inner, rest, rfl, inside, rfl⟩
    exact balancePoint?_close inside rest

theorem drop_of_opened (opened : pieces[start]? = some (.token "(")) :
    pieces.drop start = .token "(" :: pieces.drop (start + 1) := by
  obtain ⟨bound, here⟩ := List.getElem?_eq_some_iff.mp opened
  rw [List.drop_eq_getElem_cons bound, here]

/-- Partners, seen from the pieces behind the bracket that is opened. The pieces before it play no
part. -/
theorem isPartner_iff : IsPartner pieces start close ↔
    ∃ inner rest, pieces.drop (start + 1) = inner ++ .token ")" :: rest ∧ Balanced inner ∧
      start + 1 + inner.length = close := by
  constructor
  · intro partner
    obtain ⟨count, rfl⟩ := Nat.exists_eq_add_of_le partner.behind
    have closes := partner.closes
    have inside := partner.inside
    rw [Nat.succ_eq_add_one, ← List.getElem?_drop] at closes
    rw [Nat.succ_eq_add_one, List.drop_take, Nat.add_sub_cancel_left] at inside
    obtain ⟨bound, here⟩ := List.getElem?_eq_some_iff.mp closes
    refine ⟨_, (pieces.drop (start + 1)).drop (count + 1), ?_, inside, ?_⟩
    · rw [← here, ← List.drop_eq_getElem_cons bound, List.take_append_drop]
    · rw [List.length_take, Nat.min_eq_left (Nat.le_of_lt bound)]
  · rintro ⟨inner, rest, shape, inside, rfl⟩
    constructor
    · omega
    · rw [← List.getElem?_drop, shape]
      simp
    · rw [List.drop_take, Nat.add_sub_cancel_left, shape, List.take_left]
      exact inside

/-- The brackets around a balanced list are partners. -/
theorem isPartner_group (balanced : Balanced inner) (rest : List Piece) :
    IsPartner (.token "(" :: inner ++ .token ")" :: rest) 0 (inner.length + 1) :=
  isPartner_iff.mpr ⟨inner, rest, rfl, balanced, by omega⟩

/-- Counting finds the partner, and nothing else: a bracket that is closed in the meantime is never
taken for it. -/
theorem balancePoint?_eq_some_iff (opened : pieces[start]? = some (.token "("))
    {offset : Nat} : balancePoint? 0 (pieces.drop start) = some offset ↔
      IsPartner pieces start (start + offset) := by
  rw [drop_of_opened opened, balancePoint?, parenWeight_open, Int.zero_add, if_neg (by decide),
    isPartner_iff, Option.map_eq_some_iff]
  constructor
  · rintro ⟨count, found, rfl⟩
    obtain ⟨inner, rest, shape, inside, rfl⟩ := balancePoint?_one_eq_some_iff.mp found
    exact ⟨inner, rest, shape, inside, by omega⟩
  · rintro ⟨inner, rest, shape, inside, sum⟩
    exact ⟨inner.length, balancePoint?_one_eq_some_iff.mpr ⟨inner, rest, shape, inside, rfl⟩,
      by omega⟩

theorem closingParen_eq_of_isPartner (opened : pieces[start]? = some (.token "("))
    (partner : IsPartner pieces start close) : closingParen pieces start = close := by
  obtain ⟨offset, rfl⟩ := Nat.exists_eq_add_of_le (Nat.le_of_lt partner.behind)
  rw [closingParen, (balancePoint?_eq_some_iff opened).mpr partner]

theorem closingParen_group (balanced : Balanced inner) (rest : List Piece) :
    closingParen (.token "(" :: inner ++ .token ")" :: rest) 0 = inner.length + 1 :=
  closingParen_eq_of_isPartner rfl (isPartner_group balanced rest)

/-- A bracket has no partner if the depth never comes back to zero. This is what the program can see
of it. -/
theorem unclosed_iff (opened : pieces[start]? = some (.token "(")) :
    (∀ close, ¬IsPartner pieces start close) ↔ balancePoint? 0 (pieces.drop start) = none := by
  constructor
  · intro unclosed
    rw [Option.eq_none_iff_forall_ne_some]
    intro offset found
    exact unclosed _ ((balancePoint?_eq_some_iff opened).mp found)
  · intro lost close partner
    obtain ⟨offset, rfl⟩ := Nat.exists_eq_add_of_le (Nat.le_of_lt partner.behind)
    rw [(balancePoint?_eq_some_iff opened).mpr partner] at lost
    cases lost

theorem closingParen_eq_of_unclosed (opened : pieces[start]? = some (.token "("))
    (unclosed : ∀ close, ¬IsPartner pieces start close) :
    closingParen pieces start = pieces.length - 1 := by
  rw [closingParen, (unclosed_iff opened).mp unclosed]

/-- A bracket has at most one partner. It is the one that is found, and without one the search ends
at the last piece. -/
theorem closingParen_finds_partner (opened : pieces[start]? = some (.token "(")) :
    (∀ close, IsPartner pieces start close → closingParen pieces start = close ∧
        ∀ other, IsPartner pieces start other → other = close) ∧
      ((∀ close, ¬IsPartner pieces start close) →
        closingParen pieces start = pieces.length - 1) := by
  refine ⟨fun close partner => ?_, closingParen_eq_of_unclosed opened⟩
  have found := closingParen_eq_of_isPartner opened partner
  refine ⟨found, fun other second => ?_⟩
  rw [← closingParen_eq_of_isPartner opened second, found]

/-- A group with another one inside it, which holds a construct that was already read. -/
def groupInGroup : List Piece :=
  [.token "x", .token "(", .token "a", .token "(", .array 0 [], .token ")", .token ")", .token "b"]

theorem groupInGroup_partner :
    IsPartner groupInGroup 1 6 ∧ closingParen groupInGroup 1 = 6 := by
  have inside : Balanced [.token "a", .token "(", .array 0 [], .token ")"] := by
    refine .cons (by decide) (by decide) ?_
    exact .group (.cons (by decide) (by decide) .nil) .nil
  have partner : IsPartner groupInGroup 1 6 := ⟨by decide, rfl, inside⟩
  exact ⟨partner, ((closingParen_finds_partner rfl).1 6 partner).1⟩

/-! ### Groups -/

theorem group_eq_of_isPartner (opened : pieces[start]? = some (.token "("))
    (partner : IsPartner pieces start close) :
    group pieces start = ⟨⟨start + 1, close⟩, close + 1⟩ := by
  simp only [group, closingParen_eq_of_isPartner opened partner, partner.closes, Option.any_some,
    Piece.is_self, Bool.and_true, decide_eq_true_eq]
  rw [if_pos partner.behind]

/-- A group with a balanced inside ends at the bracket behind it, whatever follows. -/
theorem group_balanced (balanced : Balanced inner) (rest : List Piece) :
    group (.token "(" :: inner ++ .token ")" :: rest) 0 =
      ⟨⟨1, inner.length + 1⟩, inner.length + 2⟩ :=
  group_eq_of_isPartner rfl (isPartner_group balanced rest)

section Unclosed

variable (opened : pieces[start]? = some (.token "("))
  (unclosed : ∀ close, ¬IsPartner pieces start close)
include opened unclosed

/-- A bracket at the very end is taken for the end of the group, even if it closes another one. -/
theorem group_eq_of_getLast? (last : pieces.getLast? = some (.token ")")) :
    group pieces start = ⟨⟨start + 1, pieces.length - 1⟩, pieces.length⟩ := by
  obtain ⟨bound, -⟩ := List.getElem?_eq_some_iff.mp opened
  rw [List.getLast?_eq_getElem?] at last
  have behind : start < pieces.length - 1 := by
    refine Nat.lt_of_le_of_ne (Nat.le_sub_one_of_lt bound) ?_
    rintro rfl
    rw [opened] at last
    exact absurd (Piece.token.inj (Option.some.inj last)) (by decide)
  simp only [group, closingParen_eq_of_unclosed opened unclosed, last, Option.any_some,
    Piece.is_self, Bool.and_true, decide_eq_true_eq]
  rw [if_pos behind, Nat.sub_add_cancel (Nat.one_le_of_lt bound)]

/-- Without a bracket at the very end, an unclosed group takes everything that follows it. -/
theorem group_eq_of_getLast?_ne (last : pieces.getLast? ≠ some (.token ")")) :
    group pieces start = ⟨⟨start + 1, pieces.length⟩, pieces.length⟩ := by
  obtain ⟨bound, -⟩ := List.getElem?_eq_some_iff.mp opened
  rw [List.getLast?_eq_getElem?] at last
  have noClose : pieces[pieces.length - 1]?.any (·.is ")") = false := by
    cases final : pieces[pieces.length - 1]? with
    | none => rfl
    | some piece =>
        rw [Option.any_some, Bool.eq_false_iff]
        intro isClose
        rw [Piece.eq_token_of_text? (beq_iff_eq.mp isClose)] at final
        exact last final
  simp only [group, closingParen_eq_of_unclosed opened unclosed, noClose, Bool.and_false]
  rw [if_neg (by decide), Nat.min_eq_left bound]

end Unclosed

/-- A group reaches up to its partner. One that nothing closes takes everything behind its bracket
exactly if the last piece is not a closing bracket, and else all but that. -/
theorem unclosed_group_takes_all_iff (opened : pieces[start]? = some (.token "(")) :
    (∀ close, IsPartner pieces start close →
        group pieces start = ⟨⟨start + 1, close⟩, close + 1⟩) ∧
      ((∀ close, ¬IsPartner pieces start close) →
        (group pieces start = ⟨⟨start + 1, pieces.length⟩, pieces.length⟩ ↔
          pieces.getLast? ≠ some (.token ")")) ∧
        (pieces.getLast? = some (.token ")") →
          group pieces start = ⟨⟨start + 1, pieces.length - 1⟩, pieces.length⟩)) := by
  refine ⟨fun close => group_eq_of_isPartner opened, fun unclosed => ⟨⟨?_, ?_⟩, ?_⟩⟩
  · intro whole last
    rw [group_eq_of_getLast? opened unclosed last] at whole
    obtain ⟨bound, -⟩ := List.getElem?_eq_some_iff.mp opened
    have same : pieces.length - 1 = pieces.length := congrArg (·.inside.stop) whole
    omega
  · exact group_eq_of_getLast?_ne opened unclosed
  · exact group_eq_of_getLast? opened unclosed

/-- The group inside is closed, but not at the very end. -/
theorem unclosed_group_with_word :
    (∀ close, ¬IsPartner [.token "(", .token "(", .token "a", .token ")", .token "b"] 0 close) ∧
      group [.token "(", .token "(", .token "a", .token ")", .token "b"] 0 = ⟨⟨1, 5⟩, 5⟩ := by
  have unclosed := (@unclosed_iff
    [.token "(", .token "(", .token "a", .token ")", .token "b"] 0 rfl).mpr (by decide)
  refine ⟨unclosed, (((unclosed_group_takes_all_iff rfl).2 unclosed).1).mpr ?_⟩
  exact fun last => absurd (Piece.token.inj (Option.some.inj last)) (by decide)

/-- The bracket of the group inside ends the outer one as well, and is missing from what stands
inside that. -/
theorem inner_bracket_ends_outer_group :
    (∀ close, ¬IsPartner [.token "(", .token "(", .token "a", .token ")"] 0 close) ∧
      group [.token "(", .token "(", .token "a", .token ")"] 0 = ⟨⟨1, 3⟩, 4⟩ :=
  ⟨(unclosed_iff rfl).mpr (by decide), by decide⟩

/-! ### Conditions -/

def endsCondition (piece : Piece) : Bool := piece.isKeyword "then" || piece.isKeyword "do"

/-- Pieces in which every bracket is closed and each `if` has a `then` or `do` of its own, in the
same brackets. -/
inductive IsCondition : List Piece → Prop
  | nil : IsCondition []
  | cons {piece : Piece} {rest : List Piece} (isOpen : piece.is "(" = false)
      (isClose : piece.is ")" = false) (noIf : piece.isKeyword "if" = false)
      (noEnd : endsCondition piece = false) (tail : IsCondition rest) : IsCondition (piece :: rest)
  | group {inner rest : List Piece} (inside : IsCondition inner) (tail : IsCondition rest) :
      IsCondition (.token "(" :: inner ++ .token ")" :: rest)
  | conditional {word ending : Piece} {inner rest : List Piece} (isIf : word.isKeyword "if" = true)
      (ends : endsCondition ending = true) (inside : IsCondition inner) (tail : IsCondition rest) :
      IsCondition (word :: inner ++ ending :: rest)

theorem isCondition_of_forall (plain : ∀ piece ∈ pieces, piece.is "(" = false ∧
    piece.is ")" = false ∧ piece.isKeyword "if" = false ∧ endsCondition piece = false) :
    IsCondition pieces := by
  induction pieces with
  | nil => exact .nil
  | cons piece rest ih =>
      obtain ⟨⟨isOpen, isClose, noIf, noEnd⟩, others⟩ := List.forall_mem_cons.mp plain
      exact .cons isOpen isClose noIf noEnd (ih others)

section Steps

variable (depth : Int) (pendingIfs : Nat) (rest : List Piece)

/-- A keyword is told by its text in small letters, so it is no mark that has another one. -/
theorem is_eq_false_of_isKeyword {word mark : String} (isWord : piece.isKeyword word = true)
    (other : Text.foldCase mark ≠ word) : piece.is mark = false := by
  rw [Bool.eq_false_iff]
  intro isMark
  obtain rfl := Piece.eq_token_of_text? (beq_iff_eq.mp isMark)
  exact other (by simpa using isWord)

theorem isKeyword_eq_false {word other : String} (isWord : piece.isKeyword word = true)
    (ne : word ≠ other) : piece.isKeyword other = false := by
  rw [Piece.isKeyword, beq_iff_eq] at isWord
  rw [Piece.isKeyword, isWord]
  simpa using ne

theorem conditionLength_cons (isOpen : piece.is "(" = false) (isClose : piece.is ")" = false)
    (noIf : piece.isKeyword "if" = false) (noEnd : endsCondition piece = false) :
    conditionLength depth pendingIfs (piece :: rest) =
      conditionLength depth pendingIfs rest + 1 := by
  rw [endsCondition] at noEnd
  simp [conditionLength, isOpen, isClose, noIf, noEnd]

theorem conditionLength_if (isIf : piece.isKeyword "if" = true) :
    conditionLength depth pendingIfs (piece :: rest) =
      conditionLength depth (pendingIfs + 1) rest + 1 := by
  have isOpen := is_eq_false_of_isKeyword isIf (by decide : Text.foldCase "(" ≠ "if")
  have isClose := is_eq_false_of_isKeyword isIf (by decide : Text.foldCase ")" ≠ "if")
  simp [conditionLength, isOpen, isClose, isIf]

theorem conditionLength_open : conditionLength depth pendingIfs (.token "(" :: rest) =
    conditionLength (depth + 1) pendingIfs rest + 1 := by
  rw [conditionLength, if_pos (by decide)]

theorem conditionLength_close : conditionLength depth pendingIfs (.token ")" :: rest) =
    conditionLength (depth - 1) pendingIfs rest + 1 := by
  rw [conditionLength, if_neg (by decide), if_pos (by decide)]

/-- A word that ends conditions goes to an `if` that waits for one. Only if none does, and outside
brackets, it ends the condition that is looked at. -/
theorem conditionLength_end (ends : endsCondition piece = true) :
    conditionLength depth pendingIfs (piece :: rest) =
      if pendingIfs > 0 then conditionLength depth (pendingIfs - 1) rest + 1
      else if depth ≤ 0 then 0
      else conditionLength depth pendingIfs rest + 1 := by
  have other : piece.is "(" = false ∧ piece.is ")" = false ∧ piece.isKeyword "if" = false := by
    rw [endsCondition, Bool.or_eq_true] at ends
    rcases ends with isWord | isWord
    all_goals
      refine ⟨?_, ?_, isKeyword_eq_false isWord (by decide)⟩
      all_goals exact is_eq_false_of_isKeyword isWord (by decide)
  rw [endsCondition] at ends
  simp only [conditionLength, other, ends, Bool.false_eq_true, if_false, if_true]

end Steps

/-- A condition is passed over, and leaves the depth and the number of waiting `if`s as they
were. -/
theorem IsCondition.conditionLength_append {condition : List Piece}
    (isCondition : IsCondition condition) (depth : Int) (pendingIfs : Nat) (rest : List Piece) :
    conditionLength depth pendingIfs (condition ++ rest) =
      conditionLength depth pendingIfs rest + condition.length := by
  induction isCondition generalizing depth pendingIfs rest with
  | nil => rfl
  | cons isOpen isClose noIf noEnd _ ih =>
      rw [List.cons_append, conditionLength_cons _ _ _ isOpen isClose noIf noEnd, ih,
        List.length_cons, Nat.add_assoc]
  | @group inner tail _ _ ihInside ihTail =>
      rw [List.append_assoc, List.cons_append, List.cons_append, conditionLength_open, ihInside,
        conditionLength_close, Int.add_sub_cancel, ihTail]
      simp only [List.length_append, List.length_cons]
      omega
  | @conditional word ending inner tail isIf ends _ _ ihInside ihTail =>
      -- The `if` makes one more wait, whatever waits around it, and its own word takes that back.
      rw [List.append_assoc, List.cons_append, List.cons_append, conditionLength_if _ _ _ isIf,
        ihInside, conditionLength_end _ _ _ ends, if_pos (Nat.succ_pos _), Nat.add_sub_cancel,
        ihTail]
      simp only [List.length_append, List.length_cons]
      omega

theorem IsCondition.conditionLength_eq {condition : List Piece} {ending : Piece}
    (isCondition : IsCondition condition) (ends : endsCondition ending = true)
    (rest : List Piece) : conditionLength 0 0 (condition ++ ending :: rest) = condition.length := by
  rw [isCondition.conditionLength_append, conditionLength_end _ _ _ ends,
    if_neg (Nat.lt_irrefl _), if_pos (Int.le_refl _), Nat.zero_add]

/-- A condition ends at the word behind it: those inside it belong to its own `if`s. Whatever comes
behind that word makes no difference. -/
theorem conditionEnd_behind_condition {condition : List Piece} {ending : Piece}
    (isCondition : IsCondition condition) (ends : endsCondition ending = true)
    (rest : List Piece) : conditionEnd (condition ++ [ending] ++ rest) 0 = condition.length := by
  rw [conditionEnd, List.drop_zero, Nat.zero_min, Nat.zero_add, List.append_assoc,
    List.singleton_append, isCondition.conditionLength_eq ends]

/-- `( if a then b ) and IF if x do y Then z`, with conditionals in brackets and in a condition. -/
def nestedCondition : List Piece :=
  [.token "(", .token "if", .token "a", .token "then", .token "b", .token ")", .token "and",
    .token "IF", .token "if", .token "x", .token "do", .token "y", .token "Then", .token "z"]

theorem conditionEnd_nestedCondition :
    IsCondition nestedCondition ∧ endsCondition (.token "DO") = true ∧
      conditionEnd (nestedCondition ++ [.token "DO"] ++ [.token "c", .token "then"]) 0 = 14 := by
  have inBrackets : IsCondition [.token "if", .token "a", .token "then", .token "b"] :=
    @IsCondition.conditional _ _ [.token "a"] [.token "b"] (by decide) (by decide)
      (isCondition_of_forall (by decide)) (isCondition_of_forall (by decide))
  have inCondition : IsCondition [.token "if", .token "x", .token "do", .token "y"] :=
    @IsCondition.conditional _ _ [.token "x"] [.token "y"] (by decide) (by decide)
      (isCondition_of_forall (by decide)) (isCondition_of_forall (by decide))
  have isCondition : IsCondition nestedCondition := by
    refine .group inBrackets (.cons (by decide) (by decide) (by decide) (by decide) ?_)
    exact @IsCondition.conditional _ _ _ [.token "z"] (by decide) (by decide) inCondition
      (isCondition_of_forall (by decide))
  exact ⟨isCondition, by decide, conditionEnd_behind_condition isCondition (by decide) _⟩

end Maxscript.Extent
