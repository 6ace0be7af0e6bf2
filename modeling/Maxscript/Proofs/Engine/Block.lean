import Maxscript.Engine.Block
import Maxscript.Proofs.Engine.Construct

/-!
# Scripts in a buffer

One step of the engine moves through its buffer as one step of the reader moves its cursor: what is
before the index are the pieces before the cursor, numbered from the first node of the block on, and
what is ahead are tokens. By induction on the budget, an engine answers whatever it is asked for as
the reader with this budget does. So `readTree` leaves the tree of the script in its arena.
-/

namespace Maxscript

open Reader (Raw isOperand)
open Tree (Element elementAt elementsAt idAt planted plantedAll)

/-- The arena with the nodes of the pieces before a cursor, nearest first. -/
def below (base : Arena) (before : List Piece) : Arena :=
  base ++ plantedAll base.length before.reverse

@[simp] theorem length_below (base : Arena) (before : List Piece) :
    (below base before).length = base.length + Tree.countAll before.reverse := by
  rw [below, List.length_append, Tree.length_plantedAll]

theorem length_below_cons (base : Arena) (piece : Piece) (before : List Piece) :
    (below base (piece :: before)).length = (below base before).length + Tree.count piece := by
  rw [length_below, length_below, List.reverse_cons, Tree.countAll_append, Nat.add_assoc]
  rfl

theorem below_cons (base : Arena) (piece : Piece) (before : List Piece) :
    below base (piece :: before) =
      below base before ++ planted (below base before).length piece := by
  rw [length_below, below, below, List.reverse_cons, Tree.plantedAll_append, Tree.plantedAll_single,
    List.append_assoc]

/-- The pieces `before` are behind the index, nearest first, and the tokens `rest` are ahead. -/
structure Reaches (base : Arena) (buffer : Buffer) (arena : Arena) (before rest : List Piece) :
    Prop where
  behind : buffer.take before.length = elementsAt base.length before.reverse
  ahead : buffer.Points before.length rest
  arena_eq : arena = below base before

/-- The index is where the cursor is. Only the piece at the cursor may be a construct already. -/
structure Follows (base : Arena) (spot : Spot) (arena : Arena) (cursor : Cursor) : Prop where
  index_eq : spot.index = cursor.before.length
  fills : Fills base spot.buffer arena cursor.pieces
  raw : Raw cursor.after.tail

namespace Reaches

variable {base arena : Arena} {buffer : Buffer} {before rest : List Piece}

theorem of_fills (fills : Fills base buffer arena (before.reverse ++ rest)) (raw : Raw rest) :
    Reaches base buffer arena before rest := by
  have length : (elementsAt base.length before.reverse).length = before.length := by simp
  obtain ⟨rfl, rfl⟩ := fills
  rw [Tree.elementsAt_append, raw.elementsAt_eq]
  refine ⟨List.take_left' length, .of_append raw length, ?_⟩
  rw [Tree.plantedAll_append, raw.plantedAll_eq, List.append_nil, below]

theorem fills (reaches : Reaches base buffer arena before rest) :
    Fills base buffer arena (before.reverse ++ rest) := by
  have raw := reaches.ahead.raw
  refine ⟨?_, ?_⟩
  · rw [Tree.elementsAt_append, raw.elementsAt_eq, ← reaches.behind, ← reaches.ahead.drop_eq,
      List.take_append_drop]
  · rw [reaches.arena_eq, below, Tree.plantedAll_append, raw.plantedAll_eq, List.append_nil]

theorem follows (reaches : Reaches base buffer arena before rest) :
    Follows base ⟨buffer, before.length⟩ arena ⟨before, rest⟩ :=
  ⟨rfl, reaches.fills, reaches.ahead.raw.suffix (List.tail_suffix rest)⟩

/-- The piece right before the index is what an operand was reduced to. So what holds of an operand
when it was read also holds when the scan comes to a mark behind it. -/
theorem reduces {piece : Piece} (reaches : Reaches base buffer arena (piece :: before) rest) :
    Reduces (below base before) buffer before.length buffer arena (piece, rest) := by
  have shape := reaches.fills.buffer_eq
  have length : (elementsAt base.length before.reverse).length = before.length := by simp
  rw [List.reverse_cons, List.append_assoc, Tree.elementsAt_append] at shape
  refine ⟨rfl, ?_, reaches.ahead.raw, ?_⟩
  · rw [shape, List.drop_left' length, length_below, ← reaches.ahead.raw.elementsAt_eq]
    rfl
  · rw [reaches.arena_eq, below_cons]

/-- What was reduced behind the pieces `before` is the next one of them, and the index moves over
it. -/
theorem of_reduces {old : Buffer} {reading : Reading Piece}
    (behind : old.take before.length = elementsAt base.length before.reverse)
    (reduced : Reduces (below base before) old before.length buffer arena reading) :
    Reaches base buffer arena (reading.1 :: before) reading.2 := by
  have raw := reduced.raw
  refine .of_fills ⟨?_, ?_⟩ raw
  · rw [← List.take_append_drop before.length buffer, reduced.kept, behind, reduced.here,
      List.reverse_cons, List.append_assoc, Tree.elementsAt_append, length_below,
      ← raw.elementsAt_eq]
    rfl
  · rw [reduced.arena_eq, ← below_cons, below, Tree.plantedAll_append, raw.plantedAll_eq,
      List.append_nil]

/-- A construct is put in the place of the entries that it was made of, and the index moves over it.
-/
theorem of_makes {old : Buffer} {made : Made} {reading : Reading Piece}
    (behind : old.take before.length = elementsAt base.length before.reverse)
    (makes : Makes (below base before) old before.length made arena reading) :
    ∃ spot, made.passed before.length = .ok spot ∧
      Follows base spot arena (Reader.passed before reading) := by
  obtain ⟨buffer, place, reduced⟩ := makes.reduces
  refine ⟨⟨buffer, before.length + 1⟩, ?_, (of_reduces behind reduced).follows⟩
  rw [Made.passed, place]
  rfl

theorem passed {old : Buffer} {run : Build Made} {reading : Result (Reading Piece)}
    (behind : old.take before.length = elementsAt base.length before.reverse)
    (makes : Mirrors (Makes (below base before) old before.length) arena run reading) :
    Mirrors (Follows base) arena (run >>= fun made => liftM (made.passed before.length))
      (Reader.passed before <$> reading) := by
  rw [← bind_pure_comp]
  refine makes.bind fun made left value makes => ?_
  obtain ⟨spot, moved, follows⟩ := of_makes behind makes
  exact .last moved follows

/-- The index moves over a token. -/
theorem tail {text : String} (reaches : Reaches base buffer arena before (.token text :: rest)) :
    Reaches base buffer arena (.token text :: before) rest :=
  .of_fills (by simpa using reaches.fills) reaches.ahead.raw.tail

/-- The index moves back to a token. -/
theorem back {text : String} (reaches : Reaches base buffer arena (.token text :: before) rest) :
    Reaches base buffer arena before (.token text :: rest) :=
  .of_fills (by simpa using reaches.fills)
    (List.forall_mem_cons.mpr ⟨⟨text, rfl⟩, reaches.ahead.raw⟩)

/-- A token is dropped. The index stays, and so points to what was behind the token. -/
theorem remove {text : String} (reaches : Reaches base buffer arena before (.token text :: rest)) :
    ∃ left, buffer.remove before.length = .ok left ∧ Reaches base left arena before rest := by
  have inside := reaches.ahead.lt_length
  have length : (buffer.take before.length).length = before.length :=
    List.length_take_of_le (Nat.le_of_lt inside)
  refine ⟨_, if_pos inside, ?_, ?_, reaches.arena_eq⟩
  · rw [List.take_left' length, reaches.behind]
  · rw [reaches.ahead.tail.drop_eq]
    exact .of_append reaches.ahead.raw.tail length

theorem earlier (later : List Piece) {earlier : List Piece}
    (reaches : Reaches base buffer arena (later ++ earlier) rest) :
    buffer.take earlier.length = elementsAt base.length earlier.reverse := by
  have length : (elementsAt base.length earlier.reverse).length = earlier.length := by simp
  rw [reaches.fills.buffer_eq, List.reverse_append, List.append_assoc, Tree.elementsAt_append,
    List.take_left' length]

/-- The entries further back are the pieces there. A cast looks three entries back, for the target
of an assignment. -/
theorem entry (later : List Piece) {piece : Piece} {earlier : List Piece}
    (reaches : Reaches base buffer arena (later ++ piece :: earlier) rest) :
    buffer.entry earlier.length = .ok (elementAt (below base earlier).length piece) := by
  have shape := reaches.fills.buffer_eq
  have length : (elementsAt base.length earlier.reverse).length = earlier.length := by simp
  rw [List.reverse_append, List.reverse_cons, List.append_assoc, List.append_assoc,
    Tree.elementsAt_append] at shape
  rw [Buffer.entry, shape, List.getElem?_append_right (Nat.le_of_eq length), length, Nat.sub_self,
    length_below]
  rfl

theorem followsOperand (reaches : Reaches base buffer arena before rest) :
    buffer.followsOperand before.length = .ok (before.head?.any isOperand) := by
  cases before with
  | nil => rfl
  | cons piece earlier => exact reaches.reduces.followsOperand

variable {text : String}

theorem memberAt (reaches : Reaches base buffer arena before (.token text :: rest)) :
    Mirrors (Follows base) arena
      (fuseAt buffer before.length >>= fun fused => match fused with
        | some buffer => return ⟨buffer, before.length - 1⟩
        | none => return ⟨buffer, before.length + 1⟩)
      (.ok (Reader.memberAt before (.token text) rest)) := by
  cases before with
  | nil =>
      have none : fuseAt buffer 0 arena = .ok (none, arena) := rfl
      exact .step none reaches.tail.follows
  | cons piece earlier =>
      rw [Reader.memberAt]
      rcases reaches.reduces.fuseAt with ⟨fused, left, joined, after, found, ran, reduced⟩ |
        ⟨found, ran⟩
      · rw [found]
        have there := of_reduces (reaches.earlier [piece]) reduced
        refine .step ran ⟨rfl, ?_, there.ahead.raw⟩
        simpa [Cursor.pieces] using there.fills
      · rw [found]
        exact .step ran reaches.tail.follows

theorem hasFactors {left : Piece} {right : String}
    (reaches : Reaches base buffer arena (left :: before) (.token text :: .token right :: rest)) :
    buffer.hasFactors (before.length + 1) =
      .ok (!(left.isNewline || (Piece.token right).isNewline)) := by
  have behind := reaches.ahead.tail
  rw [Buffer.hasFactors, if_pos ⟨Nat.succ_pos _, behind.lt_length⟩, Nat.add_sub_cancel,
    reaches.reduces.entry, Piece.isNewline, ← is_seen_elementAt (below base before).length left]
  change (buffer.entry ((left :: before).length + 1) >>= _) = _
  rw [behind.entry]
  rfl

theorem hasCast {type : String}
    (reaches : Reaches base buffer arena before (.token text :: .token type :: rest)) :
    buffer.hasCast before.length = .ok (before.head?.any isOperand) := by
  rw [Buffer.hasCast, if_pos reaches.ahead.tail.lt_length, reaches.followsOperand]

theorem assignsCast {operand operator target : Piece}
    (reaches : Reaches base buffer arena (operand :: operator :: target :: before) rest) :
    buffer.assignsCast (before.length + 3) =
      .ok (operator.isTokenWith Token.isLigature && isOperand target) := by
  have atOperator : buffer.entry (before.length + 1) = _ := reaches.entry [operand]
  have atTarget : buffer.entry before.length = _ := reaches.entry [operand, operator]
  have third : before.length + 3 - 2 = before.length + 1 := rfl
  rw [Buffer.assignsCast, if_pos (Nat.le_add_left 3 _), third, atOperator, Nat.add_sub_cancel,
    atTarget]
  change (if (elementAt _ operator).seen.isTokenWith Token.isLigature then
    Except.ok (isOperand (elementAt _ target).seen) else .ok false) = _
  rw [isTokenWith_seen_elementAt, isOperand_seen_elementAt]
  cases operator.isTokenWith Token.isLigature <;> rfl

end Reaches

/-! ### Casts -/

/-- A cast, or the assignment or comparison that it is part of, stands for the entries it was made
of. Which of the two it is depends on the entries before the operand alone. -/
theorem Reaches.castAt (indent : Nat) {base arena : Arena} {buffer : Buffer}
    {before rest : List Piece} {operand : Piece} {word type : String}
    (reaches : Reaches base buffer arena (operand :: before) (.token word :: .token type :: rest)) :
    Mirrors (Follows base) arena (Engine.castAt indent buffer (before.length + 1))
      (Reader.castAt indent operand before (.token type) rest) := by
  have reduced := reaches.reduces
  have points := reaches.ahead.tail
  rw [Engine.castAt, Reader.castAt]
  refine .read reduced.entry (.read points.entry ?_)
  refine (Mirrors.castNode indent operand 0 (.token type) reduced.arena_eq).bind ?_
  rintro _ _ cast ⟨rfl, construct, rfl⟩
  obtain ⟨spot, moved, follows⟩ := of_makes (reaches.earlier [operand])
    (points.tail.makes rfl (Nat.le_add_right _ 3) points.lt_length
      (below base before) cast construct)
  -- An assignment takes two more entries, so it is only looked for if there are two behind.
  match before, reaches with
  | [], reaches => exact .last moved follows
  | [operator], reaches => exact .last moved follows
  | operator :: target :: before, reaches =>
      refine .read reaches.assignsCast ?_
      refine .ite (fun _ => ?_) fun _ => .last moved follows
      have atOperator : buffer.entry (before.length + 1) = _ := reaches.entry [operand]
      have atTarget : buffer.entry before.length = _ := reaches.entry [operand, operator]
      refine .read atTarget (.read atOperator ?_)
      refine .push (below base before) (.statement indent [target, operator, cast])
        (.inline rfl rfl) ?_ rfl ?_ ?_
      · rw [← Tree.elementAt_construct construct, length_below_cons base operator,
          length_below_cons base target]
        rfl
      · simp [below_cons, Nat.add_assoc]
      · obtain ⟨spot, moved, follows⟩ := of_makes (reaches.earlier [operand, operator, target])
          (points.tail.makes rfl (by simp; omega) points.lt_length (below base before)
            (.statement indent [target, operator, cast]) rfl)
        exact .last moved follows

namespace Mirrored

variable {engine : Engine} {reader : Reader} (mirrored : Mirrored engine reader)
variable {base arena : Arena} {buffer : Buffer} {before rest : List Piece} {text : String}

include mirrored

/-- Indices behind `start`, of `indexed`, stand behind the pieces that were read before. Without
something to index, the brackets are a construct of their own. -/
theorem passAccess (indent : Nat) (indexed : Option Piece) {start : Nat}
    (behind : buffer.take before.length = elementsAt base.length before.reverse)
    (later : before.length ≤ start) (points : buffer.Points (start + 1) rest)
    (inside : start + 1 ≤ buffer.length)
    (arena_eq : arena = below base before ++ plantedAll (below base before).length indexed.toList) :
    Mirrors (Follows base) arena
      (engine.access indent buffer start (indexed.map (elementAt (below base before).length)) >>=
        fun made => liftM (made.passed before.length))
      (reader.elements indent "]" rest >>= fun reading =>
        return ⟨.access indent indexed reading.1 :: before, reading.2⟩) := by
  have whole := Reaches.passed behind
    (mirrored.access indent indexed rfl later points inside arena_eq)
  simp only [← bind_pure_comp, bind_assoc, pure_bind] at whole
  exact whole

theorem accessAt (indent : Nat)
    (reaches : Reaches base buffer arena before (.token text :: rest)) :
    Mirrors (Follows base) arena (engine.accessAt indent buffer before.length)
      (reader.accessAt indent before rest) := by
  have points := reaches.ahead
  have alone := mirrored.passAccess indent none reaches.behind (Nat.le_refl _) points.tail
    points.lt_length (reaches.arena_eq.trans (List.append_nil _).symm)
  rw [Engine.accessAt, Reader.accessAt]
  refine .read reaches.followsOperand ?_
  cases before with
  | nil => exact alone
  | cons piece earlier =>
      have reduced := reaches.reduces
      by_cases operand : isOperand piece = true
      · simp only [operand, if_true, List.head?_cons, Option.any_some]
        refine .read reduced.entry ?_
        refine mirrored.passAccess indent (some piece) (reaches.earlier [piece]) (Nat.le_succ _)
          points.tail points.lt_length ?_
        rw [reduced.arena_eq, Option.toList, Tree.plantedAll_single]
      · simp only [operand, if_false, List.head?_cons, Option.any_some, Bool.false_eq_true]
        exact alone

/-- The product of the pieces around the operator. -/
theorem productAt (indent : Nat) {left : Piece} {right : String}
    (reaches : Reaches base buffer arena (left :: before) (.token text :: .token right :: rest)) :
    Mirrors (Follows base) arena
      (engine.element indent buffer (before.length + 2) >>= fun buffer =>
        liftM (Reader.cut buffer ⟨before.length, before.length + 3⟩) >>= fun parts =>
        push (.statement parts) indent >>= fun statement =>
        liftM (Made.passed ⟨buffer, statement, before.length + 3⟩ before.length))
      (reader.productAt indent left before (.token text) (.token right) rest) := by
  have reduced := reaches.reduces
  rw [Reader.productAt]
  refine (mirrored.element indent reaches.ahead.tail).bind fun product after reading factor => ?_
  have kept : product.take (before.length + 2) = buffer.take (before.length + 2) := factor.kept
  have here : product.drop (before.length + 2) =
      elementAt (List.length arena) reading.1 :: entries reading.2 := factor.here
  have long : before.length + 2 < product.length := factor.lt_length
  -- The factor was reduced in place and nothing before it has changed, so all three are in a row.
  have shape : product.drop before.length =
      [elementAt (below base before).length left, .token text,
        elementAt (List.length arena) reading.1] ++ entries reading.2 := by
    have front : (product.take (before.length + 2)).drop before.length =
        [elementAt (below base before).length left, .token text] := by
      rw [kept, List.drop_take, reduced.here]
      simp
    rw [← List.take_append_drop (before.length + 2) product, List.drop_append_of_le_length, front,
      here]
    · rfl
    · rw [List.length_take_of_le (Nat.le_of_lt long)]
      exact Nat.le_add_right _ 2
  refine .read (Buffer.cut_of_drop (List.cons_ne_nil _ _) shape) ?_
  refine .push (below base before) (.statement indent [left, .token text, reading.1])
    (.inline rfl rfl) ?_ rfl ?_ ?_
  · rw [reduced.arena_eq, length_append_planted]
    rfl
  · rw [factor.arena_eq, reduced.arena_eq]
    simp
  · have makes := factor.points.makes (take_eq_of_le kept (Nat.le_add_right _ 2))
      (Nat.le_add_right _ 3) long (below base before)
      (.statement indent [left, .token text, reading.1]) rfl
    obtain ⟨spot, moved, follows⟩ := Reaches.of_makes (reaches.earlier [left]) makes
    exact .last moved follows

/-- An operator binds the entries next to it if both are on its line. The one behind it is reduced
first, so that it is a whole operand. -/
theorem factorAt (indent : Nat)
    (reaches : Reaches base buffer arena before (.token text :: rest)) :
    Mirrors (Follows base) arena (engine.factorAt indent buffer before.length)
      (reader.factorAt indent before (.token text) rest) := by
  have move := reaches.tail.follows
  rw [Engine.factorAt]
  cases before with
  | nil => exact move
  | cons left earlier =>
      cases rest with
      | nil =>
          have alone : buffer.hasFactors (earlier.length + 1) = .ok false :=
            if_neg fun both => Nat.not_lt_of_le reaches.ahead.tail.length_le both.2
          exact .read alone move
      | cons right rest =>
          obtain ⟨word, rfl⟩ := reaches.ahead.raw.tail.exists_token
          refine .read reaches.hasFactors ?_
          rw [Reader.factorAt]
          cases (left.isNewline || (Piece.token word).isNewline) with
          | true => exact move
          | false => exact mirrored.productAt indent reaches

/-- One case for each mark that the scan acts on. Every other token is passed. -/
theorem stepMark (indent : Nat)
    (reaches : Reaches base buffer arena before (.token text :: rest)) :
    Mirrors (Follows base) arena (engine.stepMark indent buffer before.length text)
      (reader.stepMark indent before (.token text) text rest) := by
  obtain rfl := reaches.arena_eq
  have points := reaches.ahead
  rw [Engine.stepMark, Reader.stepMark]
  refine .ite (fun _ => ?_) fun _ => .ite (fun _ => ?_) fun _ => .ite (fun _ => ?_) fun _ =>
    .ite (fun _ => ?_) fun _ => .ite (fun _ => ?_) fun _ => .ite (fun _ => ?_) fun _ => ?_
  · exact mirrored.accessAt indent reaches
  · rw [← bind_pure_comp]
    refine (mirrored.sentinel indent points).bind fun left arena reading reduced => ?_
    exact (Reaches.of_reduces reaches.behind reduced).follows
  · exact Reaches.passed reaches.behind (mirrored.groupAt indent .group points)
  · exact mirrored.factorAt indent reaches
  · obtain ⟨left, removed, reaches⟩ := reaches.remove
    exact .read removed reaches.follows
  · exact reaches.memberAt
  · exact reaches.tail.follows

theorem stepToken (indent : Nat)
    (reaches : Reaches base buffer arena before (.token text :: rest)) :
    Mirrors (Follows base) arena (engine.stepToken indent buffer before.length text)
      (reader.stepToken indent before (.token text) text rest) := by
  obtain rfl := reaches.arena_eq
  have points := reaches.ahead
  have move := reaches.tail.follows
  rw [Engine.stepToken, Reader.stepToken.eq_def, Reader.callee?]
  refine .read (mirrored.startsCall points) ?_
  by_cases known : (reader.registry.isKnownCall text && !Reader.startsWith "." rest) = true
  · simp only [Piece.text?, known, if_true]
    exact Reaches.passed reaches.behind (mirrored.call indent points)
  simp only [Piece.text?, known, Bool.false_eq_true, if_false]
  refine .ite (fun _ => ?_) fun _ => .ite (fun _ => ?_) fun _ => ?_
  · exact Reaches.passed reaches.behind (mirrored.loop indent points)
  · cases rest with
    | nil =>
        have alone : buffer.hasCast before.length = .ok false :=
          if_neg (Nat.not_lt_of_le points.tail.length_le)
        refine .read alone ?_
        cases before <;> exact move
    | cons type rest =>
        obtain ⟨name, rfl⟩ := points.raw.tail.exists_token
        refine .read reaches.hasCast ?_
        cases before with
        | nil => exact move
        | cons operand earlier =>
            exact .ite (fun _ => reaches.castAt indent) fun _ => move
  · exact mirrored.stepMark indent reaches

/-- One step of the scan does to the buffer what a step of the pass does to the pieces on the two
sides of its cursor. -/
theorem step (indent : Nat) {piece : Piece}
    (reaches : Reaches base buffer arena (piece :: before) rest) :
    Mirrors (Follows base) arena (engine.step indent buffer before.length)
      (reader.step indent before piece rest) := by
  rw [Engine.step, Reader.step]
  refine .read reaches.reduces.entry ?_
  rw [text?_seen_elementAt]
  cases found : piece.text? with
  | none => exact reaches.follows
  | some text =>
      obtain rfl := Piece.eq_token_of_text? found
      have here := reaches.back
      obtain rfl := here.arena_eq
      have points := here.ahead
      dsimp only
      rw [points.tail.shows, ← Reader.startsFunction]
      refine .ite (fun _ => ?_) fun _ => .ite (fun _ => ?_) fun _ => .ite (fun _ => ?_) fun _ =>
        .ite (fun _ => ?_) fun _ => .ite (fun _ => ?_) fun _ => ?_
      · exact Reaches.passed here.behind (mirrored.struct indent points)
      · refine Reaches.passed here.behind ((mirrored.function indent points).mono ?_)
        exact fun _ _ _ makes => makes.1
      · obtain ⟨left, removed, reaches⟩ := here.remove
        exact .read removed reaches.follows
      · exact Reaches.passed here.behind (mirrored.readConditional indent points)
      · exact Reaches.passed here.behind (mirrored.attempt indent points)
      · exact mirrored.stepToken indent here

/-- The scan and the pass go on step by step, and stop at the same bracket. Nothing is known of the
first entry, which may be a node when the index has moved back. -/
theorem readScan (indent : Nat) (fills : Fills base buffer arena (before.reverse ++ rest))
    (raw : Raw rest.tail) :
    Mirrors (Fills base) arena (engine.readScan indent buffer before.length)
      (reader.readItems indent before rest) := by
  rw [Engine.readScan]
  have length : buffer.length = before.length + rest.length := by simp [fills.buffer_eq]
  cases rest with
  | nil =>
      have all : Fills base buffer arena before.reverse := by simpa using fills
      rw [if_neg (by simp [length])]
      exact all
  | cons piece rest =>
      have reaches : Reaches base buffer arena (piece :: before) rest :=
        .of_fills (by simpa using fills) raw
      rw [if_pos (by simp [length]), Reader.readItems]
      refine .read reaches.reduces.entry ?_
      rw [is_seen_elementAt]
      refine .ite (fun _ => fills) fun _ => ?_
      refine (mirrored.step indent reaches).bind ?_
      rintro ⟨left, _⟩ after cursor ⟨rfl, fills, raw⟩
      exact mirrored.scan indent fills raw

/-- Each loop of the engine goes as that of the reader for one more round, given that the loops that
it asks do. -/
theorem deeper : Mirrored engine.deeper reader.deeper where
  registry := mirrored.registry
  scan indent _ _ _ _ _ fills raw := mirrored.readScan indent fills raw
  conditional indent _ _ _ _ _ points := mirrored.readConditional indent points
  parameters indent _ _ _ _ positional named points :=
    mirrored.readParameters indent positional named points
  members indent _ _ _ _ properties methods points :=
    mirrored.readMembers indent properties methods points
  arguments indent _ _ _ _ given points inside :=
    mirrored.readArguments indent given points inside
  elements indent close _ _ _ _ collected points inside :=
    mirrored.readElements indent close collected points inside
  trailers indent _ _ _ _ _ _ _ reduced := mirrored.readTrailers indent reduced

end Mirrored

/-- With the same budget, an engine goes as the reader does. By induction on the budget: without
any, both fail in the same way. -/
theorem mirrored_atDepth (registry : Registry) (n : Nat) :
    Mirrored (Engine.atDepth registry n) (Reader.atDepth registry n) := by
  induction n with
  | zero =>
      exact ⟨rfl, fun _ _ _ _ _ _ _ _ => rfl, fun _ _ _ _ _ _ _ => rfl,
        fun _ _ _ _ _ _ _ _ => rfl, fun _ _ _ _ _ _ _ _ => rfl, fun _ _ _ _ _ _ _ _ => rfl,
        fun _ _ _ _ _ _ _ _ _ => rfl, fun _ _ _ _ _ _ _ _ _ => rfl⟩
  | succ n ih => exact ih.deeper

/-- The arena that a script is read into holds the tree of the block that the reader answers with.
The tree is numbered as its constructs are pushed, parts before what they are part of. -/
theorem readTree_eq (registry : Registry) (source : String) :
    readTree registry source = Tree.ofBody <$> readScript registry source := by
  have raw : Raw ((Token.ofSource registry source).map .token) := by
    intro piece member
    obtain ⟨text, -, rfl⟩ := List.mem_map.mp member
    exact ⟨text, rfl⟩
  have buffer_eq : (Token.ofSource registry source).map Element.token =
      entries ((Token.ofSource registry source).map .token) := by
    rw [entries, List.map_map]
    rfl
  have same : Mirrors (Pushes [⟨.root, 0, none⟩]) [⟨.root, 0, none⟩] _ _ :=
    (mirrored_atDepth registry
      (((Token.ofSource registry source).map Piece.token).length + 1)).block 0 .root raw
  rw [readTree, buffer_eq, length_entries, readScript, readBlock]
  rcases same.ok_or_error with ⟨made, body, ran, read, pushes⟩ | ⟨error, ran, read⟩
  · obtain ⟨id, arena⟩ := made
    obtain ⟨rfl, construct, rfl⟩ := pushes
    have inside : idAt 1 body < (([⟨.root, 0, none⟩] : Arena) ++ planted 1 body).length := by
      rw [List.length_append, Tree.length_planted, Tree.count_eq construct, Tree.idAt_eq construct,
        List.length_singleton]
      omega
    have adopted := Arena.withParent_planted [⟨.root, 0, none⟩] Tree.root construct []
    rw [ran, read]
    change (Arena.adopt Tree.root ([⟨.root, 0, none⟩] ++ planted 1 body) (idAt 1 body) >>= _) = _
    rw [Arena.adopt_eq_ok inside]
    rw [List.append_nil, List.append_nil] at adopted
    exact congrArg (fun nodes => Except.ok (Tree.mk nodes _)) adopted
  · rw [ran, read]
    rfl

end Maxscript
