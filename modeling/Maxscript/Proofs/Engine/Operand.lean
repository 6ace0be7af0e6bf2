import Maxscript.Engine.Operand
import Maxscript.Proofs.Engine.Basic
import Maxscript.Proofs.Reader.Operand

/-!
# Operands, calls and elements in a buffer

Each function that reads in place leaves one entry where an operand was, and the loops over
arguments and elements go on behind it. The entries that a loop has passed stay in the buffer until
the node that they belong to is put in their place.
-/

namespace Maxscript

open Reader (Raw memberRun memberTokens isOperand applyMembers)
open Tree (Element elementAt elementsAt idAt planted plantedAll)

/-! ### Members -/

@[simp] theorem isOperand_seen_elementAt (start : Nat) (piece : Piece) :
    isOperand (elementAt start piece).seen = isOperand piece := by
  rw [isOperand, isOperand, text?_seen_elementAt]

namespace Buffer

variable {buffer : Buffer} {k : Nat} {rest : List Piece}

theorem membersEnd_of_member (dot : buffer.shows k (·.is ".") = true)
    (word : buffer.shows (k + 1) (·.isTokenWith Token.isWord) = true) :
    buffer.membersEnd k = buffer.membersEnd (k + 2) := by
  rw [membersEnd, dif_pos dot, if_pos word]

theorem membersEnd_of_not_member (none : ¬(buffer.shows k (·.is ".") = true ∧
    buffer.shows (k + 1) (·.isTokenWith Token.isWord) = true)) : buffer.membersEnd k = k := by
  rw [membersEnd]
  by_cases dot : buffer.shows k (·.is ".") = true
  · rw [dif_pos dot, if_neg fun word => none ⟨dot, word⟩]
  · rw [dif_neg dot]

/-- There are as many members in the buffer as among the tokens ahead, two tokens for each of them.
-/
theorem Points.membersEnd (points : buffer.Points k rest) :
    buffer.membersEnd k = k + (memberTokens (memberRun rest).1).length := by
  fun_induction memberRun rest generalizing k with
  | case1 dot word rest member words left found ih =>
      obtain ⟨mark, rfl⟩ := points.raw.exists_token
      rw [Bool.and_eq_true] at member
      have dotted : buffer.shows k (·.is ".") = true := by
        rw [points.shows]
        exact member.1
      have worded : buffer.shows (k + 1) (·.isTokenWith Token.isWord) = true := by
        rw [points.tail.shows]
        exact member.2
      have length : (memberTokens (word :: words)).length = (memberTokens words).length + 2 := rfl
      rw [membersEnd_of_member dotted worded, ih points.tail.tail, found, length]
      change k + 2 + (memberTokens words).length = _
      omega
  | case2 dot word rest member =>
      obtain ⟨mark, rfl⟩ := points.raw.exists_token
      refine membersEnd_of_not_member ?_
      rw [points.shows, points.tail.shows, ← Bool.and_eq_true]
      exact member
  | case3 pieces shape =>
      refine membersEnd_of_not_member fun member => ?_
      rw [points.shows] at member
      cases pieces with
      | nil => cases member.1
      | cons first rest =>
          cases rest with
          | nil =>
              obtain ⟨mark, rfl⟩ := points.raw.exists_token
              rw [points.tail.shows] at member
              cases member.2
          | cons second others =>
              obtain ⟨word, rfl⟩ := points.raw.tail.exists_token
              exact shape first word others rfl

end Buffer

def memberEntries (start : Nat) (base : Piece) (words : List String) : Buffer :=
  elementAt start base :: entries ((memberTokens words).map .token)

theorem memberEntries_concat (start : Nat) (base : Piece) (before : List String) (last : String) :
    memberEntries start base (before ++ [last]) =
      memberEntries start base before ++ [.token ".", .token last] := by
  simp [memberEntries, memberTokens, entries, elementAt]

@[simp] theorem length_memberEntries (start : Nat) (base : Piece) (words : List String) :
    (memberEntries start base words).length = 2 * words.length + 1 := by
  induction words with
  | nil => rfl
  | cons word words ih =>
      have cons : (memberEntries start base (word :: words)).length =
          (memberEntries start base words).length + 2 := rfl
      rw [cons, ih, List.length_cons]
      omega

section

variable {before : Buffer} {last : String}

/-- The last member decides: if it is `count`, what is before it is counted, and else all of it is
joined. -/
theorem fuseMembers_concat (nonempty : before ≠ []) :
    fuseMembers (before ++ [.token ".", .token last]) =
      if Text.foldCase last = "count" then do
        let base ← fuseMembers before
        return .node (← push (.call "len" [base] false) 0)
      else joinParts (before ++ [.token ".", .token last]) := by
  have positive := List.length_pos_of_ne_nil nonempty
  have length : (before ++ [Element.token ".", .token last]).length = before.length + 2 := by simp
  have entry : Buffer.entry (before ++ [.token ".", .token last]) (before.length + 2 - 1) =
      .ok (.token last) := by
    simp [Buffer.entry]
  have front : Reader.cut (before ++ [Element.token ".", .token last]) ⟨0, before.length + 2 - 2⟩ =
      .ok before := by
    simp [Reader.cut]
  have isCount : (Element.token last).seen.isKeyword "count" = true ↔
      Text.foldCase last = "count" := by
    simp [Element.seen]
  rw [fuseMembers, if_neg (by omega), if_neg (by omega), length, entry, front]
  change (if _ then _ else _) = _
  simp only [isCount]
  refine if_congr Iff.rfl ?_ rfl
  exact if_pos (by omega)

end

theorem raw_map_token (texts : List String) : Raw (texts.map .token) := by
  intro piece member
  obtain ⟨text, -, rfl⟩ := List.mem_map.mp member
  exact ⟨text, rfl⟩

@[simp] theorem filterMap_entries (texts : List String) :
    (entries (texts.map .token)).filterMap (·.seen.text?) = texts := by
  induction texts with
  | nil => rfl
  | cons text texts ih => exact congrArg (text :: ·) ih

@[simp] theorem all_entries (texts : List String) :
    (entries (texts.map .token)).all (·.seen.text?.isSome) = true := by
  induction texts with
  | nil => rfl
  | cons text texts ih => exact ih

theorem join_memberTokens (words : List String) :
    String.join (memberTokens words) = String.join (words.map ("." ++ ·)) := by
  induction words with
  | nil => rfl
  | cons word words ih =>
      have cons : memberTokens (word :: words) = "." :: word :: memberTokens words := rfl
      rw [cons, String.join_cons, String.join_cons, ih, List.map_cons, String.join_cons,
        String.append_assoc]

/-- Members that are not counted are joined to a token, and put behind a construct in a chain. The
base keeps the number that it has. -/
theorem joinParts_memberEntries (base : Arena) (piece : Piece) (words : List String) :
    joinParts (memberEntries base.length piece words) (base ++ planted base.length piece) =
      .ok (elementAt base.length (Reader.joinMembers piece words),
        base ++ planted base.length (Reader.joinMembers piece words)) := by
  cases isText : piece.text? with
  | some text =>
      obtain rfl := Piece.eq_token_of_text? isText
      have all := all_entries (text :: memberTokens words)
      have texts := filterMap_entries (text :: memberTokens words)
      rw [List.map_cons, entries_token] at all texts
      rw [joinParts, memberEntries, elementAt, if_pos all, texts, String.join_cons,
        join_memberTokens]
      rfl
  | none =>
      have tokens : words.flatMap (fun word => [Piece.token ".", .token word]) =
          (memberTokens words).map .token := by
        simp [memberTokens, List.map_flatMap]
      have raw := raw_map_token (memberTokens words)
      have some : ¬(memberEntries base.length piece words).all (·.seen.text?.isSome) = true := by
        simp [memberEntries, isText]
      rw [Reader.joinMembers_construct isText, tokens, joinParts, if_neg some]
      refine Build.bind_eq (push_eq (.chain 0 (piece :: (memberTokens words).map .token))
        (.inline rfl rfl) ?_ rfl ?_) _
      · rw [Tree.kindAt, elementsAt, raw.elementsAt_eq, memberEntries]
      · rw [Piece.parts, plantedAll, raw.plantedAll_eq, List.append_nil]

/-- Members are applied one by one from the left. By induction on the members, the last of which is
the first to be looked at. -/
theorem fuseMembers_memberEntries (base : Arena) (piece : Piece) (words : List String) :
    fuseMembers (memberEntries base.length piece words.reverse)
        (base ++ planted base.length piece) =
      .ok (elementAt base.length (applyMembers piece words),
        base ++ planted base.length (applyMembers piece words)) := by
  induction words with
  | nil =>
      rw [fuseMembers]
      rfl
  | cons last before ih =>
      have joined := joinParts_memberEntries base piece (last :: before).reverse
      have nonempty : memberEntries base.length piece before.reverse ≠ [] := List.cons_ne_nil _ _
      rw [List.reverse_cons, memberEntries_concat] at joined ⊢
      rw [fuseMembers_concat nonempty, applyMembers]
      split
      · rw [Build.bind_eq ih]
        refine Build.bind_eq (push_eq (.call 0 "len" [applyMembers piece before] false)
          (.inline rfl rfl) rfl rfl ?_) _
        rw [Piece.parts, Tree.plantedAll_single]
      · rw [List.reverse_cons]
        exact joined

namespace Reduces

variable {base arena : Arena} {old buffer : Buffer} {k : Nat} {operand : Piece} {rest : List Piece}

theorem followsOperand (reduced : Reduces base old k buffer arena (operand, rest)) :
    buffer.followsOperand (k + 1) = .ok (isOperand operand) := by
  rw [Buffer.followsOperand, if_pos (Nat.succ_pos k), Nat.add_sub_cancel, reduced.entry,
    ← isOperand_seen_elementAt base.length operand]
  rfl

/-- An operand and its members are replaced by what they are joined to, and the tokens behind them
stay. -/
theorem fuseAt_run (reduced : Reduces base old k buffer arena (operand, rest)) {words : List String}
    {left : List Piece} (run : memberRun rest = (words, left)) (nonempty : words ≠ [])
    (isBase : isOperand operand = true) :
    ∃ buffer' arena', fuseAt buffer (k + 1) arena = .ok (some buffer', arena') ∧
      Reduces base old k buffer' arena' (applyMembers operand words.reverse, left) := by
  have stop := reduced.points.membersEnd
  have shape := Reader.eq_memberRun rest
  rw [run] at stop shape
  dsimp only at stop shape
  have length := length_memberEntries base.length operand words
  have positive := List.length_pos_of_ne_nil nonempty
  have there : k + 1 + (memberTokens words).length =
      k + (memberEntries base.length operand words).length := by
    rw [memberEntries, List.length_cons, length_entries, List.length_map]
    omega
  have here : buffer.drop k = memberEntries base.length operand words ++ entries left := by
    rw [reduced.here, shape, entries_append]
    rfl
  have some : memberEntries base.length operand words ≠ [] := List.cons_ne_nil _ _
  have fused := fuseMembers_memberEntries base operand words.reverse
  rw [List.reverse_reverse, ← reduced.arena_eq] at fused
  have raw : Raw left := reduced.raw.suffix (by rw [shape]; exact List.suffix_append _ _)
  obtain ⟨buffer', spliced, reduced'⟩ := of_splice (applyMembers operand words.reverse, left)
    reduced.kept some here raw rfl
  refine ⟨buffer', _, ?_, reduced'⟩
  rw [Maxscript.fuseAt, Build.read_eq reduced.followsOperand, if_pos isBase, stop, there,
    Nat.add_sub_cancel, if_neg (by omega),
    Build.read_eq (Buffer.cut_of_drop some here), Build.bind_eq fused,
    Build.read_eq spliced]
  rfl

/-- Without members, or behind something that has none, nothing is joined, and both the buffer and
the arena stay as they are. -/
theorem fuseAt (reduced : Reduces base old k buffer arena (operand, rest)) :
    (∃ fused left buffer' arena', Reader.fuse? operand rest = some (fused, left) ∧
        fuseAt buffer (k + 1) arena = .ok (some buffer', arena') ∧
        Reduces base old k buffer' arena' (fused, left)) ∨
      Reader.fuse? operand rest = none ∧ fuseAt buffer (k + 1) arena = .ok (none, arena) := by
  have stop := reduced.points.membersEnd
  cases isBase : isOperand operand with
  | false =>
      right
      constructor
      · rw [Reader.fuse?]
        split
        · rfl
        · exact if_neg (by simp [isBase])
      · rw [Maxscript.fuseAt, Build.read_eq reduced.followsOperand, isBase]
        rfl
  | true =>
      cases run : memberRun rest with
      | mk words left =>
          cases words with
          | nil =>
              right
              constructor
              · rw [Reader.fuse?, run]
              · rw [run] at stop
                rw [Maxscript.fuseAt, Build.read_eq reduced.followsOperand, if_pos isBase, stop]
                exact congrFun (if_pos rfl) arena
          | cons word words =>
              left
              obtain ⟨buffer', arena', fused, reduced'⟩ :=
                reduced.fuseAt_run run (List.cons_ne_nil word words) isBase
              refine ⟨_, left, buffer', arena', ?_, fused, reduced'⟩
              rw [Reader.fuse?, run]
              exact if_pos isBase

end Reduces

/-! ### Operands -/

theorem take_eq_of_le {buffer old : Buffer} {i k : Nat} (kept : buffer.take k = old.take k)
    (before : i ≤ k) : buffer.take i = old.take i := by
  have shorter := congrArg (List.take i) kept
  rwa [List.take_take, List.take_take, Nat.min_eq_left before] at shorter

/-- A token that is passed stands for itself. -/
theorem Buffer.Points.reduces {buffer : Buffer} {k : Nat} {text : String} {rest : List Piece}
    (points : buffer.Points k (.token text :: rest)) (base : Arena) :
    Reduces base buffer k buffer base (.token text, rest) :=
  ⟨rfl, points.drop_eq, points.raw.tail, (List.append_nil base).symm⟩

theorem Buffer.Points.group_after_le {buffer : Buffer} {k : Nat} {mark : String}
    {rest : List Piece} (points : buffer.Points k (.token mark :: rest)) :
    k + (Extent.group (.token mark :: rest) 0).after ≤ buffer.length := by
  have := Extent.group_after_le (.token mark) rest
  have := points.lt_length
  have := points.length_eq
  omega

/-- The colon alone makes a key of a word, and the value of the key is behind it. -/
theorem Buffer.Points.keyOfWord {buffer : Buffer} {k : Nat} {text : String} {rest : List Piece}
    (points : buffer.Points k (.token text :: rest)) (isWord : Token.isWord text = true) :
    (∃ behind, Reader.key? (.token text) rest = some (text, behind) ∧
      buffer.shows (k + 1) (·.is ":") = true ∧ buffer.Points (k + 2) behind ∧
      k + 2 ≤ buffer.length) ∨
    (Reader.key? (.token text) rest = none ∧ buffer.shows (k + 1) (·.is ":") = false) := by
  rw [points.tail.shows]
  cases rest with
  | nil => exact .inr ⟨rfl, rfl⟩
  | cons colon behind =>
      obtain ⟨mark, rfl⟩ := points.raw.tail.exists_token
      by_cases keyed : (Piece.token mark).is ":" = true
      · exact .inl ⟨behind, if_pos (Bool.and_eq_true_iff.mpr ⟨isWord, keyed⟩), keyed,
          points.tail.tail, points.tail.lt_length⟩
      · exact .inr ⟨if_neg fun both => keyed (Bool.and_eq_true_iff.mp both).2,
          eq_false_of_ne_true keyed⟩

/-- What is a key in the buffer is one among the tokens ahead. -/
theorem Buffer.Points.key? {buffer : Buffer} {k : Nat} {text : String} {rest : List Piece}
    (points : buffer.Points k (.token text :: rest)) :
    (∃ key behind, Reader.key? (.token text) rest = some (key, behind) ∧
      Engine.key? buffer k (.token text) = some key ∧ buffer.Points (k + 2) behind ∧
      k + 2 ≤ buffer.length) ∨
    (Reader.key? (.token text) rest = none ∧ Engine.key? buffer k (.token text) = none) := by
  by_cases isWord : Token.isWord text = true
  · rcases points.keyOfWord isWord with ⟨behind, found, shown, there, inside⟩ | ⟨found, shown⟩
    · exact .inl ⟨text, behind, found, by simp [Engine.key?, isWord, shown], there, inside⟩
    · exact .inr ⟨found, by simp [Engine.key?, shown]⟩
  · refine .inr ⟨Reader.key?_of_not_isWord (eq_false_of_ne_true isWord) rest, ?_⟩
    simp [Engine.key?, isWord]

/-- Two tokens are replaced by one: a symbol by its Python spelling, or a sign by the number that it
belongs to. -/
theorem Buffer.Points.splice_two {buffer : Buffer} {k : Nat} {first second : String}
    {rest : List Piece} (points : buffer.Points k (.token first :: .token second :: rest))
    (base : Arena) (text : String) :
    ∃ left, buffer.splice ⟨k, k + 2⟩ (.token text) = .ok left ∧
      Reduces base buffer k left base (.token text, rest) :=
  have shape : buffer.drop k = [.token first, .token second] ++ entries rest := points.drop_eq
  Reduces.of_splice (.token text, rest) rfl (List.cons_ne_nil _ _) shape points.raw.tail.tail
    (List.append_nil base).symm

/-- A node is made of pieces that were gathered behind `i`. It lists them in order, and stands for
all entries from `i` up to where the last of them ends. -/
theorem Gathers.makes {base inner arena : Arena} {old buffer : Buffer} {i k : Nat}
    {collected : List Element} {gathered : Gathered (List Element)} {reading : Reading (List Piece)}
    (gathers : Gathers inner buffer k collected gathered arena reading) (before : i ≤ k)
    (kept : buffer.take i = old.take i) (piece : Piece) (construct : piece.text? = none) :
    Makes base old i ⟨gathered.buffer, idAt base.length piece, gathered.stop⟩
      (base ++ planted base.length piece) (piece, reading.2) :=
  gathers.points.makes ((take_eq_of_le gathers.kept before).trans kept)
    (Nat.le_trans before gathers.behind) gathers.inside base piece construct

/-- The value of a key was read at `k`, if there is one, and nothing before has changed. -/
structure Holds (base : Arena) (old : Buffer) (k : Nat) (gathered : Gathered (Option Element))
    (arena : Arena) (reading : Reading (Option Piece)) : Prop where
  kept : gathered.buffer.take k = old.take k
  points : gathered.buffer.Points gathered.stop reading.2
  behind : k ≤ gathered.stop
  inside : gathered.stop ≤ gathered.buffer.length
  value_eq : gathered.value = reading.1.map (elementAt base.length)
  arena_eq : arena = base ++ plantedAll base.length reading.1.toList

/-- Nothing more is gathered. -/
theorem Buffer.Points.gathers {buffer : Buffer} {k stop : Nat} {rest : List Piece}
    (points : buffer.Points stop rest) (behind : k ≤ stop) (inside : stop ≤ buffer.length)
    (base : Arena) (given : List Element) :
    Gathers base buffer k given ⟨buffer, stop, given⟩ base ([], rest) :=
  ⟨rfl, points, behind, inside, (List.append_nil given).symm, (List.append_nil base).symm⟩

/-- What was gathered behind an entry comes after it. The loops over arguments and elements are
this, once for each of them. -/
theorem Mirrors.cons {base arena : Arena} {old buffer : Buffer} {k : Nat} {piece : Piece}
    {rest : List Piece} (reduced : Reduces base old k buffer arena (piece, rest))
    {given : List Element} {run : Build (Gathered (List Element))}
    {reading : Result (Reading (List Piece))}
    (h : Mirrors (Gathers arena buffer (k + 1) (given ++ [elementAt base.length piece])) arena run
      reading) :
    Mirrors (Gathers base old k given) arena run
      (reading >>= fun reading => return (piece :: reading.1, reading.2)) := by
  have length : arena.length = base.length + Tree.count piece := by
    rw [reduced.arena_eq, length_append_planted]
  refine h.map fun gathered left value gathers => ?_
  refine ⟨(take_eq_of_le gathers.kept (Nat.le_succ k)).trans reduced.kept, gathers.points,
    Nat.le_of_succ_le gathers.behind, gathers.inside, ?_, ?_⟩
  · rw [gathers.value_eq, List.append_assoc, length]
    rfl
  · rw [gathers.arena_eq, length, reduced.arena_eq, List.append_assoc]
    rfl

/-- Making a construct and putting it in its place is reducing the entries that it stands for. -/
theorem Mirrors.place {base arena : Arena} {old : Buffer} {i : Nat} {run : Build Made}
    {reading : Result (Reading Piece)} (h : Mirrors (Makes base old i) arena run reading) :
    Mirrors (Reduces base old i) arena (run >>= fun made => liftM (made.place i)) reading := by
  rw [← bind_pure reading]
  refine h.bind fun made left value makes => ?_
  obtain ⟨buffer, place, reduced⟩ := makes.reduces
  exact .last place reduced

theorem Buffer.Points.negate {buffer : Buffer} {k : Nat} {mark : String} {rest : List Piece}
    (points : buffer.Points k (.token mark :: rest)) (base : Arena) :
    Mirrors (Reduces base buffer k) base (liftM (buffer.negate k))
      (.ok (Reader.negated (.token mark) rest)) := by
  have same := points.reduces base
  rw [Buffer.negate, points.tail.getElem?_eq]
  cases rest with
  | nil => exact same
  | cons next inner =>
      obtain ⟨text, rfl⟩ := points.raw.tail.exists_token
      change Mirrors _ _ (liftM (if text.toList.head?.any Char.isDigit then _ else _)) _
      rw [Reader.negated]
      by_cases digit : text.toList.head?.any Char.isDigit = true
      · rw [if_pos digit, if_pos digit]
        obtain ⟨left, spliced, reduced⟩ := points.splice_two base ("-" ++ text)
        exact .last spliced reduced
      · rw [if_neg digit, if_neg digit]
        exact same

/-- Members are joined to the operand at `k` if there are any. A dot that no word follows is left
for the scan. -/
theorem Reduces.fuseBehind {base arena : Arena} {old buffer : Buffer} {k : Nat} {operand : Piece}
    {rest : List Piece} (reduced : Reduces base old k buffer arena (operand, rest)) :
    (∃ fused left joined after, Reader.fuse? operand rest = some (fused, left) ∧
      fuseBehind buffer k arena = .ok (some joined, after) ∧
      Reduces base old k joined after (fused, left)) ∨
    (Reader.fuse? operand rest = none ∧ fuseBehind buffer k arena = .ok (none, arena)) := by
  rw [Maxscript.fuseBehind]
  by_cases dotted : buffer.shows (k + 1) (·.is ".") = true
  · rw [if_pos dotted]
    exact reduced.fuseAt
  · rw [if_neg dotted]
    refine .inr ⟨Reader.fuse?_of_head (fun next head => ?_) operand, rfl⟩
    rw [reduced.points.shows, head] at dotted
    exact eq_false_of_ne_true dotted

/-- A cast is pushed if the type is known, and refused by both sides with the same name if it is
not. -/
theorem Mirrors.castNode (indent : Nat) {base arena : Arena} (operand : Piece) (start : Nat)
    (type : Piece) (arena_eq : arena = base ++ planted base.length operand) :
    Mirrors (Pushes base) arena
      (Maxscript.castNode indent (elementAt base.length operand) (elementAt start type))
      (Reader.castTo indent operand type) := by
  rw [Maxscript.castNode, Reader.castTo, text?_seen_elementAt]
  cases CastTarget.ofWord? (type.text?.getD "<expression>") with
  | none => exact rfl
  | some target =>
      refine .pushLast base (.cast indent target operand) (.inline rfl rfl) rfl rfl ?_
        ⟨rfl, rfl, rfl⟩
      rw [arena_eq, Piece.parts, Tree.plantedAll_single]

namespace Mirrored

variable {engine : Engine} {reader : Reader} (mirrored : Mirrored engine reader)

include mirrored

/-- Indices behind `start`, of a base that was read before. The base is among the parts of the new
node, so nothing comes between the two in the arena. -/
theorem access (indent : Nat) {base arena : Arena} {old buffer : Buffer} {k start : Nat}
    {rest : List Piece} (indexed : Option Piece) (kept : buffer.take k = old.take k)
    (before : k ≤ start) (points : buffer.Points (start + 1) rest)
    (inside : start + 1 ≤ buffer.length)
    (arena_eq : arena = base ++ plantedAll base.length indexed.toList) :
    Mirrors (Makes base old k) arena
      (engine.access indent buffer start (indexed.map (elementAt base.length)))
      (reader.elements indent "]" rest >>= fun reading =>
        return (.access indent indexed reading.1, reading.2)) := by
  have length : arena.length = base.length + Tree.countAll indexed.toList := by
    rw [arena_eq, List.length_append, Tree.length_plantedAll]
  refine (mirrored.elements indent "]" [] points inside).bind ?_
  intro gathered after reading gathers
  refine .push base (.access indent indexed reading.1) (.inline rfl rfl) ?_ rfl ?_ ?_
  · rw [gathers.value_eq, List.nil_append, length]
    rfl
  · rw [gathers.arena_eq, length, arena_eq, List.append_assoc, ← Tree.plantedAll_append]
    rfl
  · exact gathers.makes (Nat.le_succ_of_le before) kept _ rfl

/-- Behind a `#` there is an array, a name, or something that leaves it as it is. -/
theorem sentinel (indent : Nat) {base : Arena} {buffer : Buffer} {i : Nat} {mark : String}
    {rest : List Piece} (points : buffer.Points i (.token mark :: rest)) :
    Mirrors (Reduces base buffer i) base (engine.sentinel indent buffer i)
      (reader.sentinel indent (.token mark) rest) := by
  have same := points.reduces base
  rw [Engine.sentinel, points.tail.getElem?_eq]
  cases rest with
  | nil => exact same
  | cons next inner =>
      obtain ⟨name, rfl⟩ := points.raw.tail.exists_token
      rw [Reader.sentinel]
      refine .ite (fun _ => ?_) fun _ => .ite (fun _ => ?_) fun _ => same
      · refine (mirrored.elements indent ")" [] points.tail.tail points.tail.lt_length).bind ?_
        intro gathered after reading gathers
        refine .push base (.array indent reading.1) (.inline rfl rfl) ?_ rfl gathers.arena_eq ?_
        · rw [gathers.value_eq, List.nil_append]
          rfl
        · obtain ⟨left, place, reduced⟩ :=
            (gathers.makes (Nat.le_add_right i 2) rfl (.array indent reading.1) rfl).reduces
          exact .last place reduced
      · obtain ⟨left, spliced, reduced⟩ := points.splice_two base (Reader.nameLiteral name)
        exact .last spliced reduced

theorem groupAt (indent : Nat) (role : Role) {base : Arena} {buffer : Buffer} {i : Nat}
    {mark : String} {rest : List Piece} (points : buffer.Points i (.token mark :: rest)) :
    Mirrors (Makes base buffer i) base (engine.groupAt indent role buffer i)
      (reader.groupAt indent role (.token mark) rest) := by
  rw [Engine.groupAt, Reader.groupAt]
  refine .read (points.group (List.cons_ne_nil _ _)) ?_
  refine (mirrored.blockOf indent role points (Nat.le_of_lt points.lt_length) _ _).bind ?_
  rintro node arena block ⟨rfl, construct, rfl⟩
  exact (points.drop _).makes rfl (Nat.le_add_right _ _) points.group_after_le base block construct

theorem bareOperand (indent : Nat) {base : Arena} {buffer : Buffer} {k : Nat} {first : String}
    {rest : List Piece} (points : buffer.Points k (.token first :: rest)) :
    Mirrors (Reduces base buffer k) base (engine.bareOperand indent buffer k)
      (reader.bareOperand indent (.token first) rest) := by
  have same := points.reduces base
  rw [Engine.bareOperand, Reader.bareOperand]
  refine .read points.entry ?_
  refine .ite (fun _ => ?_) fun _ => .ite (fun _ => ?_) fun _ => .ite (fun _ => ?_) fun _ =>
    .ite (fun _ => ?_) fun _ => same
  · exact (mirrored.groupAt indent .group points).place
  · exact (mirrored.access indent none rfl (Nat.le_refl k) points.tail points.lt_length
      (List.append_nil base).symm).place
  · exact mirrored.sentinel indent points
  · exact points.negate base

theorem operand (indent : Nat) {base : Arena} {buffer : Buffer} {k : Nat} {first : String}
    {rest : List Piece} (points : buffer.Points k (.token first :: rest)) :
    Mirrors (Reduces base buffer k) base (engine.operand indent buffer k)
      (reader.operand indent (.token first) rest) := by
  rw [Engine.operand, if_neg (Nat.not_le_of_lt points.lt_length)]
  exact (mirrored.bareOperand indent points).bind fun _ _ _ reduced =>
    mirrored.trailers indent reduced

/-- Members and indices are taken one at a time, and each of them leaves an operand that the next
may follow. -/
theorem readTrailers (indent : Nat) {base arena : Arena} {old buffer : Buffer} {k : Nat}
    {operand : Piece} {rest : List Piece}
    (reduced : Reduces base old k buffer arena (operand, rest)) :
    Mirrors (Reduces base old k) arena (engine.readTrailers indent buffer k)
      (reader.readTrailers indent operand rest) := by
  rw [Engine.readTrailers, Reader.readTrailers.eq_def]
  rcases reduced.fuseBehind with ⟨fused, left, joined, after, found, ran, reduced⟩ | ⟨found, ran⟩
  · rw [found]
    exact .step ran (mirrored.trailers indent reduced)
  rw [found]
  refine .step ran ?_
  rw [reduced.points.shows]
  cases rest with
  | nil => exact reduced
  | cons next inner =>
      obtain ⟨text, rfl⟩ := reduced.raw.exists_token
      refine .ite (fun _ => ?_) fun _ => reduced
      refine .read reduced.entry ?_
      have plain : arena = base ++ plantedAll base.length (some operand).toList := by
        rw [reduced.arena_eq, Option.toList, Tree.plantedAll_single]
      have accessed := mirrored.access indent (some operand) reduced.kept (Nat.le_succ k)
        reduced.points.tail reduced.points.lt_length plain
      have whole := accessed.place.bind fun _ _ _ reduced => mirrored.trailers indent reduced
      simp only [bind_assoc, pure_bind] at whole
      exact whole

/-! ### Calls -/

theorem startsCall {buffer : Buffer} {k : Nat} {first : String} {rest : List Piece}
    (points : buffer.Points k (.token first :: rest)) :
    engine.startsCall buffer k =
      .ok (reader.registry.isKnownCall first && !Reader.startsWith "." rest) := by
  rw [Engine.startsCall, points.entry, points.tail.shows, mirrored.registry]
  rfl

/-- The bracket that is put behind the arguments is the last entry that the call stands for. It goes
with the others when the call is put in their place, so no trace of it is left. -/
theorem call (indent : Nat) {base : Arena} {buffer : Buffer} {i : Nat} {name : String}
    {rest : List Piece} (points : buffer.Points i (.token name :: rest)) :
    Mirrors (Makes base buffer i) base (engine.call indent buffer i)
      (reader.call indent name rest) := by
  rw [Engine.call, Reader.call, ← mirrored.registry]
  refine .read points.entry ?_
  refine (mirrored.arguments indent [] points.tail points.lt_length).bind ?_
  intro gathered after reading gathers
  have there : (gathered.buffer.take gathered.stop).length = gathered.stop :=
    List.length_take_of_le gathers.inside
  have inserted : gathered.buffer.insert (min gathered.stop gathered.buffer.length) (.token ")") =
      .ok (gathered.buffer.take gathered.stop ++ .token ")" :: entries reading.2) := by
    rw [Nat.min_eq_left gathers.inside, Buffer.insert, if_pos gathers.inside,
      gathers.points.drop_eq]
  refine .read inserted ?_
  refine .push base (.call indent name reading.1 (engine.registry.isBuiltinCall name))
    (.inline rfl rfl) ?_ rfl gathers.arena_eq ?_
  · rw [gathers.value_eq, List.nil_append]
    rfl
  · have behind := gathers.behind
    refine ⟨rfl, rfl, ?_, ⟨gathers.points.raw, ?_⟩, ?_, ?_, rfl⟩
    · rw [List.take_append_of_le_length (by omega), List.take_take, Nat.min_eq_left (by omega)]
      exact take_eq_of_le gathers.kept (Nat.le_succ i)
    · rw [← List.drop_drop, List.drop_left' there]
      rfl
    · change i ≤ gathered.stop + 1
      omega
    · simp only [List.length_append, List.length_cons, there]
      omega

theorem keyValue (indent : Nat) (stops : List String) {base : Arena} {buffer : Buffer} {k : Nat}
    {rest : List Piece} (points : buffer.Points k rest) (inside : k ≤ buffer.length) :
    Mirrors (Holds base buffer k) base (engine.keyValue indent stops buffer k)
      (reader.keyValue indent stops rest) := by
  have without : Holds base buffer k ⟨buffer, k, none⟩ base (none, rest) :=
    ⟨rfl, points, Nat.le_refl k, inside, rfl, (List.append_nil base).symm⟩
  rw [Engine.keyValue, points.shows]
  cases rest with
  | nil => exact without
  | cons first inner =>
      obtain ⟨text, rfl⟩ := points.raw.exists_token
      rw [Reader.keyValue]
      by_cases stop : (Piece.token text).isTokenWith stops.contains = true
      · rw [if_pos stop]
        simp only [List.head?_cons, Option.any_some, stop, Bool.not_true, Bool.false_eq_true,
          if_false]
        exact without
      · rw [if_neg stop]
        simp only [List.head?_cons, Option.any_some, stop, Bool.not_false, if_true]
        refine (mirrored.operand indent points).bind fun left arena reading reduced => ?_
        refine .read reduced.entry ?_
        refine ⟨reduced.kept, reduced.points, Nat.le_succ k, reduced.lt_length, rfl, ?_⟩
        rw [reduced.arena_eq, Option.toList, Tree.plantedAll_single]

theorem keywordArgument (indent : Nat) (key : String) (base : Arena) {buffer : Buffer} {k : Nat}
    {rest : List Piece} (points : buffer.Points (k + 2) rest) (inside : k + 2 ≤ buffer.length) :
    Mirrors (Makes base buffer k) base (engine.keywordArgument indent buffer k key)
      (reader.keyValue indent Reader.argumentStops rest >>= fun reading =>
        return (.binding indent key reading.1 true, reading.2)) := by
  refine (mirrored.keyValue indent _ points inside).bind fun value arena reading holds => ?_
  refine .push base (.binding indent key reading.1 true) (.inline rfl rfl) ?_ rfl holds.arena_eq ?_
  · rw [holds.value_eq]
    rfl
  · exact holds.points.makes (take_eq_of_le holds.kept (Nat.le_add_right k 2))
      (Nat.le_trans (Nat.le_add_right k 2) holds.behind) holds.inside base _ rfl

/-- The arguments behind one that is a node. -/
theorem argumentsBehind (indent : Nat) {base arena : Arena} {old : Buffer} {k : Nat} {made : Made}
    {reading : Reading Piece} (given : List Element) (makes : Makes base old k made arena reading) :
    Mirrors (Gathers base old k given) arena
      (liftM (made.place k) >>= fun buffer =>
        engine.arguments indent buffer (k + 1) (given ++ [.node made.node]))
      (reader.arguments indent reading.2 >>= fun behind =>
        return (reading.1 :: behind.1, behind.2)) := by
  obtain ⟨left, place, reduced⟩ := makes.reduces
  rw [makes.element]
  exact .read place (.cons reduced
    (mirrored.arguments indent _ reduced.points reduced.lt_length))

/-- Arguments are gathered as they stand in the buffer. Empty brackets end them, even if more tokens
follow that could be arguments. -/
theorem readArguments (indent : Nat) {base : Arena} {buffer : Buffer} {k : Nat}
    {rest : List Piece} (given : List Element) (points : buffer.Points k rest)
    (inside : k ≤ buffer.length) :
    Mirrors (Gathers base buffer k given) base (engine.readArguments indent buffer k given)
      (reader.readArguments indent rest) := by
  have stopped := points.gathers (Nat.le_refl k) inside base given
  rw [Engine.readArguments]
  cases rest with
  | nil =>
      rw [if_neg (Nat.not_lt_of_le points.length_le)]
      exact stopped
  | cons first inner =>
      obtain ⟨text, rfl⟩ := points.raw.exists_token
      rw [if_pos points.lt_length, Reader.readArguments]
      refine .read points.entry ?_
      refine .ite (fun _ => ?_) fun _ => ?_
      · refine .read (points.group (List.cons_ne_nil _ _)) ?_
        by_cases empty : (Extent.group (.token text :: inner) 0).inside.stop ≤
            (Extent.group (.token text :: inner) 0).inside.start
        · rw [if_pos (Nat.add_le_add_left empty k), if_pos empty]
          exact (points.drop _).gathers (Nat.le_add_right k _) points.group_after_le base given
        · rw [if_neg (fun le => empty (Nat.le_of_add_le_add_left le)), if_neg empty]
          refine (mirrored.groupAt indent .argument points).bind ?_
          exact fun argument arena reading makes => mirrored.argumentsBehind indent given makes
      · rcases points.key? with ⟨key, behind, found, there, pointsBehind, insideBehind⟩ |
          ⟨found, there⟩
        · simp only [found, seen_token, there]
          have argument := mirrored.keywordArgument indent key base pointsBehind insideBehind
          have whole := argument.bind fun argument arena reading makes =>
            mirrored.argumentsBehind indent given makes
          simp only [bind_assoc, pure_bind] at whole
          exact whole
        · simp only [found, seen_token, there]
          refine .ite (fun _ => stopped) fun _ => ?_
          refine (mirrored.operand indent points).bind fun left arena reading reduced => ?_
          refine .read reduced.entry (.cons reduced ?_)
          exact mirrored.arguments indent _ reduced.points reduced.lt_length

/-! ### Elements -/

theorem callOrOperand (indent : Nat) {base : Arena} {buffer : Buffer} {k : Nat} {first : String}
    {rest : List Piece} (points : buffer.Points k (.token first :: rest)) :
    Mirrors (Reduces base buffer k) base (engine.callOrOperand indent buffer k)
      (reader.callOrOperand indent (.token first) rest) := by
  rw [Engine.callOrOperand, Reader.callOrOperand, Reader.callee?]
  refine .read (mirrored.startsCall points) ?_
  by_cases known : (reader.registry.isKnownCall first && !Reader.startsWith "." rest) = true
  · simp only [Piece.text?, known, if_true]
    exact (mirrored.call indent points).place
  · simp only [Piece.text?, known]
    exact mirrored.operand indent points

/-- An element may be cast, and stands for the word `as` and the type then. Both have to be there,
or the element stays as it is. -/
theorem element (indent : Nat) {base : Arena} {buffer : Buffer} {k : Nat} {first : String}
    {rest : List Piece} (points : buffer.Points k (.token first :: rest)) :
    Mirrors (Reduces base buffer k) base (engine.element indent buffer k)
      (reader.element indent (.token first) rest) := by
  rw [Engine.element, if_neg (Nat.not_le_of_lt points.lt_length), Reader.element]
  refine (mirrored.callOrOperand indent points).bind fun left arena reading reduced => ?_
  obtain ⟨value, rest⟩ := reading
  rw [reduced.points.shows]
  cases rest with
  | nil => exact reduced
  | cons mark rest =>
      obtain ⟨keyword, rfl⟩ := reduced.raw.exists_token
      have behind := reduced.points.tail
      cases rest with
      | nil =>
          have none : ¬k + 2 < left.length := Nat.not_lt_of_le behind.length_le
          rw [if_neg (by simp [none])]
          exact reduced
      | cons type after =>
          obtain ⟨name, rfl⟩ := behind.raw.exists_token
          have typed : decide (k + 2 < left.length) = true := decide_eq_true behind.lt_length
          rw [typed, Bool.and_true]
          refine .ite (fun _ => ?_) fun _ => reduced
          refine .read reduced.entry (.read behind.entry ?_)
          refine (Mirrors.castNode indent value 0 (.token name) reduced.arena_eq).bind ?_
          rintro node arena piece ⟨rfl, construct, rfl⟩
          obtain ⟨placed, place, reduced⟩ := (behind.tail.makes reduced.kept (Nat.le_add_right k 3)
            behind.lt_length base piece construct).reduces
          exact .last place reduced

theorem readElements (indent : Nat) (close : String) {base : Arena} {buffer : Buffer} {k : Nat}
    {rest : List Piece} (collected : List Element) (points : buffer.Points k rest)
    (inside : k ≤ buffer.length) :
    Mirrors (Gathers base buffer k collected) base
      (engine.readElements indent close buffer k collected)
      (reader.readElements indent close rest) := by
  rw [Engine.readElements]
  cases rest with
  | nil =>
      have stop : min (k + 1) buffer.length = k := by
        have := points.length_le
        omega
      rw [if_neg (Nat.not_lt_of_le points.length_le), stop]
      exact points.gathers (Nat.le_refl k) inside base collected
  | cons first inner =>
      obtain ⟨text, rfl⟩ := points.raw.exists_token
      rw [if_pos points.lt_length, Reader.readElements]
      refine .read points.entry ?_
      refine .ite (fun _ => ?_) fun _ => .ite (fun _ => ?_) fun _ => ?_
      · rw [Nat.min_eq_left points.lt_length]
        exact points.tail.gathers (Nat.le_succ k) points.lt_length base collected
      · refine (mirrored.elements indent close collected points.tail points.lt_length).mono ?_
        intro gathered arena reading gathers
        exact ⟨take_eq_of_le gathers.kept (Nat.le_succ k), gathers.points,
          Nat.le_of_succ_le gathers.behind, gathers.inside, gathers.value_eq, gathers.arena_eq⟩
      · refine (mirrored.element indent points).bind fun left arena reading reduced => ?_
        refine .read reduced.entry (.cons reduced ?_)
        exact mirrored.elements indent close _ reduced.points reduced.lt_length

end Mirrored

end Maxscript
