import Maxscript.Engine.Basic
import Maxscript.Proofs.Engine.Buffer
import Maxscript.Proofs.Reader.Agreement
import Maxscript.Proofs.Tree.Planting

/-!
# Engines go as readers do

An engine and a reader that are asked for the same construct fail with the same error, or the engine
pushes the nodes of the piece that the reader answers with, and leaves a node where the tokens of it
were. So nothing that the engine looks up can be missing, unless the reader fails as well.

`Mirrors` is that relation for one computation. The conditions that say what the engine leaves
behind only mention the buffer up to the index of the construct, which is as it was, and what is
ahead of the place where reading goes on.
-/

namespace Maxscript

open Reader (Raw)
open Tree (Element Kind elementAt elementsAt idAt kindAt planted plantedAll)

theorem Build.bind_eq {α β : Type} {run : Build α} {arena left : Arena} {made : α}
    (ran : run arena = .ok (made, left)) (f : α → Build β) : (run >>= f) arena = f made left := by
  change (run arena >>= fun made => f made.1 made.2) = _
  rw [ran]
  rfl

theorem Build.read_eq {α β : Type} {access : Result α} {value : α} (found : access = .ok value)
    (f : α → Build β) : (liftM access >>= f) = f value := by
  rw [found]
  rfl

/-- A computation in `arena` fails as a reading does, or `post` holds of the two values and the
arena that it leaves. -/
def Mirrors {α β : Type} (post : α → Arena → β → Prop) (arena : Arena) (run : Build α)
    (reading : Result β) : Prop :=
  Agree (fun made value => post made.1 made.2 value) (run arena) reading

@[simp] theorem length_append_planted (base : Arena) (piece : Piece) :
    (base ++ planted base.length piece).length = base.length + Tree.count piece := by
  rw [List.length_append, Tree.length_planted]

theorem Reader.Raw.plantedAll_eq {pieces : List Piece} (raw : Raw pieces) (start : Nat) :
    plantedAll start pieces = [] :=
  List.eq_nil_of_length_eq_zero ((Tree.length_plantedAll start pieces).trans raw.countAll_eq)

namespace Mirrors

variable {α β γ δ : Type} {middle : α → Arena → β → Prop} {post : γ → Arena → δ → Prop}
variable {arena : Arena} {run : Build α} {reading : Result β}

/-- Steps that mirror each other can be chained. The second may rely on what the first has left in
the arena and in its value. -/
theorem bind {f : α → Build γ} {g : β → Result δ} (h : Mirrors middle arena run reading)
    (next : ∀ made arena value, middle made arena value → Mirrors post arena (f made) (g value)) :
    Mirrors post arena (run >>= f) (reading >>= g) :=
  Agree.bind h fun made value holds => next made.1 made.2 value holds

/-- A reading goes on where the engine has nothing left to do. The arena is left as it is. -/
theorem map {post : α → Arena → δ → Prop} {g : β → δ} (h : Mirrors middle arena run reading)
    (next : ∀ made arena value, middle made arena value → post made arena (g value)) :
    Mirrors post arena run (reading >>= fun value => pure (g value)) := by
  rw [← bind_pure run]
  exact h.bind next

theorem mono {weaker : α → Arena → β → Prop} (h : Mirrors middle arena run reading)
    (weaken : ∀ made arena value, middle made arena value → weaker made arena value) :
    Mirrors weaker arena run reading :=
  Agree.mono h fun made value holds => weaken made.1 made.2 value holds

/-- A step of the engine that the reader has no counterpart of. It may not fail, since the reader
cannot. -/
theorem step {f : α → Build γ} {result : Result δ} {made : α} {left : Arena}
    (ran : run arena = .ok (made, left)) (next : Mirrors post left (f made) result) :
    Mirrors post arena (run >>= f) result := by
  rw [Mirrors, Build.bind_eq ran]
  exact next

/-- An access that is in range. Every access of the engine to its buffer is shown to be one, so no
reading ends with an internal error. -/
theorem read {f : α → Build γ} {result : Result δ} {access : Result α} {value : α}
    (found : access = .ok value) (next : Mirrors post arena (f value) result) :
    Mirrors post arena (liftM access >>= f) result := by
  rw [Build.read_eq found]
  exact next

theorem last {access : Result γ} {value : γ} {other : δ} (found : access = .ok value)
    (holds : post value arena other) : Mirrors post arena (liftM access) (.ok other) := by
  subst found
  exact holds

theorem ite {condition : Prop} [Decidable condition] {run' : Build α} {reading' : Result β}
    (yes : condition → Mirrors middle arena run reading)
    (no : ¬condition → Mirrors middle arena run' reading') :
    Mirrors middle arena (if condition then run else run')
      (if condition then reading else reading') := by
  by_cases h : condition
  · rw [if_pos h, if_pos h]
    exact yes h
  · rw [if_neg h, if_neg h]
    exact no h

/-- What is cut out of the buffer is what is cut out of the tokens ahead, and so it consists of
tokens. An extent that does not fit is an internal error on both sides. -/
theorem cut {buffer : Buffer} {k : Nat} {rest : List Piece} (points : buffer.Points k rest)
    (inside : k ≤ buffer.length) (start stop : Nat) {f : Buffer → Build γ}
    {g : List Piece → Result δ}
    (next : ∀ part, Raw part → Mirrors post arena (f (entries part)) (g part)) :
    Mirrors post arena (liftM (Reader.cut buffer ⟨k + start, k + stop⟩) >>= f)
      (Reader.cut rest ⟨start, stop⟩ >>= g) := by
  rw [points.cut inside]
  cases found : Reader.cut rest ⟨start, stop⟩ with
  | error error => exact rfl
  | ok part => exact next part (points.raw.isInfix ⟨_, _, (Reader.append_of_cut found).symm⟩)

/-- A construct is pushed when the arena ends with the nodes of its parts. The new node adopts
exactly these nodes, and the arena then ends with the nodes of the construct. -/
theorem push {f : Nat → Build γ} {result : Result δ} (base : Arena) {kind : Kind} {indent : Nat}
    (piece : Piece) (pushable : Tree.IsPushable piece) (kind_eq : kind = kindAt base.length piece)
    (level_eq : indent = piece.level)
    (arena_eq : arena = base ++ plantedAll base.length piece.parts)
    (next : Mirrors post (base ++ planted base.length piece) (f (idAt base.length piece)) result) :
    Mirrors post arena (Maxscript.push kind indent >>= f) result :=
  step (push_eq piece pushable kind_eq level_eq arena_eq) next

/-- As `push`, where the number of the new node is what the engine answers with. -/
theorem pushLast {post : Nat → Arena → δ → Prop} {value : δ} (base : Arena) {kind : Kind}
    {indent : Nat} (piece : Piece) (pushable : Tree.IsPushable piece)
    (kind_eq : kind = kindAt base.length piece) (level_eq : indent = piece.level)
    (arena_eq : arena = base ++ plantedAll base.length piece.parts)
    (holds : post (idAt base.length piece) (base ++ planted base.length piece) value) :
    Mirrors post arena (Maxscript.push kind indent) (.ok value) := by
  rw [Mirrors, push_eq piece pushable kind_eq level_eq arena_eq]
  exact holds

end Mirrors

/-! ### What is left behind -/

/-- The piece that was read at `k` is one entry there, and nothing before it has changed. -/
structure Reduces (base : Arena) (old : Buffer) (k : Nat) (buffer : Buffer) (arena : Arena)
    (reading : Reading Piece) : Prop where
  kept : buffer.take k = old.take k
  here : buffer.drop k = elementAt base.length reading.1 :: entries reading.2
  raw : Raw reading.2
  arena_eq : arena = base ++ planted base.length reading.1

/-- A node was made of the entries from `i` on, and nothing before them has changed. -/
structure Makes (base : Arena) (old : Buffer) (i : Nat) (made : Made) (arena : Arena)
    (reading : Reading Piece) : Prop where
  node_eq : made.node = idAt base.length reading.1
  construct : reading.1.text? = none
  kept : made.buffer.take i = old.take i
  points : made.buffer.Points made.stop reading.2
  behind : i ≤ made.stop
  inside : made.stop ≤ made.buffer.length
  arena_eq : arena = base ++ planted base.length reading.1

/-- A construct was pushed behind the nodes of `base`. -/
structure Pushes (base : Arena) (id : Nat) (arena : Arena) (piece : Piece) : Prop where
  id_eq : id = idAt base.length piece
  construct : piece.text? = none
  arena_eq : arena = base ++ planted base.length piece

/-- Pieces were read from `k` on, and nothing before has changed. -/
structure Gathers (base : Arena) (old : Buffer) (k : Nat) (collected : List Element)
    (gathered : Gathered (List Element)) (arena : Arena) (reading : Reading (List Piece)) :
    Prop where
  kept : gathered.buffer.take k = old.take k
  points : gathered.buffer.Points gathered.stop reading.2
  behind : k ≤ gathered.stop
  inside : gathered.stop ≤ gathered.buffer.length
  value_eq : gathered.value = collected ++ elementsAt base.length reading.1
  arena_eq : arena = base ++ plantedAll base.length reading.1

namespace Reduces

variable {base arena : Arena} {old buffer : Buffer} {k : Nat} {reading : Reading Piece}

/-- Entries from `k` on are replaced by one, which stands for what was read. The entries before `k`
and the tokens behind are as they were. -/
theorem of_splice (reading : Reading Piece) {middle : Buffer}
    (kept : buffer.take k = old.take k) (nonempty : middle ≠ [])
    (shape : buffer.drop k = middle ++ entries reading.2) (raw : Raw reading.2)
    (arena_eq : arena = base ++ planted base.length reading.1) :
    ∃ left, buffer.splice ⟨k, k + middle.length⟩ (elementAt base.length reading.1) = .ok left ∧
      Reduces base old k left arena reading := by
  have length := Buffer.length_of_drop nonempty shape
  have front : (buffer.take k).length = k := List.length_take_of_le (by omega)
  refine ⟨_, Buffer.splice_of_drop nonempty shape _, ?_, ?_, raw, arena_eq⟩
  · rw [List.take_left' front, kept]
  · rw [List.drop_left' front]

theorem lt_length (reduced : Reduces base old k buffer arena reading) : k < buffer.length := by
  have length := congrArg List.length reduced.here
  rw [List.length_drop, List.length_cons] at length
  omega

theorem entry (reduced : Reduces base old k buffer arena reading) :
    buffer.entry k = .ok (elementAt base.length reading.1) := by
  rw [Buffer.entry, ← List.head?_drop, reduced.here]
  rfl

theorem points (reduced : Reduces base old k buffer arena reading) :
    buffer.Points (k + 1) reading.2 := by
  refine ⟨reduced.raw, ?_⟩
  rw [← List.drop_drop, reduced.here]
  rfl

end Reduces

/-- A construct was pushed that stands for the entries up to `stop`. They are still in the buffer,
and go when the construct is put in their place. -/
theorem Buffer.Points.makes {old buffer : Buffer} {i stop : Nat} {rest : List Piece}
    (points : buffer.Points stop rest) (kept : buffer.take i = old.take i) (behind : i ≤ stop)
    (inside : stop ≤ buffer.length) (base : Arena) (piece : Piece)
    (construct : piece.text? = none) :
    Makes base old i ⟨buffer, idAt base.length piece, stop⟩
      (base ++ planted base.length piece) (piece, rest) :=
  ⟨rfl, construct, kept, points, behind, inside, rfl⟩

/-- As `Mirrors.push`, for the last step of a construct: it stands for the entries up to `stop`, and
these are tokens of a buffer that was not changed. -/
theorem Mirrors.pushMade {base arena : Arena} {buffer : Buffer} {i stop : Nat} {rest : List Piece}
    {kind : Kind} {indent : Nat} (piece : Piece) (pushable : Tree.IsPushable piece)
    (kind_eq : kind = kindAt base.length piece) (level_eq : indent = piece.level)
    (arena_eq : arena = base ++ plantedAll base.length piece.parts)
    (points : buffer.Points stop rest) (behind : i ≤ stop) (inside : stop ≤ buffer.length) :
    Mirrors (Makes base buffer i) arena
      (Maxscript.push kind indent >>= fun node => return ⟨buffer, node, stop⟩)
      (.ok (piece, rest)) :=
  .push base piece pushable kind_eq level_eq arena_eq
    (points.makes rfl behind inside base piece pushable.construct)

theorem Makes.element {base arena : Arena} {old : Buffer} {i : Nat} {made : Made}
    {reading : Reading Piece} (makes : Makes base old i made arena reading) :
    .node made.node = elementAt base.length reading.1 := by
  rw [Tree.elementAt_construct makes.construct, makes.node_eq]

/-- Putting a construct in the place of its entries succeeds, and reduces them to it. -/
theorem Makes.reduces {base arena : Arena} {old : Buffer} {i : Nat} {made : Made}
    {reading : Reading Piece} (makes : Makes base old i made arena reading) :
    ∃ buffer, made.place i = .ok buffer ∧ Reduces base old i buffer arena reading := by
  have inside := Nat.le_trans makes.behind makes.inside
  have length : (made.buffer.take i).length = i := List.length_take_of_le inside
  have place : made.place i = .ok (made.buffer.take i ++ .node made.node :: entries reading.2) := by
    rw [Made.place, Buffer.spliceNode, Buffer.splice, Nat.min_eq_left makes.inside,
      if_pos ⟨makes.behind, makes.inside⟩, makes.points.drop_eq]
  refine ⟨_, place, ?_, ?_, makes.points.raw, makes.arena_eq⟩
  · rw [List.take_left' length, makes.kept]
  · rw [List.drop_left' length, makes.element]

/-- Constructs were pushed behind the nodes of `base`. Those that satisfy `p` and those that satisfy
`q` are listed apart. -/
structure Sorts (p q : Piece → Bool) (base : Arena) (first second : List Nat)
    (sorted : List Nat × List Nat) (arena : Arena) (pieces : List Piece) : Prop where
  fst_eq : sorted.1 = first ++ Tree.idsAt p base.length pieces
  snd_eq : sorted.2 = second ++ Tree.idsAt q base.length pieces
  constructs : ∀ piece ∈ pieces, piece.text? = none
  arena_eq : arena = base ++ plantedAll base.length pieces

namespace Sorts

variable {p q : Piece → Bool} {base arena : Arena} {first second : List Nat}
variable {sorted : List Nat × List Nat} {piece : Piece} {pieces : List Piece}

theorem nil (p q : Piece → Bool) (base : Arena) (first second : List Nat) :
    Sorts p q base first second (first, second) base [] where
  fst_eq := (List.append_nil first).symm
  snd_eq := (List.append_nil second).symm
  constructs _ member := absurd member List.not_mem_nil
  arena_eq := (List.append_nil base).symm

theorem cons_fst (construct : piece.text? = none) (listed : p piece = true)
    (other : q piece = false)
    (sorts : Sorts p q (base ++ planted base.length piece) (first ++ [idAt base.length piece])
      second sorted arena pieces) :
    Sorts p q base first second sorted arena (piece :: pieces) where
  fst_eq := by
    rw [sorts.fst_eq, length_append_planted, Tree.idsAt, if_pos listed, List.append_assoc]
    rfl
  snd_eq := by
    rw [sorts.snd_eq, length_append_planted, Tree.idsAt, if_neg (by simp [other])]
  constructs := List.forall_mem_cons.mpr ⟨construct, sorts.constructs⟩
  arena_eq := by
    rw [sorts.arena_eq, length_append_planted, List.append_assoc]
    rfl

theorem cons_snd (construct : piece.text? = none) (other : p piece = false)
    (listed : q piece = true)
    (sorts : Sorts p q (base ++ planted base.length piece) first
      (second ++ [idAt base.length piece]) sorted arena pieces) :
    Sorts p q base first second sorted arena (piece :: pieces) where
  fst_eq := by
    rw [sorts.fst_eq, length_append_planted, Tree.idsAt, if_neg (by simp [other])]
  snd_eq := by
    rw [sorts.snd_eq, length_append_planted, Tree.idsAt, if_pos listed, List.append_assoc]
    rfl
  constructs := List.forall_mem_cons.mpr ⟨construct, sorts.constructs⟩
  arena_eq := by
    rw [sorts.arena_eq, length_append_planted, List.append_assoc]
    rfl

end Sorts

/-- Parameters were read from `k` on, and nothing before has changed. -/
structure Declares (base : Arena) (old : Buffer) (k : Nat) (positional named : List Nat)
    (gathered : Gathered (List Nat × List Nat)) (arena : Arena) (reading : Reading (List Piece)) :
    Prop where
  kept : gathered.buffer.take k = old.take k
  points : gathered.buffer.Points gathered.stop reading.2
  behind : k ≤ gathered.stop
  sorts : Sorts (!·.isNamed) (·.isNamed) base positional named gathered.value arena reading.1

/-- The buffer is what is left of a block whose items were read. -/
structure Fills (base : Arena) (buffer : Buffer) (arena : Arena) (items : List Piece) : Prop where
  buffer_eq : buffer = elementsAt base.length items
  arena_eq : arena = base ++ plantedAll base.length items

/-- Every loop of the engine goes as that of the reader. -/
structure Mirrored (engine : Engine) (reader : Reader) : Prop where
  registry : engine.registry = reader.registry
  scan : ∀ indent {base arena : Arena} {buffer : Buffer} {before after : List Piece},
    Fills base buffer arena (before.reverse ++ after) → Raw after.tail →
    Mirrors (Fills base) arena (engine.scan indent buffer before.length)
      (reader.items indent before after)
  conditional : ∀ indent {base : Arena} {buffer : Buffer} {i : Nat} {keyword : String}
    {rest : List Piece}, buffer.Points i (.token keyword :: rest) →
    Mirrors (Makes base buffer i) base (engine.conditional indent buffer i)
      (reader.conditional indent rest)
  parameters : ∀ indent {base : Arena} {buffer : Buffer} {k : Nat} {rest : List Piece}
    (positional named : List Nat), buffer.Points k rest →
    Mirrors (Declares base buffer k positional named) base
      (engine.parameters indent buffer k positional named) (reader.parameters indent rest)
  members : ∀ indent {base : Arena} {buffer : Buffer} {k : Nat} {rest : List Piece}
    (properties methods : List Nat), buffer.Points k rest →
    Mirrors (Sorts (·.isBinding) (!·.isBinding) base properties methods) base
      (engine.members indent buffer k properties methods) (reader.members indent rest)
  arguments : ∀ indent {base : Arena} {buffer : Buffer} {k : Nat} {rest : List Piece}
    (given : List Element), buffer.Points k rest → k ≤ buffer.length →
    Mirrors (Gathers base buffer k given) base (engine.arguments indent buffer k given)
      (reader.arguments indent rest)
  elements : ∀ indent close {base : Arena} {buffer : Buffer} {k : Nat} {rest : List Piece}
    (collected : List Element), buffer.Points k rest → k ≤ buffer.length →
    Mirrors (Gathers base buffer k collected) base
      (engine.elements indent close buffer k collected) (reader.elements indent close rest)
  trailers : ∀ indent {base arena : Arena} {old buffer : Buffer} {k : Nat} {operand : Piece}
    {rest : List Piece}, Reduces base old k buffer arena (operand, rest) →
    Mirrors (Reduces base old k) arena (engine.trailers indent buffer k)
      (reader.trailers indent operand rest)

namespace Mirrored

variable {engine : Engine} {reader : Reader} (mirrored : Mirrored engine reader)

include mirrored

/-- A block that consists of tokens only is read as the reader reads them. Reading starts with an
empty place behind the nodes of `base`. -/
theorem block (indent : Nat) (role : Role) {base : Arena} {pieces : List Piece} (raw : Raw pieces) :
    Mirrors (Pushes base) base (engine.block indent role (entries pieces))
      (reader.block indent role pieces) := by
  have rawTrimmed := raw.isInfix (Reader.trim_isInfix pieces)
  have fills : Fills base (entries (Reader.trim pieces)) base
      (List.reverse [] ++ Reader.trim pieces) :=
    ⟨(rawTrimmed.elementsAt_eq _).symm, by simp [rawTrimmed.plantedAll_eq]⟩
  rw [Engine.block, Reader.block]
  refine .read (Buffer.trim_entries raw) ?_
  refine (mirrored.scan indent fills (rawTrimmed.suffix (List.tail_suffix _))).bind ?_
  rintro _ _ items ⟨rfl, rfl⟩
  exact .pushLast base (.block indent role items) (.inline rfl rfl) rfl rfl rfl ⟨rfl, rfl, rfl⟩

/-- An extent of the tokens ahead is read as a block, if it is one. An extent that does not fit is
an internal error on both sides. -/
theorem blockOf (indent : Nat) (role : Role) {base : Arena} {buffer : Buffer} {k : Nat}
    {rest : List Piece} (points : buffer.Points k rest) (inside : k ≤ buffer.length)
    (start stop : Nat) :
    Mirrors (Pushes base) base (engine.blockOf indent role buffer ⟨k + start, k + stop⟩)
      (reader.blockOf indent role rest ⟨start, stop⟩) := by
  rw [Engine.blockOf, Reader.blockOf]
  exact .cut points inside start stop fun part raw => mirrored.block indent role raw

end Mirrored

end Maxscript
