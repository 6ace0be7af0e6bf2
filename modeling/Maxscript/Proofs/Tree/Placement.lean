import Maxscript.Proofs.Tree.Numbering

/-!
# Where the nodes of a tree come from

Apart from the root, every node of the tree of a script stands for a construct in it. `Placed` says
where a construct stands: the number that its first node gets, and the number of its parent. With
it, a statement about nodes is one about the pieces that were read, and the way from a node up to
the root is the way from a piece to those it is part of.
-/

namespace Maxscript.Tree

/-- A piece of the script whose first node gets the number `start`, and the node it is part of. -/
inductive Placed (body : Piece) : Nat → Nat → Piece → Prop
  | body : Placed body 1 root body
  | part {start parent : Nat} {owner part : Piece} {front back : List Piece}
      (inside : Placed body start parent owner) (shape : owner.parts = front ++ part :: back) :
      Placed body (start + countAll front) (idAt start owner) part

theorem text?_of_parts {owner part : Piece} (member : part ∈ owner.parts) : owner.text? = none := by
  cases owner with
  | token text => cases member
  | _ => rfl

namespace Placed

variable {body piece : Piece} {start parent : Nat}

/-- The nodes of a piece of the script stand together in its tree, from the number on that its place
gives. -/
theorem nodes_eq (placed : Placed body start parent piece) :
    ∃ front back, (ofBody body).nodes = front ++ layOut start parent piece ++ back ∧
      front.length = start := by
  induction placed with
  | body => exact ⟨[⟨.root, 0, none⟩], [], by simp [ofBody], rfl⟩
  | @part start parent owner part before after inside shape ih =>
      obtain ⟨front, back, nodes, length⟩ := ih
      have construct := text?_of_parts (Piece.mem_parts_of_eq shape)
      rw [layOut_eq construct, shape, layOutAll_append, layOutAll, ← shape, ← idAt_eq construct]
        at nodes
      refine ⟨front ++ layOutAll start (idAt start owner) before,
        layOutAll (start + countAll before + count part) (idAt start owner) after ++
          [⟨kindAt start owner, owner.level, some parent⟩] ++ back, ?_, ?_⟩
      · rw [nodes]
        simp only [List.append_assoc]
      · rw [List.length_append, length, length_layOutAll]

/-- The number of a construct of the script is that of its node. -/
theorem getElem? (placed : Placed body start parent piece) (construct : piece.text? = none) :
    (ofBody body).nodes[idAt start piece]? =
      some ⟨kindAt start piece, piece.level, some parent⟩ := by
  obtain ⟨front, back, nodes, length⟩ := placed.nodes_eq
  rw [nodes, layOut_eq construct, idAt_eq construct, ← length, List.append_assoc,
    Numbered.getElem?_back, List.append_assoc]
  have parts := length_layOutAll front.length (front.length + countAll piece.parts) piece.parts
  have position := Numbered.getElem?_back
    (layOutAll front.length (front.length + countAll piece.parts) piece.parts)
    ([⟨kindAt front.length piece, piece.level, some parent⟩] ++ back) 0
  rw [parts] at position
  exact position

theorem built {registry : Registry} (placed : Placed body start parent piece)
    (built : ∃ level, Built registry level body) : ∃ level, Built registry level piece := by
  induction placed with
  | body => exact built
  | @part start parent owner part before after inside shape ih =>
      obtain ⟨level, owned⟩ := ih
      exact owned.parts part (Piece.mem_parts_of_eq shape)

end Placed

/-- A number that several pieces share out among their nodes falls to one of them. -/
theorem exists_part_of_lt {start id : Nat} {pieces : List Piece} (least : start ≤ id)
    (below : id < start + countAll pieces) :
    ∃ front part back, pieces = front ++ part :: back ∧ start + countAll front ≤ id ∧
      id < start + countAll front + count part := by
  induction pieces generalizing start with
  | nil =>
      rw [countAll] at below
      omega
  | cons piece rest ih =>
      rw [countAll] at below
      by_cases here : id < start + count piece
      · exact ⟨[], piece, rest, rfl, least, here⟩
      · obtain ⟨front, part, back, rfl, lower, upper⟩ :=
          ih (Nat.not_lt.mp here) (by omega)
        refine ⟨piece :: front, part, back, rfl, ?_, ?_⟩
        · rw [countAll]
          omega
        · rw [countAll]
          omega

/-- Every number between the first and the last of a piece is that of a construct in it. By
induction on the piece: it is its own number, or falls to a part. -/
theorem Placed.exists_construct {body piece : Piece} {start parent id : Nat}
    (placed : Placed body start parent piece) (least : start ≤ id)
    (below : id < start + count piece) :
    ∃ start' parent' construct, Placed body start' parent' construct ∧ construct.text? = none ∧
      id = idAt start' construct := by
  induction piece using Piece.partsInduction generalizing start parent with
  | step piece ih =>
      cases isConstruct : piece.text? with
      | some text =>
          obtain rfl := Piece.eq_token_of_text? isConstruct
          rw [count] at below
          omega
      | none =>
          by_cases last : id = idAt start piece
          · exact ⟨start, parent, piece, placed, isConstruct, last⟩
          · rw [idAt_eq isConstruct] at last
            rw [count_eq isConstruct] at below
            obtain ⟨front, part, back, shape, lower, upper⟩ :=
              exists_part_of_lt least (show id < start + countAll piece.parts by omega)
            exact ih part (Piece.mem_parts_of_eq shape) (placed.part shape) lower upper

/-- Every node but the root is that of a construct of the script, so what holds of constructs in
their places holds of all nodes. -/
theorem exists_placed {body : Piece} {id : Nat} {node : Node}
    (found : (ofBody body).nodes[id]? = some node) (notRoot : id ≠ root) :
    ∃ start parent piece, Placed body start parent piece ∧ piece.text? = none ∧
      id = idAt start piece ∧ node = ⟨kindAt start piece, piece.level, some parent⟩ := by
  obtain ⟨inside, -⟩ := List.getElem?_eq_some_iff.mp found
  have size : (ofBody body).nodes.length = 1 + count body := by
    rw [ofBody, List.length_cons, length_layOut, Nat.add_comm]
  obtain ⟨start, parent, piece, placed, construct, rfl⟩ :=
    Placed.body.exists_construct (Nat.one_le_iff_ne_zero.mpr notRoot) (size ▸ inside)
  refine ⟨start, parent, piece, placed, construct, rfl, ?_⟩
  rw [placed.getElem? construct] at found
  exact (Option.some.inj found).symm

end Maxscript.Tree
