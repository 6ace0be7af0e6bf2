import Maxscript.Proofs.Tree.Placement

/-!
# The levels of the nodes

A construct that opens lines stands on the level of the block it is in, however many expressions
are between them, and opens its bodies one level below. Only the methods of a struct stand one level
below the block around the struct.

Going up from a node is going from a piece to the construct that it is part of. On this way the
level only changes at structs, and what is in the properties of a struct, or in the parameters of
one of its methods, does not open lines unless a block is in between.
-/

namespace Maxscript.Tree

namespace Kind

def isBlock : Kind → Bool
  | .block _ _ => true
  | _ => false

def isCompound : Kind → Bool
  | .function _ _ _ _ => true
  | .struct _ _ _ => true
  | .conditional _ _ _ => true
  | .attempt _ _ => true
  | .loop _ _ _ => true
  | _ => false

def bodies : Kind → List Nat
  | .function _ _ _ body => [body]
  | .conditional _ consequent alternative => consequent :: alternative.toList
  | .attempt attempted handler => attempted :: handler.toList
  | .loop _ _ body => body.toList
  | _ => []

end Kind

theorem kindAt_isBlock (start : Nat) (piece : Piece) :
    (kindAt start piece).isBlock = piece.isBlock := by
  cases piece <;> rfl

theorem kindAt_isCompound (start : Nat) (piece : Piece) :
    (kindAt start piece).isCompound = piece.isCompound := by
  cases piece <;> rfl

/-- The first block on the way up from a node, which starts with the node itself. -/
inductive FirstBlock (tree : Tree) : Nat → Node → Prop
  | here {id : Nat} {node : Node} (found : tree.nodes[id]? = some node)
      (block : node.kind.isBlock = true) : FirstBlock tree id node
  | up {id parent : Nat} {node block : Node} (found : tree.nodes[id]? = some node)
      (notBlock : node.kind.isBlock = false) (link : node.parent = some parent)
      (above : FirstBlock tree parent block) : FirstBlock tree id block

/-- A node is listed as a method of `parent`, which is a struct on the level `indent`. -/
def IsMethodOf (tree : Tree) (id parent indent : Nat) : Prop :=
  ∃ name properties methods above,
    tree.nodes[parent]? = some ⟨.struct name properties methods, indent, above⟩ ∧ id ∈ methods

section

variable {registry : Registry} {body : Piece}

/-- A piece stands on the level of the first block above it, or opens no lines, or is a method. -/
def Stands (registry : Registry) (tree : Tree) (start parent : Nat) (piece : Piece) : Prop :=
  Inline piece ∨
    (∃ block, FirstBlock tree parent block ∧ Built registry block.indent piece) ∨
    piece.isFunction = true ∧ ∃ indent, tree.IsMethodOf (idAt start piece) parent indent ∧
      Built registry (indent + 1) piece

theorem idAt_mem_idsAt {p : Piece → Bool} {part : Piece} (holds : p part = true) (start : Nat)
    (front back : List Piece) :
    idAt (start + countAll front) part ∈ idsAt p start (front ++ part :: back) := by
  induction front generalizing start with
  | nil => simp [idsAt, holds]
  | cons piece rest ih =>
      have later := ih (start + count piece)
      rw [List.cons_append, idsAt, countAll, ← Nat.add_assoc]
      split
      · exact List.mem_cons_of_mem _ later
      · exact later

/-- A part of a construct that stands on the level of the first block above stands as well. -/
theorem Placed.stands_part {start parent : Nat} {owner part : Piece} {front back : List Piece}
    {block : Node} (placed : Placed body start parent owner)
    (shape : owner.parts = front ++ part :: back)
    (above : FirstBlock (ofBody body) (idAt start owner) block)
    (built : Built registry block.indent owner) :
    Stands registry (ofBody body) (start + countAll front) (idAt start owner) part := by
  have member := Piece.mem_parts_of_eq shape
  rcases built.part member with same | ⟨inline, -⟩ | ⟨struct, notBinding, function, method⟩
  · exact .inr (.inl ⟨block, above, same⟩)
  · exact .inl inline
  · refine .inr (.inr ⟨function, block.indent, ?_, method⟩)
    cases owner with
    | struct indent name members =>
        have found := placed.getElem? rfl
        rw [built.level_eq (.inl rfl)] at found
        refine ⟨_, _, _, _, found, ?_⟩
        change _ ∈ idsAt (!·.isBinding) start members
        rw [show members = front ++ part :: back from shape]
        exact idAt_mem_idsAt (by simp [notBinding]) start front back
    | _ => cases struct

/-- By induction on the way from the body of the script to the piece. Each step goes to a part of a
construct, or into a block, where the level is known. -/
theorem Placed.stands {start parent : Nat} {piece : Piece} (placed : Placed body start parent piece)
    (built : ∃ level, Built registry level body) (block : body.isBlock = true) :
    Stands registry (ofBody body) start parent piece := by
  induction placed with
  | body =>
      cases body with
      | block indent role items => exact .inl (.block indent role items)
      | _ => cases block
  | @part start parent owner part front back inside shape ih =>
      have member := Piece.mem_parts_of_eq shape
      have found := inside.getElem? (text?_of_parts member)
      cases isBlock : owner.isBlock with
      | true =>
          obtain ⟨level, owned⟩ := inside.built built
          rw [← owned.level_eq (.inr isBlock)] at owned
          exact inside.stands_part shape (.here found ((kindAt_isBlock _ _).trans isBlock)) owned
      | false =>
          rcases ih with inline | ⟨first, above, owned⟩ | ⟨function, indent, -, method⟩
          · exact .inl (inline.part isBlock member)
          · have way := FirstBlock.up found ((kindAt_isBlock _ _).trans isBlock) rfl above
            exact inside.stands_part shape way owned
          · exact .inl (method.function_parts function part member)

/-- The bodies of a construct are blocks one level below it. -/
theorem Placed.bodies {start parent indent : Nat} {piece : Piece}
    (placed : Placed body start parent piece) (built : Built registry indent piece) :
    ∀ id ∈ (kindAt start piece).bodies, ∃ node, (ofBody body).nodes[id]? = some node ∧
      node.kind.isBlock = true ∧ node.indent = piece.level + 1 := by
  have block (front : List Piece) {back items : List Piece} {role : Role} {level offset : Nat}
      (shape : piece.parts = front ++ .block level role items :: back)
      (position : start + countAll front = offset) :
      ∃ node, (ofBody body).nodes[idAt offset (.block level role items)]? = some node ∧
        node.kind.isBlock = true ∧ node.indent = level :=
    ⟨_, position ▸ (placed.part shape).getElem? rfl, rfl, rfl⟩
  cases built with
  | function name bindings inline each inner =>
      exact List.forall_mem_singleton.mpr (block _ rfl rfl)
  | conditional first second =>
      exact List.forall_mem_singleton.mpr (block [_] rfl (by simp))
  | branches first second third =>
      refine List.forall_mem_cons.mpr ⟨block [_] rfl (by simp), ?_⟩
      exact List.forall_mem_singleton.mpr (block [_, _] rfl (by simp [Nat.add_assoc]))
  | attempt first => exact List.forall_mem_singleton.mpr (block [] rfl rfl)
  | handled first second =>
      refine List.forall_mem_cons.mpr ⟨block [] rfl rfl, ?_⟩
      exact List.forall_mem_singleton.mpr (block [_] rfl (by simp))
  | loop first second =>
      exact List.forall_mem_singleton.mpr (block [_] rfl (by simp))
  | _ => exact List.forall_mem_nil _

/-- A method stands one level below its struct, and any other node on the level of the first block
above it. The bodies of a node are blocks one level below it. -/
structure IsLeveled (tree : Tree) (id : Nat) (node : Node) : Prop where
  method : ∀ struct indent, tree.IsMethodOf id struct indent → indent + 1 = node.indent
  level : (∀ struct indent, ¬tree.IsMethodOf id struct indent) →
    ∃ block, FirstBlock tree id block ∧ block.indent = node.indent
  bodies : ∀ body ∈ node.kind.bodies, ∃ block, tree.nodes[body]? = some block ∧
    block.kind.isBlock = true ∧ block.indent = node.indent + 1

/-- Whatever opens lines and is listed as a method is one level below the struct. A node is listed
by one other only, so this can be no other struct. -/
theorem Placed.level_of_method {start parent struct indent : Nat} {piece : Piece}
    (placed : Placed body start parent piece) (built : ∃ level, Built registry level body)
    (proper : (ofBody body).IsProper) (compound : piece.isCompound = true)
    (method : (ofBody body).IsMethodOf (idAt start piece) struct indent) :
    indent + 1 = piece.level := by
  have construct := Piece.text?_eq_none Piece.isCompound (fun _ => rfl) compound
  obtain ⟨name, properties, methods, above, found, listed⟩ := method
  have lists : (ofBody body).Lists struct (idAt start piece) :=
    ⟨_, found, List.mem_append_right properties listed⟩
  obtain rfl := proper.eq_parent lists (placed.getElem? construct) rfl
  cases placed with
  | body => exact absurd rfl (proper.listed _ _ lists).2.2
  | @part start parent owner part front back inside shape =>
      have member := Piece.mem_parts_of_eq shape
      obtain ⟨level, owned⟩ := inside.built built
      rw [inside.getElem? (text?_of_parts member)] at found
      have kind := congrArg Node.kind (Option.some.inj found)
      have same := congrArg Node.indent (Option.some.inj found)
      cases owned with
      | struct structName inline fields functions inner =>
          have notBinding : piece.isBinding = false := by
            cases piece with
            | binding indent name value named => cases compound
            | _ => rfl
          rw [(inner piece member notBinding).level_eq (.inl compound)]
          exact congrArg (· + 1) same.symm
      | _ => cases kind

theorem Placed.isLeveled {start parent : Nat} {piece : Piece}
    (placed : Placed body start parent piece) (built : ∃ level, Built registry level body)
    (proper : (ofBody body).IsProper) (block : body.isBlock = true)
    (compound : piece.isCompound = true) :
    IsLeveled (ofBody body) (idAt start piece) ⟨kindAt start piece, piece.level, some parent⟩ := by
  obtain ⟨level, own⟩ := placed.built built
  have notBlock : piece.isBlock = false := by
    cases piece with
    | block indent role items => cases compound
    | _ => rfl
  have construct := Piece.text?_eq_none Piece.isCompound (fun _ => rfl) compound
  refine ⟨fun _ _ => placed.level_of_method built proper compound, fun noMethod => ?_,
    placed.bodies own⟩
  rcases placed.stands built block with inline | ⟨first, above, same⟩ | ⟨-, indent, method, -⟩
  · rw [inline.isCompound] at compound
    cases compound
  · have found := placed.getElem? construct
    refine ⟨first, .up found ((kindAt_isBlock _ _).trans notBlock) rfl above, ?_⟩
    exact (same.level_eq (.inl compound)).symm
  · exact absurd method (noMethod parent indent)

end

end Maxscript.Tree
