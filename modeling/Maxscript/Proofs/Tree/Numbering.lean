import Mathlib.Data.List.Nodup
import Mathlib.Data.List.Perm.Basic
import Mathlib.Data.List.Range
import Mathlib.Logic.Relation
import Maxscript.Proofs.Reader.Built
import Maxscript.Tree.Numbering

/-!
# The numbers of the nodes make a tree

Every construct is numbered right after the pieces that it is made of, and lists those of them that
are constructs. From this alone it follows that each number is listed once: the numbers that the
nodes of a range list, together with those that are left for the node after it, are the numbers of
the range in some order. Counting them that way replaces any reasoning about single nodes.
-/

namespace Maxscript

namespace Tree

def rootsAt (start : Nat) (pieces : List Piece) : List Nat :=
  (elementsAt start pieces).filterMap Element.id?

/-! ### Constructs after their parts -/

theorem elementAt_construct {piece : Piece} (construct : piece.text? = none) (start : Nat) :
    elementAt start piece = .node (idAt start piece) := by
  cases piece with
  | token text => cases construct
  | _ => rfl

theorem rootsAt_cons {piece : Piece} (construct : piece.text? = none) (start : Nat)
    (rest : List Piece) :
    rootsAt start (piece :: rest) = idAt start piece :: rootsAt (start + count piece) rest := by
  rw [rootsAt, elementsAt, elementAt_construct construct]
  rfl

@[simp] theorem count_token (text : String) : count (.token text) = 0 := rfl

@[simp] theorem countAll_nil : countAll [] = 0 := rfl

@[simp] theorem countAll_cons (piece : Piece) (rest : List Piece) :
    countAll (piece :: rest) = count piece + countAll rest := rfl

@[simp] theorem length_elementsAt (start : Nat) (pieces : List Piece) :
    (elementsAt start pieces).length = pieces.length := by
  induction pieces generalizing start with
  | nil => rfl
  | cons piece rest ih => rw [elementsAt, List.length_cons, ih, List.length_cons]

@[simp] theorem elementsAt_append (start : Nat) (front back : List Piece) :
    elementsAt start (front ++ back) =
      elementsAt start front ++ elementsAt (start + countAll front) back := by
  induction front generalizing start with
  | nil => simp [elementsAt]
  | cons piece rest ih =>
      rw [List.cons_append, elementsAt, ih, elementsAt, countAll, Nat.add_assoc, List.cons_append]

@[simp] theorem rootsAt_append (start : Nat) (front back : List Piece) :
    rootsAt start (front ++ back) =
      rootsAt start front ++ rootsAt (start + countAll front) back := by
  rw [rootsAt, elementsAt_append, List.filterMap_append]
  rfl

@[simp] theorem countAll_append (front back : List Piece) :
    countAll (front ++ back) = countAll front + countAll back := by
  induction front with
  | nil => simp
  | cons piece rest ih => rw [List.cons_append, countAll, ih, countAll, Nat.add_assoc]

theorem layOutAll_append (start parent : Nat) (front back : List Piece) :
    layOutAll start parent (front ++ back) =
      layOutAll start parent front ++ layOutAll (start + countAll front) parent back := by
  induction front generalizing start with
  | nil => simp [layOutAll]
  | cons piece rest ih =>
      rw [List.cons_append, layOutAll, ih, layOutAll, countAll, Nat.add_assoc, List.append_assoc]

/-- Sorting constructs by some property only changes the order of their numbers. -/
theorem idsAt_perm (p : Piece → Bool) (start : Nat) {pieces : List Piece}
    (constructs : ∀ piece ∈ pieces, piece.text? = none) :
    (idsAt p start pieces ++ idsAt (!p ·) start pieces).Perm (rootsAt start pieces) := by
  induction pieces generalizing start with
  | nil => exact .nil
  | cons piece rest ih =>
      obtain ⟨first, others⟩ := List.forall_mem_cons.mp constructs
      have tail := ih (start + count piece) others
      rw [rootsAt_cons first]
      by_cases h : p piece = true
      · simpa [idsAt, h] using tail
      · simp only [idsAt, h, Bool.not_false, if_true]
        exact List.perm_middle.trans (tail.cons _)

theorem rootsAt_single {piece : Piece} (construct : piece.text? = none) (start : Nat) :
    rootsAt start [piece] = [idAt start piece] :=
  rootsAt_cons construct start []

/-- What the node of a construct is, if the first node in the construct has the number `start`. -/
def kindAt (start : Nat) : Piece → Kind
  | .token _ => .root
  | .binding _ name value _ => .binding name (value.map (elementAt start))
  | .statement _ parts => .statement (elementsAt start parts)
  | .chain _ parts => .chain (elementsAt start parts)
  | .block _ role items => .block role (elementsAt start items)
  | .array _ elements => .array (elementsAt start elements)
  | .access _ base indices =>
    .access (base.map (elementAt start)) (elementsAt (start + countAll base.toList) indices)
  | .call _ name arguments builtin => .call name (elementsAt start arguments) builtin
  | .function _ name parameters body =>
    .function name (idsAt (!·.isNamed) start parameters) (idsAt (·.isNamed) start parameters)
      (idAt (start + countAll parameters) body)
  | .struct _ name members =>
    .struct name (idsAt (·.isBinding) start members) (idsAt (!·.isBinding) start members)
  | .conditional _ condition consequent alternative =>
    .conditional (idAt start condition) (idAt (start + count condition) consequent)
      (alternative.map (idAt (start + count condition + count consequent)))
  | .attempt _ attempted handler =>
    .attempt (idAt start attempted) (handler.map (idAt (start + count attempted)))
  | .loop _ header comprehension body =>
    .loop (idAt start header) comprehension (body.map (idAt (start + count header)))
  | .cast _ target operand => .cast target (elementAt start operand)

theorem count_eq {piece : Piece} (construct : piece.text? = none) :
    count piece = countAll piece.parts + 1 := by
  cases piece with
  | token text => cases construct
  | binding indent name value named => cases value <;> simp [count]
  | access indent base indices => cases base <;> simp [count]
  | function indent name parameters body =>
      rw [count, Piece.parts, countAll_append]
      rfl
  | conditional indent condition consequent alternative =>
      cases alternative <;> simp [count, Nat.add_assoc]
  | attempt indent attempted handler => cases handler <;> simp [count]
  | loop indent header comprehension body => cases body <;> simp [count]
  | _ => rfl

theorem idAt_eq {piece : Piece} (construct : piece.text? = none) (start : Nat) :
    idAt start piece = start + countAll piece.parts := by
  rw [idAt, count_eq construct]
  omega

/-- The node of a construct comes after those of its parts, so its number is known as soon as they
are counted. -/
theorem layOut_eq {piece : Piece} (construct : piece.text? = none) (start parent : Nat) :
    layOut start parent piece =
      layOutAll start (start + countAll piece.parts) piece.parts ++
        [⟨kindAt start piece, piece.level, some parent⟩] := by
  cases piece with
  | token text => cases construct
  | binding indent name value named =>
      cases value <;> simp [layOut, layOutAll, kindAt, Piece.level]
  | access indent base indices =>
      cases base <;>
        simp [layOut, layOutAll, kindAt, Piece.level, Nat.add_assoc]
  | function indent name parameters body =>
      rw [Piece.parts, layOutAll_append, countAll_append]
      simp [layOut, layOutAll, kindAt, Piece.level, Nat.add_assoc]
  | conditional indent condition consequent alternative =>
      cases alternative <;>
        simp [layOut, layOutAll, kindAt, Piece.level, Nat.add_assoc]
  | attempt indent attempted handler =>
      cases handler <;>
        simp [layOut, layOutAll, kindAt, Piece.level, Nat.add_assoc]
  | loop indent header comprehension body =>
      cases body <;>
        simp [layOut, layOutAll, kindAt, Piece.level, Nat.add_assoc]
  | cast indent target operand =>
      simp [layOut, layOutAll, kindAt, Piece.level]
  | _ => rfl

/-- There are as many nodes as are counted. Numbers are computed by counting, and this makes them
positions in the tree. -/
@[simp] theorem length_layOut (start parent : Nat) (piece : Piece) :
    (layOut start parent piece).length = count piece := by
  induction piece using Piece.partsInduction generalizing start parent with
  | step piece ih =>
      have all (pieces : List Piece) (inside : ∀ part ∈ pieces, part ∈ piece.parts)
          (start parent : Nat) : (layOutAll start parent pieces).length = countAll pieces := by
        induction pieces generalizing start with
        | nil => rfl
        | cons first rest ihRest =>
            obtain ⟨here, others⟩ := List.forall_mem_cons.mp inside
            rw [layOutAll, List.length_append, ih first here, ihRest others, countAll]
      cases isConstruct : piece.text? with
      | some text =>
          obtain rfl := Piece.eq_token_of_text? isConstruct
          rfl
      | none =>
          rw [layOut_eq isConstruct, List.length_append, all _ (fun _ member => member),
            List.length_singleton, count_eq isConstruct]

@[simp] theorem length_layOutAll (start parent : Nat) (pieces : List Piece) :
    (layOutAll start parent pieces).length = countAll pieces := by
  induction pieces generalizing start with
  | nil => rfl
  | cons piece rest ih => rw [layOutAll, List.length_append, length_layOut, ih, countAll]

/-- A node lists the constructs among the parts. Those that open lines sort theirs, so the lists are
the same up to their order. -/
theorem children_perm {piece : Piece} (construct : piece.text? = none)
    (parts : piece.isCompound = true → ∀ part ∈ piece.parts, part.text? = none) (start : Nat) :
    (kindAt start piece).children.Perm (rootsAt start piece.parts) := by
  cases piece with
  | token text => cases construct
  | binding indent name value named => cases value <;> exact .refl _
  | access indent base indices => cases base <;> exact .refl _
  | cast indent target operand => cases operand <;> exact .refl _
  | function indent name parameters body =>
      obtain ⟨bindings, block⟩ := List.forall_mem_append.mp (parts rfl)
      have sorted := idsAt_perm Piece.isNamed start bindings
      rw [Piece.parts, rootsAt_append, rootsAt_single (block body List.mem_cons_self)]
      exact (List.perm_append_comm.trans sorted).append_right _
  | struct indent name members => exact idsAt_perm Piece.isBinding start (parts rfl)
  | conditional indent condition consequent alternative =>
      obtain ⟨first, others⟩ := List.forall_mem_cons.mp (parts rfl)
      obtain ⟨second, others⟩ := List.forall_mem_cons.mp others
      rw [Piece.parts, rootsAt_cons first, rootsAt_cons second]
      cases alternative with
      | none => exact .refl _
      | some alternative =>
          rw [Option.toList_some, rootsAt_single (others alternative List.mem_cons_self)]
          exact .refl _
  | attempt indent attempted handler =>
      obtain ⟨first, others⟩ := List.forall_mem_cons.mp (parts rfl)
      rw [Piece.parts, rootsAt_cons first]
      cases handler with
      | none => exact .refl _
      | some handler =>
          rw [Option.toList_some, rootsAt_single (others handler List.mem_cons_self)]
          exact .refl _
  | loop indent header comprehension body =>
      obtain ⟨first, others⟩ := List.forall_mem_cons.mp (parts rfl)
      rw [Piece.parts, rootsAt_cons first]
      cases body with
      | none => exact .refl _
      | some body =>
          rw [Option.toList_some, rootsAt_single (others body List.mem_cons_self)]
          exact .refl _
  | _ => exact .refl _

/-! ### Every number is listed once -/

/-- Nodes with numbers from `start` on that are part of one tree, up to the constructs `roots` of
`parent`. -/
structure Numbered (start parent : Nat) (roots : List Nat) (nodes : List Node) : Prop where
  listed : (roots ++ nodes.flatMap (·.kind.children)).Perm (List.range' start nodes.length)
  rootParent : ∀ root ∈ roots, ∃ offset node, root = start + offset ∧
    nodes[offset]? = some node ∧ node.parent = some parent
  childParent : ∀ (i : Nat) (owner : Node), nodes[i]? = some owner → ∀ child ∈ owner.kind.children,
    ∃ offset node, child = start + offset ∧ offset < i ∧ nodes[offset]? = some node ∧
      node.parent = some (start + i)

namespace Numbered

variable {start parent : Nat} {roots others : List Nat} {nodes more : List Node}

theorem nil : Numbered start parent [] [] where
  listed := .nil
  rootParent := List.forall_mem_nil _
  childParent _ _ found := by simp at found

theorem getElem?_front {i : Nat} {node : Node} (found : nodes[i]? = some node)
    (more : List Node) : (nodes ++ more)[i]? = some node := by
  obtain ⟨inside, -⟩ := List.getElem?_eq_some_iff.mp found
  rw [List.getElem?_append_left inside, found]

theorem getElem?_back (nodes more : List Node) (i : Nat) :
    (nodes ++ more)[nodes.length + i]? = more[i]? := by
  rw [List.getElem?_append_right (Nat.le_add_right _ _), Nat.add_sub_cancel_left]

/-- A node of a list in two parts is in one of them. -/
theorem getElem?_cases {i : Nat} {node : Node} (found : (nodes ++ more)[i]? = some node) :
    nodes[i]? = some node ∨ ∃ j, i = nodes.length + j ∧ more[j]? = some node := by
  by_cases inside : i < nodes.length
  · left
    rwa [List.getElem?_append_left inside] at found
  · right
    obtain ⟨j, rfl⟩ := Nat.exists_eq_add_of_le (Nat.not_lt.mp inside)
    rw [getElem?_back] at found
    exact ⟨j, rfl, found⟩

/-- Nodes of one parent that are numbered one after the other are numbered together. -/
theorem append (first : Numbered start parent roots nodes)
    (second : Numbered (start + nodes.length) parent others more) :
    Numbered start parent (roots ++ others) (nodes ++ more) where
  listed := by
    rw [List.flatMap_append, List.length_append, ← List.range'_append_1, List.append_assoc]
    refine ((List.perm_append_comm_assoc _ _ _).append_left roots).trans ?_
    rw [← List.append_assoc]
    exact first.listed.append second.listed
  rootParent root member := by
    rcases List.mem_append.mp member with member | member
    · obtain ⟨offset, node, same, found, parent_eq⟩ := first.rootParent root member
      exact ⟨offset, node, same, getElem?_front found more, parent_eq⟩
    · obtain ⟨offset, node, same, found, parent_eq⟩ := second.rootParent root member
      refine ⟨nodes.length + offset, node, by omega, ?_, parent_eq⟩
      rw [getElem?_back, found]
  childParent i owner found child member := by
    rcases getElem?_cases found with front | ⟨j, rfl, back⟩
    · obtain ⟨offset, node, same, below, inside, parent_eq⟩ :=
        first.childParent i owner front child member
      exact ⟨offset, node, same, below, getElem?_front inside more, parent_eq⟩
    · obtain ⟨offset, node, same, below, inside, parent_eq⟩ :=
        second.childParent j owner back child member
      refine ⟨nodes.length + offset, node, by omega, by omega, ?_, ?_⟩
      · rw [getElem?_back, inside]
      · rw [parent_eq, Nat.add_assoc]

/-- The node after those of its parts takes their roots over: it is listed itself now, and they are
listed by it. -/
theorem close {own : Node} (inner : Numbered start (start + nodes.length) roots nodes)
    (parent_eq : own.parent = some parent) (children : own.kind.children.Perm roots) :
    Numbered start parent [start + nodes.length] (nodes ++ [own]) where
  listed := by
    have parts : (nodes.flatMap (·.kind.children) ++ own.kind.children).Perm
        (List.range' start nodes.length) :=
      (List.perm_append_comm.trans (children.append_right _)).trans inner.listed
    rw [List.flatMap_append, List.flatMap_singleton, List.length_append, List.length_singleton,
      List.range'_1_concat]
    exact List.perm_append_comm.trans (parts.append_right _)
  rootParent root member := by
    rw [List.mem_singleton] at member
    exact ⟨nodes.length, own, member, by simp, parent_eq⟩
  childParent i owner found child member := by
    rcases getElem?_cases found with front | ⟨j, rfl, back⟩
    · obtain ⟨offset, node, same, below, inside, parent_eq⟩ :=
        inner.childParent i owner front child member
      exact ⟨offset, node, same, below, getElem?_front inside [own], parent_eq⟩
    · obtain ⟨rfl, rfl⟩ : j = 0 ∧ own = owner := by
        cases j with
        | zero => exact ⟨rfl, by simpa using back⟩
        | succ j => simp at back
      obtain ⟨offset, node, same, inside, parent_eq⟩ :=
        inner.rootParent child (children.mem_iff.mp member)
      obtain ⟨below, -⟩ := List.getElem?_eq_some_iff.mp inside
      exact ⟨offset, node, same, below, getElem?_front inside [own], parent_eq⟩

end Numbered

theorem numberedAll {pieces : List Piece}
    (each : ∀ piece ∈ pieces, ∀ start parent,
      Numbered start parent (rootsAt start [piece]) (layOut start parent piece))
    (start parent : Nat) :
    Numbered start parent (rootsAt start pieces) (layOutAll start parent pieces) := by
  induction pieces generalizing start with
  | nil => exact .nil
  | cons piece rest ih =>
      obtain ⟨first, others⟩ := List.forall_mem_cons.mp each
      have roots : rootsAt start (piece :: rest) =
          rootsAt start [piece] ++ rootsAt (start + count piece) rest :=
        rootsAt_append start [piece] rest
      rw [roots, layOutAll]
      exact (first start parent).append (by rw [length_layOut]; exact ih others _)

theorem numbered_of_built {registry : Registry} {piece : Piece}
    (built : ∃ level, Built registry level piece) (start parent : Nat) :
    Numbered start parent (rootsAt start [piece]) (layOut start parent piece) := by
  induction piece using Piece.partsInduction generalizing start parent with
  | step piece ih =>
      obtain ⟨level, built⟩ := built
      cases isConstruct : piece.text? with
      | some text =>
          obtain rfl := Piece.eq_token_of_text? isConstruct
          exact .nil
      | none =>
          have each := fun part member => ih part member (built.parts part member)
          have inner := numberedAll each start (start + countAll piece.parts)
          have children := children_perm isConstruct built.compound_parts start
          have length := length_layOutAll start (start + countAll piece.parts) piece.parts
          rw [layOut_eq isConstruct, rootsAt_single isConstruct, idAt_eq isConstruct]
          generalize layOutAll start (start + countAll piece.parts) piece.parts = nodes
            at length inner ⊢
          rw [← length] at inner ⊢
          exact inner.close rfl children

/-! ### Proper trees -/

/-- A node names another as one of its parts. -/
def Lists (tree : Tree) (owner child : Nat) : Prop :=
  ∃ node, tree.nodes[owner]? = some node ∧ child ∈ node.kind.children

/-- Node 0 is the root, and all other nodes hang together below the body: each is listed by one
node only, once, and that is the parent it records and has a larger number. -/
structure IsProper (tree : Tree) : Prop where
  root : ∃ node, tree.nodes[Tree.root]? = some node ∧ node.kind = .root ∧ node.parent = none
  body : ∃ node, tree.nodes[tree.body]? = some node ∧ node.parent = some Tree.root
  owned : ∀ child node, tree.nodes[child]? = some node → child ≠ Tree.root → child ≠ tree.body →
    ∃ owner parent, tree.nodes[owner]? = some parent ∧ parent.kind.children.count child = 1 ∧
      (∀ other, tree.Lists other child → other = owner) ∧ child < owner ∧
      node.parent = some owner
  listed : ∀ owner child, tree.Lists owner child →
    child < owner ∧ child ≠ Tree.root ∧ child ≠ tree.body
  reached : ∀ child < tree.size, child ≠ Tree.root →
    Relation.ReflTransGen tree.Lists tree.body child

/-- Whoever lists a node is the parent that it records. -/
theorem IsProper.eq_parent {tree : Tree} (proper : tree.IsProper) {owner child parent : Nat}
    {node : Node} (lists : tree.Lists owner child) (found : tree.nodes[child]? = some node)
    (link : node.parent = some parent) : owner = parent := by
  obtain ⟨-, notRoot, notBody⟩ := proper.listed owner child lists
  obtain ⟨only, -, -, -, unique, -, recorded⟩ := proper.owned child node found notRoot notBody
  rw [unique owner lists]
  exact Option.some.inj (recorded.symm.trans link)

/-- Every number in a tree is that of one of its nodes. -/
structure IsClosed (tree : Tree) : Prop where
  body : tree.body < tree.size
  children : ∀ node ∈ tree.nodes, ∀ child ∈ node.kind.children, child < tree.size
  parents : ∀ node ∈ tree.nodes, ∀ parent ∈ node.parent, parent < tree.size

theorem lt_size_of_getElem? {tree : Tree} {id : Nat} {node : Node}
    (found : tree.nodes[id]? = some node) : id < tree.size := by
  obtain ⟨inside, -⟩ := List.getElem?_eq_some_iff.mp found
  exact inside

theorem IsProper.isClosed {tree : Tree} (proper : tree.IsProper) : tree.IsClosed := by
  obtain ⟨rootNode, rootFound, -, rootParent⟩ := proper.root
  obtain ⟨bodyNode, bodyFound, bodyParent⟩ := proper.body
  refine ⟨lt_size_of_getElem? bodyFound, ?_, ?_⟩
  · intro node member child listed
    obtain ⟨owner, found⟩ := List.getElem?_of_mem member
    have below := (proper.listed owner child ⟨node, found, listed⟩).1
    exact Nat.lt_trans below (lt_size_of_getElem? found)
  · intro node member parent recorded
    obtain ⟨id, found⟩ := List.getElem?_of_mem member
    by_cases isRoot : id = Tree.root
    · rw [isRoot, rootFound] at found
      obtain rfl := Option.some.inj found
      rw [rootParent] at recorded
      cases recorded
    by_cases isBody : id = tree.body
    · rw [isBody, bodyFound] at found
      obtain rfl := Option.some.inj found
      rw [bodyParent] at recorded
      obtain rfl := Option.some.inj recorded
      exact lt_size_of_getElem? rootFound
    · obtain ⟨owner, ownerNode, ownerFound, -, -, -, same⟩ :=
        proper.owned id node found isRoot isBody
      rw [same] at recorded
      obtain rfl := Option.some.inj recorded
      exact lt_size_of_getElem? ownerFound

/-- A number that is listed once among all nodes is listed by one node. -/
theorem exists_owner_of_count {nodes : List Node} {child : Nat}
    (once : (nodes.flatMap (·.kind.children)).count child = 1) :
    ∃ (i : Nat) (owner : Node), nodes[i]? = some owner ∧ owner.kind.children.count child = 1 ∧
      ∀ (j : Nat) (other : Node), nodes[j]? = some other → child ∈ other.kind.children → j = i := by
  induction nodes with
  | nil => simp at once
  | cons node rest ih =>
      rw [List.flatMap_cons, List.count_append] at once
      by_cases here : child ∈ node.kind.children
      · have first := List.count_pos_iff.mpr here
        have nowhere : child ∉ rest.flatMap (·.kind.children) :=
          List.count_eq_zero.mp (by omega)
        refine ⟨0, node, rfl, by omega, ?_⟩
        intro j other found member
        cases j with
        | zero => rfl
        | succ j =>
            have inside : other ∈ rest := List.mem_of_getElem? (by simpa using found)
            exact absurd (List.mem_flatMap.mpr ⟨other, inside, member⟩) nowhere
      · have none := List.count_eq_zero.mpr here
        obtain ⟨i, owner, found, count, unique⟩ := ih (by omega)
        refine ⟨i + 1, owner, by simpa using found, count, ?_⟩
        intro j other found' member
        cases j with
        | zero =>
            obtain rfl : node = other := by simpa using found'
            exact absurd member here
        | succ j => rw [unique j other (by simpa using found') member]

section

variable {tree : Tree} {nodes : List Node} (shape : tree.nodes = ⟨.root, 0, none⟩ :: nodes)
  (numbered : Numbered 1 root [tree.body] nodes)
include shape

theorem getElem?_succ (i : Nat) : tree.nodes[i + 1]? = nodes[i]? := by
  rw [shape]
  rfl

/-- The root lists nothing, so whatever lists a node is not the root. -/
theorem Lists.exists_owner {owner child : Nat} (h : tree.Lists owner child) :
    ∃ i node, owner = i + 1 ∧ nodes[i]? = some node ∧ child ∈ node.kind.children := by
  obtain ⟨node, found, member⟩ := h
  cases owner with
  | zero =>
      rw [shape] at found
      obtain rfl := Option.some.inj found
      exact absurd member List.not_mem_nil
  | succ i => exact ⟨i, node, rfl, getElem?_succ shape i ▸ found, member⟩

include numbered

theorem owned_of_numbered {child : Nat} {node : Node} (found : tree.nodes[child]? = some node)
    (notRoot : child ≠ root) (notBody : child ≠ tree.body) :
    ∃ owner parent, tree.nodes[owner]? = some parent ∧ parent.kind.children.count child = 1 ∧
      (∀ other, tree.Lists other child → other = owner) ∧ child < owner ∧
      node.parent = some owner := by
  obtain ⟨i, rfl⟩ := Nat.exists_eq_succ_of_ne_zero notRoot
  rw [getElem?_succ shape] at found
  obtain ⟨inside, -⟩ := List.getElem?_eq_some_iff.mp found
  have once : (nodes.flatMap (·.kind.children)).count (i + 1) = 1 := by
    have total := numbered.listed.count_eq (i + 1)
    have range : (List.range' 1 nodes.length).count (i + 1) = 1 :=
      List.count_eq_one_of_mem List.nodup_range' (List.mem_range'_1.mpr (by omega))
    rw [range, List.count_append, List.count_singleton] at total
    simpa [Ne.symm notBody] using total
  obtain ⟨j, owner, owned, count, unique⟩ := exists_owner_of_count once
  have member : i + 1 ∈ owner.kind.children := List.count_pos_iff.mp (by omega)
  obtain ⟨offset, node', same, below, found', parent_eq⟩ :=
    numbered.childParent j owner owned (i + 1) member
  obtain rfl : i = offset := by omega
  obtain rfl : node = node' := by
    rw [found] at found'
    exact Option.some.inj found'
  refine ⟨j + 1, owner, (getElem?_succ shape j).trans owned, count, ?_, by omega, ?_⟩
  · intro other lists
    obtain ⟨k, node', rfl, found'', member'⟩ := lists.exists_owner shape
    rw [unique k node' found'' member']
  · rw [parent_eq, Nat.add_comm]

/-- What numbering keeps for the nodes of a list makes a tree of them when the root is put in front,
which lists nothing itself. -/
theorem isProper_of_numbered : tree.IsProper where
  root := ⟨_, by rw [shape]; rfl, rfl, rfl⟩
  body := by
    obtain ⟨offset, node, same, found, parent_eq⟩ :=
      numbered.rootParent tree.body List.mem_cons_self
    refine ⟨node, ?_, parent_eq⟩
    rw [same, Nat.add_comm, getElem?_succ shape, found]
  owned child node found notRoot notBody :=
    owned_of_numbered shape numbered found notRoot notBody
  listed owner child lists := by
    obtain ⟨i, node, rfl, found, member⟩ := lists.exists_owner shape
    obtain ⟨offset, -, rfl, below, -, -⟩ := numbered.childParent i node found child member
    refine ⟨by omega, by rw [root]; omega, ?_⟩
    have distinct := numbered.listed.nodup_iff.mpr List.nodup_range'
    have elsewhere := (List.nodup_cons.mp distinct).1
    intro same
    rw [same] at member
    exact elsewhere (List.mem_flatMap.mpr ⟨node, List.mem_of_getElem? found, member⟩)
  reached child inside notRoot := by
    -- An owner has a larger number, so the way up ends at the body.
    induction room : tree.size - child using Nat.strong_induction_on generalizing child with
    | h room' ih =>
        by_cases isBody : child = tree.body
        · rw [isBody]
        · have found := List.getElem?_eq_getElem inside
          obtain ⟨owner, parent, owned, count, -, larger, -⟩ :=
            owned_of_numbered shape numbered found notRoot isBody
          obtain ⟨ownerInside, -⟩ := List.getElem?_eq_some_iff.mp owned
          have lists : tree.Lists owner child :=
            ⟨parent, owned, List.count_pos_iff.mp (by omega)⟩
          have above := ih (tree.size - owner) (by rw [size] at *; omega) owner ownerInside
            (Nat.ne_of_gt (Nat.zero_lt_of_lt larger)) rfl
          exact above.tail lists

end

theorem ofBody_isProper {registry : Registry} {indent : Nat} {body : Piece}
    (built : Built registry indent body) (construct : body.text? = none) :
    (ofBody body).IsProper := by
  have numbered := numbered_of_built ⟨indent, built⟩ 1 root
  rw [rootsAt_single construct] at numbered
  exact isProper_of_numbered rfl numbered

theorem ofBody_readScript (registry : Registry) (source : String) :
    Meets (readScript registry source) (fun body => (ofBody body).IsProper) ConvertError.Any := by
  refine (readBlock_built registry 0 .root (Token.ofSource registry source)).mono ?_
  rintro _ ⟨items, rfl, dense, each⟩
  exact ofBody_isProper (.block .root dense each) rfl

end Tree

end Maxscript
