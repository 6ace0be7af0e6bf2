import Maxscript.Arena
import Maxscript.Proofs.Tree.Numbering

/-!
# Pushing nodes

While a script is read, the nodes of a piece are those that `layOut` gives it, except that the last
one is not part of anything yet. Pushing a construct behind the nodes of its parts makes it the
parent of exactly those that were left open, since it lists the constructs among its parts and no
others.
-/

namespace Maxscript

namespace Tree

/-- The nodes of a piece that is not part of another one yet, numbered from `start` on. -/
def planted (start : Nat) (piece : Piece) : List Node :=
  match piece.text? with
  | some _ => []
  | none =>
    layOutAll start (start + countAll piece.parts) piece.parts ++
      [⟨kindAt start piece, piece.level, none⟩]

/-- The nodes of several pieces that are not part of another one yet. -/
def plantedAll (start : Nat) : List Piece → List Node
  | [] => []
  | piece :: rest => planted start piece ++ plantedAll (start + count piece) rest

@[simp] theorem planted_token (start : Nat) (text : String) :
    planted start (.token text) = [] := rfl

@[simp] theorem plantedAll_nil (start : Nat) : plantedAll start [] = [] := rfl

@[simp] theorem plantedAll_cons (start : Nat) (piece : Piece) (rest : List Piece) :
    plantedAll start (piece :: rest) =
      planted start piece ++ plantedAll (start + count piece) rest := rfl

/-- A construct that was just pushed has its parts under it, but nothing above it yet. -/
theorem planted_construct {piece : Piece} (construct : piece.text? = none) (start : Nat) :
    planted start piece =
      layOutAll start (start + countAll piece.parts) piece.parts ++
        [⟨kindAt start piece, piece.level, none⟩] := by
  rw [planted, construct]

@[simp] theorem length_planted (start : Nat) (piece : Piece) :
    (planted start piece).length = count piece := by
  cases isText : piece.text? with
  | some text =>
      obtain rfl := Piece.eq_token_of_text? isText
      rfl
  | none =>
      rw [planted_construct isText, List.length_append, length_layOutAll, List.length_singleton,
        count_eq isText]

@[simp] theorem plantedAll_append (start : Nat) (front back : List Piece) :
    plantedAll start (front ++ back) =
      plantedAll start front ++ plantedAll (start + countAll front) back := by
  induction front generalizing start with
  | nil => simp
  | cons piece rest ih =>
      rw [List.cons_append, plantedAll, ih, plantedAll, countAll, Nat.add_assoc, List.append_assoc]

@[simp] theorem length_plantedAll (start : Nat) (pieces : List Piece) :
    (plantedAll start pieces).length = countAll pieces := by
  induction pieces generalizing start with
  | nil => rfl
  | cons piece rest ih => rw [plantedAll, List.length_append, length_planted, ih, countAll]

/-- The parts that a node can list are all constructs if it lists them by their numbers only. -/
structure IsPushable (piece : Piece) : Prop where
  construct : piece.text? = none
  parts : piece.isCompound = true → ∀ part ∈ piece.parts, part.text? = none

theorem IsPushable.inline {piece : Piece} (construct : piece.text? = none)
    (inline : piece.isCompound = false) : IsPushable piece :=
  ⟨construct, fun compound => Bool.noConfusion (inline.symm.trans compound)⟩

theorem IsPushable.compound {piece : Piece} (construct : piece.text? = none)
    (parts : ∀ part ∈ piece.parts, part.text? = none) : IsPushable piece :=
  ⟨construct, fun _ => parts⟩

theorem plantedAll_single (start : Nat) (piece : Piece) :
    plantedAll start [piece] = planted start piece := by
  rw [plantedAll, plantedAll_nil, List.append_nil]

end Tree

open Tree (Node count countAll idAt kindAt layOut layOutAll layOut_eq idAt_eq planted plantedAll
  planted_construct rootsAt rootsAt_cons)

namespace Arena

variable {arena base : Arena} {parent : Nat}

def withParent (parent : Nat) (arena : Arena) (child : Nat) : Arena :=
  arena.modify child fun node => { node with parent := some parent }

@[simp] theorem length_withParent (arena : Arena) (child : Nat) :
    (withParent parent arena child).length = arena.length :=
  List.length_modify _ _ _

theorem adopt_eq_ok {child : Nat} (inside : child < arena.length) :
    adopt parent arena child = .ok (withParent parent arena child) :=
  if_pos inside

theorem foldlM_adopt {children : List Nat} (inside : ∀ child ∈ children, child < arena.length) :
    children.foldlM (adopt parent) arena = .ok (children.foldl (withParent parent) arena) := by
  induction children generalizing arena with
  | nil => rfl
  | cons child rest ih =>
      obtain ⟨first, others⟩ := List.forall_mem_cons.mp inside
      rw [List.foldlM_cons, adopt_eq_ok first, List.foldl_cons]
      exact ih (by simpa using others)

/-- The order in which nodes are adopted does not matter, as all of them get the same parent. -/
theorem foldl_withParent_perm {children others : List Nat} (same : children.Perm others) :
    children.foldl (withParent parent) arena = others.foldl (withParent parent) arena := by
  refine same.foldl_eq' (fun first _ second _ arena => ?_) arena
  refine List.ext_getElem? fun i => ?_
  simp only [withParent, List.getElem?_modify]
  cases arena[i]? with
  | none => rfl
  | some node => split_ifs <;> rfl

theorem withParent_length (front : Arena) (node : Node) (back : Arena) :
    withParent parent (front ++ node :: back) front.length =
      front ++ { node with parent := some parent } :: back := by
  induction front with
  | nil => rfl
  | cons first rest ih => simpa [withParent] using ih

/-- The last node of a construct is the one that was left open. -/
theorem withParent_planted (base : Arena) (parent : Nat) {piece : Piece}
    (construct : piece.text? = none) (more : Arena) :
    withParent parent (base ++ planted base.length piece ++ more) (idAt base.length piece) =
      base ++ layOut base.length parent piece ++ more := by
  have length : idAt base.length piece = (base ++
      layOutAll base.length (base.length + countAll piece.parts) piece.parts).length := by
    rw [idAt_eq construct, List.length_append, Tree.length_layOutAll]
  rw [planted_construct construct, layOut_eq construct, length, ← List.append_assoc,
    ← List.append_assoc, List.append_assoc _ [_], List.append_assoc _ [_]]
  exact withParent_length _ _ more

/-- Adopting the constructs among several pieces makes them part of `parent`, and leaves no node
without one. -/
theorem foldl_rootsAt (base : Arena) (pieces : List Piece) :
    (rootsAt base.length pieces).foldl (withParent parent)
        (base ++ plantedAll base.length pieces) =
      base ++ layOutAll base.length parent pieces := by
  induction pieces generalizing base with
  | nil => rfl
  | cons piece rest ih =>
      cases isText : piece.text? with
      | some text =>
          obtain rfl := Piece.eq_token_of_text? isText
          exact ih base
      | none =>
          have next := ih (base ++ layOut base.length parent piece)
          rw [List.length_append, Tree.length_layOut] at next
          rw [rootsAt_cons isText, List.foldl_cons, plantedAll, ← List.append_assoc,
            withParent_planted base parent isText, next, layOutAll, List.append_assoc]

theorem lt_length_of_mem_rootsAt (base : Arena) {pieces : List Piece} {child : Nat}
    (member : child ∈ rootsAt base.length pieces) :
    child < (base ++ plantedAll base.length pieces).length := by
  induction pieces generalizing base with
  | nil => cases member
  | cons piece rest ih =>
      have longer := ih (base ++ planted base.length piece)
      rw [List.length_append, Tree.length_planted] at longer
      rw [plantedAll, ← List.append_assoc]
      cases isText : piece.text? with
      | some text =>
          obtain rfl := Piece.eq_token_of_text? isText
          exact longer member
      | none =>
          rw [rootsAt_cons isText] at member
          rcases List.mem_cons.mp member with rfl | member
          · rw [idAt_eq isText, List.length_append, List.length_append, Tree.length_planted,
              Tree.count_eq isText]
            omega
          · exact longer member

end Arena

/-- Pushing a construct behind the nodes of its parts gives it the number that `idAt` says, and the
arena is as if it had been laid out as a whole. -/
theorem push_eq {base arena : Arena} {kind : Tree.Kind} {indent : Nat} (piece : Piece)
    (pushable : Tree.IsPushable piece) (kind_eq : kind = kindAt base.length piece)
    (level_eq : indent = piece.level)
    (arena_eq : arena = base ++ plantedAll base.length piece.parts) :
    push kind indent arena = .ok (idAt base.length piece, base ++ planted base.length piece) := by
  subst kind_eq level_eq arena_eq
  obtain ⟨construct, parts⟩ := pushable
  have listed := Tree.children_perm construct parts base.length
  have inside : ∀ child ∈ (kindAt base.length piece).children,
      child < (base ++ plantedAll base.length piece.parts).length := fun child member =>
    Arena.lt_length_of_mem_rootsAt base (listed.mem_iff.mp member)
  have length : (base ++ plantedAll base.length piece.parts).length = idAt base.length piece := by
    rw [List.length_append, Tree.length_plantedAll, idAt_eq construct]
  rw [push, Arena.foldlM_adopt inside, Arena.foldl_withParent_perm listed, Arena.foldl_rootsAt,
    length, planted_construct construct, ← idAt_eq construct, ← List.append_assoc]
  rfl

end Maxscript
