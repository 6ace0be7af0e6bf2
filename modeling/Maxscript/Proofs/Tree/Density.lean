import Maxscript.Proofs.Tree.Placement

/-!
# Blocks are dense

The pass over a block leaves nothing behind that starts a construct. So the tokens among the items
of a block node, up to a bracket that closes nothing, are none of the marks and words that a pass
acts on: whatever could be recognised there has become a node.
-/

namespace Maxscript

namespace Reader

theorem Dense.tail {first : Piece} {rest : List Piece} (dense : Dense (first :: rest))
    (notClose : first.is ")" = false) : Dense rest := by
  intro item member
  refine dense item ?_
  rw [List.takeWhile_cons_of_pos (by simp [notClose])]
  exact List.mem_cons_of_mem first member

/-- An item is settled if no item up to it is a closing bracket. Behind such a bracket nothing was
read, and nothing is claimed. -/
theorem Dense.settled_of_getElem? {items : List Piece} (dense : Dense items) {position : Nat}
    {item : Piece} (found : items[position]? = some item)
    (opened : ∀ before ≤ position, ∀ other, items[before]? = some other → other.is ")" = false) :
    Settled item := by
  induction items generalizing position with
  | nil => simp at found
  | cons first rest ih =>
      have notClose : first.is ")" = false := opened 0 (Nat.zero_le _) first rfl
      cases position with
      | zero =>
          obtain rfl : first = item := by simpa using found
          apply dense
          rw [List.takeWhile_cons_of_pos (by simp [notClose])]
          exact List.mem_cons_self
      | succ position =>
          refine ih (dense.tail notClose) (by simpa using found) fun before le other inside => ?_
          exact opened (before + 1) (Nat.succ_le_succ le) other (by simpa using inside)

end Reader

namespace Tree

/-- Tokens stand in a node where they stand in the construct, since constructs become numbers in
their places. -/
theorem getElem?_elementsAt_token {start position : Nat} {pieces : List Piece} {text : String} :
    (elementsAt start pieces)[position]? = some (.token text) ↔
      pieces[position]? = some (.token text) := by
  induction pieces generalizing start position with
  | nil => simp [elementsAt]
  | cons piece rest ih =>
      cases position with
      | zero => cases piece <;> simp [elementsAt, elementAt]
      | succ position => simpa [elementsAt] using ih

/-- No token of a block stands for a construct that was not read, as long as no bracket before it
closes nothing. -/
theorem readScript_blocks_dense {registry : Registry} {source : String} {body : Piece}
    (read : readScript registry source = .ok body) {id indent : Nat} {role : Role}
    {items : List Element} {parent : Option Nat}
    (found : (ofBody body).nodes[id]? = some ⟨.block role items, indent, parent⟩)
    {position : Nat} {text : String} (token : items[position]? = some (.token text))
    (opened : ∀ before ≤ position, items[before]? ≠ some (.token ")")) :
    text ∉ ["(", "[", ","] ∧
      Text.foldCase text ∉ ["struct", "fn", "function", "if", "try", "for"] := by
  have notRoot : id ≠ root := by
    rintro rfl
    cases Option.some.inj found
  obtain ⟨start, owner, piece, placed, -, rfl, shape⟩ := exists_placed found notRoot
  have block := (readBlock_built registry 0 .root (Token.ofSource registry source)).of_ok read
  obtain ⟨level, built⟩ := placed.built ⟨0, block.isValue.built⟩
  cases piece with
  | block indent role pieces =>
      obtain ⟨same, -, -⟩ := Node.mk.inj shape
      obtain ⟨-, rfl⟩ := Kind.block.inj same
      rw [getElem?_elementsAt_token] at token
      have settled := built.dense.settled_of_getElem? token ?_
      · obtain ⟨marks, words⟩ := settled text rfl
        refine ⟨fun member => marks ?_, words⟩
        simp only [Reader.reducibleMarks, List.mem_cons] at member ⊢
        tauto
      · intro before le other inside
        cases close : other.is ")" with
        | false => rfl
        | true =>
            obtain rfl := Piece.eq_token_of_text? (beq_iff_eq.mp close)
            exact absurd (getElem?_elementsAt_token.mpr inside) (opened before le)
  | _ => cases (Node.mk.inj shape).1

/-- The `(` behind the lone `)` stays a token, and what is before it has been read. -/
theorem lone_close_dense :
    ∃ body items, readScript Registry.empty "x = f[1] ) (" = .ok body ∧
      (ofBody body).nodes[2]? = some ⟨.block .root items, 0, some root⟩ ∧
      items = [.token "x", .token "=", .node 1, .token ")", .token "("] ∧
      items[1]? = some (.token "=") ∧ "=" ∉ ["(", "[", ","] ∧
      Text.foldCase "=" ∉ ["struct", "fn", "function", "if", "try", "for"] := by
  have node : (fun body => (ofBody body).nodes[2]?) <$>
      readScript Registry.empty "x = f[1] ) (" =
        .ok (some ⟨.block .root [.token "x", .token "=", .node 1, .token ")", .token "("], 0,
          some root⟩) := by
    decide +kernel
  cases read : readScript Registry.empty "x = f[1] ) (" with
  | error error =>
      rw [read] at node
      cases node
  | ok body =>
      rw [read] at node
      have found := Except.ok.inj node
      have token : [Element.token "x", .token "=", .node 1, .token ")", .token "("][1]? =
          some (.token "=") := rfl
      exact ⟨body, _, rfl, found, rfl, token,
        readScript_blocks_dense read found token (by decide)⟩

end Tree

end Maxscript
