import Maxscript.Proofs.Convert
import Maxscript.Proofs.Python.Kept
import Maxscript.Proofs.Tree.Levels

/-!
# The indentation of a converted script

What a node says about its level is what its lines are indented by. Nodes that open lines stand on
the level of the block around them, their bodies are blocks one level below, and the writer breaks
the lines accordingly. The levels come from the tree and the line breaks from the writer; both are
about the same pieces.
-/

namespace Maxscript

open Maxscript.Python (AllFit Folded Kept Layout bodyMarks flatten marks)
open Maxscript.Tree (IsLeveled Node Placed idAt kindAt ofBody)

/-- Every piece of a script is kept or folded, apart from newlines and from the properties of
structs, of which the values are kept. -/
theorem kept_or_folded {unit : String} {body piece : Piece} {start parent : Nat}
    (placed : Placed body start parent piece) :
    Kept unit body piece ∨ Folded unit body piece ∨ piece.isNewline = true ∨
      piece.isBinding = true ∧ ∀ value ∈ piece.parts, Kept unit body value := by
  induction placed with
  | body => exact .inl .body
  | @part start parent owner part front back inside shape ih =>
      have member := Piece.mem_parts_of_eq shape
      rcases ih with kept | folded | newline | ⟨-, values⟩
      · exact kept.part_cases member
      · exact .inr (.inl (folded.part member))
      · rw [Piece.eq_token_of_text? (beq_iff_eq.mp newline)] at member
        cases member
      · exact .inl (values part member)

/-- How the construct of a node is written. The marks stand in this way among those of the script,
unless the construct is folded into another line or not written at all. -/
structure IsLaidOut (unit : String) (body : Piece) (id : Nat) (node : Node) (piece : Piece) :
    Prop where
  placed : ∃ start parent, Placed body start parent piece ∧ id = idAt start piece ∧
    node = ⟨kindAt start piece, piece.level, some parent⟩
  fits : AllFit piece.texts node.indent (marks unit piece)
  layout : Layout unit node.indent piece (marks unit piece)
  written : marks unit piece <:+: bodyMarks unit body ∨ Folded unit body piece

theorem isLaidOut_of_placed {registry : Registry} {unit : String} {items : List Piece}
    {start parent : Nat} {piece : Piece} (built : Built registry 0 (.block 0 .root items))
    (placed : Placed (.block 0 .root items) start parent piece)
    (compound : piece.isCompound = true) :
    IsLaidOut unit (.block 0 .root items) (idAt start piece)
      ⟨kindAt start piece, piece.level, some parent⟩ piece := by
  obtain ⟨level, own⟩ := placed.built ⟨0, built⟩
  obtain rfl : piece.level = level := own.level_eq (.inl compound)
  constructor
  · exact ⟨start, parent, placed, rfl, rfl⟩
  · exact Python.fitsOn_of_built own
  · exact Python.layout_of_built own compound
  · rcases kept_or_folded placed with kept | folded | newline | ⟨isBinding, -⟩
    · left
      exact (kept.isInfix ⟨0, built⟩).2.trans (Python.infix_bodyMarks (by decide))
    · exact .inr folded
    · rw [Piece.eq_token_of_text? (beq_iff_eq.mp newline)] at compound
      cases compound
    · cases piece with
      | binding indent name value named => cases compound
      | _ => cases isBinding

/-- Every node that opens lines stands on the level of the first block above it, unless it is a
method, which is one level below its struct. Its bodies are blocks one level below. They start lines
of their own there, which they do not leave for a higher level, and what announces a second body
starts a line on the level of the node. -/
theorem convertWith_indentation {unit : String} {registry : Registry} {source text : String}
    (converted : convertWith unit registry source = .ok text) :
    ∃ body, readScript registry source = .ok body ∧ readTree registry source = .ok (ofBody body) ∧
      flatten unit (bodyMarks unit body) = text ∧ AllFit body.texts 0 (bodyMarks unit body) ∧
      ∀ id node, (ofBody body).nodes[id]? = some node → node.kind.isCompound = true →
        IsLeveled (ofBody body) id node ∧ ∃ piece, IsLaidOut unit body id node piece := by
  rw [convertWith_eq] at converted
  cases read : readScript registry source with
  | error error =>
      rw [read] at converted
      cases converted
  | ok body =>
      rw [read] at converted
      obtain rfl := Except.ok.inj converted
      have proper := (Tree.ofBody_readScript registry source).of_ok read
      have tree := (write_readTree unit read).1
      obtain ⟨items, rfl, dense, each⟩ :=
        (readBlock_built registry 0 .root (Token.ofSource registry source)).of_ok read
      have built : Built registry 0 (.block 0 .root items) := .block .root dense each
      refine ⟨_, rfl, tree, ?_, (Python.fitsOn_of_built built).bodyMarks, ?_⟩
      · rw [← Python.flatten_bodyMarks]
        exact String.empty_append.symm
      · intro id node found compound
        have notRoot : id ≠ Tree.root := by
          rintro rfl
          cases Option.some.inj found
          cases compound
        obtain ⟨start, parent, piece, placed, -, rfl, rfl⟩ := Tree.exists_placed found notRoot
        rw [Tree.kindAt_isCompound] at compound
        exact ⟨placed.isLeveled ⟨0, built⟩ proper rfl compound, piece,
          isLaidOut_of_placed built placed compound⟩

/-- A method is one level below its struct. The `try` in it has one body on the same line and one on
lines of its own. -/
theorem method_with_handler_indented :
    ∃ body, convertWith "  " Registry.empty "struct s (fn m = try b catch (c\n d))" =
        .ok ("class s:\n  def __init__(self):\n    pass\n" ++
          "  def m():\n    try: b\n    except:\n      c\n      d") ∧
      (ofBody body).nodes[5]? = some ⟨.function "m" [] [] 4, 1, some 6⟩ ∧
      (ofBody body).nodes[3]? = some ⟨.attempt 1 (some 2), 2, some 4⟩ ∧
      IsLeveled (ofBody body) 5 ⟨.function "m" [] [] 4, 1, some 6⟩ ∧
      IsLeveled (ofBody body) 3 ⟨.attempt 1 (some 2), 2, some 4⟩ ∧
      ∃ piece, IsLaidOut "  " body 3 ⟨.attempt 1 (some 2), 2, some 4⟩ piece := by
  have nodes : (fun body => ((ofBody body).nodes[5]?, (ofBody body).nodes[3]?)) <$>
      readScript Registry.empty "struct s (fn m = try b catch (c\n d))" =
        .ok (some ⟨.function "m" [] [] 4, 1, some 6⟩, some ⟨.attempt 1 (some 2), 2, some 4⟩) := by
    decide +kernel
  have converted : convertWith "  " Registry.empty "struct s (fn m = try b catch (c\n d))" =
      .ok ("class s:\n  def __init__(self):\n    pass\n" ++
        "  def m():\n    try: b\n    except:\n      c\n      d") := by
    rw [convertWith_eq]
    decide +kernel
  obtain ⟨body, read, -, -, -, each⟩ := convertWith_indentation converted
  rw [read] at nodes
  obtain ⟨method, attempt⟩ := Prod.mk.inj (Except.ok.inj nodes)
  exact ⟨body, converted, method, attempt, (each 5 _ method rfl).1, each 3 _ attempt rfl⟩

end Maxscript
