import Maxscript.Convert
import Maxscript.Proofs.Engine.Block
import Maxscript.Proofs.Writer

/-!
# Conversion is never at fault

Scripts may be cut off or badly nested, and conversion still comes to an end: it answers with a
Python text, or it refuses a cast to a type that Python has no word for. Whatever the engine takes
out of its buffer is there, with every extent inside the buffer as it is by then, no budget is used
up, and the writer finds a node for every number.
-/

namespace Maxscript

/-- The budget for nested constructs is enough for every script, so that a refused cast is the only
way in which reading fails. -/
theorem readScript_safe (registry : Registry) (source : String) :
    Meets (readScript registry source) (fun _ => True) ConvertError.IsCast :=
  readBlock_safe registry 0 .root _

theorem readScript_built (registry : Registry) (source : String) :
    Meets (readScript registry source)
      (fun body => body.isBlock = true ∧ Built registry 0 body) ConvertError.Any := by
  refine (readBlock_built registry 0 .root (Token.ofSource registry source)).mono ?_
  rintro _ ⟨items, rfl, dense, each⟩
  exact ⟨rfl, .block .root dense each⟩

/-- The tree of a script that can be read is written as the script is. Its nodes refer to each other
by number, and no number is missing when they are written. -/
theorem write_readTree {registry : Registry} {source : String} {body : Piece} (unit : String)
    (read : readScript registry source = .ok body) :
    readTree registry source = .ok (.ofBody body) ∧
      (Tree.ofBody body).write unit = .ok (Python.renderBody unit body) := by
  obtain ⟨isBlock, built⟩ := (readScript_built registry source).of_ok read
  refine ⟨?_, Tree.write_eq unit isBlock ⟨0, built⟩⟩
  rw [readTree_eq, read]
  rfl

/-- Reading into an arena and writing what is in it is the same as rendering what is read. What is
proved about pieces so holds of the program, which never builds one. -/
theorem convertWith_eq (unit : String) (registry : Registry) (source : String) :
    convertWith unit registry source = Python.renderBody unit <$> readScript registry source := by
  cases read : readScript registry source with
  | error error =>
      rw [convertWith, readTree_eq, read]
      rfl
  | ok body =>
      obtain ⟨tree, text⟩ := write_readTree unit read
      rw [convertWith, tree]
      exact text

/-- As `convertWith_eq`, for the indentation that is used when no other is asked for. -/
theorem convert_eq (registry : Registry) (source : String) :
    convert registry source = Python.renderBody "\t" <$> readScript registry source :=
  convertWith_eq "\t" registry source

/-- A script is read into a tree in which every number belongs to a node, and that is written, or it
is refused for a cast. -/
theorem convertWith_never_internal (unit : String) (registry : Registry) (source : String) :
    (∃ tree text, readTree registry source = .ok tree ∧ tree.IsClosed ∧
      tree.write unit = .ok text ∧ convertWith unit registry source = .ok text) ∨
    ∃ typeName, readTree registry source = .error (.unsupportedCast typeName) ∧
      convertWith unit registry source = .error (.unsupportedCast typeName) := by
  rcases (readScript_safe registry source).ok_or_cast with ⟨body, read⟩ | ⟨typeName, refused⟩
  · left
    have proper := (Tree.ofBody_readScript registry source).of_ok read
    obtain ⟨tree, text⟩ := write_readTree unit read
    refine ⟨.ofBody body, Python.renderBody unit body, tree, proper.isClosed, text, ?_⟩
    rw [convertWith_eq, read]
    rfl
  · right
    refine ⟨typeName, ?_, ?_⟩
    · rw [readTree_eq, refused]
      rfl
    · rw [convertWith_eq, refused]
      rfl

end Maxscript
