import Maxscript.Proofs.Engine.Block

/-!
# Every node has one owner

Entries of the buffer are copied into the nodes that list them, and the last node that is pushed
becomes the parent of whatever it lists. That no node ends up with two owners, or with none, rests
on the copies: an entry that was copied is spliced away before the next node is pushed, and what is
cut out to be read as a block holds no nodes yet.
-/

namespace Maxscript.Tree

/-- The arena that a script is read into is a proper tree. -/
theorem readTree_isProper {registry : Registry} {source : String} {tree : Tree}
    (read : readTree registry source = .ok tree) : tree.IsProper := by
  rw [readTree_eq] at read
  cases found : readScript registry source with
  | error error =>
      rw [found] at read
      cases read
  | ok body =>
      rw [found] at read
      obtain rfl : ofBody body = tree := Except.ok.inj read
      exact (ofBody_readScript registry source).of_ok found

/-- A script with constructs of most kinds, some of them with several parts. -/
def nestedScript : String :=
  "fn f a k:#(x[2]) = (for i in a do (try b catch (if i then c as float else ())))"

theorem nestedScript_isProper :
    ∃ tree, readTree Registry.empty nestedScript = .ok tree ∧ tree.size = 19 ∧ tree.IsProper := by
  have size : (fun body => (ofBody body).size) <$> readScript Registry.empty nestedScript =
      .ok 19 := by
    decide +kernel
  have read := readTree_eq Registry.empty nestedScript
  cases found : readScript Registry.empty nestedScript with
  | error error =>
      rw [found] at size
      cases size
  | ok body =>
      rw [found] at size read
      exact ⟨ofBody body, read, Except.ok.inj size, readTree_isProper read⟩

end Maxscript.Tree
