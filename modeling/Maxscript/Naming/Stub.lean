import Std.Data.ExtTreeSet
import Maxscript.Text
import Maxscript.Unicode.Lowercasing
import Maxscript.Unicode.Word

/-!
# Function names of a stub file

The functions of the host are listed in a Python stub file, by the `def` of each. The names found
there are merged into a list of names that may spell some of them differently.
-/

namespace Maxscript.Naming

open Unicode (isWhiteSpace isWordCharacter lower)

def afterWord? (word : List Char) (cs : List Char) : Option (List Char) :=
  if word.isPrefixOf cs then some (cs.drop word.length) else none

/-- The name that is defined at the front of a text, and the text after its opening bracket. -/
def definition? (cs : List Char) : Option (List Char × List Char) := do
  let afterDef ← afterWord? ['d', 'e', 'f'] cs
  let atName := afterDef.dropWhile isWhiteSpace
  let name := atName.takeWhile isWordCharacter
  let afterName := (atName.dropWhile isWordCharacter).dropWhile isWhiteSpace
  if atName.length = afterDef.length ∨ name.isEmpty then none
  else match afterName with
    | '(' :: rest => some (name, rest)
    | _ => none

theorem length_lt_of_definition? {cs name rest : List Char}
    (h : definition? cs = some (name, rest)) : rest.length < cs.length := by
  obtain ⟨afterDef, hdef, h⟩ := Option.bind_eq_some_iff.1 h
  have hcs : afterDef.length ≤ cs.length := by
    rw [afterWord?] at hdef
    split at hdef
    · cases hdef
      simp
    · cases hdef
  simp only at h
  split at h
  · cases h
  · split at h
    · next heq =>
      obtain ⟨-, rfl⟩ := Prod.mk.inj (Option.some.inj h)
      have h1 := congrArg List.length heq
      have h2 := List.Sublist.length_le (List.dropWhile_sublist isWhiteSpace
        (l := List.dropWhile isWordCharacter (List.dropWhile isWhiteSpace afterDef)))
      have h3 := List.Sublist.length_le (List.dropWhile_sublist isWordCharacter
        (l := List.dropWhile isWhiteSpace afterDef))
      have h4 := List.Sublist.length_le (List.dropWhile_sublist isWhiteSpace (l := afterDef))
      simp only [List.length_cons] at h1
      omega
    · cases h

/-- The names that a text defines, in order. -/
def definitions : List Char → List (List Char)
  | [] => []
  | c :: cs =>
    match h : definition? (c :: cs) with
    | some (name, rest) =>
      have := length_lt_of_definition? h
      name :: definitions rest
    | none => definitions cs
termination_by cs => cs.length
decreasing_by
  · exact this
  · exact Nat.lt_succ_self _

/-- The names of the public functions of a stub file, in order. -/
def stubNames (stub : String) : List String :=
  ((definitions stub.toList).filter fun name => name.head? != some '_').map String.ofList

/-- Merges names that were found into those that are listed. A listed name gives way to a found
one that differs from it only in case. The result is sorted. -/
def mergeNames (listed found : List String) : List String :=
  let replaced := Std.ExtTreeSet.ofList (found.map lower)
  let kept := listed.filter fun name => !replaced.contains (lower name)
  (Std.ExtTreeSet.ofList (kept ++ found)).toList

end Maxscript.Naming
