import Mathlib.Data.List.Basic
import Maxscript.Naming.Stub

/-!
# Merged names

A list of names that others were merged into has a spelling for every name of both lists. What was
found decides how a name is spelled, and a listed spelling stays only where nothing was found that
differs from it in case alone. Merging the same names once more changes nothing.
-/

namespace Maxscript.Naming

open Unicode (lower)

variable {listed found : List String} {name : String}

/-- A name is in the merged list if it was found, or if it was listed and no name that differs from
it in case only was found. -/
theorem mem_mergeNames : name ∈ mergeNames listed found ↔
    name ∈ found ∨ name ∈ listed ∧ ∀ other ∈ found, lower other ≠ lower name := by
  have replaced : Std.ExtTreeSet.contains (.ofList (found.map lower)) (lower name) = false ↔
      ∀ other ∈ found, lower other ≠ lower name := by
    rw [Std.ExtTreeSet.contains_ofList, ← Bool.not_eq_true, List.contains_iff_mem]
    simp
  rw [mergeNames, Std.ExtTreeSet.mem_toList, Std.ExtTreeSet.mem_ofList, List.contains_iff_mem,
    List.mem_append, List.mem_filter, Bool.not_eq_true', replaced, or_comm]

theorem pairwise_mergeNames (listed found : List String) :
    (mergeNames listed found).Pairwise (· < ·) := by
  refine Std.ExtTreeSet.ordered_toList.imp ?_
  intro first second before
  exact (compareOfLessAndEq_eq_lt).mp before

/-- No name is forgotten, and none is made up. Only its spelling may change, to that of the name
that was found. -/
theorem mem_map_lower_mergeNames {key : String} :
    key ∈ (mergeNames listed found).map lower ↔
      key ∈ listed.map lower ∨ key ∈ found.map lower := by
  simp only [List.mem_map]
  constructor
  · rintro ⟨name, member, rfl⟩
    rcases mem_mergeNames.mp member with new | ⟨old, -⟩
    · exact .inr ⟨name, new, rfl⟩
    · exact .inl ⟨name, old, rfl⟩
  · rintro (⟨name, old, rfl⟩ | ⟨name, new, rfl⟩)
    · -- A listed name that is left out is found in another spelling.
      by_cases replaced : ∃ other ∈ found, lower other = lower name
      · obtain ⟨other, new, same⟩ := replaced
        exact ⟨other, mem_mergeNames.mpr (.inl new), same⟩
      · refine ⟨name, mem_mergeNames.mpr (.inr ⟨old, fun other new same => ?_⟩), rfl⟩
        exact replaced ⟨other, new, same⟩
    · exact ⟨name, mem_mergeNames.mpr (.inl new), rfl⟩

/-- A merged list depends on nothing but the names that it holds. It is sorted and without
repetition, so two such lists of the same names are equal. -/
theorem mergeNames_congr {other : List String}
    (same : ∀ name, name ∈ mergeNames listed found ↔ name ∈ mergeNames other found) :
    mergeNames listed found = mergeNames other found := by
  simp only [mergeNames, Std.ExtTreeSet.mem_toList] at same
  rw [mergeNames, mergeNames, Std.ExtTreeSet.ext_mem same]

theorem mergeNames_mergeNames (listed found : List String) :
    mergeNames (mergeNames listed found) found = mergeNames listed found := by
  refine mergeNames_congr fun name => ?_
  rw [mem_mergeNames, mem_mergeNames]
  constructor
  · rintro (new | ⟨merged, -⟩)
    · exact .inl new
    · exact merged
  · rintro (new | ⟨old, apart⟩)
    · exact .inl new
    · exact .inr ⟨.inr ⟨old, apart⟩, apart⟩

/-- Merging forgets no name, prefers the spellings that were found, and is done after one step. -/
theorem mergeNames_keeps_all (listed found : List String) :
    (mergeNames listed found).Pairwise (· < ·) ∧
    (∀ key, key ∈ (mergeNames listed found).map lower ↔
      key ∈ listed.map lower ∨ key ∈ found.map lower) ∧
    (∀ name ∈ found, name ∈ mergeNames listed found) ∧
    (∀ name ∈ listed, name ∉ found →
      (name ∈ mergeNames listed found ↔ ∀ other ∈ found, lower other ≠ lower name)) ∧
    mergeNames (mergeNames listed found) found = mergeNames listed found := by
  refine ⟨pairwise_mergeNames listed found, fun key => mem_map_lower_mergeNames, ?_, ?_,
    mergeNames_mergeNames listed found⟩
  · intro name new
    exact mem_mergeNames.mpr (.inl new)
  · intro name old missing
    rw [mem_mergeNames]
    exact ⟨fun kept => (kept.resolve_left missing).2, fun apart => .inr ⟨old, apart⟩⟩

end Maxscript.Naming
