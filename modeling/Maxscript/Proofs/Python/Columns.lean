import Mathlib.Data.String.Basic
import Maxscript.Python

/-!
# The columns of assignments

The initialiser of a class assigns one property on each line, and tabs stand between the name of a
property and its `=`. How many there are is computed from the lengths of the names alone. Here the
tabs are followed from stop to stop, with stops every four columns: whatever the lengths, they lead
to the same column on all the lines.
-/

namespace Maxscript.Python

/-! ### Columns -/

def nextStop (column : Nat) : Nat := 4 * (column / 4 + 1)

/-- The column behind a text that starts in the given one. A tab leads to the next stop, and any
other character is as wide as it has bytes. -/
def columnAfter : Nat → List Char → Nat
  | column, [] => column
  | column, c :: cs => columnAfter (if c = '\t' then nextStop column else column + c.utf8Size) cs

/-- The column behind a text is reached piece by piece, from the column that the piece before it
leads to. -/
@[simp] theorem columnAfter_append (column : Nat) (front back : List Char) :
    columnAfter column (front ++ back) = columnAfter (columnAfter column front) back := by
  induction front generalizing column with
  | nil => rfl
  | cons c front ih => exact ih _

/-- A text without tabs is as wide as it has bytes, wherever it starts. -/
theorem columnAfter_of_no_tab (column : Nat) {text : String} (noTab : '\t' ∉ text.toList) :
    columnAfter column text.toList = column + text.utf8ByteSize := by
  rw [← String.utf8Len_toList]
  generalize text.toList = cs at noTab
  induction cs generalizing column with
  | nil => rfl
  | cons c cs ih =>
      rw [List.mem_cons, not_or] at noTab
      rw [columnAfter, if_neg (Ne.symm noTab.1), ih _ noTab.2, String.utf8Len_cons]
      omega

/-- The first tab leads to the next stop, and each of the others four columns further. -/
theorem columnAfter_tabs (column count : Nat) :
    columnAfter column (Text.times "\t" (count + 1)).toList = 4 * (column / 4 + count + 1) := by
  induction count generalizing column with
  | zero => rfl
  | succ count ih =>
      have step : columnAfter column (Text.times "\t" (count + 1 + 1)).toList =
          columnAfter (nextStop column) (Text.times "\t" (count + 1)).toList := by
        rw [Text.times, String.toList_append, columnAfter_append]
        rfl
      rw [step, ih, nextStop]
      omega

/-! ### Tabs between names and signs -/

/-- The stops of a name are those that it reaches with `self.` in front of it, and the next one. -/
theorem tabStops_eq (length : Nat) : tabStops length = (length + 5) / 4 + 1 := by
  rw [tabStops]
  omega

theorem tabStops_le {shorter longer : Nat} (le : shorter ≤ longer) :
    tabStops shorter ≤ tabStops longer := by
  rw [tabStops, tabStops]
  omega

/-- One of the names is as long as any of them, counted in bytes. -/
structure IsLongest (names : List String) (longest : String) : Prop where
  member : longest ∈ names
  bound : ∀ name ∈ names, name.utf8ByteSize ≤ longest.utf8ByteSize

theorem IsLongest.foldl_max {names : List String} {longest : String}
    (isLongest : IsLongest names longest) :
    (names.map String.utf8ByteSize).foldl max 0 = longest.utf8ByteSize := by
  have greatest : (names.map String.utf8ByteSize).max? = some longest.utf8ByteSize := by
    apply List.max?_eq_some_iff.mpr
    refine ⟨List.mem_map_of_mem isLongest.member, ?_⟩
    intro width attained
    obtain ⟨name, member, rfl⟩ := List.mem_map.mp attained
    exact isLongest.bound name member
  rw [List.foldl_max, greatest, Option.getD_some, Nat.max_eq_right (Nat.zero_le _)]

/-- The tabs between a name and its sign. -/
def tabsTo (longest name : String) : Nat :=
  tabStops longest.utf8ByteSize + 1 - tabStops name.utf8ByteSize

section

variable {longest name : String} (le : name.utf8ByteSize ≤ longest.utf8ByteSize)
include le

/-- The subtraction is never cut off at zero: no name reaches further than the longest one. -/
theorem tabsTo_add :
    tabsTo longest name + tabStops name.utf8ByteSize = tabStops longest.utf8ByteSize + 1 := by
  have := tabStops_le le
  rw [tabsTo]
  omega

theorem one_le_tabsTo : 1 ≤ tabsTo longest name := by
  have := tabStops_le le
  have := tabsTo_add le
  omega

/-- The tabs lead to the stop of the longest name, whatever the name they stand behind. This holds
from any tab stop on, where an indentation of tabs ends. -/
theorem columnAfter_tabsTo {start : Nat} (stop : 4 ∣ start) :
    columnAfter (start + ("self." ++ name).utf8ByteSize)
        (Text.times "\t" (tabsTo longest name)).toList =
      start + 4 * tabStops longest.utf8ByteSize := by
  obtain ⟨stops, rfl⟩ := stop
  obtain ⟨more, count⟩ := Nat.exists_eq_add_of_le' (one_le_tabsTo le)
  have total := tabsTo_add le
  have width : ("self." ++ name).utf8ByteSize = 5 + name.utf8ByteSize :=
    String.utf8ByteSize_append
  rw [count, columnAfter_tabs, width]
  rw [count, tabStops_eq, tabStops_eq] at total
  rw [tabStops_eq]
  omega

end

theorem tabsTo_le_tabsTo {longest shorter longer : String}
    (le : shorter.utf8ByteSize ≤ longer.utf8ByteSize) :
    tabsTo longest longer ≤ tabsTo longest shorter := by
  have := tabStops_le le
  rw [tabsTo, tabsTo]
  omega

/-! ### Classes -/

def propertyName? : Piece → Option String
  | .binding _ name _ _ => some name
  | _ => none

theorem map_fst_renderProperties (unit : String) (members : List Piece) :
    (renderProperties unit members).map Prod.fst = members.filterMap propertyName? := by
  induction members with
  | nil => rfl
  | cons member rest ih =>
      cases member with
      | binding indent name value named =>
          cases value with
          | none => exact congrArg (name :: ·) ih
          | some value => exact congrArg (name :: ·) ih
      | _ => exact ih

/-- The assignments are written one by one, each with the number of tabs that its own name needs. -/
theorem assignments_eq {properties : List (String × String)} {longest : String}
    (isLongest : IsLongest (properties.map Prod.fst) longest) :
    assignments properties = properties.map fun property =>
      "self." ++ property.1 ++ Text.times "\t" (tabsTo longest property.1) ++ "= " ++
        property.2 := by
  have width := isLongest.foldl_max
  rw [List.map_map] at width
  simp only [assignments, assignment, tabsTo]
  apply List.map_congr_left
  intro property member
  exact congrArg (fun widest => "self." ++ property.1 ++
    Text.times "\t" (tabStops widest + 1 - tabStops property.1.utf8ByteSize) ++ "= " ++
      property.2) width

/-- The signs of all the assignments in a class stand in the same column, which is the stop of the
longest name. Every name has a tab behind it, and a longer one never has more of them. A name is
counted in bytes, which is the column that an editor shows if it has no tabs of its own. -/
theorem struct_assignments_line_up (unit name : String) (indent : Nat) (members : List Piece)
    {longest : String} (isLongest : IsLongest (members.filterMap propertyName?) longest)
    {start : Nat} (indentation : columnAfter 0 (Text.times unit (indent + 2)).toList = start)
    (stop : 4 ∣ start) :
    ∃ tabs : String → Nat,
      render unit (.struct indent name members) =
        "class " ++ name ++ ":" ++ lineBreak unit (indent + 1) ++ "def __init__(self):" ++
          String.join ((renderProperties unit members).map fun property =>
            lineBreak unit (indent + 2) ++ ("self." ++ property.1 ++
              Text.times "\t" (tabs property.1) ++ "= " ++ property.2)) ++
          String.join ((renderMethods unit members).map (lineBreak unit (indent + 1) ++ ·)) ∧
      (∀ property ∈ members.filterMap propertyName?,
        1 ≤ tabs property ∧
        tabs property + tabStops property.utf8ByteSize = tabStops longest.utf8ByteSize + 1 ∧
        columnAfter (start + ("self." ++ property).utf8ByteSize)
            (Text.times "\t" (tabs property)).toList =
          start + 4 * tabStops longest.utf8ByteSize ∧
        ('\t' ∉ property.toList →
          columnAfter 0 (Text.times unit (indent + 2) ++ ("self." ++ property) ++
              Text.times "\t" (tabs property)).toList =
            start + 4 * tabStops longest.utf8ByteSize)) ∧
      ∀ shorter ∈ members.filterMap propertyName?, ∀ longer ∈ members.filterMap propertyName?,
        shorter.utf8ByteSize ≤ longer.utf8ByteSize → tabs longer ≤ tabs shorter := by
  refine ⟨tabsTo longest, ?_, ?_, ?_⟩
  · rw [← map_fst_renderProperties unit] at isLongest
    have nonempty : ¬(renderProperties unit members).isEmpty = true := by
      intro empty
      have member := isLongest.member
      rw [List.isEmpty_iff.mp empty] at member
      exact List.not_mem_nil member
    rw [render, classText, if_neg nonempty, assignments_eq isLongest, List.map_map]
    rfl
  · intro property member
    have le := isLongest.bound property member
    have aligned := columnAfter_tabsTo le stop
    refine ⟨one_le_tabsTo le, tabsTo_add le, aligned, ?_⟩
    intro noTab
    have plain : '\t' ∉ ("self." ++ property).toList := by
      simpa using noTab
    rw [String.toList_append, String.toList_append, columnAfter_append, columnAfter_append,
      indentation, columnAfter_of_no_tab start plain, aligned]
  · intro shorter _ longer _ le
    exact tabsTo_le_tabsTo le

/-- Three names that end before, on and behind a stop, with two bytes in one of their letters. -/
theorem mixed_names_line_up :
    (IsLongest ["id", "größe", "abc"] "größe" ∧
      columnAfter 0 (Text.times "\t" 2).toList = 8) ∧
    ∃ tabs : String → Nat,
      render "\t" (.struct 0 "S" [.binding 2 "id" none false,
          .binding 2 "größe" (some (.token "1")) false, .binding 2 "abc" none false]) =
        "class S:\n\tdef __init__(self):\n\t\tself.id" ++ Text.times "\t" (tabs "id") ++
          "= None\n\t\tself.größe" ++ Text.times "\t" (tabs "größe") ++
          "= 1\n\t\tself.abc" ++ Text.times "\t" (tabs "abc") ++ "= None" ∧
      columnAfter 0 ("\t\tself.id" ++ Text.times "\t" (tabs "id")).toList = 24 ∧
      columnAfter 0 ("\t\tself.größe" ++ Text.times "\t" (tabs "größe")).toList = 24 ∧
      columnAfter 0 ("\t\tself.abc" ++ Text.times "\t" (tabs "abc")).toList = 24 := by
  have isLongest : IsLongest ["id", "größe", "abc"] "größe" := ⟨by decide, by decide⟩
  refine ⟨⟨isLongest, rfl⟩, ?_⟩
  obtain ⟨tabs, text, columns, -⟩ := struct_assignments_line_up "\t" "S" 0
    [.binding 2 "id" none false, .binding 2 "größe" (some (.token "1")) false,
      .binding 2 "abc" none false] isLongest rfl (by decide)
  refine ⟨tabs, ?_, ?_, ?_, ?_⟩
  · rw [text, ← String.toList_inj]
    simp [lineBreak, renderProperties, renderMethods, render, Text.times]
  · exact (columns "id" (by decide)).2.2.2 (by decide)
  · exact (columns "größe" (by decide)).2.2.2 (by decide)
  · exact (columns "abc" (by decide)).2.2.2 (by decide)

end Maxscript.Python
