import Mathlib.Data.List.TakeDrop
import Maxscript.Proofs.Registry
import Maxscript.Proofs.Text
import Maxscript.Proofs.Unicode.Lowercasing
import Maxscript.Store

/-!
# Registries as lists of lines

What a stored registry is written as is read back as it was: the lines have no white space at their
ends, and the names of renames have no `=`. The registry of the lines holds the key of every line
that is not blank, and of the table of renames all but the entry of the empty name.
-/

namespace Maxscript

/-! ### Keys -/

@[simp] theorem Text.trimmed_trimmed (text : String) : trimmed (trimmed text) = trimmed text := by
  rw [trimmed, trimmed, String.toList_ofList, (isFlush_trim _).trim_eq]

namespace Registry

theorem isFlush_key (name : String) : Text.IsFlush (key name).toList := by
  have flush := Text.isFlush_trim name.toList
  rw [key, Unicode.lower, String.toList_ofList, Text.trimmed, String.toList_ofList]
  exact ⟨Unicode.head?_lowerAfter flush.head [], Unicode.getLast?_lowerAfter flush.last []⟩

@[simp] theorem key_trimmed (name : String) : key (Text.trimmed name) = key name := by
  rw [key, Text.trimmed_trimmed, key]

@[simp] theorem key_key (name : String) : key (key name) = key name := by
  have trimmed : Text.trimmed (key name) = key name := by
    rw [Text.trimmed, (isFlush_key name).trim_eq, String.ofList_toList]
  rw [key, trimmed, key, Unicode.lower_lower]

theorem mem_of_mem_key {mark : Char} (ascii : mark.toNat ≤ 96) {name : String}
    (member : mark ∈ (key name).toList) : mark ∈ name.toList := by
  have inside := Unicode.mem_of_mem_lower ascii member
  rw [Text.trimmed, String.toList_ofList] at inside
  exact Text.mem_of_mem_trim inside

/-! ### Entries -/

variable {registry : Registry} {entry name : String} {kind other : Classification}

theorem mem_names_classify : entry ∈ (registry.classify name kind).names other ↔
    entry ∈ registry.names other ∨ other = kind ∧ entry ≠ "" ∧ key name = entry := by
  rw [classify.eq_def]
  by_cases blank : key name = ""
  · rw [if_pos (by simp [blank]), blank]
    grind
  · rw [if_neg (by simpa using blank)]
    cases kind <;> cases other <;> simp [names, Std.ExtTreeSet.mem_insert] <;> grind

theorem mem_names_extend {words : List String} :
    entry ∈ (registry.extend words kind).names other ↔
      entry ∈ registry.names other ∨
        other = kind ∧ entry ≠ "" ∧ ∃ word ∈ words, key word = entry := by
  induction words generalizing registry with
  | nil => simp [extend]
  | cons word words ih =>
      rw [extend, List.foldl_cons, ← extend, ih, mem_names_classify]
      grind

@[simp] theorem renames_extend (words : List String) :
    (registry.extend words kind).renames = registry.renames := by
  induction words generalizing registry with
  | nil => rfl
  | cons word words ih => rw [extend, List.foldl_cons, ← extend, ih, renames_classify]

@[simp] theorem names_addRename (target : String) :
    (registry.addRename name target).names kind = registry.names kind := by
  rw [addRename]
  split
  · rfl
  · cases kind <;> rfl

theorem getElem?_renames_addRename (target : String) :
    (registry.addRename name target).renames[entry]? =
      if entry ≠ "" ∧ key name = entry then some (Text.trimmed target)
      else registry.renames[entry]? := by
  rw [addRename]
  by_cases blank : key name = ""
  · have other : ¬(entry ≠ "" ∧ key name = entry) := by
      rintro ⟨named, rfl⟩
      exact named blank
    rw [if_pos (by simp [blank]), if_neg other]
  · rw [if_neg (by simpa using blank), Std.ExtTreeMap.getElem?_insert]
    by_cases same : key name = entry
    · simp [same, same ▸ blank]
    · simp [same]

/-- Two registries are the same if the same entries are found in them. The order in which names were
added is not part of a registry. -/
theorem ext_entries {first second : Registry}
    (names : ∀ kind entry, entry ∈ first.names kind ↔ entry ∈ second.names kind)
    (renames : ∀ entry : String, first.renames[entry]? = second.renames[entry]?) :
    first = second := by
  have builtins := Std.ExtTreeSet.ext_mem (names .builtinFunction)
  have functions := Std.ExtTreeSet.ext_mem (names .userFunction)
  have held := Std.ExtTreeSet.ext_mem (names .userVariable)
  have table := Std.ExtTreeMap.ext_getElem? renames
  cases first
  cases second
  simp only [Registry.names] at builtins functions held
  simp_all

end Registry

namespace Store

/-! ### Lines of a file -/

/-- A text that is read back from a line as it was written. -/
structure IsLine (text : String) : Prop where
  flush : Text.IsFlush text.toList
  single : '\n' ∉ text.toList

theorem IsLine.trimmed_eq {text : String} (line : IsLine text) : Text.trimmed text = text := by
  rw [Text.trimmed, line.flush.trim_eq, String.ofList_toList]

theorem isLine_trimmed {text : String} (single : '\n' ∉ text.toList) :
    IsLine (Text.trimmed text) := by
  rw [Text.trimmed]
  constructor
  · rw [String.toList_ofList]
    exact Text.isFlush_trim _
  · rw [String.toList_ofList]
    exact fun member => single (Text.mem_of_mem_trim member)

/-- Lines are found again as they were written. Each is trimmed and has no line break, and so
cutting and trimming the text changes none. -/
theorem linesOf_contentOf {lines : List String} (isLine : ∀ line ∈ lines, IsLine line) :
    linesOf (contentOf lines) = lines := by
  induction lines with
  | nil => rfl
  | cons line lines ih =>
      obtain ⟨here, others⟩ := List.forall_mem_cons.mp isLine
      have content : (contentOf (line :: lines)).toList =
          line.toList ++ '\n' :: (contentOf lines).toList := by
        simp [contentOf, String.join_cons]
      rw [linesOf, content, Text.lines_cons here.flush here.single, List.map_cons, ← linesOf,
        ih others]
      exact congrArg (· :: lines) here.trimmed_eq

theorem isLine_of_mem_linesOf {content line : String} (member : line ∈ linesOf content) :
    IsLine line := by
  obtain ⟨text, inside, rfl⟩ := List.mem_map.mp member
  have single := Text.newline_not_mem_of_mem_lines inside
  rw [← String.toList_ofList (l := text)] at single ⊢
  exact isLine_trimmed single

/-! ### Lines of renames -/

/-- A rename that a line can hold. -/
structure IsEntry (name target : String) : Prop where
  isKey : Registry.key name = name
  unmarked : '=' ∉ name.toList
  single : '\n' ∉ name.toList
  isLine : IsLine target

/-- What is made of a name and a target before they are kept, so that they can be written on one
line and cut apart again. -/
theorem isEntry_key {name target : String} (unmarked : '=' ∉ name.toList)
    (singleName : '\n' ∉ name.toList) (singleTarget : '\n' ∉ target.toList) :
    IsEntry (Registry.key name) (Text.trimmed target) where
  isKey := Registry.key_key name
  unmarked marked := unmarked (Registry.mem_of_mem_key (by decide) marked)
  single broken := singleName (Registry.mem_of_mem_key (by decide) broken)
  isLine := isLine_trimmed singleTarget

def renameLine (entry : String × String) : String := entry.1 ++ "=" ++ entry.2

theorem rename?_eq (line : String) :
    rename? line = (line.toList.dropWhile (· != '=')).tail?.map fun target =>
      (Registry.key (String.ofList (line.toList.takeWhile (· != '='))),
        Text.trimmed (String.ofList target)) := by
  rw [rename?, List.span_eq_takeWhile_dropWhile]
  cases line.toList.dropWhile (· != '=') with
  | nil => rfl
  | cons mark target => simp [Text.trimmed]

/-- An entry is found again on its line. The line is cut at the first `=`, which the name does not
have. -/
theorem rename?_renameLine {name target : String} (isEntry : IsEntry name target) :
    rename? (renameLine (name, target)) = some (name, target) := by
  have clear : ∀ c ∈ name.toList, (c != '=') = true := by
    intro c member
    rw [bne_iff_ne]
    rintro rfl
    exact isEntry.unmarked member
  have text : (renameLine (name, target)).toList = name.toList ++ '=' :: target.toList := by
    simp [renameLine]
  rw [rename?_eq, text, List.takeWhile_append_of_pos clear, List.dropWhile_append_of_pos clear]
  simp [isEntry.isKey, isEntry.isLine.trimmed_eq]

theorem isEntry_of_rename? {line name target : String} (isLine : IsLine line)
    (cut : rename? line = some (name, target)) : IsEntry name target := by
  rw [rename?_eq, Option.map_eq_some_iff] at cut
  obtain ⟨rest, behind, pair⟩ := cut
  obtain ⟨rfl, rfl⟩ := Prod.mk.inj pair
  apply isEntry_key
  · rw [String.toList_ofList]
    intro inside
    exact absurd (List.all_eq_true.mp List.all_takeWhile '=' inside) (by decide)
  · rw [String.toList_ofList]
    exact fun inside => isLine.single ((List.takeWhile_prefix _).subset inside)
  · rw [String.toList_ofList]
    intro inside
    cases shape : line.toList.dropWhile (· != '=') with
    | nil =>
        rw [shape] at behind
        cases behind
    | cons mark target =>
        rw [shape] at behind
        obtain rfl : target = rest := Option.some.inj behind
        have later := List.mem_cons_of_mem mark inside
        rw [← shape] at later
        exact isLine.single ((List.dropWhile_suffix _).subset later)

theorem isLine_renameLine {name target : String} (isEntry : IsEntry name target) :
    IsLine (renameLine (name, target)) := by
  have text : (renameLine (name, target)).toList = name.toList ++ '=' :: target.toList := by
    simp [renameLine]
  have flush := Registry.isFlush_key name
  rw [isEntry.isKey] at flush
  constructor
  · rw [text]
    constructor
    · intro c found
      cases shape : name.toList with
      | nil =>
          rw [shape] at found
          obtain rfl : '=' = c := Option.some.inj found
          decide
      | cons first rest =>
          apply flush.head
          rw [shape] at found ⊢
          exact found
    · intro c found
      rw [List.getLast?_append, List.getLast?_cons] at found
      cases shape : target.toList.getLast? with
      | none =>
          rw [shape] at found
          obtain rfl : '=' = c := Option.some.inj found
          decide
      | some last =>
          rw [shape] at found
          apply isEntry.isLine.flush.last
          rw [shape]
          exact found
  · rw [text, List.mem_append, List.mem_cons]
    rintro (inName | isMark | inTarget)
    · exact isEntry.single inName
    · exact absurd isMark (by decide)
    · exact isEntry.isLine.single inTarget

/-- A table of renames that lines can hold. -/
def IsTable (renames : Std.ExtTreeMap String String) : Prop :=
  ∀ name target, renames[name]? = some target → IsEntry name target

theorem IsTable.insert {renames : Std.ExtTreeMap String String} (table : IsTable renames)
    {name target : String} (isEntry : IsEntry name target) :
    IsTable (renames.insert name target) := by
  intro name' target' found
  rw [Std.ExtTreeMap.getElem?_insert] at found
  split at found
  · next same =>
      rw [Std.LawfulEqOrd.compare_eq_iff_eq] at same
      obtain rfl := Option.some.inj found
      rwa [← same]
  · exact table _ _ found

theorem IsTable.insertMany {renames : Std.ExtTreeMap String String} (table : IsTable renames)
    {entries : List (String × String)} (isEntry : ∀ entry ∈ entries, IsEntry entry.1 entry.2) :
    IsTable (renames.insertMany entries) := by
  induction entries generalizing renames with
  | nil => exact table
  | cons entry entries ih =>
      obtain ⟨here, others⟩ := List.forall_mem_cons.mp isEntry
      rw [Std.ExtTreeMap.insertMany_cons]
      exact ih (table.insert here) others

theorem renamesOf_eq (lines : List String) :
    renamesOf lines = (∅ : Std.ExtTreeMap String String).insertMany (lines.filterMap rename?) := by
  rw [renamesOf, Std.ExtTreeMap.insertMany_list_eq_foldl]

/-- Whatever the lines are, the table that is read from them can be written: every name and target
was trimmed when its line was cut. -/
theorem isTable_renamesOf {lines : List String} (isLine : ∀ line ∈ lines, IsLine line) :
    IsTable (renamesOf lines) := by
  rw [renamesOf_eq]
  apply IsTable.insertMany
  · intro name target found
    simp at found
  · intro entry member
    obtain ⟨line, inside, cut⟩ := List.mem_filterMap.mp member
    exact isEntry_of_rename? (isLine line inside) cut

/-- The entries of a table make up the table, or what is kept of it. Names are different in a table,
so the order of insertion makes no difference. -/
theorem getElem?_insertMany_toList (renames : Std.ExtTreeMap String String) (keep : String → Bool)
    (name : String) :
    ((∅ : Std.ExtTreeMap String String).insertMany
      (renames.toList.filter fun entry => keep entry.1))[name]? =
        if keep name then renames[name]? else none := by
  have distinct := renames.distinct_keys_toList.filter fun entry => keep entry.1
  by_cases present : ∃ target, (name, target) ∈ renames.toList.filter fun entry => keep entry.1
  · obtain ⟨target, member⟩ := present
    rw [Std.ExtTreeMap.getElem?_insertMany_list_of_mem Std.ReflOrd.compare_self distinct member]
    rw [List.mem_filter, Std.ExtTreeMap.mem_toList_iff_getElem?_eq_some] at member
    rw [if_pos member.2, member.1]
  · rw [Std.ExtTreeMap.getElem?_insertMany_list_of_contains_eq_false]
    · split
      · next kept =>
          cases found : renames[name]? with
          | none => simp
          | some target =>
              have member := Std.ExtTreeMap.mem_toList_iff_getElem?_eq_some.mpr found
              exact absurd ⟨target, List.mem_filter.mpr ⟨member, kept⟩⟩ present
      · simp
    · rw [Bool.eq_false_iff]
      intro contained
      obtain ⟨entry, member, rfl⟩ := List.mem_map.mp (List.contains_iff_mem.mp contained)
      exact present ⟨entry.2, member⟩

/-- A table is read back from its lines, if none of its names and targets would be cut or trimmed on
the way. -/
theorem renamesOf_renameLines {renames : Std.ExtTreeMap String String} (table : IsTable renames) :
    renamesOf (renames.toList.map renameLine) = renames := by
  have cut : (renames.toList.map renameLine).filterMap rename? = renames.toList := by
    rw [List.filterMap_map]
    refine (List.filterMap_congr ?_).trans List.filterMap_some
    intro entry member
    obtain ⟨name, target⟩ := entry
    rw [Std.ExtTreeMap.mem_toList_iff_getElem?_eq_some] at member
    exact rename?_renameLine (table _ _ member)
  apply Std.ExtTreeMap.ext_getElem?
  intro name
  have all := getElem?_insertMany_toList renames (fun _ => true) name
  rw [if_pos rfl, List.filter_eq_self.mpr fun _ _ => rfl] at all
  rw [renamesOf_eq, cut, all]

/-! ### Registries from lines -/

def registryOf (words : Classification → List String) (renames : List String) : Registry :=
  let registry := ((Registry.empty.extend (wordsOf (words .builtinFunction)).toList
    .builtinFunction).extend (wordsOf (words .userFunction)).toList .userFunction).extend
      (wordsOf (words .userVariable)).toList .userVariable
  (renamesOf renames).toList.foldl (fun registry entry => registry.addRename entry.1 entry.2)
    registry

variable {words : Classification → List String} {renames : List String}

theorem mem_wordsOf {lines : List String} {word : String} :
    word ∈ wordsOf lines ↔ word ∈ lines ∧ word ≠ "" := by
  simp [wordsOf, Std.ExtTreeSet.mem_ofList]

theorem names_foldl_addRename (entries : List (String × String)) (registry : Registry)
    (kind : Classification) :
    (entries.foldl (fun registry entry => registry.addRename entry.1 entry.2) registry).names
      kind = registry.names kind := by
  induction entries generalizing registry with
  | nil => rfl
  | cons entry entries ih => rw [List.foldl_cons, ih, Registry.names_addRename]

theorem renames_foldl_addRename {entries : List (String × String)}
    (isEntry : ∀ entry ∈ entries, IsEntry entry.1 entry.2) (registry : Registry) :
    (entries.foldl (fun registry entry => registry.addRename entry.1 entry.2) registry).renames =
      registry.renames.insertMany (entries.filter fun entry => entry.1 != "") := by
  induction entries generalizing registry with
  | nil => rfl
  | cons entry entries ih =>
      obtain ⟨name, target⟩ := entry
      obtain ⟨here, others⟩ := List.forall_mem_cons.mp isEntry
      rw [List.foldl_cons, ih others, Registry.addRename, here.isKey, here.isLine.trimmed_eq]
      by_cases blank : name = ""
      · rw [if_pos (by simp [blank]), List.filter_cons_of_neg (by simp [blank])]
      · rw [if_neg (by simpa using blank), List.filter_cons_of_pos (by simp [blank]),
          Std.ExtTreeMap.insertMany_cons]

theorem mem_names_registryOf {kind : Classification} {entry : String} :
    entry ∈ (registryOf words renames).names kind ↔
      entry ≠ "" ∧ ∃ word ∈ words kind, Registry.key word = entry := by
  have blank : Registry.key "" = "" := by decide
  rw [registryOf, names_foldl_addRename]
  simp only [Registry.mem_names_extend, Std.ExtTreeSet.mem_toList, mem_wordsOf]
  cases kind <;> simp [Registry.empty, Registry.names] <;> grind

/-- A registry has the spellings of the table, except for an empty name, which the table may have
and the registry does not take. -/
theorem renames_registryOf (table : IsTable (renamesOf renames)) (name : String) :
    (registryOf words renames).renames[name]? =
      if name != "" then (renamesOf renames)[name]? else none := by
  rw [registryOf, renames_foldl_addRename]
  · rw [Registry.renames_extend, Registry.renames_extend, Registry.renames_extend]
    exact getElem?_insertMany_toList _ (· != "") name
  · intro entry member
    exact table _ _ (Std.ExtTreeMap.mem_toList_iff_getElem?_eq_some.mp member)

end Store

end Maxscript
