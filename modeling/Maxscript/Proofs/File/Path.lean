import Maxscript.File.Path
import Maxscript.Proofs.Text

/-!
# The names of a path

A name that is joined to a directory comes after the names of the directory, and starts where the
directory does. The names of the paths above a path are the first of its own.
-/

namespace Maxscript.Path

@[simp] theorem segments_append (front back : String) :
    segments (front ++ "/" ++ back) = segments front ++ segments back := by
  have shape : (front ++ "/" ++ back).toList = front.toList ++ '/' :: back.toList := by simp
  rw [segments, shape, Text.splitOn_append, List.map_append]
  rfl

theorem segments_eq_singleton {text : String} (single : '/' ∉ text.toList) :
    segments text = [text] := by
  rw [segments, Text.splitOn_eq_singleton single, List.map_singleton, String.ofList_toList]

theorem slash_not_mem_of_mem_segments {path segment : String} (member : segment ∈ segments path) :
    '/' ∉ segment.toList := by
  obtain ⟨piece, inside, rfl⟩ := List.mem_map.mp member
  rw [String.toList_ofList]
  exact Text.not_mem_of_mem_splitOn inside

/-- The names of a path that is joined from two are those of the one and then those of the other,
however many separators stand between them. -/
@[simp] theorem names_append (front back : String) :
    names (front ++ "/" ++ back) = names front ++ names back := by
  rw [names, segments_append, List.filter_append]
  rfl

theorem isAbsolute_append {front : String} (nonempty : front ≠ "") (back : String) :
    isAbsolute (front ++ back) = isAbsolute front := by
  obtain ⟨c, cs, shape⟩ := List.exists_cons_of_ne_nil fun empty =>
    nonempty (String.toList_eq_nil_iff.mp empty)
  simp [isAbsolute, shape]

/-! ### Entries of a directory -/

/-- A text that names an entry of a directory. -/
structure IsName (text : String) : Prop where
  nonempty : text ≠ ""
  single : '/' ∉ text.toList
  notHere : text ≠ "."
  notAbove : text ≠ ".."

namespace IsName

variable {name : String} (isName : IsName name) (directory : String)
include isName

theorem names_eq : names name = [name] := by
  rw [names, segments_eq_singleton isName.single]
  simp [isName.nonempty]

theorem isAbsolute_eq : isAbsolute name = false := by
  rw [isAbsolute, beq_eq_false_iff_ne]
  exact fun starts => isName.single (List.mem_of_head? starts)

/-- A name stands alone or behind a separator. One that the directory ends with is not doubled. -/
theorem join_cases : directory = "" ∧ join directory name = name ∨
    ∃ front, join directory name = front ++ "/" ++ name ∧ names front = names directory ∧
      isAbsolute (front ++ "/" ++ name) = isAbsolute directory := by
  rw [join, if_neg (by simp [isName.isAbsolute_eq])]
  by_cases empty : directory = ""
  · left
    simp [empty]
  right
  by_cases trailing : hasTrailingSlash directory = true
  · -- The separator is there already.
    rw [if_pos (by simp [trailing])]
    obtain ⟨front, shape⟩ := List.getLast?_eq_some_iff.mp (beq_iff_eq.mp trailing)
    have split : directory = String.ofList front ++ "/" := by
      rw [← String.ofList_toList (s := directory), shape, String.ofList_append]
    refine ⟨String.ofList front, by rw [split], ?_, ?_⟩
    · have behind := names_append (String.ofList front) ""
      rw [String.append_empty, ← split] at behind
      exact (List.append_nil _).symm.trans behind.symm
    · rw [← split]
      exact isAbsolute_append empty name
  · rw [if_neg (by simp [trailing, empty])]
    refine ⟨directory, rfl, rfl, ?_⟩
    rw [String.append_assoc]
    exact isAbsolute_append empty _

/-- Joining adds exactly one name, whatever the directory ends with. -/
theorem names_join : names (join directory name) = names directory ++ [name] := by
  rcases isName.join_cases directory with ⟨rfl, alone⟩ | ⟨front, behind, same, absolute⟩
  · rw [alone, isName.names_eq]
    rfl
  · rw [behind, names_append, same, isName.names_eq]

theorem isAbsolute_join : isAbsolute (join directory name) = isAbsolute directory := by
  rcases isName.join_cases directory with ⟨rfl, alone⟩ | ⟨front, behind, same, absolute⟩
  · rw [alone, isName.isAbsolute_eq]
    rfl
  · rw [behind, absolute]

theorem join_ne_empty : join directory name ≠ "" := by
  intro empty
  have names := isName.names_join directory
  rw [empty] at names
  exact List.append_ne_nil_of_right_ne_nil _ (List.cons_ne_nil _ _) names.symm

theorem hasTrailingSlash_join : hasTrailingSlash (join directory name) = false := by
  have ending : (join directory name).toList.getLast? = name.toList.getLast? := by
    rcases isName.join_cases directory with ⟨rfl, alone⟩ | ⟨front, behind, same, absolute⟩
    · rw [alone]
    · obtain ⟨c, cs, shape⟩ := List.exists_cons_of_ne_nil fun empty =>
        isName.nonempty (String.toList_eq_nil_iff.mp empty)
      rw [behind, String.toList_append, List.getLast?_append, shape, List.getLast?_cons]
      rfl
  rw [hasTrailingSlash, ending, beq_eq_false_iff_ne]
  exact fun ends => isName.single (List.mem_of_getLast? ends)

end IsName

/-! ### Paths above a path -/

/-- `upper` leads to a place on the way of `lower`. -/
structure IsAbove (upper lower : String) : Prop where
  names : names upper <+: names lower
  absolute : isAbsolute upper = isAbsolute lower

theorem IsAbove.refl (path : String) : IsAbove path path := ⟨List.prefix_refl _, rfl⟩

theorem IsAbove.trans {first second third : String} (above : IsAbove first second)
    (further : IsAbove second third) : IsAbove first third :=
  ⟨above.names.trans further.names, above.absolute.trans further.absolute⟩

theorem dropVoid_suffix (absolute : Bool) (segments : List String) :
    dropVoid absolute segments <:+ segments := by
  fun_induction dropVoid absolute segments with
  | case1 => exact List.suffix_refl _
  | case2 rest ih => exact ih.trans (List.suffix_cons _ _)
  | case3 rest only =>
      simp only [Bool.and_eq_true, List.isEmpty_iff] at only
      obtain ⟨rfl, -⟩ := only
      exact List.suffix_refl _
  | case4 rest more ih => exact ih.trans (List.suffix_cons _ _)
  | case5 segment rest => exact List.suffix_refl _

theorem names_joinWith {texts : List String} (single : ∀ text ∈ texts, '/' ∉ text.toList) :
    names (Text.joinWith "/" texts) = texts.filter (· != "") := by
  induction texts with
  | nil => rfl
  | cons text rest ih =>
      obtain ⟨here, others⟩ := List.forall_mem_cons.mp single
      by_cases last : rest = []
      · rw [last, Text.joinWith, names, segments_eq_singleton here]
      · rw [Text.joinWith_cons _ _ last, names_append, ih others, names,
          segments_eq_singleton here, ← List.filter_append, List.singleton_append]

def body (path : String) : List String :=
  if isAbsolute path then (segments path).drop 1 else segments path

theorem slash_not_mem_of_mem_body {path segment : String} (member : segment ∈ body path) :
    '/' ∉ segment.toList := by
  rw [body] at member
  split at member
  · exact slash_not_mem_of_mem_segments (List.mem_of_mem_drop member)
  · exact slash_not_mem_of_mem_segments member

/-- An absolute path is a separator and what is joined from its body. So every path is known by its
segments and by whether it is absolute. -/
theorem eq_joinWith_body (path : String) :
    path = (if isAbsolute path then "/" else "") ++ Text.joinWith "/" (body path) := by
  have whole : Text.joinWith "/" (segments path) = path := by
    rw [segments]
    exact (Text.joinWith_splitOn '/' path.toList).trans String.ofList_toList
  rw [body]
  split
  · next absolute =>
      obtain ⟨rest, shape⟩ : ∃ rest, path.toList = '/' :: rest :=
        List.head?_eq_some_iff.mp (beq_iff_eq.mp absolute)
      have cut : segments path = "" :: (Text.splitOn '/' rest).map String.ofList := by
        simp [segments, shape, Text.splitOn]
      have nonempty : (Text.splitOn '/' rest).map String.ofList ≠ [] := by
        simpa using Text.splitOn_ne_nil '/' rest
      rw [cut, Text.joinWith_cons _ _ nonempty, String.empty_append] at whole
      rw [cut, List.drop_one, List.tail_cons, whole]
  · rw [String.empty_append, whole]

theorem names_rooted (absolute : Bool) {texts : List String}
    (single : ∀ text ∈ texts, '/' ∉ text.toList) :
    names ((if absolute then "/" else "") ++ Text.joinWith "/" texts) =
      texts.filter (· != "") := by
  split
  · have behind := names_append "" (Text.joinWith "/" texts)
    rw [String.empty_append] at behind
    rw [behind, names_joinWith single]
    rfl
  · rw [String.empty_append, names_joinWith single]

/-- A path that is joined from the first segments of another is above it. Segments that are empty or
a dot name nothing, so dropping them changes no place. -/
theorem isAbove_of_prefix {path : String} {texts : List String} (front : texts <+: body path) :
    IsAbove ((if isAbsolute path then "/" else "") ++ Text.joinWith "/" texts) path := by
  have whole := eq_joinWith_body path
  constructor
  · rw [names_rooted _ fun _ member => slash_not_mem_of_mem_body (front.subset member)]
    have all := names_rooted (isAbsolute path) fun _ => @slash_not_mem_of_mem_body path _
    rw [← whole] at all
    rw [all]
    exact front.filter _
  · obtain ⟨rest, shape⟩ := front
    obtain ⟨back, starts⟩ := Text.exists_joinWith_append "/" texts rest
    rw [← shape, starts, ← String.append_assoc] at whole
    by_cases empty : (if isAbsolute path then "/" else "") ++ Text.joinWith "/" texts = ""
    · -- Only a relative path can be cut down to nothing.
      rw [empty]
      split at empty
      · exact absurd empty (by simp)
      · next relative => exact (Bool.eq_false_iff.mpr relative).symm
    · have same := isAbsolute_append empty back
      rw [← whole] at same
      exact same.symm

theorem isAbove_parent {path parent : String} (found : parent? path = some parent) :
    IsAbove parent path := by
  rw [parent?] at found
  split at found
  · cases found
  · next last rest shape =>
      have below : (dropVoid (isAbsolute path) rest).reverse <+: body path := by
        rw [← List.reverse_suffix, List.reverse_reverse]
        have all : reversed path <:+ (body path).reverse := dropVoid_suffix _ _
        rw [shape] at all
        exact ((dropVoid_suffix _ rest).trans (List.suffix_cons last rest)).trans all
      have above := isAbove_of_prefix below
      obtain rfl := Option.some.inj found
      split
      · next absolute => rwa [if_pos absolute] at above
      · next relative => rwa [if_neg relative, String.empty_append] at above

/-- All directories that are made for a file are on the way of its path, by going up from it one at
a time. -/
theorem isAbove_of_mem_ancestors {path upper : String} (member : upper ∈ ancestors path) :
    IsAbove upper path := by
  fun_induction ancestors path with
  | case1 path root =>
      rw [List.mem_singleton.mp member]
      exact .refl path
  | case2 path parent found shorter ih =>
      rcases List.mem_cons.mp member with rfl | further
      · exact .refl upper
      · exact (ih further).trans (isAbove_parent found)
  | case3 path parent found same =>
      rw [List.mem_singleton.mp member]
      exact .refl path

end Maxscript.Path
