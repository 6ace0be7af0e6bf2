import Maxscript.Proofs.Python.Layout

/-!
# What of a script is written as it is

Most parts are written right where their construct is, so the marks of a part stand together among
those of the whole script. What is said about the lines of a construct alone is then said about its
lines in the Python text. The exceptions are few: some indices are not written at all, and a body
may be put on the line of another word.
-/

namespace Maxscript.Python

/-- Whether a body does not go on the line of the word that announces it. -/
def ownsLines (unit : String) (body : Piece) : Bool :=
  let text := Text.trimStart (renderBody unit body).toList
  text.isEmpty || text.contains '\n'

/-- The parts whose marks stand among those of a piece. Newlines become line breaks, an index is
written only if there is exactly one, and a body on the line of another word is one text. -/
def keptParts (unit : String) : Piece → List Piece
  | .block _ _ items => items.filter (!·.isNewline)
  | .access _ base indices => base.toList ++ if indices.length = 1 then indices else []
  | .struct _ _ members => members.flatMap fun
    | .binding _ _ value _ => value.toList
    | member => [member]
  | .attempt _ attempted handler => (attempted :: handler.toList).filter (ownsLines unit)
  | piece => piece.parts

/-- What is kept of a script in its Python text. -/
inductive Kept (unit : String) (body : Piece) : Piece → Prop
  | body : Kept unit body body
  | part {owner part : Piece} (inside : Kept unit body owner)
      (member : part ∈ keptParts unit owner) : Kept unit body part

/-- What leaves no marks of its own: all that is in one of several indices, which are not written,
or in a body that goes on the line of another word. -/
inductive Folded (unit : String) (body : Piece) : Piece → Prop
  | index {indent : Nat} {base : Option Piece} {indices : List Piece} {index : Piece}
      (inside : Kept unit body (.access indent base indices)) (several : indices.length ≠ 1)
      (member : index ∈ indices) : Folded unit body index
  | clause {indent : Nat} {attempted clause : Piece} {handler : Option Piece}
      (inside : Kept unit body (.attempt indent attempted handler))
      (member : clause ∈ attempted :: handler.toList) (oneLine : ownsLines unit clause = false) :
      Folded unit body clause
  | part {owner part : Piece} (inside : Folded unit body owner) (member : part ∈ owner.parts) :
      Folded unit body part

section

variable {registry : Registry} {unit : String} {indent level : Nat} {piece : Piece} {role : Role}
  {items : List Piece} {inner : List Mark}

/-- Each of several parts is found as a whole among what they are joined to. -/
theorem infix_joinMarks {separator : List Mark} {parts : List (List Mark)}
    (member : inner ∈ parts) : inner <:+: joinMarks separator parts := by
  induction parts with
  | nil => cases member
  | cons first rest ih =>
      cases rest with
      | nil =>
          rw [List.mem_singleton.mp member]
          exact List.infix_refl first
      | cons second rest =>
          rcases List.mem_cons.mp member with rfl | member
          · exact ⟨[], separator ++ joinMarks separator (second :: rest), by simp [joinMarks]⟩
          · exact (ih member).trans (List.suffix_append _ _).isInfix

theorem infix_lineMarks {lines : List (Option (List Mark))} (member : some inner ∈ lines) :
    inner <:+: lineMarks level lines := by
  obtain ⟨line, inside, here⟩ := mem_splitLines.mpr member
  refine (infix_joinMarks here).trans (infix_joinMarks (List.mem_map_of_mem ?_))
  refine List.mem_filter.mpr ⟨inside, ?_⟩
  cases line with
  | nil => cases here
  | cons _ _ => rfl

/-- An index is found if it is the only one. Of several indices nothing is written, so they are not
asked for here. -/
theorem infix_onlyMarks {indices : List Piece} {part : Piece}
    (member : part ∈ if indices.length = 1 then indices else []) :
    marks unit part <:+: onlyMarks (marksEach unit indices) := by
  split at member
  · next single =>
      obtain ⟨index, rfl⟩ := List.length_eq_one_iff.mp single
      rw [List.mem_singleton.mp member]
      exact List.infix_refl _
  · cases member

theorem infix_of_mem_marksEach {pieces : List Piece} {part : Piece} {separator : List Mark}
    (member : part ∈ pieces) : marks unit part <:+: joinMarks separator (marksEach unit pieces) :=
  infix_joinMarks (mem_marksEach.mpr ⟨part, member, rfl⟩)

theorem infix_of_front {front : List Mark} (h : inner <:+: front) (back : List Mark) :
    inner <:+: front ++ back :=
  h.trans (List.prefix_append front back).isInfix

theorem infix_of_back {back : List Mark} (h : inner <:+: back) (front : List Mark) :
    inner <:+: front ++ back :=
  h.trans (List.suffix_append front back).isInfix

theorem infix_flatMap_lineBreak {lines : List (List Mark)} (member : inner ∈ lines) :
    inner <:+: lines.flatMap (.lineBreak level :: ·) := by
  rw [List.flatMap_def]
  refine .trans ?_ (List.infix_of_mem_flatten (List.mem_map_of_mem member))
  exact List.infix_cons (List.infix_refl inner)

/-- The values of properties and the methods are written as they are. The names of properties are
written apart from their values, so a property is not found as a whole. -/
theorem infix_classMarks {name : String} {properties : List (String × List Mark)}
    {methods : List (List Mark)}
    (member : (∃ property, (property, inner) ∈ properties) ∨ inner ∈ methods) :
    inner <:+: classMarks indent name properties methods := by
  rw [classMarks]
  rcases member with ⟨property, member⟩ | member
  · obtain ⟨line, assigned, here⟩ : ∃ line ∈ assignmentMarks properties, inner <:+: line :=
      ⟨_, List.mem_map_of_mem member,
        List.infix_cons (List.infix_cons (List.infix_cons (List.infix_refl inner)))⟩
    have nonempty : properties.isEmpty = false := by
      rw [List.isEmpty_eq_false_iff]
      exact List.ne_nil_of_mem member
    rw [nonempty]
    exact infix_of_front (infix_of_back (here.trans (infix_flatMap_lineBreak assigned)) _) _
  · exact infix_of_back (infix_flatMap_lineBreak member) _

/-- A block that is no group is written in the place of a body as anywhere else, unless it is empty.
An empty block has no marks, and these are found everywhere. -/
theorem infix_bodyMarks (notGroup : role ≠ .group) :
    marks unit (.block level role items) <:+: bodyMarks unit (.block level role items) := by
  cases blank : isBlank items with
  | true => simp [marks, bodyMarks, blank, notGroup]
  | false => simp [marks, bodyMarks, blank, notGroup]

/-- A clause on lines of its own is written as it is. One that is a single line is put behind the
colon instead, as plain text. -/
theorem infix_clauseMarks (own : ownsLines unit (.block level role items) = true)
    (notGroup : role ≠ .group) :
    marks unit (.block level role items) <:+:
      clauseMarks unit level (bodyMarks unit (.block level role items)) := by
  have text := flatten_bodyMarks unit (.block level role items)
  rw [bodyLevel] at text
  simp only [ownsLines] at own
  simp only [clauseMarks, text]
  rw [if_pos own]
  exact List.infix_cons (infix_bodyMarks notGroup)

/-- Every item of a block is written in its place, apart from newlines, which only end lines. -/
theorem infix_items {part : Piece} (inside : part ∈ items) (written : part.isNewline = false) :
    marks unit part <:+: marks unit (.block level role items) := by
  have line : marks unit part <:+: lineMarks level (marksItems unit items) :=
    infix_lineMarks (mem_marksItems.mpr ⟨part, inside, written, rfl⟩)
  have notBlank : isBlank items = false := by
    rw [isBlank, List.all_eq_false]
    exact ⟨part, inside, by simp [written]⟩
  rw [marks.eq_def unit (.block level role items)]
  simp only [notBlank, Bool.false_eq_true, if_false]
  split
  · exact infix_of_front (List.infix_cons line) _
  · exact line

section Constructs

variable {part : Piece}

theorem infix_access {base : Option Piece} {indices : List Piece}
    (member : part ∈ keptParts unit (.access indent base indices)) :
    marks unit part <:+: marks unit (.access indent base indices) := by
  cases base with
  | none => exact infix_of_front (List.infix_cons (infix_onlyMarks member)) _
  | some base =>
      rcases List.mem_cons.mp member with rfl | member
      · exact infix_of_front (infix_of_front (List.infix_refl _) _) _
      · exact infix_of_front (infix_of_back (List.infix_cons (infix_onlyMarks member)) _) _

theorem infix_call {name : String} {arguments : List Piece} {builtin : Bool}
    (member : part ∈ arguments) :
    marks unit part <:+: marks unit (.call indent name arguments builtin) := by
  refine infix_of_front (List.infix_cons (List.infix_cons (List.infix_cons ?_))) _
  exact infix_of_mem_marksEach member

theorem infix_function {name : String} {parameters : List Piece} (notGroup : role ≠ .group)
    (member : part ∈ parameters ++ [.block level role items]) :
    marks unit part <:+:
      marks unit (.function indent name parameters (.block level role items)) := by
  rcases List.mem_append.mp member with member | member
  · refine infix_of_front (List.infix_cons (List.infix_cons (List.infix_cons ?_))) _
    exact infix_joinMarks (mem_parameterMarks.mpr (mem_marksEach.mpr ⟨part, member, rfl⟩))
  · rw [List.mem_singleton.mp member]
    exact infix_of_back (List.infix_cons (List.infix_cons (infix_bodyMarks notGroup))) _

theorem infix_struct {name : String} {members : List Piece}
    (functions : ∀ member ∈ members, member.isBinding = false → member.isFunction = true)
    (member : part ∈ keptParts unit (.struct indent name members)) :
    marks unit part <:+: marks unit (.struct indent name members) := by
  obtain ⟨member, inside, written⟩ := List.mem_flatMap.mp member
  apply infix_classMarks
  cases isBinding : member.isBinding with
  | true =>
      left
      cases member with
      | binding level property value named =>
          obtain rfl := Option.mem_toList.mp written
          exact ⟨property, mem_propertyMarks.mpr ⟨level, some part, named, inside, rfl⟩⟩
      | _ => cases isBinding
  | false =>
      right
      have function := functions member inside isBinding
      cases member with
      | function level method parameters body =>
          obtain rfl := List.mem_singleton.mp written
          exact mem_methodMarks.mpr ⟨_, inside, function, rfl⟩
      | _ => cases function

theorem infix_conditional {condition : Piece} (notGroup : role ≠ .group)
    (member : part ∈ [condition, .block level role items]) :
    marks unit part <:+:
      marks unit (.conditional indent condition (.block level role items) none) := by
  rcases List.mem_pair.mp member with rfl | rfl
  · exact infix_of_front (List.infix_cons (List.infix_refl _)) _
  · exact infix_of_back (List.infix_cons (List.infix_cons (infix_bodyMarks notGroup))) _

theorem infix_branches {condition : Piece} {role' : Role} {others : List Piece}
    (notGroup : role ≠ .group) (notGroup' : role' ≠ .group)
    (member : part ∈ [condition, .block level role items, .block level role' others]) :
    marks unit part <:+: marks unit (.conditional indent condition (.block level role items)
      (some (.block level role' others))) := by
  rcases List.mem_cons.mp member with rfl | member
  · exact infix_of_front (infix_of_front (List.infix_cons (List.infix_refl _)) _) _
  rcases List.mem_pair.mp member with rfl | rfl
  · refine infix_of_front (infix_of_back (List.infix_cons (List.infix_cons ?_)) _) _
    exact infix_bodyMarks notGroup
  · refine infix_of_back (List.infix_cons (List.infix_cons (List.infix_cons ?_))) _
    exact infix_bodyMarks notGroup'

/-- What is attempted is found as a whole if it is kept, which means that it is written on lines of
its own. -/
theorem infix_attempt (notGroup : role ≠ .group)
    (member : part ∈ keptParts unit (.attempt indent (.block level role items) none)) :
    marks unit part <:+: marks unit (.attempt indent (.block level role items) none) := by
  obtain ⟨inside, own⟩ := List.mem_filter.mp member
  obtain rfl := List.mem_singleton.mp inside
  exact infix_of_front (List.infix_cons (infix_clauseMarks own notGroup)) _

theorem infix_handled {role' : Role} {others : List Piece} (notGroup : role ≠ .group)
    (notGroup' : role' ≠ .group)
    (member : part ∈ keptParts unit (.attempt indent (.block level role items)
      (some (.block level role' others)))) :
    marks unit part <:+: marks unit (.attempt indent (.block level role items)
      (some (.block level role' others))) := by
  obtain ⟨inside, own⟩ := List.mem_filter.mp member
  rcases List.mem_pair.mp inside with rfl | rfl
  · exact infix_of_front (List.infix_cons (infix_clauseMarks own notGroup)) _
  · refine infix_of_back (List.infix_cons (List.infix_cons ?_)) _
    exact infix_clauseMarks own notGroup'

theorem infix_header {comprehension : Bool} :
    marks unit part <:+: marks unit (.loop indent part comprehension none) := by
  cases comprehension with
  | true => exact List.infix_cons (List.infix_refl _)
  | false => exact infix_of_front (List.infix_cons (List.infix_refl _)) _

theorem infix_loop {header : Piece} (notGroup : role ≠ .group)
    (member : part ∈ [header, .block level role items]) :
    marks unit part <:+:
      marks unit (.loop indent header false (some (.block level role items))) := by
  rcases List.mem_pair.mp member with rfl | rfl
  · exact infix_of_front (List.infix_cons (List.infix_refl _)) _
  · exact infix_of_back (List.infix_cons (List.infix_cons (infix_bodyMarks notGroup))) _

end Constructs

/-- The marks of a part that is kept stand together among those of the construct. One case for each
construct, as each is written in its own way. -/
theorem infix_of_mem_keptParts {part : Piece} (built : Built registry indent piece)
    (member : part ∈ keptParts unit piece) : marks unit part <:+: marks unit piece := by
  cases built with
  | token => cases member
  | bare => cases member
  | binding name named inner =>
      obtain rfl := List.mem_singleton.mp member
      exact List.infix_cons (List.infix_cons (List.infix_refl _))
  | statement each => exact infix_of_mem_marksEach member
  | chain each => exact List.infix_of_mem_flatten (mem_marksEach.mpr ⟨part, member, rfl⟩)
  | block role dense each =>
      obtain ⟨inside, written⟩ := List.mem_filter.mp member
      exact infix_items inside (by simpa using written)
  | array each => exact infix_of_front (List.infix_cons (infix_of_mem_marksEach member)) _
  | indices each => exact infix_access member
  | access first each => exact infix_access member
  | call known each => exact infix_call member
  | length inner => exact infix_call member
  | function name bindings inline each body => exact infix_function (by decide) member
  | struct name inline properties functions methods => exact infix_struct functions member
  | conditional first second => exact infix_conditional (by decide) member
  | branches first second third => exact infix_branches (by decide) (by decide) member
  | attempt first => exact infix_attempt (by decide) member
  | handled first second => exact infix_handled (by decide) (by decide) member
  | header comprehension first =>
      obtain rfl := List.mem_singleton.mp member
      exact infix_header
  | loop first second => exact infix_loop (by decide) member
  | cast target inner =>
      obtain rfl := List.mem_singleton.mp member
      exact infix_of_front (List.infix_cons (List.infix_cons (List.infix_refl _))) _

theorem built_of_mem_keptParts {part : Piece} (built : Built registry indent piece)
    (member : part ∈ keptParts unit piece) : ∃ level, Built registry level part := by
  cases piece with
  | block level role items => exact built.parts part (List.mem_of_mem_filter member)
  | access level base indices =>
      refine built.parts part ?_
      rcases List.mem_append.mp member with member | member
      · exact List.mem_append_left _ member
      · split at member
        · exact List.mem_append_right _ member
        · cases member
  | struct level name members =>
      obtain ⟨member, inside, written⟩ := List.mem_flatMap.mp member
      obtain ⟨level, own⟩ := built.parts member inside
      cases member with
      | binding level property value named => exact own.parts part written
      | _ =>
          rw [List.mem_singleton.mp written]
          exact ⟨_, own⟩
  | attempt level attempted handler => exact built.parts part (List.mem_of_mem_filter member)
  | _ => exact built.parts part member

/-- Going down to a part of something that is kept leads to something kept, to something folded into
a line, to a newline, or to a property, whose value is kept. -/
theorem Kept.part_cases {body owner part : Piece} (inside : Kept unit body owner)
    (member : part ∈ owner.parts) :
    Kept unit body part ∨ Folded unit body part ∨ part.isNewline = true ∨
      part.isBinding = true ∧ ∀ value ∈ part.parts, Kept unit body value := by
  cases owner with
  | block indent role items =>
      cases newline : part.isNewline with
      | true => exact .inr (.inr (.inl rfl))
      | false => exact .inl (inside.part (List.mem_filter.mpr ⟨member, by simp [newline]⟩))
  | access indent base indices =>
      rcases List.mem_append.mp member with member | member
      · exact .inl (inside.part (List.mem_append_left _ member))
      · by_cases single : indices.length = 1
        · left
          refine inside.part (List.mem_append_right _ ?_)
          rwa [if_pos single]
        · exact .inr (.inl (.index inside single member))
  | struct indent name members =>
      have own {value : Piece} (written : value ∈ match part with
          | .binding _ _ value _ => value.toList
          | member => [member]) : Kept unit body value :=
        inside.part (List.mem_flatMap.mpr ⟨part, member, written⟩)
      cases part with
      | binding level property value named => exact .inr (.inr (.inr ⟨rfl, fun _ => own⟩))
      | _ => exact .inl (own List.mem_cons_self)
  | attempt indent attempted handler =>
      cases own : ownsLines unit part with
      | true => exact .inl (inside.part (List.mem_filter.mpr ⟨member, own⟩))
      | false => exact .inr (.inl (.clause inside member own))
  | _ => exact .inl (inside.part member)

/-- What is kept of a script is found as a whole among its marks. By induction on the way down from
the block of all statements. -/
theorem Kept.isInfix {body : Piece} (kept : Kept unit body piece)
    (built : ∃ level, Built registry level body) :
    (∃ level, Built registry level piece) ∧ marks unit piece <:+: marks unit body := by
  induction kept with
  | body => exact ⟨built, List.infix_refl _⟩
  | part inside member ih =>
      obtain ⟨⟨level, own⟩, outer⟩ := ih
      exact ⟨built_of_mem_keptParts own member, (infix_of_mem_keptParts own member).trans outer⟩

end

end Maxscript.Python
