import Maxscript.Proofs.Convert
import Maxscript.Proofs.Python.Marks
import Maxscript.Proofs.Text

/-!
# The lines of a converted script

The writer decides on texts that it has already indented: the body of a `try` goes on the same line
if it is one line, and so do the brackets around a group. White space in front of a line does not
change what these decisions look for, so the marks of a piece are the same for every unit of white
space. The lines that they make have a level and a text each, and a unit is only ever put in front
of a line, as often as its level says.
-/

namespace Maxscript

namespace Python

open Text (IsSpace joinWith times)

/-! ### Marks do not depend on the unit -/

/-- Two texts are the same, or neither is one line. -/
def SameIfLine (first second : List Char) : Prop := first = second ∨ '\n' ∈ first ∧ '\n' ∈ second

namespace SameIfLine

variable {first second : List Char}

theorem append_left (same : SameIfLine first second) (front : List Char) :
    SameIfLine (front ++ first) (front ++ second) := by
  rcases same with rfl | ⟨here, there⟩
  · exact .inl rfl
  · exact .inr ⟨List.mem_append_right front here, List.mem_append_right front there⟩

theorem contains (same : SameIfLine first second) :
    first.contains '\n' = second.contains '\n' := by
  rcases same with rfl | ⟨here, there⟩
  · rfl
  · rw [List.contains_iff_mem.mpr here, List.contains_iff_mem.mpr there]

theorem isEmpty (same : SameIfLine first second) : first.isEmpty = second.isEmpty := by
  rcases same with rfl | ⟨here, there⟩
  · rfl
  · cases first with
    | nil => cases here
    | cons c cs =>
        cases second with
        | nil => cases there
        | cons d ds => rfl

theorem eq_of_line (same : SameIfLine first second) (line : first.contains '\n' = false) :
    first = second := by
  rcases same with rfl | ⟨here, -⟩
  · rfl
  · rw [List.contains_iff_mem.mpr here] at line
    cases line

end SameIfLine

section

variable {unit other : String}

/-- Two units make the same text of marks, or a text with a line break in it for each of them. So
whether it is one line does not depend on the unit. -/
theorem flatten_sameIfLine (unit other : String) (marks : List Mark) :
    SameIfLine (flatten unit marks).toList (flatten other marks).toList := by
  induction marks with
  | nil => exact .inl rfl
  | cons mark rest ih =>
      rw [flatten_cons, flatten_cons, String.toList_append, String.toList_append]
      cases mark with
      | word text => exact ih.append_left text.toList
      | plain text => exact ih.append_left text.toList
      | lineBreak level =>
          right
          simp [lineBreak]

theorem isSpace_lineBreak (space : IsSpace unit) (level : Nat) :
    IsSpace (lineBreak unit level) := by
  intro c member
  rw [lineBreak, String.toList_append] at member
  rcases List.mem_append.mp member with first | others
  · obtain rfl : c = '\n' := by simpa using first
    decide
  · exact space.times level c others

/-- Line breaks at the front are trimmed whatever the unit. What is in front of another one is kept,
or is white space as well. -/
theorem trimStart_sameIfLine (space : IsSpace unit) (otherSpace : IsSpace other)
    (marks : List Mark) :
    SameIfLine (Text.trimStart (flatten unit marks).toList)
      (Text.trimStart (flatten other marks).toList) := by
  induction marks with
  | nil => exact .inl rfl
  | cons mark rest ih =>
      rw [flatten_cons, flatten_cons]
      have text (word : String) : SameIfLine (Text.trimStart (word ++ flatten unit rest).toList)
          (Text.trimStart (word ++ flatten other rest).toList) := by
        simp only [Text.trimStart, String.toList_append, List.dropWhile_append]
        split
        · exact ih
        · exact (flatten_sameIfLine unit other rest).append_left _
      cases mark with
      | word word => exact text word
      | plain word => exact text word
      | lineBreak level =>
          simp only [Mark.text]
          rw [Text.trimStart_space_append (isSpace_lineBreak space level),
            Text.trimStart_space_append (isSpace_lineBreak otherSpace level)]
          exact ih

/-- With both units, the bodies of clauses are written in the same way. -/
def SameClauses (unit other : String) : Prop :=
  ∀ level inner, clauseMarks unit level inner = clauseMarks other level inner

/-- A clause is trimmed before it is put behind a colon. With white space for the unit, what is left
then is the same for every unit. -/
theorem sameClauses_of_space (space : IsSpace unit) (otherSpace : IsSpace other) :
    SameClauses unit other := by
  intro level inner
  have same := trimStart_sameIfLine space otherSpace inner
  simp only [clauseMarks, Text.trimStart_space_append (space.times level),
    Text.trimStart_space_append (otherSpace.times level), same.isEmpty, same.contains]
  split
  · rfl
  · next oneLine =>
      simp only [Bool.or_eq_true, not_or, Bool.not_eq_true] at oneLine
      rw [same.eq_of_line (same.contains.trans oneLine.2)]

theorem hasChar_flatten (unit other : String) (inner : List Mark) :
    Text.hasChar '\n' (flatten unit inner) = Text.hasChar '\n' (flatten other inner) :=
  (flatten_sameIfLine unit other inner).contains

mutual

/-- A piece is written with the same marks for two units if clauses are. Groups only look for a line
break, and nothing else looks at the unit. -/
theorem marks_eq (clauses : SameClauses unit other) :
    ∀ piece, marks unit piece = marks other piece
  | .token _ => by rw [marks, marks]
  | .binding _ _ none _ => by rw [marks, marks]
  | .binding _ _ (some value) _ => by rw [marks, marks, marks_eq clauses value]
  | .statement _ parts => by rw [marks, marks, marksEach_eq clauses parts]
  | .chain _ parts => by rw [marks, marks, marksEach_eq clauses parts]
  | .block indent role items => by
      rw [marks, marks, marksItems_eq clauses items]
      simp only [hasChar_flatten unit other]
  | .array _ elements => by rw [marks, marks, marksEach_eq clauses elements]
  | .access _ none indices => by rw [marks, marks, marksEach_eq clauses indices]
  | .access _ (some base) indices => by
      rw [marks, marks, marks_eq clauses base, marksEach_eq clauses indices]
  | .call _ _ arguments _ => by rw [marks, marks, marksEach_eq clauses arguments]
  | .function _ _ parameters body => by
      rw [marks, marks, marksEach_eq clauses parameters, bodyMarks_eq clauses body]
  | .struct _ _ members => by
      rw [marks, marks, propertyMarks_eq clauses members, methodMarks_eq clauses members]
  | .conditional _ condition consequent none => by
      rw [marks, marks, marks_eq clauses condition, bodyMarks_eq clauses consequent]
  | .conditional _ condition consequent (some alternative) => by
      rw [marks, marks, marks_eq clauses condition, bodyMarks_eq clauses consequent,
        bodyMarks_eq clauses alternative]
  | .attempt _ attempted none => by
      rw [marks, marks, bodyMarks_eq clauses attempted, clauses]
  | .attempt _ attempted (some handler) => by
      rw [marks, marks, bodyMarks_eq clauses attempted, bodyMarks_eq clauses handler, clauses,
        clauses]
  | .loop _ header true _ => by rw [marks, marks, marks_eq clauses header]
  | .loop _ header false none => by rw [marks, marks, marks_eq clauses header]
  | .loop _ header false (some body) => by
      rw [marks, marks, marks_eq clauses header, bodyMarks_eq clauses body]
  | .cast _ _ operand => by rw [marks, marks, marks_eq clauses operand]

theorem bodyMarks_eq (clauses : SameClauses unit other) :
    ∀ piece, bodyMarks unit piece = bodyMarks other piece
  | .block _ _ items => by rw [bodyMarks, bodyMarks, marksItems_eq clauses items]
  | .token _ | .binding _ _ _ _ | .statement _ _ | .chain _ _ | .array _ _ | .access _ _ _
  | .call _ _ _ _ | .function _ _ _ _ | .struct _ _ _ | .conditional _ _ _ _ | .attempt _ _ _
  | .loop _ _ _ _ | .cast _ _ _ => by simp [bodyMarks]

theorem marksEach_eq (clauses : SameClauses unit other) :
    ∀ pieces, marksEach unit pieces = marksEach other pieces
  | [] => rfl
  | piece :: rest => by
      rw [marksEach, marksEach, marks_eq clauses piece, marksEach_eq clauses rest]

theorem marksItems_eq (clauses : SameClauses unit other) :
    ∀ items, marksItems unit items = marksItems other items
  | [] => rfl
  | piece :: rest => by
      rw [marksItems, marksItems, marks_eq clauses piece, marksItems_eq clauses rest]

theorem propertyMarks_eq (clauses : SameClauses unit other) :
    ∀ members, propertyMarks unit members = propertyMarks other members
  | [] => rfl
  | .binding _ _ none _ :: rest => by
      rw [propertyMarks, propertyMarks, propertyMarks_eq clauses rest]
  | .binding _ _ (some value) _ :: rest => by
      rw [propertyMarks, propertyMarks, marks_eq clauses value, propertyMarks_eq clauses rest]
  | .token _ :: rest | .statement _ _ :: rest | .chain _ _ :: rest | .block _ _ _ :: rest
  | .array _ _ :: rest | .access _ _ _ :: rest | .call _ _ _ _ :: rest
  | .function _ _ _ _ :: rest | .struct _ _ _ :: rest | .conditional _ _ _ _ :: rest
  | .attempt _ _ _ :: rest | .loop _ _ _ _ :: rest | .cast _ _ _ :: rest => by
      simpa [propertyMarks] using propertyMarks_eq clauses rest

theorem methodMarks_eq (clauses : SameClauses unit other) :
    ∀ members, methodMarks unit members = methodMarks other members
  | [] => rfl
  | .function indent name parameters body :: rest => by
      rw [methodMarks, methodMarks, marks_eq clauses (.function indent name parameters body),
        methodMarks_eq clauses rest]
  | .token _ :: rest | .binding _ _ _ _ :: rest | .statement _ _ :: rest | .chain _ _ :: rest
  | .block _ _ _ :: rest | .array _ _ :: rest | .access _ _ _ :: rest | .call _ _ _ _ :: rest
  | .struct _ _ _ :: rest | .conditional _ _ _ _ :: rest
  | .attempt _ _ _ :: rest | .loop _ _ _ _ :: rest | .cast _ _ _ :: rest => by
      simpa [methodMarks] using methodMarks_eq clauses rest

end

end

/-! ### Lines -/

/-- A line of a Python text, and how far it is indented. -/
structure Line where
  level : Nat
  text : String
deriving DecidableEq, Repr

def Line.write (unit : String) (line : Line) : String := times unit line.level ++ line.text

def document (unit : String) (lines : List Line) : String :=
  joinWith "\n" (lines.map (Line.write unit))

/-- The lines that marks make after the text `text` on a line of the level `level`. -/
def linesAfter (level : Nat) (text : String) : List Mark → List Line
  | [] => [⟨level, text⟩]
  | .word more :: rest => linesAfter level (text ++ more) rest
  | .plain more :: rest => linesAfter level (text ++ more) rest
  | .lineBreak next :: rest => ⟨level, text⟩ :: linesAfter next "" rest

/-- A text of the script can have line breaks of its own. What follows them is not indented. -/
def Line.split (line : Line) : List Line :=
  match Text.splitOn '\n' line.text.toList with
  | [] => []
  | first :: others => ⟨line.level, String.ofList first⟩ :: others.map (⟨0, String.ofList ·⟩)

def lines (body : Piece) : List Line :=
  (linesAfter (bodyLevel body) "" (bodyMarks "" body)).flatMap Line.split

theorem linesAfter_ne_nil (level : Nat) (text : String) (marks : List Mark) :
    linesAfter level text marks ≠ [] := by
  fun_induction linesAfter level text marks with
  | case1 => exact List.cons_ne_nil _ _
  | case2 level text more rest ih => exact ih
  | case3 level text more rest ih => exact ih
  | case4 level text next rest ih => exact List.cons_ne_nil _ _

/-- Cutting marks at their line breaks and writing the lines gives the text of the marks. -/
theorem document_linesAfter (unit : String) (level : Nat) (text : String) (marks : List Mark) :
    document unit (linesAfter level text marks) =
      times unit level ++ text ++ flatten unit marks := by
  fun_induction linesAfter level text marks with
  | case1 level text => rw [flatten_nil, String.append_empty]; rfl
  | case2 level text more rest ih =>
      rw [ih, flatten_cons, Mark.text]
      simp only [String.append_assoc]
  | case3 level text more rest ih =>
      rw [ih, flatten_cons, Mark.text]
      simp only [String.append_assoc]
  | case4 level text next rest ih =>
      have more : (linesAfter next "" rest).map (Line.write unit) ≠ [] := by
        simpa using linesAfter_ne_nil next "" rest
      rw [document] at ih ⊢
      rw [List.map_cons, Text.joinWith_cons _ _ more, ih, flatten_cons, Mark.text, lineBreak,
        Line.write, String.append_empty]
      simp only [String.append_assoc]

theorem Line.split_ne_nil (line : Line) : line.split ≠ [] := by
  rw [split]
  split
  · next none => exact absurd none (Text.splitOn_ne_nil _ _)
  · exact List.cons_ne_nil _ _

@[simp] theorem document_split (unit : String) (line : Line) :
    document unit line.split = line.write unit := by
  have whole : joinWith "\n" ((Text.splitOn '\n' line.text.toList).map String.ofList) =
      String.ofList line.text.toList :=
    Text.joinWith_splitOn '\n' line.text.toList
  rw [Line.split]
  split
  · next none => exact absurd none (Text.splitOn_ne_nil _ _)
  · next first others shape =>
      rw [shape, List.map_cons, String.ofList_toList] at whole
      have unindented : (others.map fun text => Line.mk 0 (String.ofList text)).map
          (Line.write unit) = others.map String.ofList := by
        simp [Line.write, times]
      rw [document, List.map_cons, unindented, Line.write, Text.joinWith_front, whole]
      rfl

@[simp] theorem document_flatMap_split (unit : String) (lines : List Line) :
    document unit (lines.flatMap Line.split) = document unit lines := by
  induction lines with
  | nil => rfl
  | cons line rest ih =>
      cases rest with
      | nil =>
          rw [List.flatMap_singleton, document_split]
          rfl
      | cons second rest =>
          have here := line.split_ne_nil
          have more : (second :: rest).flatMap Line.split ≠ [] := by
            rw [List.flatMap_cons]
            exact List.append_ne_nil_of_left_ne_nil second.split_ne_nil _
          rw [document] at ih ⊢
          rw [List.flatMap_cons, List.map_append,
            Text.joinWith_append _ (by simpa using here) (by simpa using more), ih]
          have first := document_split unit line
          rw [document] at first
          rw [first]
          rfl

/-- A word of the script may have a line break in it, inside quotes. Lines are cut at those as well,
so that each of them is one line of the text. -/
theorem line_of_mem_lines {body : Piece} {line : Line} (member : line ∈ lines body) :
    Text.hasChar '\n' line.text = false := by
  obtain ⟨whole, -, inside⟩ := List.mem_flatMap.mp member
  have cut {piece : List Char} (h : piece ∈ Text.splitOn '\n' whole.text.toList) :
      Text.hasChar '\n' (String.ofList piece) = false := by
    simpa [Text.hasChar] using Text.not_mem_of_mem_splitOn h
  rw [Line.split] at inside
  split at inside
  · cases inside
  · next first others shape =>
      rw [shape] at cut
      rcases List.mem_cons.mp inside with rfl | inside
      · exact cut List.mem_cons_self
      · obtain ⟨piece, later, rfl⟩ := List.mem_map.mp inside
        exact cut (List.mem_cons_of_mem _ later)

/-- The unit of indentation is put in front of every line as often as its level says, and the text
of a script depends on it in no other way. -/
theorem renderBody_eq_document {unit : String} (space : IsSpace unit) (body : Piece) :
    renderBody unit body = document unit (lines body) := by
  have none : IsSpace "" := List.forall_mem_nil _
  rw [lines, document_flatMap_split, document_linesAfter, String.append_empty,
    ← bodyMarks_eq (sameClauses_of_space space none) body, flatten_bodyMarks]

end Python

/-- A script that can be read has its lines, each with a level and a text. Whatever white space is
taken for the unit of indentation, the script is converted to these lines, each indented by as many
units as its level says. -/
theorem convertWith_lines_of_unit {registry : Registry} {source : String} {body : Piece}
    (read : readScript registry source = .ok body) :
    ∃ lines : List Python.Line, (∀ line ∈ lines, Text.hasChar '\n' line.text = false) ∧
      ∀ unit, Text.IsSpace unit →
        Python.renderBody unit body = Python.document unit lines ∧
        convertWith unit registry source = .ok (Python.document unit lines) := by
  refine ⟨Python.lines body, fun line member => Python.line_of_mem_lines member, ?_⟩
  intro unit space
  have written := Python.renderBody_eq_document space body
  refine ⟨written, ?_⟩
  rw [convertWith_eq, read, ← written]
  rfl

/-- The body of this `try` is not on the same line, also when lines are not indented. -/
theorem attempt_lines_of_unit :
    ∃ lines : List Python.Line,
      (∀ line ∈ lines, Text.hasChar '\n' line.text = false) ∧
      Python.document "  " lines = "def f():\n  try:\n    a\n    b\n  except: c" ∧
      Python.document "" lines = "def f():\ntry:\na\nb\nexcept: c" := by
  have indented : convertWith "  " Registry.empty "fn f = (try (a\n b) catch (c))" =
      .ok "def f():\n  try:\n    a\n    b\n  except: c" := by
    rw [convertWith_eq]
    decide +kernel
  have flush : convertWith "" Registry.empty "fn f = (try (a\n b) catch (c))" =
      .ok "def f():\ntry:\na\nb\nexcept: c" := by
    rw [convertWith_eq]
    decide +kernel
  obtain ⟨body, read⟩ :
      ∃ body, readScript Registry.empty "fn f = (try (a\n b) catch (c))" = .ok body := by
    cases read : readScript Registry.empty "fn f = (try (a\n b) catch (c))" with
    | error error =>
        rw [convertWith_eq, read] at flush
        cases flush
    | ok body => exact ⟨body, rfl⟩
  have twoSpaces : Text.IsSpace "  " := List.all_eq_true.mp rfl
  have nothing : Text.IsSpace "" := List.forall_mem_nil _
  obtain ⟨lines, cut, each⟩ := convertWith_lines_of_unit read
  refine ⟨lines, cut, ?_, ?_⟩
  · exact Except.ok.inj ((each "  " twoSpaces).2.symm.trans indented)
  · exact Except.ok.inj ((each "" nothing).2.symm.trans flush)

end Maxscript
