import Maxscript.Python

/-!
# What the writer emits

A text does not show which of its line breaks the writer has put there, and which stood in a quoted
string of the script. `marks` writes a piece as `render` does, but keeps the words of the script,
the writer's own texts and its line breaks apart. Put together, the marks are the text.
-/

namespace Maxscript.Python

/-- A step of the writer. -/
inductive Mark where
  /-- A token or a name of the script. -/
  | word (text : String)
  /-- A text of the writer's own, which stays on one line. -/
  | plain (text : String)
  /-- The end of a line, and the indentation of the next. -/
  | lineBreak (level : Nat)
deriving DecidableEq, Repr

@[simp] def Mark.text (unit : String) : Mark → String
  | .word text => text
  | .plain text => text
  | .lineBreak level => Python.lineBreak unit level

def flatten (unit : String) (marks : List Mark) : String :=
  String.join (marks.map (Mark.text unit))

def joinMarks (separator : List Mark) : List (List Mark) → List Mark
  | [] => []
  | [marks] => marks
  | marks :: rest => marks ++ separator ++ joinMarks separator rest

def lineMarks (level : Nat) (items : List (Option (List Mark))) : List Mark :=
  joinMarks [.lineBreak level]
    (((splitLines items).filter fun line => !line.isEmpty).map (joinMarks [.plain " "]))

/-- The marks of a body on the level `level` that goes on the same line if it is one line. -/
def clauseMarks (unit : String) (level : Nat) (inner : List Mark) : List Mark :=
  let text := Text.trimStart (Text.times unit level ++ flatten unit inner).toList
  if text.isEmpty || text.contains '\n' then .lineBreak level :: inner
  else [.plain (" " ++ String.ofList text)]

def onlyMarks : List (List Mark) → List Mark
  | [index] => index
  | _ => []

/-- The marks of the assignments to the properties of a new object. -/
def assignmentMarks (properties : List (String × List Mark)) : List (List Mark) :=
  let widest := (properties.map fun (name, _) => name.utf8ByteSize).foldl max 0
  properties.map fun (name, value) =>
    .plain "self." :: .word name ::
      .plain (Text.times "\t" (tabStops widest + 1 - tabStops name.utf8ByteSize) ++ "= ") :: value

def classMarks (indent : Nat) (name : String) (properties : List (String × List Mark))
    (methods : List (List Mark)) : List Mark :=
  let body := if properties.isEmpty then [[.plain "pass"]] else assignmentMarks properties
  [.plain "class ", .word name, .plain ":", .lineBreak (indent + 1),
      .plain "def __init__(self):"] ++
    body.flatMap (.lineBreak (indent + 2) :: ·) ++ methods.flatMap (.lineBreak (indent + 1) :: ·)

def bodyLevel : Piece → Nat
  | .block indent _ _ => indent
  | _ => 0

mutual

def marks (unit : String) : Piece → List Mark
  | .token text => [.word text]
  | .binding _ name none _ => [.word name]
  | .binding _ name (some value) _ => .word name :: .plain "=" :: marks unit value
  | .statement _ parts => joinMarks [.plain " "] (marksEach unit parts)
  | .chain _ parts => (marksEach unit parts).flatten
  | .block indent role items =>
    if isBlank items then if role = .group then [.plain "None"] else []
    else
      let inner := lineMarks indent (marksItems unit items)
      if role = .group ∧ !Text.hasChar '\n' (flatten unit inner) then
        .plain "(" :: inner ++ [.plain ")"]
      else inner
  | .array _ elements =>
    .plain "[" :: joinMarks [.plain ", "] (marksEach unit elements) ++ [.plain "]"]
  | .access _ none indices => .plain "[" :: onlyMarks (marksEach unit indices) ++ [.plain "]"]
  | .access _ (some base) indices =>
    marks unit base ++ .plain "[" :: onlyMarks (marksEach unit indices) ++ [.plain "]"]
  | .call _ name arguments builtin =>
    .plain (if builtin then "rt." else "") :: .word name :: .plain "(" ::
      joinMarks [.plain ", "] (marksEach unit arguments) ++ [.plain ")"]
  | .function _ name parameters body =>
    let each := (parameters.map Piece.isNamed).zip (marksEach unit parameters)
    .plain "def " :: .word name :: .plain "(" :: joinMarks [.plain ", "] (namedLast each) ++
      .plain "):" :: .lineBreak (bodyLevel body) :: bodyMarks unit body
  | .struct indent name members =>
    classMarks indent name (propertyMarks unit members) (methodMarks unit members)
  | .conditional _ condition consequent none =>
    .plain "if " :: marks unit condition ++
      .plain ":" :: .lineBreak (bodyLevel consequent) :: bodyMarks unit consequent
  | .conditional indent condition consequent (some alternative) =>
    .plain "if " :: marks unit condition ++
      .plain ":" :: .lineBreak (bodyLevel consequent) :: bodyMarks unit consequent ++
      .lineBreak indent :: .plain "else:" :: .lineBreak (bodyLevel alternative) ::
        bodyMarks unit alternative
  | .attempt indent attempted none =>
    .plain "try:" :: clauseMarks unit (bodyLevel attempted) (bodyMarks unit attempted) ++
      [.lineBreak indent, .plain "except: pass"]
  | .attempt indent attempted (some handler) =>
    .plain "try:" :: clauseMarks unit (bodyLevel attempted) (bodyMarks unit attempted) ++
      .lineBreak indent :: .plain "except:" ::
        clauseMarks unit (bodyLevel handler) (bodyMarks unit handler)
  | .loop _ header true _ => .plain "for " :: marks unit header
  | .loop indent header false none =>
    .plain "for " :: marks unit header ++ [.plain ":", .lineBreak (indent + 1), .plain "pass"]
  | .loop _ header false (some body) =>
    .plain "for " :: marks unit header ++
      .plain ":" :: .lineBreak (bodyLevel body) :: bodyMarks unit body
  | .cast _ target operand =>
    .plain target.pythonFunction :: .plain "(" :: marks unit operand ++ [.plain ")"]

/-- The marks of a body, after the indentation of its first line. -/
def bodyMarks (unit : String) : Piece → List Mark
  | .block indent _ items =>
    if isBlank items then [.plain "pass"] else lineMarks indent (marksItems unit items)
  | _ => [.plain "pass"]

def marksEach (unit : String) : List Piece → List (List Mark)
  | [] => []
  | piece :: rest => marks unit piece :: marksEach unit rest

/-- The marks of the items of a block, with `none` for the newlines between statements. -/
def marksItems (unit : String) : List Piece → List (Option (List Mark))
  | [] => []
  | piece :: rest =>
    (if piece.isNewline then none else some (marks unit piece)) :: marksItems unit rest

/-- The properties among the members of a struct, with the marks of their values. -/
def propertyMarks (unit : String) : List Piece → List (String × List Mark)
  | [] => []
  | .binding _ name none _ :: rest => (name, [.plain "None"]) :: propertyMarks unit rest
  | .binding _ name (some value) _ :: rest => (name, marks unit value) :: propertyMarks unit rest
  | _ :: rest => propertyMarks unit rest

def methodMarks (unit : String) : List Piece → List (List Mark)
  | [] => []
  | .function indent name parameters body :: rest =>
    marks unit (.function indent name parameters body) :: methodMarks unit rest
  | _ :: rest => methodMarks unit rest

end

/-! ### Texts from marks -/

section

variable {unit : String}

@[simp] theorem flatten_nil : flatten unit [] = "" := rfl

@[simp] theorem flatten_cons (mark : Mark) (marks : List Mark) :
    flatten unit (mark :: marks) = mark.text unit ++ flatten unit marks := by
  rw [flatten, List.map_cons, String.join_cons]
  rfl

@[simp] theorem flatten_append (front back : List Mark) :
    flatten unit (front ++ back) = flatten unit front ++ flatten unit back := by
  induction front with
  | nil => simp
  | cons mark rest ih => rw [List.cons_append, flatten_cons, ih, flatten_cons, String.append_assoc]

@[simp] theorem flatten_flatten (parts : List (List Mark)) :
    flatten unit parts.flatten = String.join (parts.map (flatten unit)) := by
  induction parts with
  | nil => rfl
  | cons first rest ih =>
      rw [List.flatten_cons, flatten_append, ih, List.map_cons, String.join_cons]

@[simp] theorem flatten_joinMarks (separator : List Mark) (parts : List (List Mark)) :
    flatten unit (joinMarks separator parts) =
      Text.joinWith (flatten unit separator) (parts.map (flatten unit)) := by
  induction parts with
  | nil => rfl
  | cons first rest ih =>
      cases rest with
      | nil => rfl
      | cons second rest =>
          rw [joinMarks, flatten_append, flatten_append, ih]
          · rfl
          · exact List.cons_ne_nil _ _

theorem splitLines_map {α β : Type} (f : α → β) (items : List (Option α)) :
    splitLines (items.map (Option.map f)) = (splitLines items).map (List.map f) := by
  induction items with
  | nil => rfl
  | cons item rest ih =>
      cases item with
      | none =>
          rw [List.map_cons, Option.map_none, splitLines, ih]
          rfl
      | some item =>
          rw [List.map_cons, Option.map_some, splitLines, splitLines, ih]
          cases splitLines rest <;> rfl

/-- The marks of a block make the text of its lines. Empty lines are left out of both. -/
@[simp] theorem flatten_lineMarks (level : Nat) (items : List (Option (List Mark))) :
    flatten unit (lineMarks level items) =
      joinLines (lineBreak unit level) (items.map (Option.map (flatten unit))) := by
  have lines (line : List (List Mark)) :
      flatten unit (joinMarks [.plain " "] line) = Text.joinWith " " (line.map (flatten unit)) := by
    rw [flatten_joinMarks]
    simp
  rw [lineMarks, flatten_joinMarks, joinLines, splitLines_map, List.filter_map, List.map_map,
    List.map_map]
  simp [Function.comp_def, lines]

/-- Where a clause is written is decided by its text, which the marks make before they are laid out.
-/
@[simp] theorem flatten_clauseMarks (level : Nat) (inner : List Mark) :
    flatten unit (clauseMarks unit level inner) =
      clause (Text.times unit level ++ flatten unit inner) := by
  simp only [clauseMarks, clause]
  split
  · rw [flatten_cons, Mark.text, lineBreak, String.append_assoc]
  · simp

@[simp] theorem flatten_onlyMarks (indices : List (List Mark)) :
    flatten unit (onlyMarks indices) = onlyIndex (indices.map (flatten unit)) := by
  rcases indices with _ | ⟨first, _ | ⟨second, rest⟩⟩ <;> rfl

theorem flatten_flatMap_lineBreak (level : Nat) (lines : List (List Mark)) :
    flatten unit (lines.flatMap (.lineBreak level :: ·)) =
      String.join ((lines.map (flatten unit)).map (lineBreak unit level ++ ·)) := by
  induction lines with
  | nil => rfl
  | cons line rest ih =>
      rw [List.flatMap_cons, flatten_append, ih, flatten_cons, List.map_cons, List.map_cons,
        String.join_cons]
      rfl

@[simp] theorem assignmentMarks_map (properties : List (String × List Mark)) :
    (assignmentMarks properties).map (flatten unit) =
      assignments (properties.map fun (name, value) => (name, flatten unit value)) := by
  simp [assignmentMarks, assignments, assignment, Function.comp_def, String.append_assoc]

/-- The marks of a class make its text. The methods are separated from the initialiser and from each
other by line breaks only. -/
theorem flatten_classMarks (indent : Nat) (name : String) (properties : List (String × List Mark))
    (methods : List (List Mark)) :
    flatten unit (classMarks indent name properties methods) =
      classText unit indent name (properties.map fun (name, value) => (name, flatten unit value))
        (methods.map (flatten unit)) := by
  have body : (if properties.isEmpty then [[.plain "pass"]] else assignmentMarks properties).map
      (flatten unit) =
        if properties.isEmpty then ["pass"]
        else assignments (properties.map fun (name, value) => (name, flatten unit value)) := by
    split
    · rfl
    · exact assignmentMarks_map properties
  simp only [classMarks, classText, flatten_append, flatten_flatMap_lineBreak, body,
    List.isEmpty_map]
  simp [String.append_assoc]

/-- Parameters are put in order by whether they have a key, so it makes no difference whether that
is done before they are written or after. -/
theorem namedLast_map {α β : Type} (f : α → β) (named : List Bool) (parameters : List α) :
    namedLast (named.zip (parameters.map f)) = (namedLast (named.zip parameters)).map f := by
  rw [List.zip_map_right]
  simp [namedLast, List.partition_eq_filter_filter, List.filter_map, Function.comp_def]

theorem append_newline {front line : String} (h : front ++ "\n" = line) (text : String) :
    front ++ ("\n" ++ text) = line ++ text := by
  rw [← String.append_assoc, h]

end

mutual

/-- The marks of a piece make its text. The writer so does nothing but lay out marks, which is what
the statements about lines and levels rest on. -/
theorem flatten_marks (unit : String) : ∀ piece, flatten unit (marks unit piece) = render unit piece
  | .token text => by simp [marks, render]
  | .binding _ name none _ => by simp [marks, render]
  | .binding _ name (some value) _ => by
      simp [marks, render, flatten_marks unit value, String.append_assoc]
  | .statement _ parts => by
      simp [marks, render, flatten_marksEach unit parts]
  | .chain _ parts => by
      rw [marks, render, flatten_flatten, flatten_marksEach unit parts]
  | .block indent role items => by
      have inner : flatten unit (lineMarks indent (marksItems unit items)) =
          joinLines (lineBreak unit indent) (renderItems unit items) := by
        rw [flatten_lineMarks, flatten_marksItems unit items]
      simp only [marks, render, inner]
      split
      · split <;> simp
      · split
        · simp [inner, String.append_assoc]
        · exact inner
  | .array _ elements => by
      simp [marks, render, flatten_marksEach unit elements, String.append_assoc]
  | .access _ none indices => by
      simp [marks, render, flatten_marksEach unit indices, String.append_assoc]
  | .access _ (some base) indices => by
      simp [marks, render, flatten_marks unit base, flatten_marksEach unit indices,
        String.append_assoc]
  | .call _ name arguments builtin => by
      simp [marks, render, flatten_marksEach unit arguments, String.append_assoc]
  | .function _ name parameters body => by
      have each := flatten_marksEach unit parameters
      have inner := flatten_bodyMarks unit body
      have head : "):" ++ "\n" = "):\n" := rfl
      simp [marks, render, ← namedLast_map, each, ← inner, lineBreak, String.append_assoc,
        append_newline head]
  | .struct indent name members => by
      rw [marks, render, flatten_classMarks, flatten_propertyMarks unit members,
        flatten_methodMarks unit members]
  | .conditional _ condition consequent none => by
      have head : ":" ++ "\n" = ":\n" := rfl
      simp [marks, render, flatten_marks unit condition, ← flatten_bodyMarks unit consequent,
        lineBreak, String.append_assoc, append_newline head]
  | .conditional indent condition consequent (some alternative) => by
      have head : ":" ++ "\n" = ":\n" := rfl
      have other : "else:" ++ "\n" = "else:\n" := rfl
      simp [marks, render, flatten_marks unit condition, ← flatten_bodyMarks unit consequent,
        ← flatten_bodyMarks unit alternative, lineBreak, String.append_assoc, append_newline head,
        append_newline other]
  | .attempt indent attempted none => by
      simp [marks, render, flatten_bodyMarks unit attempted, String.append_assoc]
  | .attempt indent attempted (some handler) => by
      simp [marks, render, flatten_bodyMarks unit attempted, flatten_bodyMarks unit handler,
        String.append_assoc]
  | .loop _ header true _ => by simp [marks, render, flatten_marks unit header]
  | .loop indent header false none => by
      have head : ":" ++ "\n" = ":\n" := rfl
      simp [marks, render, flatten_marks unit header, lineBreak, String.append_assoc,
        append_newline head]
  | .loop _ header false (some body) => by
      have head : ":" ++ "\n" = ":\n" := rfl
      simp [marks, render, flatten_marks unit header, ← flatten_bodyMarks unit body, lineBreak,
        String.append_assoc, append_newline head]
  | .cast _ target operand => by
      simp [marks, render, flatten_marks unit operand, String.append_assoc]

/-- The marks of a body make its text, after the indentation of its first line. -/
theorem flatten_bodyMarks (unit : String) :
    ∀ piece, Text.times unit (bodyLevel piece) ++ flatten unit (bodyMarks unit piece) =
      renderBody unit piece
  | .block indent role items => by
      rw [bodyLevel, bodyMarks, renderBody]
      split
      · simp
      · rw [flatten_lineMarks, flatten_marksItems unit items]
  | .token _ | .binding _ _ _ _ | .statement _ _ | .chain _ _ | .array _ _ | .access _ _ _
  | .call _ _ _ _ | .function _ _ _ _ | .struct _ _ _ | .conditional _ _ _ _ | .attempt _ _ _
  | .loop _ _ _ _ | .cast _ _ _ => by simp [bodyLevel, bodyMarks, renderBody, Text.times]

theorem flatten_marksEach (unit : String) :
    ∀ pieces, (marksEach unit pieces).map (flatten unit) = renderEach unit pieces
  | [] => rfl
  | piece :: rest => by
      rw [marksEach, renderEach, List.map_cons, flatten_marks unit piece,
        flatten_marksEach unit rest]

theorem flatten_marksItems (unit : String) :
    ∀ items, (marksItems unit items).map (Option.map (flatten unit)) = renderItems unit items
  | [] => rfl
  | piece :: rest => by
      rw [marksItems, renderItems, List.map_cons, flatten_marksItems unit rest]
      split
      · rfl
      · rw [Option.map_some, flatten_marks unit piece]

theorem flatten_propertyMarks (unit : String) :
    ∀ members, ((propertyMarks unit members).map fun (name, value) => (name, flatten unit value)) =
      renderProperties unit members
  | [] => rfl
  | .binding _ name none _ :: rest => by
      rw [propertyMarks, renderProperties, List.map_cons, flatten_propertyMarks unit rest]
      simp
  | .binding _ name (some value) _ :: rest => by
      rw [propertyMarks, renderProperties, List.map_cons, flatten_propertyMarks unit rest,
        ← flatten_marks unit value]
  | .token _ :: rest | .statement _ _ :: rest | .chain _ _ :: rest | .block _ _ _ :: rest
  | .array _ _ :: rest | .access _ _ _ :: rest | .call _ _ _ _ :: rest
  | .function _ _ _ _ :: rest | .struct _ _ _ :: rest | .conditional _ _ _ _ :: rest
  | .attempt _ _ _ :: rest | .loop _ _ _ _ :: rest | .cast _ _ _ :: rest => by
      simpa [propertyMarks, renderProperties] using flatten_propertyMarks unit rest

theorem flatten_methodMarks (unit : String) :
    ∀ members, (methodMarks unit members).map (flatten unit) = renderMethods unit members
  | [] => rfl
  | .function indent name parameters body :: rest => by
      rw [methodMarks, renderMethods, List.map_cons, flatten_methodMarks unit rest,
        flatten_marks unit (.function indent name parameters body)]
  | .token _ :: rest | .binding _ _ _ _ :: rest | .statement _ _ :: rest | .chain _ _ :: rest
  | .block _ _ _ :: rest | .array _ _ :: rest | .access _ _ _ :: rest | .call _ _ _ _ :: rest
  | .struct _ _ _ :: rest | .conditional _ _ _ _ :: rest
  | .attempt _ _ _ :: rest | .loop _ _ _ _ :: rest | .cast _ _ _ :: rest => by
      simpa [methodMarks, renderMethods] using flatten_methodMarks unit rest

end

end Maxscript.Python
