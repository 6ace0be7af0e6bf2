import Maxscript.Convert
import Maxscript.Proofs.Structured.Reading
import Maxscript.Proofs.Text
import Maxscript.Proofs.Token.Lexer

/-!
# Writing structured programs

The blocks that structured programs are read to are written as the Python programs that they stand
for. Two things have to be seen for this. The writer cuts the items of a block at the newlines among
them, and since a statement has no newline of its own, the lines it finds are the statements. And
it puts a clause on the line of its keyword by looking at the text that it wrote for it, so the
indentation must be all white space and the statements must start with something that is not.
-/

namespace Maxscript.Structured

open Python (render renderBody renderItems renderEach joinLines splitLines lineBreak clause)
open Text (joinWith times hasChar hasChar_append startsVisibly)

variable {registry : Registry} {unit : String}

/-! ### Lines of items -/

@[simp] theorem splitLines_texts (texts : List String) : splitLines (texts.map some) = [texts] := by
  induction texts with
  | nil => rfl
  | cons text rest ih => rw [List.map_cons, splitLines, ih]

@[simp] theorem splitLines_newline (texts : List String) (rest : List (Option String)) :
    splitLines (texts.map some ++ none :: rest) = texts :: splitLines rest := by
  induction texts with
  | nil => rfl
  | cons text texts ih => rw [List.map_cons, List.cons_append, splitLines, ih]

@[simp] theorem renderItems_append (front back : List Piece) :
    renderItems unit (front ++ back) = renderItems unit front ++ renderItems unit back := by
  induction front with
  | nil => rfl
  | cons piece rest ih => rw [List.cons_append, renderItems, ih, renderItems, List.cons_append]

theorem joinWith_cons_cons (separator first next : String) (rest : List String) :
    joinWith separator (first :: next :: rest) =
      first ++ separator ++ joinWith separator (next :: rest) := rfl

/-- The same indentation stands before every line, whether it is put there line by line or with the
breaks between them. -/
theorem joinWith_indented (indentation text : String) (rest : List String) :
    joinWith "\n" ((text :: rest).map (indentation ++ ·)) =
      indentation ++ joinWith ("\n" ++ indentation) (text :: rest) := by
  induction rest generalizing text with
  | nil => rfl
  | cons next rest ih =>
      rw [List.map_cons, List.map_cons, joinWith_cons_cons, ← List.map_cons, ih,
        joinWith_cons_cons]
      simp only [String.append_assoc]

namespace Phrase

variable (phrase : Phrase registry)

theorem renderItems_eq : renderItems unit (unread phrase.tokens) = phrase.tokens.map some := by
  have each (tokens : List String) (plain : ∀ token ∈ tokens, IsPlain registry token) :
      renderItems unit (unread tokens) = tokens.map some := by
    induction tokens with
    | nil => rfl
    | cons token rest ih =>
        have first := (plain token List.mem_cons_self).quiet.mark "\n" (by decide)
        have tail := ih fun other member => plain other (List.mem_cons_of_mem _ member)
        rw [unread_cons, renderItems, tail, Piece.isNewline, if_neg (by simp [first]), render]
        rfl
  exact each phrase.tokens phrase.plain

theorem joinLines_eq (separator : String) :
    joinLines separator (renderItems unit (unread phrase.tokens)) = phrase.text := by
  have nonempty : phrase.tokens.isEmpty = false := by simpa using phrase.nonempty
  rw [joinLines, phrase.renderItems_eq, splitLines_texts, List.filter_cons, nonempty]
  rfl

theorem isBlank_eq : Python.isBlank (unread phrase.tokens) = false := by
  obtain ⟨first, rest, shape⟩ := List.exists_cons_of_ne_nil phrase.nonempty
  have plain := phrase.plain first (by rw [shape]; exact List.mem_cons_self)
  have notNewline := plain.quiet.mark "\n" (by decide)
  simp_all [Python.isBlank]

theorem render_eq (indent : Nat) {role : Role} (notGroup : role ≠ .group) :
    render unit (.block indent role (unread phrase.tokens)) = phrase.text := by
  rw [render, if_neg (by simp [phrase.isBlank_eq])]
  simp only [notGroup, false_and, if_false, phrase.joinLines_eq]

end Phrase

/-- The lines of a program are those of its statements, each behind the indentation of the depth
that it is written at. -/
theorem Program.lines_eq_map (depth : Nat) (program : Program registry) :
    Program.lines unit depth program =
      (program.map (Statement.python unit depth)).map (times unit depth ++ ·) := by
  induction program with
  | nil => rfl
  | cons statement rest ih => rw [Program.lines, ih, List.map_cons, List.map_cons]

/-- What the indentation of its first line leaves of a program. -/
def Program.unindented (unit : String) (depth : Nat) (program : Program registry) : String :=
  if program.isEmpty then "pass"
  else joinWith (lineBreak unit depth) (program.map (Statement.python unit depth))

theorem Program.python_eq (depth : Nat) (program : Program registry) :
    Program.python unit depth program =
      times unit depth ++ Program.unindented unit depth program := by
  cases program with
  | nil => rfl
  | cons statement rest =>
      rw [Program.python, Program.lines_eq_map, Program.unindented, if_neg (by simp), lineBreak,
        List.map_cons, ← joinWith_indented]
      rfl

/-! ### Clauses -/

theorem startsVisibly_append {text : String} (h : startsVisibly text = true) (rest : String) :
    startsVisibly (text ++ rest) = true := by
  rw [startsVisibly] at h ⊢
  rw [String.toList_append]
  cases shape : text.toList with
  | nil => simp [shape] at h
  | cons c cs => simpa [shape] using h

theorem startsVisibly_joinWith {text : String} (h : startsVisibly text = true)
    (separator : String) (rest : List String) :
    startsVisibly (joinWith separator (text :: rest)) = true := by
  cases rest with
  | nil => exact h
  | cons next rest =>
      rw [joinWith_cons_cons, String.append_assoc]
      exact startsVisibly_append h _

theorem Phrase.startsVisibly_text (phrase : Phrase registry) :
    startsVisibly phrase.text = true := by
  obtain ⟨first, rest, shape⟩ := List.exists_cons_of_ne_nil phrase.nonempty
  have plain := phrase.plain first (by rw [shape]; exact List.mem_cons_self)
  obtain ⟨source, lexed⟩ := plain.lexed
  have notNewline : first ≠ Token.newline := fun same => plain.mark (same ▸ by decide)
  rw [Phrase.text, shape]
  exact startsVisibly_joinWith (Token.startsVisibly_of_mem_lex lexed notNewline) _ _

theorem Statement.startsVisibly_python (depth : Nat) (statement : Statement registry) :
    startsVisibly (statement.python unit depth) = true := by
  cases statement with
  | line phrase => exact phrase.startsVisibly_text
  | conditional condition consequent alternative =>
      cases alternative with
      | none =>
          simp only [Statement.python, String.append_assoc]
          exact startsVisibly_append (by decide) _
      | some alternative =>
          simp only [Statement.python, String.append_assoc]
          exact startsVisibly_append (by decide) _
  | loop header body =>
      simp only [Statement.python, String.append_assoc]
      exact startsVisibly_append (by decide) _
  | attempt attempted handler =>
      simp only [Statement.python, String.append_assoc]
      exact startsVisibly_append (by decide) _
  | function name parameters body =>
      simp only [Statement.python, String.append_assoc]
      exact startsVisibly_append (by decide) _

theorem Program.startsVisibly_unindented (depth : Nat) (program : Program registry) :
    startsVisibly (Program.unindented unit depth program) = true := by
  cases program with
  | nil =>
      rw [Program.unindented, if_pos (by rfl)]
      decide
  | cons statement rest =>
      rw [Program.unindented, if_neg (by simp), List.map_cons]
      exact startsVisibly_joinWith (statement.startsVisibly_python depth) _ _

/-- Indentation that is all white space is trimmed away, and nothing more, since the text behind it
starts with a character that can be seen. -/
theorem trimStart_indented (blank : ∀ c ∈ unit.toList, Unicode.isWhiteSpace c = true)
    (depth : Nat) {text : String} (visible : startsVisibly text = true) :
    Text.trimStart (times unit depth ++ text).toList = text.toList := by
  have space : Text.IsSpace unit := blank
  rw [Text.trimStart_space_append (space.times depth)]
  rw [startsVisibly] at visible
  cases shape : text.toList with
  | nil => rfl
  | cons c cs =>
      have : Unicode.isWhiteSpace c = false := by simpa [shape] using visible
      simp [Text.trimStart, this]

theorem clause_indented (blank : ∀ c ∈ unit.toList, Unicode.isWhiteSpace c = true)
    (depth : Nat) {text : String} (visible : startsVisibly text = true) :
    clause (times unit depth ++ text) =
      if hasChar '\n' text then "\n" ++ (times unit depth ++ text) else " " ++ text := by
  have nonempty : text.toList.isEmpty = false := by
    rw [startsVisibly] at visible
    cases shape : text.toList with
    | nil => simp [shape] at visible
    | cons c cs => rfl
  simp only [clause, trimStart_indented blank depth visible, nonempty, Bool.false_or,
    String.ofList_toList]
  rfl

/-- A construct takes more than one line, so only a plain line can be written behind the colon of a
clause. -/
theorem Statement.hasChar_python (depth : Nat) (statement : Statement registry)
    (construct : ∀ phrase, statement ≠ .line phrase) :
    hasChar '\n' (statement.python unit depth) = true := by
  have colon : hasChar '\n' ":\n" = true := by decide
  have colonBracket : hasChar '\n' "):\n" = true := by decide
  have single : hasChar '\n' "\n" = true := by decide
  cases statement with
  | line phrase => exact absurd rfl (construct phrase)
  | conditional condition consequent alternative =>
      cases alternative with
      | none => simp [Statement.python, colon]
      | some alternative => simp [Statement.python, colon]
  | loop header body => simp [Statement.python, colon]
  | attempt attempted handler => simp [Statement.python, single]
  | function name parameters body => simp [Statement.python, colonBracket]

theorem Program.unindented_single (depth : Nat) (statement : Statement registry) :
    Program.unindented unit depth [statement] = statement.python unit depth := rfl

/-- A program is one line if and only if its text is. The depth makes no difference to that. -/
theorem Program.oneLine?_eq (unit : String) (depth : Nat) (program : Program registry) :
    Program.oneLine? program =
      if hasChar '\n' (Program.unindented unit depth program) then none
      else some (Program.unindented unit depth program) := by
  match program with
  | [] =>
      have empty : Program.unindented unit depth ([] : Program registry) = "pass" := rfl
      rw [empty, if_neg (by decide)]
      rfl
  | [statement] =>
      rw [unindented_single]
      by_cases line : ∃ phrase, statement = .line phrase
      · obtain ⟨phrase, rfl⟩ := line
        rfl
      · have construct : ∀ phrase, statement ≠ .line phrase :=
          fun phrase same => line ⟨phrase, same⟩
        rw [if_pos (statement.hasChar_python depth construct), oneLine?]
        · simp
        · simpa using construct
  | statement :: next :: rest =>
      have newline : hasChar '\n' "\n" = true := by decide
      have several : hasChar '\n'
          (Program.unindented unit depth (statement :: next :: rest)) = true := by
        rw [unindented, if_neg (by simp), List.map_cons, List.map_cons, joinWith_cons_cons]
        simp [lineBreak, newline]
      rw [if_pos several, oneLine?]
      · simp
      · simp

/-- The writer looks at the text of a clause, and finds out whether its program is one line. -/
theorem clause_python (blank : ∀ c ∈ unit.toList, Unicode.isWhiteSpace c = true) (depth : Nat)
    (program : Program registry) :
    clause (Program.python unit depth program) =
      clauseText (Program.oneLine? program) (Program.python unit depth program) := by
  rw [Program.oneLine?_eq unit depth, Program.python_eq,
    clause_indented blank depth (Program.startsVisibly_unindented depth program)]
  by_cases several : hasChar '\n' (Program.unindented unit depth program) = true
  · rw [if_pos several, if_pos several]
    rfl
  · rw [if_neg several, if_neg several]
    rfl

/-! ### Programs -/

theorem renderEach_parameters (indent : Nat) (parameters : List Parameter) :
    renderEach unit (parameters.map fun parameter => .binding indent parameter.text none false) =
      parameters.map Parameter.text := by
  induction parameters with
  | nil => rfl
  | cons parameter rest ih => rw [List.map_cons, renderEach, ih, render, List.map_cons]

theorem isNamed_parameters (indent : Nat) (parameters : List Parameter) :
    (parameters.map fun parameter => Piece.binding indent parameter.text none false).map
      Piece.isNamed = parameters.map fun _ => false := by
  rw [List.map_map]
  rfl

/-- Parameters without a colon stay in the order in which they were read. -/
theorem namedLast_positional (parameters : List Parameter) :
    Python.namedLast (parameters.map fun parameter => (false, parameter.text)) =
      parameters.map Parameter.text := by
  have none : parameters.filter (fun _ => false) = [] := by simp
  have all : parameters.filter (fun _ => true) = parameters := by simp
  simp [Python.namedLast, List.partition_eq_filter_filter, List.filter_map, Function.comp_def,
    none, all]

/-- The lines that the writer cuts the items of a program into are its statements. -/
def Program.LinesUp (unit : String) (indent : Nat) (program : Program registry) : Prop :=
  ((splitLines (renderItems unit (Program.pieces indent program))).filter
    fun line => !line.isEmpty).map (joinWith " ") = program.map (Statement.python unit indent)

theorem Statement.isBlank_pieces (indent : Nat) (statement : Statement registry) :
    Python.isBlank (statement.pieces indent) = false := by
  cases statement with
  | line phrase => exact phrase.isBlank_eq
  | conditional condition consequent alternative =>
      cases alternative with
      | none => rfl
      | some alternative => rfl
  | loop header body => rfl
  | attempt attempted handler =>
      cases handler with
      | nil => rfl
      | cons first rest => rfl
  | function name parameters body => rfl

theorem Program.isBlank_pieces (indent : Nat) (program : Program registry) :
    Python.isBlank (Program.pieces indent program) = program.isEmpty := by
  match program with
  | [] => rfl
  | [statement] => exact statement.isBlank_pieces indent
  | statement :: next :: rest =>
      rw [Program.pieces, Python.isBlank, List.all_append]
      have first := statement.isBlank_pieces indent
      rw [Python.isBlank] at first
      rw [first]
      rfl

theorem Program.renderBody_pieces {indent : Nat} {program : Program registry}
    (lines : Program.LinesUp unit indent program) (role : Role) :
    renderBody unit (.block indent role (Program.pieces indent program)) =
      Program.python unit indent program := by
  rw [renderBody, Program.isBlank_pieces, Program.python_eq, joinLines, lines, unindented]

/-- A statement is written without breaks between its items, as its Python text. -/
def Statement.IsOneItemLine (unit : String) (indent : Nat) (statement : Statement registry) :
    Prop :=
  ∃ texts, texts ≠ [] ∧ renderItems unit (statement.pieces indent) = texts.map some ∧
    joinWith " " texts = statement.python unit indent

theorem isOneItemLine_construct {indent : Nat} {statement : Statement registry} {construct : Piece}
    (pieces : statement.pieces indent = [construct]) (notNewline : construct.isNewline = false)
    (text : render unit construct = statement.python unit indent) :
    statement.IsOneItemLine unit indent := by
  refine ⟨[render unit construct], List.cons_ne_nil _ _, ?_, text⟩
  rw [pieces, renderItems, notNewline]
  rfl

mutual

theorem Statement.isOneItemLine (blank : ∀ c ∈ unit.toList, Unicode.isWhiteSpace c = true)
    (indent : Nat) : (statement : Statement registry) →
    statement.IsOneItemLine unit indent
  | .line phrase => ⟨phrase.tokens, phrase.nonempty, phrase.renderItems_eq, rfl⟩
  | .conditional condition consequent none => by
      have body := Program.renderBody_pieces (Program.linesUp blank (indent + 1) consequent)
      refine isOneItemLine_construct rfl rfl ?_
      rw [render, condition.render_eq indent (by decide), body]
      rfl
  | .conditional condition consequent (some alternative) => by
      have body := Program.renderBody_pieces (Program.linesUp blank (indent + 1) consequent)
      have other := Program.renderBody_pieces (Program.linesUp blank (indent + 1) alternative)
      refine isOneItemLine_construct rfl rfl ?_
      rw [render, condition.render_eq indent (by decide), body, other, lineBreak]
      simp only [Statement.python, String.append_assoc]
      rfl
  | .loop header body => by
      have body := Program.renderBody_pieces (Program.linesUp blank (indent + 1) body)
      refine isOneItemLine_construct rfl rfl ?_
      rw [render, header.render_eq indent (by decide), body]
      rfl
  | .attempt attempted [] => by
      have body := Program.renderBody_pieces (Program.linesUp blank (indent + 1) attempted)
      refine isOneItemLine_construct rfl rfl ?_
      rw [render, body, clause_python blank, lineBreak]
      simp only [Statement.python, String.append_assoc]
      rfl
  | .attempt attempted (first :: others) => by
      have body := Program.renderBody_pieces (Program.linesUp blank (indent + 1) attempted)
      have other := Program.renderBody_pieces (Program.linesUp blank (indent + 1) (first :: others))
      refine isOneItemLine_construct rfl rfl ?_
      rw [render, body, other, clause_python blank, clause_python blank, lineBreak]
      simp only [Statement.python, String.append_assoc]
      rfl
  | .function name parameters body => by
      have body := Program.renderBody_pieces (Program.linesUp blank (indent + 1) body)
      refine isOneItemLine_construct rfl rfl ?_
      simp only [render, renderEach_parameters, isNamed_parameters, List.zip_map',
        namedLast_positional, body]
      rfl

/-- By induction on the program: a statement ends where its line does, and the newline between two
statements is an item of its own. -/
theorem Program.linesUp (blank : ∀ c ∈ unit.toList, Unicode.isWhiteSpace c = true)
    (indent : Nat) : (program : List (Statement registry)) →
    Program.LinesUp unit indent program
  | [] => rfl
  | [statement] => by
      obtain ⟨texts, nonempty, items, text⟩ := Statement.isOneItemLine blank indent statement
      have kept : texts.isEmpty = false := by simpa using nonempty
      rw [Program.LinesUp, Program.pieces, items, splitLines_texts,
        List.filter_cons_of_pos (by simp [kept]), List.map_cons, text]
      rfl
  | statement :: next :: rest => by
      obtain ⟨texts, nonempty, items, text⟩ := Statement.isOneItemLine blank indent statement
      have tail := Program.linesUp blank indent (next :: rest)
      have kept : texts.isEmpty = false := by simpa using nonempty
      rw [Program.LinesUp] at tail
      rw [Program.LinesUp, Program.pieces, renderItems_append, items, renderItems,
        if_pos (by simp), splitLines_newline, List.filter_cons_of_pos (by simp [kept]),
        List.map_cons, tail, text]
      rfl

end

/-- A structured program is converted to the Python program that it stands for, at any depth and
with any white space for indentation. The registry decides what is called before the reader looks
for a loop, so if there are loops then `for` must not be a known function. -/
theorem structured_program_converts (program : Program registry) (indent : Nat) (role : Role)
    (blank : ∀ c ∈ unit.toList, Unicode.isWhiteSpace c = true)
    (loops : Program.hasLoop program = true → registry.isKnownCall "for" = false) :
    ∃ body, readBlock registry indent role ((Program.tokens program).map .token) = .ok body ∧
      renderBody unit body = Program.python unit indent program := by
  refine ⟨_, readBlock_program indent role program loops, ?_⟩
  exact Program.renderBody_pieces (Program.linesUp blank indent program) role

/-- A function whose loop handles errors and has two branches in it. -/
def sample : Program Registry.empty :=
  [.function ⟨"f", by decide, by decide⟩ [⟨"a", by decide⟩, ⟨"b", by decide⟩]
    [.loop (.ofTokens ["i", "in", "a"] (by decide) (by decide +kernel))
      [.attempt
        [.conditional (.ofTokens ["i", ">", "b"] (by decide) (by decide +kernel))
          [.line (.ofTokens ["c", "=", "i"] (by decide) (by decide +kernel)),
            .line (.ofTokens ["d", "=", "c"] (by decide) (by decide +kernel))]
          (some [])]
        [.line (.ofTokens ["e", "=", "b"] (by decide) (by decide +kernel))]]],
  .line (.ofTokens ["g", "=", "0"] (by decide) (by decide +kernel))]

theorem sample_converts :
    ∃ body, readBlock Registry.empty 0 .root (["fn", "f", "a", "b", "=", "(", "for", "i", "in", "a",
        "do", "(", "try", "(", "if", "i", ">", "b", "then", "(", "c", "=", "i", "\n", "d", "=", "c",
        ")", "else", "(", ")", ")", "catch", "(", "e", "=", "b", ")", ")", ")", "\n", "g", "=",
        "0"].map .token) = .ok body ∧
      renderBody "\t" body = "def f(a, b):\n\tfor i in a:\n\t\ttry:\n\t\t\tif i > b:\n" ++
        "\t\t\t\tc = i\n\t\t\t\td = c\n\t\t\telse:\n\t\t\t\tpass\n" ++
        "\t\texcept: e = b\ng = 0" :=
  have blank : "\t".toList.all Unicode.isWhiteSpace = true := by decide
  structured_program_converts sample 0 .root (List.all_eq_true.mp blank) (by decide +kernel)

/-- If `for` is a known function, then what looks like a loop is read as a call of it. -/
theorem known_for_is_called :
    ∃ program : Program (Registry.empty.classify "for" .userFunction),
      Program.tokens program = ["for", "i", "in", "x", "do", "(", "y", ")"] ∧
      Program.python "\t" 0 program = "for i in x:\n\ty" ∧
      renderBody "\t" <$> readBlock (Registry.empty.classify "for" .userFunction) 0 .root
        ((Program.tokens program).map .token) = .ok "for(i) in x do (y)" := by
  refine ⟨[.loop (.ofTokens ["i", "in", "x"] (by decide) (by decide +kernel))
    [.line (.ofTokens ["y"] (by decide) (by decide +kernel))]], rfl, by decide, ?_⟩
  decide +kernel

end Maxscript.Structured
