import Mathlib.Data.List.Chain
import Mathlib.Data.List.Forall2
import Maxscript.Proofs.Reader.Operand
import Maxscript.Proofs.Structured.Writing

/-!
# Products

The operators `*`, `/` and `%` are joined with their two neighbours into a statement, and a chain of
them into statements that nest to the left. Nothing of this is to be seen in the output: the parts
of a statement are set apart by spaces, just like the items of a line. So lines of tokens that mean
nothing else to the reader are written as they were, also where operators stand side by side or have
nothing on one of their sides.

Every step of the pass is a splice that leaves the written lines as they are (`linesOf_fuse`), and
so the whole pass does (`items_linesOf`). Only a minus sign right behind an operator would be joined
with the number behind it.
-/

namespace Maxscript.Products

open Python (render renderBody renderItems renderEach splitLines joinLines lineBreak)
open Reader (unbounded)
open Structured (unread)
open Text (joinWith)

variable {registry : Registry} {unit : String}

/-! ### Lines -/

/-- The lines that the writer makes of items, without their indentation. -/
def linesOf (unit : String) (items : List Piece) : List String :=
  ((splitLines (renderItems unit items)).filter fun line => !line.isEmpty).map (joinWith " ")

/-- Two lines that are written alike, neither of them empty unless the other is. -/
structure Alike (first second : List String) : Prop where
  empty : first = [] ↔ second = []
  text : joinWith " " first = joinWith " " second

theorem Alike.refl (line : List String) : Alike line line := ⟨Iff.rfl, rfl⟩

theorem Alike.cons {first second : List String} (alike : Alike first second) (text : String) :
    Alike (text :: first) (text :: second) := by
  refine ⟨by simp, ?_⟩
  by_cases none : first = []
  · rw [none, alike.empty.mp none]
  · have others : second ≠ [] := fun empty => none (alike.empty.mpr empty)
    rw [Text.joinWith_cons " " text none, Text.joinWith_cons " " text others, alike.text]

/-- What is joined beforehand makes no difference to the line, as the pieces of a line are joined
with the same spaces. -/
theorem alike_joined (left operator right : String) (line : List String) :
    Alike (left :: operator :: right :: line)
      (joinWith " " [left, operator, right] :: line) := by
  refine ⟨by simp, ?_⟩
  cases line with
  | nil => rfl
  | cons next line => simp only [joinWith, String.append_assoc]

theorem map_joinWith_of_alike {first second : List (List String)}
    (alike : List.Forall₂ Alike first second) :
    (first.filter fun line => !line.isEmpty).map (joinWith " ") =
      (second.filter fun line => !line.isEmpty).map (joinWith " ") := by
  induction alike with
  | nil => rfl
  | @cons line other lines others here _ ih =>
      cases line with
      | nil =>
          obtain rfl := here.empty.mp rfl
          exact ih
      | cons text line =>
          have nonempty : other.isEmpty = false := by
            cases other with
            | nil => cases here.empty.mpr rfl
            | cons _ _ => rfl
          rw [List.filter_cons_of_pos rfl, List.filter_cons_of_pos (by simp [nonempty]),
            List.map_cons, List.map_cons, ih, here.text]

theorem exists_splitLines_some (item : String) (rest : List (Option String)) :
    ∃ line lines, splitLines rest = line :: lines ∧
      splitLines (some item :: rest) = (item :: line) :: lines := by
  have nonempty : splitLines rest ≠ [] := by
    unfold splitLines
    split
    · simp
    · simp
    · split <;> simp
  obtain ⟨line, lines, shape⟩ := List.exists_cons_of_ne_nil nonempty
  exact ⟨line, lines, shape, by rw [splitLines, shape]⟩

theorem splitLines_alike_cons {first second : List (Option String)}
    (alike : List.Forall₂ Alike (splitLines first) (splitLines second)) (item : Option String) :
    List.Forall₂ Alike (splitLines (item :: first)) (splitLines (item :: second)) := by
  cases item with
  | none => exact .cons (.refl []) alike
  | some text =>
      obtain ⟨line, lines, shape, here⟩ := exists_splitLines_some text first
      obtain ⟨other, others, shape', here'⟩ := exists_splitLines_some text second
      rw [shape, shape', List.forall₂_cons] at alike
      rw [here, here', List.forall₂_cons]
      exact ⟨alike.1.cons text, alike.2⟩

/-- Joining an operator with its neighbours leaves the lines as they were, if none of the three is a
newline. -/
theorem linesOf_fuse {left operator right : Piece} (first : left.isNewline = false)
    (second : operator.isNewline = false) (third : right.isNewline = false)
    (front back : List Piece) (indent : Nat) :
    linesOf unit (front ++ .statement indent [left, operator, right] :: back) =
      linesOf unit (front ++ left :: operator :: right :: back) := by
  have here (back : List (Option String)) : List.Forall₂ Alike
      (splitLines (some (render unit (.statement indent [left, operator, right])) :: back))
      (splitLines (some (render unit left) :: some (render unit operator) ::
        some (render unit right) :: back)) := by
    obtain ⟨line, lines, shape, joined⟩ := exists_splitLines_some
      (render unit (.statement indent [left, operator, right])) back
    have apart := alike_joined (render unit left) (render unit operator) (render unit right) line
    simp only [splitLines, shape, List.forall₂_cons]
    refine ⟨⟨by simp, apart.text.symm⟩, ?_⟩
    exact List.forall₂_same.mpr fun line _ => .refl line
  have statement : (Piece.statement indent [left, operator, right]).isNewline = false := rfl
  apply map_joinWith_of_alike
  induction front with
  | nil =>
      simp only [List.nil_append, renderItems, first, second, third, statement]
      exact here _
  | cons piece front ih => exact splitLines_alike_cons ih _

theorem splitLines_concat_none (items : List (Option String)) :
    splitLines (items ++ [none]) = splitLines items ++ [[]] := by
  induction items with
  | nil => rfl
  | cons item items ih =>
      cases item with
      | none => rw [List.cons_append, splitLines, ih, splitLines, List.cons_append]
      | some text =>
          obtain ⟨line, lines, shape, here⟩ := exists_splitLines_some text items
          rw [List.cons_append, splitLines, ih, here, shape]
          rfl

/-- Newlines around the items make no lines, as empty lines are left out. -/
theorem linesOf_surrounded {front back : List Piece}
    (before : ∀ piece ∈ front, piece.isNewline = true)
    (behind : ∀ piece ∈ back, piece.isNewline = true) (items : List Piece) :
    linesOf unit (front ++ items ++ back) = linesOf unit items := by
  have last (items : List Piece) {piece : Piece} (newline : piece.isNewline = true) :
      linesOf unit (items ++ [piece]) = linesOf unit items := by
    have shape : renderItems unit (items ++ [piece]) = renderItems unit items ++ [none] := by
      rw [Structured.renderItems_append, renderItems, if_pos newline]
      rfl
    rw [linesOf, shape, splitLines_concat_none]
    simp [linesOf]
  induction front with
  | cons piece front ih =>
      have newline := before piece List.mem_cons_self
      rw [← ih fun other member => before other (List.mem_cons_of_mem _ member)]
      simp [linesOf, renderItems, newline, splitLines]
  | nil =>
      rw [List.nil_append]
      induction back using List.reverseRecOn with
      | nil => rw [List.append_nil]
      | append_singleton back piece ih =>
          have inside := List.forall_mem_append.mp behind
          rw [← List.append_assoc, last _ (inside.2 piece List.mem_cons_self), ih inside.1]

theorem isBlank_eq (unit : String) (items : List Piece) :
    Python.isBlank items = (linesOf unit items).isEmpty := by
  induction items with
  | nil => rfl
  | cons piece items ih =>
      rw [Python.isBlank, List.all_cons]
      cases newline : piece.isNewline with
      | true =>
          rw [Bool.true_and, ← Python.isBlank, ih]
          simp [linesOf, renderItems, newline, splitLines]
      | false =>
          obtain ⟨line, lines, -, here⟩ :=
            exists_splitLines_some (render unit piece) (renderItems unit items)
          simp [linesOf, renderItems, newline, here]

/-- The text of a block is its lines, each behind a line break, or the statement that does nothing.
-/
theorem renderBody_eq (indent : Nat) (role : Role) (items : List Piece) :
    renderBody unit (.block indent role items) =
      Text.times unit indent ++ if (linesOf unit items).isEmpty then "pass"
        else joinWith (lineBreak unit indent) (linesOf unit items) := by
  rw [renderBody, isBlank_eq unit]
  rfl

/-! ### Tokens -/

def operators : List String := ["*", "/", "%"]

/-- Marks that the reader acts on, other than newlines and those operators. -/
def otherMarks : List String := ["(", ")", "[", "#", ",", "."]

/-- A token that the reader passes over, unless it is an operator: another token, or a newline. -/
structure IsPlain (registry : Registry) (token : String) : Prop where
  mark : token ∉ otherMarks
  word : Text.foldCase token ∉ Reader.stepWords
  call : registry.isKnownCall token = false

/-- The lines of a list of tokens, each with its tokens set apart by spaces. -/
def lines (tokens : List String) : List String :=
  ((tokens.splitOn "\n").filter fun line => !line.isEmpty).map (joinWith " ")

def text (tokens : List String) : String :=
  if (lines tokens).isEmpty then "pass" else joinWith "\n" (lines tokens)

theorem linesOf_unread (tokens : List String) : linesOf unit (unread tokens) = lines tokens := by
  have same : splitLines (renderItems unit (unread tokens)) = tokens.splitOn "\n" := by
    induction tokens with
    | nil => rfl
    | cons token tokens ih =>
        rw [List.splitOn_cons_eq_if_modifyHead, ← ih, Structured.unread_cons, renderItems]
        by_cases newline : token = "\n"
        · subst newline
          rfl
        · have other : (Piece.token token).isNewline = false := by
            simpa using newline
          obtain ⟨line, lines, shape, here⟩ :=
            exists_splitLines_some (render unit (.token token)) (renderItems unit (unread tokens))
          rw [other, if_neg (by simp), if_neg (by simpa using newline), here, shape]
          rfl
  rw [linesOf, same, lines]

/-! ### The pass -/

section

variable {tokens : List String} {indent : Nat}

theorem IsPlain.step_eq {token : String} (plain : IsPlain registry token)
    (noOperator : token ∉ operators) (before after : List Piece) :
    (unbounded registry).step indent before (.token token) after =
      .ok ⟨.token token :: before, after⟩ := by
  have marks : token ∉ Reader.stepMarks := by
    intro member
    have known : ∀ mark ∈ Reader.stepMarks, mark ∈ otherMarks ∨ mark ∈ operators := by decide
    exact (known token member).elim plain.mark noOperator
  rw [Reader.step_mark plain.word (Reader.callee?_of_unknown plain.call after),
    Reader.stepMark_of_not_mem marks]

/-- A token that is neither a minus sign nor followed by one of the marks is a factor by itself. A
minus sign would take the number behind it. -/
theorem element_eq {token : String} (plain : IsPlain registry token) (unsigned : token ≠ "-")
    (rest : List String) (others : ∀ token ∈ rest, IsPlain registry token) :
    (unbounded registry).element indent (.token token) (unread rest) =
      .ok (.token token, unread rest) := by
  have callee := Reader.callee?_of_unknown plain.call (unread rest)
  have alone : token ∉ ["(", "[", "#", "-"] := by
    intro member
    have known : ∀ mark ∈ ["(", "[", "#", "-"], mark ∈ otherMarks ∨ mark = "-" := by decide
    exact (known token member).elim plain.mark unsigned
  have apart : Reader.Apart (unread rest) := by
    cases rest with
    | nil => exact Reader.ends_nil.toApart
    | cons next rest =>
        have marks := (others next List.mem_cons_self).mark
        have known : [".", "["] ⊆ otherMarks := by decide
        exact Reader.apart_cons (fun member => marks (known member)) (unread rest)
  rw [Reader.element, Reader.callOrOperand]
  simp only [callee, Reader.operand_token alone apart, bind, Except.bind]
  split
  · next mark type after shape =>
      obtain ⟨next, left, rfl, rfl, -⟩ := List.map_eq_cons_iff.mp shape
      have word := (others next List.mem_cons_self).word
      have noCast : Text.foldCase next ≠ "as" := by
        intro same
        exact word (same ▸ by decide)
      rw [if_neg (by simpa using noCast)]
      rfl
  · rfl

theorem step_operator {token : String} (plain : IsPlain registry token)
    (operator : token ∈ operators) (before after : List Piece) :
    (unbounded registry).step indent before (.token token) after =
      (unbounded registry).factorAt indent before (.token token) after := by
  rw [Reader.step_mark plain.word (Reader.callee?_of_unknown plain.call after), Reader.stepMark]
  have marks := plain.mark
  simp_all [otherMarks, operators]

/-- An operator is left alone, or joined with its neighbours, none of which is a newline. Every
other token is passed. -/
theorem step_cases {token : String} {rest : List String}
    (plain : ∀ other ∈ token :: rest, IsPlain registry other)
    (unsigned : (token :: rest).IsChain fun token next => token ∈ operators → next ≠ "-")
    (before : List Piece) :
    (unbounded registry).step indent before (.token token) (unread rest) =
        .ok ⟨.token token :: before, unread rest⟩ ∨
      ∃ left earlier right behind, before = left :: earlier ∧ rest = right :: behind ∧
        left.isNewline = false ∧ (Piece.token right).isNewline = false ∧ token ∈ operators ∧
        (unbounded registry).step indent before (.token token) (unread rest) =
          .ok ⟨.statement indent [left, .token token, .token right] :: earlier, unread behind⟩ := by
  obtain ⟨here, others⟩ := List.forall_mem_cons.mp plain
  by_cases operator : token ∈ operators
  · rw [step_operator here operator]
    cases before with
    | nil => exact .inl rfl
    | cons left earlier =>
        cases rest with
        | nil => exact .inl rfl
        | cons right behind =>
            obtain ⟨factor, tail⟩ := List.forall_mem_cons.mp others
            have notMinus : right ≠ "-" := (List.isChain_cons_cons.mp unsigned).1 operator
            rw [Structured.unread_cons, Reader.factorAt]
            by_cases broken : (left.isNewline || (Piece.token right).isNewline) = true
            · rw [if_pos broken]
              exact .inl rfl
            · have joined := Bool.or_eq_false_iff.mp (Bool.not_eq_true _ ▸ broken)
              rw [if_neg broken, Reader.productAt, element_eq factor notMinus behind tail]
              exact .inr ⟨left, earlier, right, behind, rfl, rfl, joined.1, joined.2, operator, rfl⟩
  · exact .inl (here.step_eq operator before (unread rest))

/-- The pass over tokens that are plain leaves the lines as they were, whatever is behind it. By
strong induction on the number of tokens, as a product takes two of them. -/
theorem items_linesOf (unit : String) (tokens : List String)
    (plain : ∀ token ∈ tokens, IsPlain registry token)
    (unsigned : tokens.IsChain fun token next => token ∈ operators → next ≠ "-")
    (before : List Piece) :
    ∃ items, (unbounded registry).items indent before (unread tokens) = .ok items ∧
      linesOf unit items = linesOf unit (before.reverse ++ unread tokens) := by
  induction length : tokens.length using Nat.strong_induction_on generalizing tokens before with
  | _ size ih =>
      cases tokens with
      | nil => exact ⟨before.reverse, Structured.items_nil indent before, by simp⟩
      | cons token rest =>
          have others := (List.forall_mem_cons.mp plain).2
          have notClose : (Piece.token token).is ")" = false :=
            Piece.is_of_not_mem (plain token List.mem_cons_self).mark (by decide)
          rw [List.length_cons] at length
          rw [Structured.unread_cons, Reader.items_step notClose]
          rcases step_cases plain unsigned before with stays |
            ⟨left, earlier, right, behind, rfl, rfl, first, third, operator, fused⟩
          · rw [stays]
            obtain ⟨items, read, same⟩ := ih rest.length (by omega) rest others unsigned.tail
              (.token token :: before) rfl
            refine ⟨items, read, ?_⟩
            rw [same]
            simp
          · have second : (Piece.token token).isNewline = false := by
              have other : token ≠ "\n" := by
                rintro rfl
                exact absurd operator (by decide)
              simpa using other
            rw [fused]
            obtain ⟨items, read, same⟩ := ih behind.length (by simp at length; omega) behind
              (List.forall_mem_cons.mp others).2 unsigned.tail.tail
              (.statement indent [left, .token token, .token right] :: earlier) rfl
            refine ⟨items, read, ?_⟩
            rw [same, List.reverse_cons, List.append_assoc, List.singleton_append,
              linesOf_fuse first second third]
            simp

end

/-- What trimming takes away around plain tokens is newlines, since they have no brackets and no
commas among them. -/
theorem exists_trim_eq (unit : String) {tokens : List String}
    (plain : ∀ token ∈ tokens, IsPlain registry token) :
    ∃ inner, Reader.trim (unread tokens) = unread inner ∧ inner <:+: tokens ∧
      linesOf unit (unread inner) = linesOf unit (unread tokens) := by
  obtain ⟨front, back, shape, before, behind⟩ := Reader.surrounds_trim (unread tokens)
  have newlines {pieces : List Piece} (inside : pieces ⊆ unread tokens)
      (surrounding : ∀ piece ∈ pieces, Reader.IsSurrounding piece) :
      ∀ piece ∈ pieces, piece.isNewline = true := by
    intro piece member
    obtain ⟨token, found, rfl⟩ := List.mem_map.mp (inside member)
    have other {mark : String} (active : mark ∈ otherMarks) : (Piece.token token).is mark = false :=
      Piece.is_of_not_mem (plain token found).mark active
    have kind := surrounding _ member
    rw [Reader.IsSurrounding, Reader.isSeparator, other (by decide : "," ∈ otherMarks),
      other (by decide : "(" ∈ otherMarks), other (by decide : ")" ∈ otherMarks)] at kind
    simpa using kind
  obtain ⟨outer, last, rfl, left, right⟩ := List.map_eq_append_iff.mp shape
  obtain ⟨first, inner, rfl, rfl, middle⟩ := List.map_eq_append_iff.mp left
  refine ⟨inner, middle.symm, ⟨first, last, rfl⟩, ?_⟩
  rw [shape, linesOf_surrounded, ← middle]
  · rfl
  · apply newlines _ before
    intro piece member
    simp [unread, member]
  · apply newlines _ behind
    intro piece member
    rw [← right] at member
    simp [unread, member]

/-- Lines of plain tokens and operators are read, and written as they were. -/
theorem plain_lines_written (tokens : List String)
    (plain : ∀ token ∈ tokens, IsPlain registry token)
    (unsigned : tokens.IsChain fun token next => token ∈ operators → next ≠ "-") :
    ∃ body, readBlock registry 0 .root (tokens.map .token) = .ok body ∧
      renderBody unit body = text tokens := by
  obtain ⟨inner, trimmed, inside, same⟩ := exists_trim_eq unit plain
  have chain := List.IsChain.infix unsigned inside
  obtain ⟨items, read, kept⟩ := items_linesOf unit inner
    (fun token member => plain token (inside.subset member)) chain []
  refine ⟨.block 0 .root items, ?_, ?_⟩
  · rw [readBlock_eq, Reader.block]
    change (unbounded registry).items 0 [] (Reader.trim (unread tokens)) >>= _ = _
    rw [trimmed, read]
    rfl
  · have written : linesOf unit items = lines tokens := by
      rw [kept, List.reverse_nil, List.nil_append, same, linesOf_unread]
    have unindented : Text.times unit 0 = "" := rfl
    rw [renderBody_eq, written, lineBreak, unindented, String.empty_append, String.append_empty]
    rfl

instance (registry : Registry) (token : String) : Decidable (IsPlain registry token) :=
  decidable_of_iff (token ∉ otherMarks ∧ Text.foldCase token ∉ Reader.stepWords ∧
      registry.isKnownCall token = false)
    ⟨fun h => ⟨h.1, h.2.1, h.2.2⟩, fun plain => ⟨plain.mark, plain.word, plain.call⟩⟩

/-- Operators side by side, at both ends of a line and in a chain. -/
def factors : List String :=
  ["\n", "a", "*", "*", "b", "\n", "*", "c", "%", "\n", "\n", "d", "/", "e", "/", "f", "-", "1"]

theorem factors_written :
    ∃ body, readBlock .empty 0 .root (factors.map .token) = .ok body ∧
      renderBody "\t" body = "a * * b\n* c %\nd / e / f - 1" :=
  plain_lines_written factors (by decide +kernel) (by decide)

end Maxscript.Products
