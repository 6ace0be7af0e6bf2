import Mathlib.Data.List.Infix
import Maxscript.File.Disk
import Maxscript.Proofs.Convert
import Maxscript.Proofs.Include.Directives
import Maxscript.Proofs.Token.LineComment

/-!
# Comments and included files

A comment behind a line of code is removed before anything is read, whatever it says. But included
files are put in place earlier, when comments are still text: a directive in a comment is followed,
and a comment can close the quote of a directive, or become part of the name in it. A comment that
has nothing to do with a directive changes nothing, on any file system: the same files are read, in
the same order, and the result is the same text or the same error.
-/

namespace Maxscript.Include

open Text (AtLineStart AtLineEnd unifyLineEnds)
open Token (Unquoted stripLineComment stripLineComments)

/-! ### Comments that leave directives alone -/

/-- A line with no directive in it or over it: what opens one before or in the line has no quote
behind it. -/
structure Undisturbed (front line back : List Char) : Prop where
  before : isOpen front = true → '"' ∉ line ++ back
  inside : ∀ last, last <:+ line → ∀ quoted, opening? last = some quoted → '"' ∉ quoted ++ back

/-- Outside of directives, it is enough that nothing in the line looks like the start of one. -/
theorem Undisturbed.of_closed {front line : List Char} (closed : isOpen front = false)
    (plain : (line.tails.all fun last => (opening? last).isNone) = true) (back : List Char) :
    Undisturbed front line back where
  before opened := by
    rw [closed] at opened
    cases opened
  inside last suffix quoted opened := by
    have none := List.all_eq_true.mp plain last ((List.mem_tails _ _).mpr suffix)
    rw [opened] at none
    cases none

/-- The characters of such a line are parts of the script by themselves, and the text on its two
sides has the parts that it has without the line. -/
theorem Undisturbed.parts_eq {front line back : List Char}
    (undisturbed : Undisturbed front line back) (starts : AtLineStart front)
    (ends : AtLineEnd back) :
    parts (front ++ (line ++ back)) = parts front ++ (line.map .char ++ parts back) := by
  cases opened : isOpen front with
  | false => rw [parts_append_closed opened starts, parts_plain ends undisturbed.inside]
  | true =>
      have unquoted := undisturbed.before opened
      have behind : parts back = back.map .char := by
        have absent : '"' ∉ back := fun member => unquoted (List.mem_append_right _ member)
        have whole := parts_append_unquoted absent []
        rwa [parts] at whole
      rw [parts_append_unquoted unquoted, behind, List.map_append]

/-- Only such lines leave all other parts of the script as they are. The condition is so no stronger
than what it is used for. -/
theorem undisturbed_iff {front line back : List Char} (starts : AtLineStart front)
    (ends : AtLineEnd back) :
    Undisturbed front line back ↔
      parts (front ++ (line ++ back)) = parts front ++ (line.map .char ++ parts back) := by
  refine ⟨fun undisturbed => undisturbed.parts_eq starts ends, fun kept => ?_⟩
  refine ⟨unclosed_of_parts_append kept, fun last suffix quoted opened => ?_⟩
  cases isOpened : isOpen front with
  | false =>
      rw [parts_append_closed isOpened starts, List.append_cancel_left_eq] at kept
      exact unclosed_of_parts_plain kept suffix opened
  | true =>
      have absent := unclosed_of_parts_append kept isOpened
      obtain ⟨blanks, rfl, -⟩ := opening?_eq_some_iff.mp opened
      exact absurd (List.mem_append_left back (suffix.subset (by simp))) absent

theorem Undisturbed.unifyLineEnds {front line back : List Char}
    (undisturbed : Undisturbed front line back) :
    Undisturbed (unifyLineEnds front) line (unifyLineEnds back) where
  before opened := by
    rw [isOpen_unifyLineEnds] at opened
    have absent := undisturbed.before opened
    rw [List.mem_append, not_or] at absent ⊢
    rwa [Text.mem_unifyLineEnds_iff (by decide)]
  inside last suffix quoted opened := by
    have absent := undisturbed.inside last suffix quoted opened
    rw [List.mem_append, not_or] at absent ⊢
    rwa [Text.mem_unifyLineEnds_iff (by decide)]

theorem Undisturbed.dropReturn {front line back : List Char}
    (undisturbed : Undisturbed front line back) :
    Undisturbed front (Text.dropReturn line) back := by
  rcases Text.dropReturn_cases line with kept | ⟨init, rfl, dropped⟩
  · rwa [kept]
  · rw [dropped]
    constructor
    · intro opened
      have absent := undisturbed.before opened
      simp only [List.mem_append, not_or] at absent ⊢
      exact ⟨absent.1.1, absent.2⟩
    · rintro last ⟨start, rfl⟩ quoted opened
      have absent := undisturbed.inside (last ++ ['\r']) ⟨start, by simp⟩ _
        (opening?_append opened ['\r'])
      simp only [List.mem_append, not_or] at absent ⊢
      exact ⟨absent.1.1, absent.2⟩

section

variable {front line text back : List Char}

theorem not_mem_of_unquoted (unquoted : Unquoted line) : '"' ∉ line :=
  fun member => unquoted '"' member (.inl rfl)

theorem quote_mem_of_opening? {quoted : List Char} (opened : opening? line = some quoted) :
    '"' ∈ line := by
  obtain ⟨blanks, rfl, -⟩ := opening?_eq_some_iff.mp opened
  simp

/-- What holds with a comment holds without it: a line without quotes opens no directive and closes
none. -/
theorem Undisturbed.uncommented (undisturbed : Undisturbed front text back)
    (unquoted : Unquoted line) : Undisturbed front line back where
  before opened := by
    have absent := undisturbed.before opened
    rw [List.mem_append, not_or] at absent ⊢
    exact ⟨not_mem_of_unquoted unquoted, absent.2⟩
  inside last suffix quoted opened := by
    exact absurd (suffix.subset (quote_mem_of_opening? opened)) (not_mem_of_unquoted unquoted)

/-- No directive starts in the code of a line and goes on in the comment. The two hyphens between
them are part of no directive. -/
theorem Undisturbed.commented (undisturbed : Undisturbed front (' ' :: '-' :: text) back)
    (unquoted : Unquoted line) : Undisturbed front (line ++ ' ' :: '-' :: text) back where
  before opened := by
    have absent := undisturbed.before opened
    rw [List.append_assoc, List.mem_append, not_or]
    exact ⟨not_mem_of_unquoted unquoted, absent⟩
  inside last suffix quoted opened := by
    obtain ⟨start, shape⟩ := suffix
    rcases List.append_eq_append_iff.mp shape with ⟨inner, rfl, rfl⟩ | ⟨inner, rfl, whole⟩
    · rcases opening?_append_cases opened with ⟨rest, inside, -⟩ | ⟨lead, whole, letters⟩
      · have quote := List.mem_append_right start (quote_mem_of_opening? inside)
        exact absurd quote (not_mem_of_unquoted unquoted)
      · -- The hyphen of the comment would be a letter of the word.
        cases lead with
        | nil => cases whole
        | cons blank lead =>
            cases lead with
            | nil => cases whole
            | cons second lead =>
                obtain ⟨rfl, -⟩ := List.cons.inj (List.cons.inj whole).2
                exact absurd (letters '-' (by simp)) (by decide)
    · exact undisturbed.inside last ⟨inner, whole.symm⟩ quoted opened

end

/-! ### Text in place of parts -/

section

variable {m : Type → Type} [Monad m] [FileAccess m] [LawfulMonad m]

/-- Parts are expanded from left to right, so a script can be cut between any two of them. The first
failure ends the expansion. -/
theorem expandParts_append (base : String) (front back : List Part) :
    (expandParts base (front ++ back) : ExceptT Error m (List Char)) = do
      let first ← expandParts base front
      return first ++ (← expandParts base back) := by
  induction front with
  | nil => simp [expandParts]
  | cons part front ih =>
      simp only [List.cons_append, expandParts, ih, bind_assoc, pure_bind, List.append_assoc]

theorem expandParts_chars (base : String) (text : List Char) :
    (expandParts base (text.map .char) : ExceptT Error m (List Char)) = pure text := by
  induction text with
  | nil => rfl
  | cons c text ih => simp [expandParts, expandPart, ih]

/-- Whatever is included in front of a line, a line starts behind it. The action that reads the
files is kept apart from what their text is put into. -/
theorem exists_expandParts_front (base : String) {front : List Char} (starts : AtLineStart front) :
    ∃ (action : ExceptT Error m (List Char)) (shape : List Char → List Char),
      (∀ included, AtLineStart (shape included)) ∧
        expandParts base (parts front) = shape <$> action := by
  rcases starts.eq_nil_or_newline with rfl | ⟨init, rfl⟩
  · exact ⟨pure [], fun _ => [], fun _ => starts, by rw [parts]; simp [expandParts]⟩
  · refine ⟨expandParts base (parts init), (· ++ ['\n']), ?_, ?_⟩
    · intro included c found
      rw [List.getLast?_concat] at found
      exact (Option.some.inj found).symm
    · rw [parts_append_unquoted (by decide), expandParts_append, expandParts_chars]
      simp

/-- Whatever is included behind a line, the line ends where it did. -/
theorem exists_expandParts_back (base : String) {back : List Char} (ends : AtLineEnd back) :
    ∃ (action : ExceptT Error m (List Char)) (shape : List Char → List Char),
      (∀ included, AtLineEnd (shape included)) ∧
        expandParts base (parts back) = shape <$> action := by
  rcases ends.eq_nil_or_newline with rfl | ⟨rest, rfl⟩
  · exact ⟨pure [], fun _ => [], fun _ => ends, by rw [parts]; simp [expandParts]⟩
  · refine ⟨expandParts base (parts rest), ('\n' :: ·), ?_, ?_⟩
    · rintro included c ⟨⟩
      rfl
    · rw [parts_of_none rfl]
      simp [expandParts, expandPart]

end

/-! ### Files -/

/-- A script is converted alike with lines that are alike without their comments. -/
theorem convertWith_line {front back : List Char} (starts : AtLineStart front)
    (ends : AtLineEnd back) {line other : List Char} (single : '\n' ∉ line)
    (otherSingle : '\n' ∉ other) (same : stripLineComment line = stripLineComment other)
    (unit : String) (registry : Registry) :
    convertWith unit registry (String.ofList (front ++ (line ++ back))) =
      convertWith unit registry (String.ofList (front ++ (other ++ back))) := by
  obtain ⟨before, after, split⟩ := Text.exists_splitOn_line starts ends
  have stripped : stripLineComments (String.ofList (front ++ (line ++ back))) =
      stripLineComments (String.ofList (front ++ (other ++ back))) := by
    rw [stripLineComments, stripLineComments, String.toList_ofList, String.toList_ofList,
      split line single, split other otherSingle, List.map_append, List.map_append,
      List.map_cons, List.map_cons, same]
  rw [convertWith_eq, convertWith_eq, readScript, readScript, Token.ofSource, Token.ofSource,
    Token.lex,
    Token.lex, stripped]

/-- Converts the text of a file, with the files that it includes looked up in a directory. -/
def convertFile {m : Type → Type} [Monad m] [FileAccess m] (unit : String) (registry : Registry)
    (base source : String) : ExceptT Error m (Result String) := do
  return convertWith unit registry (← preprocess (some base) source)

def linesBefore (lines : List String) : List Char := lines.flatMap fun line => line.toList ++ ['\n']

def linesBehind (lines : List String) : List Char := lines.flatMap fun line => '\n' :: line.toList

theorem toList_lines (before : List String) (line : String) (after : List String) :
    (Text.joinWith "\n" (before ++ line :: after)).toList =
      linesBefore before ++ (line.toList ++ linesBehind after) := by
  have behind (line : String) (after : List String) :
      (Text.joinWith "\n" (line :: after)).toList = line.toList ++ linesBehind after := by
    induction after generalizing line with
    | nil => exact (List.append_nil _).symm
    | cons next after ih =>
        rw [Text.joinWith_cons "\n" line (List.cons_ne_nil next after), String.toList_append,
          String.toList_append, ih, List.append_assoc]
        rfl
  induction before with
  | nil => exact behind line after
  | cons first before ih =>
      have nonempty : before ++ line :: after ≠ [] := by simp
      rw [List.cons_append, Text.joinWith_cons "\n" first nonempty, String.toList_append,
        String.toList_append, ih]
      simp [linesBefore]

theorem atLineStart_linesBefore (lines : List String) : AtLineStart (linesBefore lines) := by
  intro c found
  rcases List.eq_nil_or_concat' lines with rfl | ⟨init, last, rfl⟩
  · cases found
  · have ends : linesBefore (init ++ [last]) = linesBefore init ++ last.toList ++ ['\n'] := by
      simp [linesBefore]
    rw [ends, List.getLast?_concat] at found
    exact (Option.some.inj found).symm

theorem atLineEnd_linesBehind (lines : List String) : AtLineEnd (linesBehind lines) := by
  cases lines with
  | nil => rintro c ⟨⟩
  | cons line lines =>
      rintro c ⟨⟩
      rfl

/-- A line of a file without quotes and without a comment. -/
structure IsPlainLine (line : String) : Prop where
  single : '\n' ∉ line.toList
  unquoted : Unquoted line.toList
  uncommented : ¬['-', '-'] <:+: line.toList

section

variable {m : Type → Type} [Monad m] [FileAccess m] [LawfulMonad m]

/-- A script with a line in its middle is converted as the two texts around it, with all that they
include, and the line. -/
theorem exists_convertFile_eq (unit : String) (registry : Registry) (base : String)
    (before after : List String) :
    ∃ (first second : ExceptT Error m (List Char)) (front back : List Char → List Char),
      (∀ included, AtLineStart (front included)) ∧ (∀ included, AtLineEnd (back included)) ∧
      ∀ line : String, '\n' ∉ line.toList →
        Undisturbed (linesBefore before) line.toList (linesBehind after) →
        ∃ kept, (kept = line.toList ∨ kept = Text.dropReturn line.toList) ∧
          convertFile unit registry base (Text.joinWith "\n" (before ++ line :: after)) = do
            let earlier ← first
            let later ← second
            return convertWith unit registry
              (String.ofList (front earlier ++ (kept ++ back later))) := by
  have starts := Text.atLineStart_unifyLineEnds (atLineStart_linesBefore before)
  have ends := Text.atLineEnd_unifyLineEnds (atLineEnd_linesBehind after)
  obtain ⟨first, front, frontStarts, frontEq⟩ := exists_expandParts_front (m := m) base starts
  obtain ⟨second, back, backEnds, backEq⟩ := exists_expandParts_back (m := m) base ends
  refine ⟨first, second, front, back, frontStarts, backEnds, ?_⟩
  intro line single undisturbed
  obtain ⟨kept, isKept, unified⟩ :=
    Text.exists_unifyLineEnds_line single (atLineEnd_linesBehind after)
  have whole : unifyLineEnds (linesBefore before ++ (line.toList ++ linesBehind after)) =
      unifyLineEnds (linesBefore before) ++ (kept ++ unifyLineEnds (linesBehind after)) := by
    rw [Text.unifyLineEnds_append, unified]
    intro last
    exact absurd (atLineStart_linesBefore before _ last) (by decide)
  have calm : Undisturbed (unifyLineEnds (linesBefore before)) kept
      (unifyLineEnds (linesBehind after)) := by
    rcases isKept with rfl | rfl
    · exact undisturbed.unifyLineEnds
    · exact undisturbed.dropReturn.unifyLineEnds
  refine ⟨kept, isKept, ?_⟩
  simp only [convertFile, preprocess, toList_lines, whole, (undisturbed_iff starts ends).mp calm,
    expandParts_append, expandParts_chars, frontEq, backEq]
  simp

/-- A comment behind a line of code changes nothing, unless a directive stands in it, ends in it or
extends over it. -/
theorem convertFile_comment (unit : String) (registry : Registry) (base : String)
    {before after : List String} {line text : String} (plain : IsPlainLine line)
    (single : '\n' ∉ text.toList)
    (undisturbed : Undisturbed (linesBefore before) (" --" ++ text).toList (linesBehind after)) :
    (convertFile unit registry base
        (Text.joinWith "\n" (before ++ (line ++ (" --" ++ text)) :: after)) :
      ExceptT Error m (Result String)) =
      convertFile unit registry base (Text.joinWith "\n" (before ++ line :: after)) := by
  have comment : (" --" ++ text).toList = ' ' :: '-' :: '-' :: text.toList := by simp
  have longer : (line ++ (" --" ++ text)).toList =
      line.toList ++ ' ' :: '-' :: '-' :: text.toList := by rw [String.toList_append, comment]
  have longerSingle : '\n' ∉ (line ++ (" --" ++ text)).toList := by
    simp [plain.single, single]
  rw [comment] at undisturbed
  obtain ⟨first, second, front, back, starts, ends, converted⟩ :=
    exists_convertFile_eq (m := m) unit registry base before after
  obtain ⟨shown, isShown, without⟩ :=
    converted line plain.single (undisturbed.uncommented plain.unquoted)
  obtain ⟨other, isOther, within⟩ := converted (line ++ (" --" ++ text)) longerSingle
    (longer ▸ undisturbed.commented plain.unquoted)
  -- A carriage return at the end of either line is not seen when its comment is removed.
  have returns {line kept : List Char} (isKept : kept = line ∨ kept = Text.dropReturn line)
      (lineSingle : '\n' ∉ line) :
      '\n' ∉ kept ∧ stripLineComment kept = stripLineComment line := by
    rcases isKept with rfl | rfl
    · exact ⟨lineSingle, rfl⟩
    · exact ⟨fun member => lineSingle (Text.mem_of_mem_dropReturn member),
        Token.stripLineComment_dropReturn line⟩
  obtain ⟨shownSingle, shownStripped⟩ := returns isShown plain.single
  obtain ⟨otherSingle, otherStripped⟩ := returns isOther longerSingle
  have same : stripLineComment other = stripLineComment shown := by
    rw [otherStripped, shownStripped, longer,
      Token.stripLineComment_commented plain.unquoted plain.uncommented]
  rw [within, without]
  refine bind_congr fun earlier => bind_congr fun later => congrArg pure ?_
  exact convertWith_line (starts earlier) (ends later) otherSingle shownSingle same unit registry

end

/-- A comment with quotes in it, behind a line between a directive and a string. -/
theorem remark_left_out :
    IsPlainLine "y = helper 1\r" ∧
      Undisturbed (linesBefore ["include \"lib.ms\"\r"]) (" --" ++ " see \"notes\"").toList
        (linesBehind ["z = \"-\""]) ∧
      (convertFile "\t" .empty "" (Text.joinWith "\n" (["include \"lib.ms\"\r"] ++
          ("y = helper 1\r" ++ (" --" ++ " see \"notes\"")) :: ["z = \"-\""])) :
        ExceptT Error (StateM Disk) (Result String)) =
        convertFile "\t" .empty "" (Text.joinWith "\n" (["include \"lib.ms\"\r"] ++
          "y = helper 1\r" :: ["z = \"-\""])) := by
  have plain : IsPlainLine "y = helper 1\r" :=
    ⟨by decide, Token.unquoted_of_all (by decide), by decide⟩
  have undisturbed : Undisturbed (linesBefore ["include \"lib.ms\"\r"])
      (" --" ++ " see \"notes\"").toList (linesBehind ["z = \"-\""]) :=
    .of_closed (by decide +kernel) (by decide) _
  exact ⟨plain, undisturbed, convertFile_comment "\t" .empty "" plain (by decide) undisturbed⟩

/-- A disk with a file of two lines. -/
def library : Disk := { entries := [(["lib.ms"], .file (.text "a\nb"))] }

/-- A directive in a comment is followed, and only the first line of the file is in the comment. -/
theorem commented_directive_followed :
    IsPlainLine "x = 1" ∧
      ((convertFile "\t" .empty "" "x = 1" : ExceptT Error (StateM Disk) (Result String)).run
        library).1 = .ok (.ok "x = 1") ∧
      ((convertFile "\t" .empty "" "x = 1 -- include \"lib.ms\"" :
        ExceptT Error (StateM Disk) (Result String)).run library).1 = .ok (.ok "x = 1\nb") := by
  refine ⟨⟨by decide, Token.unquoted_of_all (by decide), by decide⟩, ?_, ?_⟩
  · simp only [convertFile, convertWith_eq]
    decide +kernel
  · simp only [convertFile, convertWith_eq]
    decide +kernel

end Maxscript.Include
