import Maxscript.Proofs.Convert
import Maxscript.Proofs.Reader.Wrapping
import Maxscript.Proofs.Signature.Parameters

/-!
# Reading functions from their text

A function is read as it is written, up to the bracket that closes its body, if every key has a
default and every number is one that is put together. If not, it is never read as it is written:
with a number of another form there are too many parameters, and behind a last key without a default
nothing says where the parameters end.
-/

namespace Maxscript.Signature

open Reader (unbounded Ends ends_cons prepend parameters_cons function_of_parameters)
open Structured (unread bracketed)
open Token (respelled ne_of_isWord)

variable {registry : Registry}

def function (signature : Signature registry) (indent : Nat) (body : Piece) : Piece :=
  .function indent signature.name.spelled
    (signature.parameters.map (Parameter.binding indent) ++
      (signature.lastKey.map fun key => .binding indent key.spelled none true).toList) body

/-- Whether all is read that is written: every key has a default, and every default is read to a
single one. -/
def isWhole (signature : Signature registry) : Bool :=
  signature.lastKey.isNone && signature.parameters.all Parameter.isWhole

/-! ### Functions -/

section

variable (indent : Nat) (name : String) {pieces : List Piece}

/-- The parameters of a function that was read are those that its list of parameters was read to,
whatever its body is. -/
theorem parameters_of_function {made : Piece} {left : List Piece}
    (read : (unbounded registry).function indent (.token name :: pieces) = .ok (made, left)) :
    ∃ parameters rest block,
      (unbounded registry).parameters indent pieces = .ok (parameters, rest) ∧
        made = .function indent name parameters block := by
  simp only [Reader.function, Reader.nameAt, Piece.text?_token, Option.getD_some] at read
  cases found : (unbounded registry).parameters indent pieces with
  | error _ =>
      rw [found] at read
      cases read
  | ok reading =>
      rw [found] at read
      simp only [bind, Except.bind] at read
      split at read
      · cases read
      · next block _ =>
          obtain ⟨rfl, -⟩ := Prod.mk.inj (Except.ok.inj read)
          exact ⟨reading.1, reading.2, block, rfl, rfl⟩

end

/-- What is read behind the parameters that have all they need. -/
def ending (lastKey : Option (Word registry)) (rest : List Piece) : List Piece :=
  match lastKey with
  | none => .token "=" :: rest
  | some key => .token key.spelled :: .token ":=" :: rest

theorem ends_ending (lastKey : Option (Word registry)) (rest : List Piece) :
    Ends (ending lastKey rest) := by
  cases lastKey with
  | none => exact ends_cons (by decide) rest
  | some key => exact key.ends _

section

variable (signature : Signature registry)

def pieces (rest : List Piece) : List Piece :=
  .token signature.name.spelled ::
    (unread ((signature.parameters.flatMap Parameter.tokens).map (respelled registry)) ++
      ending signature.lastKey rest)

theorem unread_tokens (keyword : registry.rename? "fn" = none) (rest : List Piece) :
    unread (signature.tokens.map (respelled registry)) ++ rest =
      .token "fn" :: signature.pieces rest := by
  have fn : respelled registry "fn" = "fn" := by
    have unspelled : Token.literal? "fn" = none := by decide
    simp [respelled, unspelled, keyword]
  have equals : respelled registry "=" = "=" := respelled_mark (by decide)
  have merged : respelled registry ":=" = ":=" := respelled_mark (by decide)
  cases last : signature.lastKey with
  | none => simp [tokens, pieces, last, ending, fn, equals, Word.spelled]
  | some key => simp [tokens, pieces, last, ending, fn, merged, Word.spelled]

variable {signature} (indent : Nat)

/-- If every default is read whole, so is the function: its parameters as they are written, its
body, and nothing of what is behind. -/
theorem function_of_isWhole (whole : signature.isWhole = true) {body : List String}
    (balanced : Extent.Balanced (unread body)) (rest : List Piece) :
    (unbounded registry).function indent (signature.pieces (unread (bracketed body) ++ rest)) =
      (fun block => (signature.function indent block, rest)) <$>
        readBlock registry (indent + 1) .functionBody (unread body) := by
  rw [isWhole, Bool.and_eq_true, Option.isNone_iff_eq_none] at whole
  let after := Piece.token "=" :: (unread (bracketed body) ++ rest)
  have stop : (unbounded registry).parameters indent after = .ok ([], after) := by
    rw [Reader.unbounded_parameters]
    rfl
  have read : (unbounded registry).parameters indent
      (unread ((signature.parameters.flatMap Parameter.tokens).map (respelled registry)) ++
        after) = .ok (signature.parameters.map (Parameter.binding indent), after) := by
    have ends : Ends after := ends_cons (by decide) _
    rw [parameters_eq indent signature.parameters ends, stop,
      flatMap_bindings_of_isWhole indent whole.2]
    show Except.ok (_ ++ [], after) = _
    rw [List.append_nil]
  have made (block : Piece) : signature.function indent block =
      .function indent signature.name.spelled
        (signature.parameters.map (Parameter.binding indent)) block := by
    simp [function, whole.1]
  simp only [made]
  rw [pieces, whole.1]
  exact function_of_parameters indent signature.name.spelled read balanced

/-- Whatever follows, the parameters of the function that is read are not those that are written:
there are more of them, or the last key has lost its colon. -/
theorem function_ne_of_not_isWhole (broken : signature.isWhole = false) (rest : List Piece)
    (block : Piece) (left : List Piece) :
    (unbounded registry).function indent (signature.pieces rest) ≠
      .ok (signature.function indent block, left) := by
  intro read
  obtain ⟨parameters, after, other, found, made⟩ := parameters_of_function indent _ read
  rw [parameters_eq indent signature.parameters (ends_ending signature.lastKey rest)] at found
  obtain ⟨reading, behind, same⟩ := exists_ok_of_map found
  have written : parameters = signature.parameters.map (Parameter.binding indent) ++
      (signature.lastKey.map fun key => .binding indent key.spelled none true).toList := by
    rw [function, Piece.function.injEq] at made
    exact made.2.2.1.symm
  have bindings := (congrArg Prod.fst same).trans written
  rw [prepend] at bindings
  cases last : signature.lastKey with
  | none =>
      rw [isWhole, last, Option.isNone_none, Bool.true_and] at broken
      have more := length_lt_flatMap_bindings indent broken
      have lengths := congrArg List.length bindings
      simp only [last, Option.map_none, Option.toList_none, List.length_append, List.length_map,
        List.length_nil] at lengths
      omega
  | some key =>
      -- The key is read as a parameter without a colon, since the colon went into `:=`.
      have noColon : ∀ piece ∈ (Piece.token ":=" :: rest).head?, piece.is ":" = false := by
        simp
      have notEnd : key.spelled ≠ "=" := ne_of_isWord key.isWord_spelled (by decide)
      rw [last, ending, parameters_cons indent notEnd noColon,
        List.filter_cons_of_pos key.isWord_spelled] at behind
      obtain ⟨later, -, rfl⟩ := exists_ok_of_map behind
      rw [last] at bindings
      cases defaults : signature.parameters.all Parameter.isWhole with
      | false =>
          have more := length_lt_flatMap_bindings indent defaults
          have lengths := congrArg List.length bindings
          simp only [prepend, Option.map_some, Option.toList_some, List.length_append,
            List.length_map, List.length_cons, List.length_nil, List.filter_nil] at lengths
          omega
      | true =>
          rw [flatMap_bindings_of_isWhole indent defaults, List.append_cancel_left_eq] at bindings
          simp [prepend] at bindings

end

/-! ### Scripts -/

/-- What is behind a function, without the separators at the end of a script. -/
def trimEnd (pieces : List Piece) : List Piece :=
  (pieces.reverse.dropWhile Reader.isSeparator).reverse

/-- Separators are dropped behind a construct that neither starts nor ends with one, and the
construct stays where it is. -/
theorem trim_front {first last : Piece} (inner back : List Piece)
    (starts : Reader.isSeparator first = false ∧ first.is "(" = false)
    (stays : Reader.isSeparator last = false) :
    Reader.trim (first :: (inner ++ last :: back)) = first :: (inner ++ last :: trimEnd back) := by
  have bare : Reader.Bare (first :: (inner ++ last :: trimEnd back)) := by
    refine ⟨fun piece member => ?_, fun piece member => ?_⟩
    · cases Option.mem_some.mp member
      exact starts
    · have ending : (first :: (inner ++ last :: trimEnd back)).getLast? =
          ((trimEnd back).getLast?).or (some last) := by
        rw [← List.cons_append, List.getLast?_append, List.getLast?_cons]
        cases (trimEnd back).getLast? <;> rfl
      rw [ending, Option.mem_def, Option.or_eq_some_iff] at member
      rcases member with found | ⟨-, only⟩
      · exact Reader.getLast?_rdropWhile back piece found
      · cases only
        exact stays
  have split : trimEnd back ++ back.rtakeWhile Reader.isSeparator = back :=
    List.rdropWhile_append_rtakeWhile
  have whole : first :: (inner ++ last :: back) =
      [] ++ first :: (inner ++ last :: trimEnd back) ++ back.rtakeWhile Reader.isSeparator := by
    rw [List.nil_append, List.cons_append, List.append_assoc, List.cons_append, split]
  rw [whole, Reader.trim_separators (List.forall_mem_nil _) (fun _ => List.mem_rtakeWhile_imp),
    bare.trim_eq]

/-- A function at the start of a script, and what follows it: the pass goes on behind the function,
with the function as the only item so far. -/
theorem readScript_of_function {source : String} {inner : List Piece} {last : Piece}
    {rest : List Piece} {α : Type} {read : Result α} {made : α → Piece}
    (tokens : unread (Token.ofSource registry source) = .token "fn" :: (inner ++ last :: rest))
    (stays : Reader.isSeparator last = false)
    (function : ∀ rest, (unbounded registry).function 0 (inner ++ last :: rest) =
      (fun value => (made value, rest)) <$> read) :
    readScript registry source = do
      let value ← read
      let items ← (unbounded registry).items 0 [made value] (trimEnd rest)
      return .block 0 .root items := by
  rw [readScript, readBlock_eq]
  show (unbounded registry).block 0 .root (unread (Token.ofSource registry source)) = _
  rw [tokens, Reader.block, trim_front inner rest (by decide) stays, Reader.unbounded_items,
    Reader.readItems, if_neg (by decide), Structured.step_fn, function]
  cases read with
  | error _ => rfl
  | ok value => rfl

@[simp] theorem pieces_append (signature : Signature registry) (front back : List Piece) :
    signature.pieces (front ++ back) = signature.pieces front ++ back := by
  cases last : signature.lastKey with
  | none => simp [pieces, ending, last]
  | some key => simp [pieces, ending, last]

theorem unread_ofSource (signature : Signature registry) (keyword : registry.rename? "fn" = none)
    {source : String} {body rest : List String}
    (lexed : Token.ofSource registry ("(" ++ source) = bracketed body ++ rest) :
    unread (Token.ofSource registry (signature.text ++ ("(" ++ source))) =
      .token "fn" :: signature.pieces (unread (bracketed body) ++ unread rest) := by
  rw [signature.ofSource_eq source, lexed, Structured.unread_append, Structured.unread_append]
  exact signature.unread_tokens keyword _

/-- A function is read as it is written, with nothing taken from what is behind the bracket that
closes its body, if every key has a default and every number is one that is put together. If not,
it is never read as it is written. -/
theorem read_as_written_iff_isWhole (signature : Signature registry)
    (keyword : registry.rename? "fn" = none) {source : String} {body rest : List String}
    (lexed : Token.ofSource registry ("(" ++ source) = bracketed body ++ rest)
    (balanced : Extent.Balanced (unread body)) :
    ∃ tokens, Token.ofSource registry (signature.text ++ ("(" ++ source)) = "fn" :: tokens ∧
      (signature.isWhole = true →
        (unbounded registry).function 0 (unread tokens) =
          (fun block => (signature.function 0 block, unread rest)) <$>
            readBlock registry 1 .functionBody (unread body) ∧
        readScript registry (signature.text ++ ("(" ++ source)) = do
          let block ← readBlock registry 1 .functionBody (unread body)
          let items ← (unbounded registry).items 0 [signature.function 0 block]
            (trimEnd (unread rest))
          return .block 0 .root items) ∧
      (signature.isWhole = false → ∀ block left,
        (unbounded registry).function 0 (unread tokens) ≠
          .ok (signature.function 0 block, left)) := by
  have read := signature.unread_ofSource keyword lexed
  obtain ⟨first, tokens, shape, same, others⟩ := List.map_eq_cons_iff.mp read
  obtain rfl : first = "fn" := Piece.token.inj same
  change unread tokens = _ at others
  refine ⟨tokens, shape, fun whole => ⟨?_, ?_⟩, fun broken block left => ?_⟩
  · rw [others]
    exact function_of_isWhole 0 whole balanced (unread rest)
  · have split (rest : List Piece) : unread (bracketed body) ++ rest =
        (.token "(" :: unread body) ++ .token ")" :: rest := by
      simp [Structured.unread_bracketed]
    rw [split, pieces_append] at read
    refine readScript_of_function read (by decide) fun rest => ?_
    rw [← pieces_append, ← split]
    exact function_of_isWhole 0 whole balanced rest
  · rw [others]
    exact function_ne_of_not_isWhole 0 broken _ block left

/-- A function with a parameter, a number and a string. -/
def area : Signature Registry.empty where
  name := .ofText "area" (by decide +kernel)
  parameters :=
    [.positional (.ofText "w" (by decide +kernel)),
     .keyed (.ofText "h" (by decide +kernel)) (.ofNumber
       ⟨false, .decimal (.ofText "2" (by decide +kernel)) (.ofText "5" (by decide +kernel)), none⟩),
     .keyed (.ofText "tag" (by decide +kernel))
       (.ofString ⟨'"', "a -- b".toList, by decide, by decide⟩)]
  lastKey := none

/-- Behind the function there is another line. -/
theorem area_read_as_written :
    Token.ofSource .empty "( w - h )\narea 1" = bracketed ["w", "-", "h"] ++ ["\n", "area", "1"] ∧
    readScript .empty "fn area w h:2.5 tag:\"a -- b\" = ( w - h )\narea 1" =
      .ok (.block 0 .root
        [.function 0 "area"
          [.binding 0 "w" none false, .binding 0 "h" (some (.token "2.5")) true,
           .binding 0 "tag" (some (.token "\"a -- b\"")) true]
          (.block 1 .functionBody (unread ["w", "-", "h"])),
         .token "\n", .token "area", .token "1"]) := by
  have lexed : Token.ofSource .empty ("(" ++ " w - h )\narea 1") =
      bracketed ["w", "-", "h"] ++ ["\n", "area", "1"] := by
    decide +kernel
  have balanced : Extent.Balanced (unread ["w", "-", "h"]) :=
    .cons (by decide) (by decide) (.cons (by decide) (by decide)
      (.cons (by decide) (by decide) .nil))
  obtain ⟨tokens, -, written, -⟩ := read_as_written_iff_isWhole area (by decide) lexed balanced
  have text : area.text ++ ("(" ++ " w - h )\narea 1") =
      "fn area w h:2.5 tag:\"a -- b\" = ( w - h )\narea 1" := by
    decide
  have body : readBlock .empty 1 .functionBody (unread ["w", "-", "h"]) =
      .ok (.block 1 .functionBody (unread ["w", "-", "h"])) := by
    rw [readBlock_eq]
    exact Structured.Phrase.block_eq
      (.ofTokens ["w", "-", "h"] (by decide) (by decide +kernel)) 1 .functionBody
  have read := (written (by decide)).2
  rw [text, body] at read
  exact ⟨lexed, read⟩

/-- The colon of a key without a default is merged with the sign behind it, and the words of the
body become parameters. -/
theorem body_lost_behind_last_key :
    convert .empty "fn f k: = ( x )" = .ok "def f(k, x):\n\tpass" := by
  rw [convert_eq]
  decide +kernel

end Maxscript.Signature
