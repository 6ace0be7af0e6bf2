import Mathlib.Data.List.Chain
import Maxscript.Proofs.Reader.Progress
import Maxscript.Proofs.Reader.Texts

/-!
# Reading loses no text

What is read and what is left show the same as the list that was given, brackets, separators and
clause words apart. This is an equation for every reader, and each follows from those of the
readers it asks. Since the texts are compared in order, nothing is repeated or moved either.

Definitions, casts and counts are put into other words, and so are symbols; streams with these are
not considered here.
-/

namespace Maxscript.Reader

open ConvertError (Any)
open Token (isClauseWord residue)

/-! ### Streams that are not put into other words -/

/-- What may stand next to each other: `#` only starts an array, and no member is a clause word. -/
def Follows (piece next : Piece) : Prop :=
  (piece.is "#" = true → next.is "(" = true) ∧
    (piece.is "." = true → ∀ word ∈ Token.clauseWords, next.isKeyword word = false)

/-- Pieces that are read without putting anything into other words. -/
structure Literal (pieces : List Piece) : Prop where
  words : ∀ piece ∈ pieces, ∀ word ∈ Token.rewordedWords, piece.isKeyword word = false
  pairs : pieces.IsChain Follows

namespace Literal

/-- Being literal is a property of the tokens and of their neighbours, so a reader that goes on with
part of a list may assume it again. -/
theorem isInfix {pieces part : List Piece} (h : Literal pieces) (inside : part <:+: pieces) :
    Literal part where
  words piece member := h.words piece (inside.subset member)
  pairs := List.IsChain.infix h.pairs inside

theorem suffix {pieces part : List Piece} (h : Literal pieces) (below : part <:+ pieces) :
    Literal part :=
  h.isInfix below.isInfix

theorem tail {first : Piece} {rest : List Piece} (h : Literal (first :: rest)) : Literal rest :=
  h.suffix (List.suffix_cons first rest)

theorem follows {first next : Piece} {rest : List Piece} (h : Literal (first :: next :: rest)) :
    Follows first next :=
  (List.isChain_cons_cons.mp h.pairs).1

theorem not_startsFunction {pieces : List Piece} (h : Literal pieces) :
    startsFunction pieces = false := by
  cases pieces with
  | nil => rfl
  | cons first rest =>
      have words := h.words first List.mem_cons_self
      simp [startsFunction, words "fn" (by decide), words "function" (by decide)]

end Literal

/-- Nothing of `rest` is lost in what is read and what is left. -/
def Kept (rest : List Piece) (reading : Reading Piece) : Prop :=
  reading.2 <:+ rest ∧ shown (reading.1 :: reading.2) = shown rest

/-- Nothing of `rest` is lost in the several pieces that are read and what is left. -/
def KeptAll (rest : List Piece) (reading : Reading (List Piece)) : Prop :=
  reading.2 <:+ rest ∧ shown (reading.1 ++ reading.2) = shown rest

/-- What the nested readers keep. Definitions are not read here, so nothing is asked of the
readers of parameters and members. -/
structure Conserves (reader : Reader) : Prop where
  items : ∀ indent before after, Literal after →
    Meets (reader.items indent before after)
      (fun items => shown items = shown (before.reverse ++ after)) Any
  conditional : ∀ indent rest, Literal rest →
    Meets (reader.conditional indent rest) (Kept rest) Any
  arguments : ∀ indent rest, Literal rest →
    Meets (reader.arguments indent rest) (KeptAll rest) Any
  elements : ∀ indent close rest, Token.residue [close] = [] → Literal rest →
    Meets (reader.elements indent close rest) (KeptAll rest) Any
  trailers : ∀ indent operand rest, Literal rest →
    Meets (reader.trailers indent operand rest) (fun reading => reading.2 <:+ rest ∧
      shown (reading.1 :: reading.2) = shown (operand :: rest)) Any

/-! ### Members -/

theorem isClauseWord_of_isKeyword {text : String}
    (h : ∀ word ∈ Token.clauseWords, (Piece.token text).isKeyword word = false) :
    isClauseWord text = false := by
  cases clause : isClauseWord text with
  | false => rfl
  | true =>
      have := h _ (List.contains_iff_mem.mp clause)
      simp at this

/-- A token that can have members is no clause word: joining members to it never hides a word that
the readers leave out of what they show. -/
theorem isClauseWord_of_isOperand {text : String} (h : isOperand (.token text) = true) :
    isClauseWord text = false := by
  cases clause : isClauseWord text with
  | false => rfl
  | true =>
      have reserved : Token.isReserved text = true := by
        have all : ∀ word ∈ Token.clauseWords, word ∈ Token.reserved := by decide
        exact List.contains_iff_mem.mpr (all _ (List.contains_iff_mem.mp clause))
      have quoted : Token.isQuoted text = false := by
        rw [Token.isQuoted.eq_def]
        split
        · rfl
        · next c rest shape =>
            have letter := Token.isAlpha_of_isClauseWord clause
              (shape ▸ List.mem_cons_self : c ∈ text.toList)
            have notDouble : c ≠ '"' := by
              rintro rfl
              exact absurd letter (by decide)
            have notSingle : c ≠ '\'' := by
              rintro rfl
              exact absurd letter (by decide)
            simp [notDouble, notSingle]
      have notClose : text ≠ ")" := by
        rintro rfl
        exact absurd clause (by decide)
      have notSquare : text ≠ "]" := by
        rintro rfl
        exact absurd clause (by decide)
      simp [isOperand, reserved, quoted, notClose, notSquare] at h

/-- The members at the front show what they were read from. None of them is a clause word, and none
is counted, so they can be joined to a base as they are. -/
theorem memberRun_kept {pieces : List Piece} (literal : Literal pieces) :
    shown pieces = shown ((memberRun pieces).1.flatMap fun word => [.token ".", .token word]) ++
      shown (memberRun pieces).2 ∧
    ∀ word ∈ (memberRun pieces).1, isClauseWord word = false ∧ Text.foldCase word ≠ "count" := by
  fun_induction memberRun pieces with
  | case1 dot word rest member words left found ih =>
      rw [Bool.and_eq_true] at member
      obtain ⟨kept, plain⟩ := ih literal.tail.tail
      rw [found] at kept plain
      obtain rfl := eq_token_of_is member.1
      refine ⟨?_, List.forall_mem_cons.mpr ⟨⟨?_, ?_⟩, plain⟩⟩
      · rw [List.flatMap_cons, shown_append, List.append_assoc, ← kept, ← shown_append]
        rfl
      · exact isClauseWord_of_isKeyword (literal.follows.2 member.1)
      · have := literal.words (.token word) (by simp) "count" (by decide)
        simpa using this
  | case2 dot word rest member => exact ⟨rfl, List.forall_mem_nil _⟩
  | case3 pieces shape => exact ⟨rfl, List.forall_mem_nil _⟩

theorem shown_members {words : List String}
    (plain : ∀ word ∈ words, isClauseWord word = false) :
    shown (words.flatMap fun word => [.token ".", .token word]) =
      (String.join (words.map ("." ++ ·))).toList.filter (!Token.structural.contains ·) := by
  induction words with
  | nil => rfl
  | cons word rest ih =>
      obtain ⟨first, others⟩ := List.forall_mem_cons.mp plain
      have dot : residue ["."] = ".".toList.filter (!Token.structural.contains ·) := by decide
      rw [List.flatMap_cons, shown_append, ih others, List.map_cons, String.join_cons,
        String.append_assoc, String.toList_append, List.filter_append, String.toList_append,
        List.filter_append, ← dot, ← Token.residue_single first, ← List.append_assoc]
      rfl

/-- Members are joined to a token with their dots, or come after the base in a chain. Either way the
characters that remain are those of the base and of the members. -/
theorem joinMembers_kept {base : Piece} (operand : isOperand base = true) {words : List String}
    (plain : ∀ word ∈ words, isClauseWord word = false) (nonempty : words ≠ []) :
    residue (joinMembers base words).texts =
      residue base.texts ++ shown (words.flatMap fun word => [.token ".", .token word]) := by
  cases base with
  | token text =>
      have dotted : isClauseWord (text ++ String.join (words.map ("." ++ ·))) = false := by
        obtain ⟨word, rest, rfl⟩ := List.exists_cons_of_ne_nil nonempty
        refine Token.isClauseWord_of_mem (c := '.') ?_ (by decide)
        simp [String.join_cons]
      rw [joinMembers, Piece.texts, Piece.texts, Token.residue_single dotted, shown_members plain,
        Token.residue_single (isClauseWord_of_isOperand operand), String.toList_append,
        List.filter_append]
  | _ => exact Token.residue_append _ _

/-- Without counts, members are only joined. -/
theorem applyMembers_eq {base : Piece} {words : List String} (nonempty : words ≠ [])
    (uncounted : ∀ word ∈ words, Text.foldCase word ≠ "count") :
    applyMembers base words.reverse = joinMembers base words := by
  obtain ⟨front, last, rfl⟩ := (List.eq_nil_or_concat words).resolve_left nonempty
  have other : Text.foldCase last ≠ "count" := uncounted last (by simp)
  simp [applyMembers, other]

/-- In a literal list, joining members is all that happens to them: there is no `count` that would
turn what is before it into a call. -/
theorem fuse?_eq_some {base fused : Piece} {pieces left : List Piece} (literal : Literal pieces)
    (h : fuse? base pieces = some (fused, left)) :
    ∃ words, words ≠ [] ∧ isOperand base = true ∧ fused = joinMembers base words ∧
      (∀ word ∈ words, isClauseWord word = false) ∧
      shown pieces = shown (words.flatMap fun word => [.token ".", .token word]) ++ shown left := by
  obtain ⟨kept, plain⟩ := memberRun_kept literal
  rw [fuse?] at h
  split at h
  · cases h
  · next words remaining nonempty found =>
      rw [found] at kept plain
      have some : words ≠ [] := fun empty => nonempty empty
      split at h
      · next operand =>
          cases h
          exact ⟨words, some, operand,
            applyMembers_eq some fun word member => (plain word member).2,
            fun word member => (plain word member).1, kept⟩
      · cases h

/-- What a piece and the members after it show is what they show when they are joined, with the dots
between them. -/
theorem fuse?_kept {base fused : Piece} {pieces left : List Piece} (literal : Literal pieces)
    (h : fuse? base pieces = some (fused, left)) :
    shown (fused :: left) = shown (base :: pieces) := by
  obtain ⟨words, nonempty, operand, rfl, plain, kept⟩ := fuse?_eq_some literal h
  rw [shown_cons, shown_cons, joinMembers_kept operand plain nonempty, kept, List.append_assoc]

/-- What members were joined to is neither a mark nor a word that readers know, so that the pass
does not stop at it a second time. -/
theorem joinMembers_unmarked {base : Piece} (operand : isOperand base = true)
    {words : List String} (nonempty : words ≠ []) :
    (∀ word ∈ Token.rewordedWords, (joinMembers base words).isKeyword word = false) ∧
      (joinMembers base words).is "#" = false ∧ (joinMembers base words).is "." = false := by
  obtain ⟨word, rest, rfl⟩ := List.exists_cons_of_ne_nil nonempty
  cases base with
  | token text =>
      have shape : (text ++ String.join ((word :: rest).map ("." ++ ·))).toList =
          text.toList ++ '.' :: (word.toList ++ (String.join (rest.map ("." ++ ·))).toList) := by
        simp [String.join_cons]
      rw [joinMembers]
      generalize text ++ String.join ((word :: rest).map ("." ++ ·)) = joined at shape
      have dot : '.' ∈ joined.toList := by simp [shape]
      refine ⟨?_, ?_, ?_⟩
      · intro word known
        have undotted : ∀ word ∈ Token.rewordedWords, '.' ∉ word.toList := by decide
        have other : Text.foldCase joined ≠ word := by
          rintro rfl
          refine undotted _ known ?_
          rw [Text.foldCase, String.toList_ofList]
          exact List.mem_map_of_mem dot
        simpa using other
      · have other : joined ≠ "#" := by
          rintro rfl
          exact absurd dot (by decide)
        simpa using other
      · have other : joined ≠ "." := by
          rintro rfl
          have empty : text = "" := by
            cases chars : text.toList with
            | nil => exact String.toList_inj.mp chars
            | cons c cs => simp [chars] at shape
          rw [empty] at operand
          exact absurd operand (by decide)
        simpa using other
  | _ => exact ⟨fun _ _ => rfl, rfl, rfl⟩

/-- A joined piece takes the place of what it was joined from. The list is literal again, and the
pass can look at the piece once more. -/
theorem fuse?_literal {base fused dot : Piece} {after left : List Piece}
    (literal : Literal (dot :: after)) (h : fuse? base (dot :: after) = some (fused, left)) :
    Literal (fused :: left) := by
  obtain ⟨words, nonempty, operand, rfl, -, -⟩ := fuse?_eq_some literal h
  obtain ⟨word, sharp, dotted⟩ := joinMembers_unmarked operand nonempty
  have below := literal.suffix (lt_of_fuse? h).2
  refine ⟨List.forall_mem_cons.mpr ⟨word, below.words⟩, below.pairs.cons fun next _ => ?_⟩
  rw [Follows, sharp, dotted]
  exact ⟨fun no => Bool.noConfusion no, fun no => Bool.noConfusion no⟩

/-! ### Blocks and groups -/

section

variable {reader : Reader} {rest : List Piece}

theorem Conserves.block (asked : reader.Conserves) (indent : Nat) (role : Role)
    {pieces : List Piece} (literal : Literal pieces) :
    Meets (reader.block indent role pieces)
      (fun block => residue block.texts = shown pieces) Any := by
  have inner := literal.isInfix (trim_isInfix pieces)
  refine (asked.items indent [] (trim pieces) inner).bind fun items kept => ?_
  exact kept.trans (shown_trim pieces)

/-- A block keeps what lies in its extent. -/
theorem Conserves.blockOf (asked : reader.Conserves) (indent : Nat) (role : Role)
    {pieces : List Piece} (literal : Literal pieces) (extent : Extent) :
    Meets (reader.blockOf indent role pieces extent)
      (fun block => shown (pieces.take extent.start) ++ residue block.texts ++
        shown (pieces.drop extent.stop) = shown pieces) Any := by
  rw [Reader.blockOf]
  cases found : cut pieces extent with
  | error error => trivial
  | ok part =>
      have whole := append_of_cut found
      have inside : Literal part :=
        literal.isInfix ⟨pieces.take extent.start, pieces.drop extent.stop, whole.symm⟩
      refine (asked.block indent role inside).mono fun block kept => ?_
      have shows := congrArg shown whole
      rw [shown_append, shown_append, ← kept] at shows
      exact shows.symm

/-- A part at the front keeps what comes before its end. -/
theorem Conserves.blockFront (asked : reader.Conserves) (indent : Nat) (role : Role)
    {pieces : List Piece} (literal : Literal pieces) (stop : Nat) :
    Meets (reader.blockOf indent role pieces ⟨0, stop⟩)
      (fun block => residue block.texts ++ shown (pieces.drop stop) = shown pieces) Any :=
  asked.blockOf indent role literal ⟨0, stop⟩

/-- The bracket that closes a group, if one does, is all that lies between the inside of the group
and what follows it. An unclosed group ends with the list. -/
theorem shown_group_after (pieces : List Piece) :
    shown (pieces.drop (Extent.group pieces 0).inside.stop) =
      shown (pieces.drop (Extent.group pieces 0).after) := by
  simp only [Extent.group]
  split
  · next closed =>
      rw [Bool.and_eq_true, Option.any_eq_true] at closed
      obtain ⟨-, bracket, found, isClose⟩ := closed
      rw [List.drop_eq_getElem?_toList_append, found, Option.toList_some, List.singleton_append,
        (silent_of_is isClose (by decide)).shown_cons]
  · rfl

theorem group_inside_start (mark : Piece) (rest : List Piece) :
    (Extent.group (mark :: rest) 0).inside.start = 1 := by
  simp only [Extent.group]
  split
  · rfl
  · simp

/-- A group keeps what it was read from. Its brackets are not shown, and behind it the reader goes
on where the group ends. -/
theorem Conserves.groupAt (asked : reader.Conserves) (indent : Nat) (role : Role) {mark : Piece}
    (opened : mark.is "(" = true) (literal : Literal (mark :: rest)) :
    Meets (reader.groupAt indent role mark rest) (Kept (mark :: rest)) Any := by
  have silent : Silent mark := silent_of_is opened (by decide)
  refine (asked.blockOf indent role literal _).bind fun block kept => ?_
  rw [group_inside_start, shown_group_after, List.take_succ_cons, List.take_zero,
    silent.shown_cons, shown_nil, List.nil_append] at kept
  refine ⟨List.drop_suffix _ _, ?_⟩
  rw [shown_cons, kept]

/-! ### Operands and elements -/

/-- In a literal list a `#` can only start an array, which keeps its elements. A name behind it
would get quotes, and so characters that the tokens do not have. -/
theorem Conserves.sentinel (asked : reader.Conserves) (indent : Nat) {mark : Piece}
    (sharp : mark.is "#" = true) (literal : Literal (mark :: rest)) :
    Meets (reader.sentinel indent mark rest) (Kept (mark :: rest)) Any := by
  have silent : Silent mark := silent_of_is sharp (by decide)
  cases rest with
  | nil => exact ⟨List.suffix_cons mark [], rfl⟩
  | cons next inner =>
      have opened := literal.follows.1 sharp
      have silentNext : Silent next := silent_of_is opened (by decide)
      rw [Reader.sentinel, if_pos opened]
      refine (asked.elements indent ")" inner (by decide) literal.tail.tail).bind ?_
      rintro ⟨elements, left⟩ ⟨below, kept⟩
      refine ⟨below.trans ((List.suffix_cons next inner).trans (List.suffix_cons mark _)), ?_⟩
      rw [silent.shown_cons, silentNext.shown_cons, ← kept, shown_append, shown_cons]
      rfl

theorem isAlpha_of_isDigit {c : Char} (h : c.isDigit = true) : c.isAlpha = false := by
  delta Char.isDigit at h
  delta Char.isAlpha Char.isUpper Char.isLower
  grind

/-- A minus sign before a number is joined to it. -/
theorem negated_kept {mark : Piece} (minus : mark.is "-" = true) (rest : List Piece) :
    Kept (mark :: rest) (negated mark rest) := by
  refine ⟨(negated_suffix mark rest).trans (List.suffix_cons mark rest), ?_⟩
  rw [negated.eq_def]
  split
  · next text rest' =>
      split
      · next digit =>
          obtain rfl := eq_token_of_is minus
          have number : isClauseWord text = false := by
            cases shape : text.toList with
            | nil => simp [shape] at digit
            | cons c cs =>
                have isDigit : c.isDigit = true := by simpa [shape] using digit
                exact Token.isClauseWord_of_mem (shape ▸ List.mem_cons_self)
                  (isAlpha_of_isDigit isDigit)
          have signed : isClauseWord ("-" ++ text) = false :=
            Token.isClauseWord_of_mem (c := '-') (by simp) (by decide)
          rw [shown_cons, shown_cons, shown_cons, ← List.append_assoc]
          exact congrArg (· ++ shown rest') (Token.residue_join rfl (by decide) number signed)
      · rfl
  · rfl

theorem Conserves.bareOperand (asked : reader.Conserves) (indent : Nat) {first : Piece}
    (literal : Literal (first :: rest)) :
    Meets (reader.bareOperand indent first rest) (Kept (first :: rest)) Any := by
  rw [Reader.bareOperand]
  refine Meets.ite (fun opened => asked.groupAt indent .group opened literal) fun _ => ?_
  refine Meets.ite (fun opened => ?_) fun _ => ?_
  · have silent : Silent first := silent_of_is opened (by decide)
    refine (asked.elements indent "]" rest (by decide) literal.tail).bind ?_
    rintro ⟨indices, left⟩ ⟨below, kept⟩
    refine ⟨below.trans (List.suffix_cons first rest), ?_⟩
    rw [silent.shown_cons, ← kept, shown_append, shown_cons]
    rfl
  refine Meets.ite (fun sharp => asked.sentinel indent sharp literal) fun _ => ?_
  refine Meets.ite (fun minus => negated_kept minus rest) fun _ => ?_
  exact ⟨List.suffix_cons first rest, rfl⟩

theorem Conserves.operand (asked : reader.Conserves) (indent : Nat) {first : Piece}
    (literal : Literal (first :: rest)) :
    Meets (reader.operand indent first rest) (Kept (first :: rest)) Any := by
  refine (asked.bareOperand indent literal).bind ?_
  rintro ⟨bare, left⟩ ⟨below, kept⟩
  refine (asked.trailers indent bare left (literal.suffix below)).mono ?_
  rintro ⟨operand, left'⟩ ⟨below', kept'⟩
  exact ⟨below'.trans below, kept'.trans kept⟩

/-- Members and indices are added to an operand from the left to the right, and the operand shows
what they show, in this order. -/
theorem Conserves.readTrailers (asked : reader.Conserves) (indent : Nat) (operand : Piece)
    (literal : Literal rest) :
    Meets (reader.readTrailers indent operand rest) (fun reading => reading.2 <:+ rest ∧
      shown (reading.1 :: reading.2) = shown (operand :: rest)) Any := by
  rw [Reader.readTrailers.eq_def]
  split
  · next fused left found =>
      have below := (lt_of_fuse? found).2
      refine (asked.trailers indent fused left (literal.suffix below)).mono ?_
      rintro ⟨whole, left'⟩ ⟨below', kept⟩
      exact ⟨below'.trans below, kept.trans (fuse?_kept literal found)⟩
  · cases rest with
    | nil => exact ⟨List.suffix_refl _, rfl⟩
    | cons next inner =>
        refine Meets.ite (fun opened => ?_) fun _ => ⟨List.suffix_refl _, rfl⟩
        have silent : Silent next := silent_of_is opened (by decide)
        refine (asked.elements indent "]" inner (by decide) literal.tail).bind ?_
        rintro ⟨indices, left⟩ ⟨below, kept⟩
        refine (asked.trailers indent _ left (literal.tail.suffix below)).mono ?_
        rintro ⟨whole, left'⟩ ⟨below', kept'⟩
        refine ⟨below'.trans (below.trans (List.suffix_cons next inner)), kept'.trans ?_⟩
        rw [shown_cons, shown_cons, silent.shown_cons, ← kept, shown_append, ← List.append_assoc,
          Piece.texts, Token.residue_append]
        rfl

theorem Conserves.call (asked : reader.Conserves) (indent : Nat) (name : String)
    (literal : Literal rest) :
    Meets (reader.call indent name rest) (Kept (.token name :: rest)) Any := by
  refine (asked.arguments indent rest literal).bind ?_
  rintro ⟨arguments, left⟩ ⟨below, kept⟩
  refine ⟨below.trans (List.suffix_cons _ rest), ?_⟩
  have named : residue (name :: Piece.textsAll arguments) = residue [name] ++ shown arguments :=
    Token.residue_append [name] _
  rw [shown_cons, shown_cons, ← kept, shown_append, ← List.append_assoc]
  exact congrArg (· ++ shown left) named

theorem Conserves.callOrOperand (asked : reader.Conserves) (indent : Nat) {first : Piece}
    (literal : Literal (first :: rest)) :
    Meets (reader.callOrOperand indent first rest) (Kept (first :: rest)) Any := by
  rw [Reader.callOrOperand]
  split
  · next name found =>
      obtain ⟨rfl, -⟩ := of_callee? found
      exact asked.call indent name literal.tail
  · exact asked.operand indent literal

theorem key?_kept {first : Piece} {inner left : List Piece} {key : String}
    (h : key? first inner = some (key, left)) :
    left <:+ inner ∧ residue [key] ++ shown left = shown (first :: inner) := by
  refine ⟨key?_suffix h, ?_⟩
  rw [key?.eq_def] at h
  split at h
  · next word colon rest text =>
      split at h
      · next found =>
          cases h
          rw [Bool.and_eq_true] at found
          have silent : Silent colon := silent_of_is found.2 (by decide)
          cases first with
          | token other =>
              cases text
              rw [shown_cons, silent.shown_cons]
              rfl
          | _ => cases text
      · cases h
  · cases h

/-- A key and the value after its colon become one piece. Where the value is missing, the key is
kept by itself. -/
theorem Conserves.keyValue (asked : reader.Conserves) (indent : Nat) (stops : List String)
    (key : String) (literal : Literal rest) :
    Meets (reader.keyValue indent stops rest) (fun reading => reading.2 <:+ rest ∧
      shown (.binding indent key reading.1 true :: reading.2) = residue [key] ++ shown rest)
      Any := by
  cases rest with
  | nil => exact ⟨List.suffix_refl _, shown_cons _ _⟩
  | cons first inner =>
      have bare : shown (.binding indent key none true :: first :: inner) =
          residue [key] ++ shown (first :: inner) := shown_cons _ _
      refine Meets.ite (fun _ => ⟨List.suffix_refl _, bare⟩) fun _ => ?_
      refine (asked.operand indent literal).bind ?_
      rintro ⟨value, left⟩ ⟨below, kept⟩
      refine ⟨below, ?_⟩
      have named : residue (key :: value.texts) = residue [key] ++ residue value.texts :=
        Token.residue_append [key] _
      rw [← kept, shown_cons, shown_cons, ← List.append_assoc]
      exact congrArg (· ++ shown left) named

theorem Conserves.readArguments (asked : reader.Conserves) (indent : Nat)
    (literal : Literal rest) :
    Meets (reader.readArguments indent rest) (KeptAll rest) Any := by
  cases rest with
  | nil => exact ⟨List.suffix_refl _, rfl⟩
  | cons first inner =>
      have others {argument : Piece} {left : List Piece} (below : left <:+ first :: inner)
          (kept : shown (argument :: left) = shown (first :: inner)) :
          Meets (reader.arguments indent left >>= fun arguments =>
            return (argument :: arguments.1, arguments.2)) (KeptAll (first :: inner)) Any := by
        refine (asked.arguments indent left (literal.suffix below)).bind ?_
        rintro ⟨arguments, left'⟩ ⟨below', kept'⟩
        refine ⟨below'.trans below, ?_⟩
        rw [← kept, shown_cons, ← kept', List.cons_append, shown_cons]
      rw [Reader.readArguments]
      refine Meets.ite (fun opened => ?_) fun _ => ?_
      · refine Meets.ite (fun empty => ?_) fun _ => ?_
        · have stop : (Extent.group (first :: inner) 0).inside.stop = 1 := by
            have fits := (Extent.group_inside_fits first inner).1.1
            rw [group_inside_start] at empty fits
            exact Nat.le_antisymm empty fits
          have silent : Silent first := silent_of_is opened (by decide)
          refine ⟨List.drop_suffix _ _, ?_⟩
          rw [List.nil_append, ← shown_group_after, stop, silent.shown_cons]
          rfl
        · refine (asked.groupAt indent .argument opened literal).bind ?_
          rintro ⟨argument, left⟩ ⟨below, kept⟩
          exact others below kept
      split
      · next key left found =>
          obtain ⟨below, kept⟩ := key?_kept found
          refine (asked.keyValue indent _ key (literal.tail.suffix below)).bind ?_
          rintro ⟨value, left'⟩ ⟨below', kept'⟩
          exact others (below'.trans (below.trans (List.suffix_cons first inner)))
            (kept'.trans kept)
      · refine Meets.ite (fun _ => ⟨List.suffix_refl _, rfl⟩) fun _ => ?_
        refine (asked.operand indent literal).bind ?_
        rintro ⟨argument, left⟩ ⟨below, kept⟩
        exact others below kept

/-- No cast is among the pieces, so an element is a call or an operand. -/
theorem Conserves.element (asked : reader.Conserves) (indent : Nat) {first : Piece}
    (literal : Literal (first :: rest)) :
    Meets (reader.element indent first rest) (Kept (first :: rest)) Any := by
  refine (asked.callOrOperand indent literal).bind ?_
  rintro ⟨value, left⟩ ⟨below, kept⟩
  dsimp only
  split
  · next mark type after =>
      have uncast : mark.isKeyword "as" = false :=
        literal.words mark (below.subset List.mem_cons_self) "as" (by decide)
      refine Meets.ite (fun isCast => ?_) fun _ => ⟨below, kept⟩
      rw [uncast] at isCast
      cases isCast
  · exact ⟨below, kept⟩

/-- The elements of an array or an index keep what is between the brackets; only separators and the
closing bracket are passed over. -/
theorem Conserves.readElements (asked : reader.Conserves) (indent : Nat) {close : String}
    (mark : residue [close] = []) (literal : Literal rest) :
    Meets (reader.readElements indent close rest) (KeptAll rest) Any := by
  cases rest with
  | nil => exact ⟨List.suffix_refl _, rfl⟩
  | cons first inner =>
      have tail := List.suffix_cons first inner
      refine Meets.ite (fun closed => ?_) fun _ => ?_
      · exact ⟨tail, ((silent_of_is closed mark).shown_cons inner).symm⟩
      refine Meets.ite (fun separator => ?_) fun _ => ?_
      · have silent : Silent first := IsSurrounding.silent (.inl separator)
        refine (asked.elements indent close inner mark literal.tail).mono ?_
        rintro ⟨elements, left⟩ ⟨below, kept⟩
        exact ⟨below.trans tail, kept.trans (silent.shown_cons inner).symm⟩
      · refine (asked.element indent literal).bind ?_
        rintro ⟨element, left⟩ ⟨below, kept⟩
        refine (asked.elements indent close left mark (literal.suffix below)).bind ?_
        rintro ⟨elements, left'⟩ ⟨below', kept'⟩
        refine ⟨below'.trans below, ?_⟩
        rw [← kept, shown_cons, ← kept', List.cons_append, shown_cons]

/-! ### Clauses -/

theorem after?_kept {word : String} {pieces rest : List Piece} (clause : word ∈ Token.clauseWords)
    (h : after? word pieces = some rest) : rest <:+ pieces ∧ shown rest = shown pieces := by
  obtain ⟨keyword, rfl, found⟩ := eq_cons_of_after? h
  refine ⟨List.suffix_cons keyword rest, ?_⟩
  rw [(silent_of_isKeyword found clause).shown_cons]

/-- A clause may be announced on a later line than the one before it ended on. Neither the newlines
around its word nor the word itself are shown. -/
theorem clause_kept {word : String} {pieces rest : List Piece} (clause : word ∈ Token.clauseWords)
    (h : after? word (skipNewlines pieces) = some rest) :
    shown (skipNewlines rest) = shown pieces := by
  rw [shown_skipNewlines, (after?_kept clause h).2, shown_skipNewlines]

theorem afterElse?_kept {pieces branch : List Piece} (h : afterElse? pieces = some branch) :
    branch <:+ pieces ∧ shown branch = shown pieces := by
  refine ⟨(lt_of_afterElse? h).2, ?_⟩
  cases pieces with
  | nil => cases h
  | cons first rest =>
      rw [afterElse?] at h
      split at h
      · next newline =>
          rw [(silent_of_isNewline newline).shown_cons]
          exact (after?_kept (by decide) h).2
      · exact (after?_kept (by decide) h).2

/-- The word that ends a condition is all that lies between it and what follows. A condition that
nothing ends takes the whole list. -/
theorem shown_conditionLength (depth : Int) (pendingIfs : Nat) (pieces : List Piece) :
    shown (pieces.drop (Extent.conditionLength depth pendingIfs pieces)) =
      shown (pieces.drop (Extent.conditionLength depth pendingIfs pieces + 1)) := by
  induction pieces generalizing depth pendingIfs with
  | nil => rfl
  | cons piece rest ih =>
      simp only [Extent.conditionLength]
      split
      · exact ih _ _
      split
      · exact ih _ _
      split
      · exact ih _ _
      split
      · next ends =>
          have silent : Silent piece := by
            rcases Bool.or_eq_true _ _ ▸ ends with ends | ends
            · exact silent_of_isKeyword ends (by decide)
            · exact silent_of_isKeyword ends (by decide)
          split
          · exact ih _ _
          split
          · exact silent.shown_cons rest
          · exact ih _ _
      · exact ih _ _

theorem Conserves.alternative (asked : reader.Conserves) (indent : Nat) (literal : Literal rest) :
    Meets (reader.alternative indent rest) (Kept rest) Any := by
  have skipped := skipNewline_suffix rest
  have same := shown_skipNewline rest
  simp only [Reader.alternative]
  generalize skipNewline rest = rest' at skipped same ⊢
  have literal' := literal.suffix skipped
  split
  · next nested found =>
      obtain ⟨below, kept⟩ := after?_kept (by decide) found
      refine (asked.conditional (indent + 1) nested (literal'.suffix below)).bind ?_
      rintro ⟨conditional, left⟩ ⟨below', kept'⟩
      refine ⟨below'.trans (below.trans skipped), ?_⟩
      rw [← same, ← kept, ← kept', shown_cons, shown_cons]
      simp only [Piece.texts, Piece.textsAll, List.append_nil]
  · refine (asked.blockFront (indent + 1) .alternative literal' _).bind fun block kept => ?_
    refine ⟨(List.drop_suffix _ _).trans skipped, ?_⟩
    rw [← same, ← kept, shown_cons]

/-- A consequent may start on the next line; the newline before it is not part of it. -/
theorem shown_consequent_front (pieces : List Piece) :
    shown (pieces.take (Extent.consequent pieces 0).start) = [] := by
  cases pieces with
  | nil => rfl
  | cons first rest =>
      simp only [Extent.consequent, List.drop_zero]
      split
      · rfl
      split
      · next newline =>
          have silent : shown [first] = [] := (silent_of_isNewline newline).shown_cons []
          split
          · exact silent
          · exact silent
      · rfl

/-- A conditional keeps its condition and its branches. The words between them are clause words and
show nothing. -/
theorem Conserves.readConditional (asked : reader.Conserves) (indent : Nat)
    (literal : Literal rest) :
    Meets (reader.readConditional indent rest) (Kept rest) Any := by
  rw [Reader.readConditional]
  refine (asked.blockFront indent .condition literal _).bind fun condition first => ?_
  have behind := List.drop_suffix (Extent.conditionEnd rest 0 + 1) rest
  have ended : shown (rest.drop (Extent.conditionEnd rest 0)) =
      shown (rest.drop (Extent.conditionEnd rest 0 + 1)) := by
    have := shown_conditionLength 0 0 rest
    simpa [Extent.conditionEnd] using this
  rw [ended] at first
  generalize rest.drop (Extent.conditionEnd rest 0 + 1) = remaining at behind first ⊢
  refine (asked.blockOf (indent + 1) .consequent (literal.suffix behind) _).bind
    fun consequent second => ?_
  rw [shown_consequent_front, List.nil_append] at second
  have left := (List.drop_suffix (Extent.consequent remaining 0).stop remaining).trans behind
  generalize remaining.drop (Extent.consequent remaining 0).stop = remaining' at left second ⊢
  dsimp only
  split
  · refine ⟨left, ?_⟩
    rw [shown_cons, ← first, ← second]
    simp only [Piece.texts, Token.residue_append, List.append_assoc]
  · next branch found =>
      obtain ⟨below, kept⟩ := afterElse?_kept found
      refine (asked.alternative indent (literal.suffix (below.trans left))).bind ?_
      rintro ⟨alternative, left'⟩ ⟨below', kept'⟩
      refine ⟨below'.trans (below.trans left), ?_⟩
      rw [shown_cons, ← first, ← second, ← kept, ← kept', shown_cons]
      simp only [Piece.texts, Token.residue_append, List.append_assoc]

/-- A handler that is left out of the tree had nothing to show: it consists of brackets and
newlines. -/
theorem isEmptyHandler_shown {pieces : List Piece} (h : isEmptyHandler pieces = true) :
    shown pieces = [] := by
  refine shown_eq_nil fun piece member => ?_
  have := List.all_eq_true.mp h piece member
  rw [Bool.or_eq_true, Bool.or_eq_true] at this
  rcases this with (opened | closed) | newline
  · exact silent_of_is opened (by decide)
  · exact silent_of_is closed (by decide)
  · exact silent_of_isNewline newline

theorem Conserves.attempt (asked : reader.Conserves) (indent : Nat) (literal : Literal rest) :
    Meets (reader.attempt indent rest) (Kept rest) Any := by
  have skipped := skipNewlines_suffix rest
  have same := shown_skipNewlines rest
  rw [Reader.attempt]
  generalize skipNewlines rest = rest' at skipped same ⊢
  refine (asked.blockFront (indent + 1) .attempted (literal.suffix skipped) _).bind
    fun attempted first => ?_
  have left := (List.drop_suffix (attemptedEnd rest') rest').trans skipped
  generalize rest'.drop (attemptedEnd rest') = remaining at left first ⊢
  have bare : shown (.attempt indent attempted none :: remaining) = shown rest := by
    rw [shown_cons, ← same, ← first]
    rfl
  dsimp only
  split
  · exact ⟨left, bare⟩
  · next afterCatch found =>
      have inside : skipNewlines afterCatch <:+ rest := (clause_suffix found).trans left
      have after := clause_kept (by decide) found
      generalize skipNewlines afterCatch = caught at inside after ⊢
      have final := (List.drop_suffix (Extent.clauseEnd caught 0) caught).trans inside
      rw [cut_eq_ok ⟨Nat.zero_le _, Extent.clauseEnd_le caught 0⟩, List.drop_zero]
      have parts : shown (caught.take (Extent.clauseEnd caught 0)) ++
          shown (caught.drop (Extent.clauseEnd caught 0)) = shown remaining := by
        rw [← shown_append, List.take_append_drop, after]
      refine Meets.ite (fun empty => ?_) fun _ => ?_
      · refine ⟨final, ?_⟩
        rw [isEmptyHandler_shown empty, List.nil_append] at parts
        rw [shown_cons, parts, ← shown_cons, bare]
      · have handled : Literal (caught.take (Extent.clauseEnd caught 0)) :=
          (literal.suffix inside).isInfix ⟨[], _, List.take_append_drop _ caught⟩
        refine (asked.block (indent + 1) .handler handled).map_some.bind ?_
        rintro _ ⟨block, rfl, second⟩
        refine ⟨final, ?_⟩
        rw [← same, ← first, ← parts, ← second, shown_cons]
        simp only [Piece.texts, Token.residue_append, List.append_assoc]

theorem Conserves.loop (asked : reader.Conserves) (indent : Nat) (literal : Literal rest) :
    Meets (reader.loop indent rest) (Kept rest) Any := by
  simp only [Reader.loop]
  refine (asked.blockFront indent .loopHeader literal _).bind fun header first => ?_
  have left := List.drop_suffix (loopHeader 0 false rest).1 rest
  generalize rest.drop (loopHeader 0 false rest).1 = remaining at left first ⊢
  have bare (comprehension : Bool) :
      shown (.loop indent header comprehension none :: remaining) = shown rest := by
    rw [shown_cons, ← first]
    cases comprehension with
    | true => rfl
    | false => rfl
  refine Meets.ite (fun _ => ⟨left, bare true⟩) fun _ => ?_
  split
  · exact ⟨left, bare false⟩
  · next afterDo found =>
      have inside : skipNewlines afterDo <:+ rest := (clause_suffix found).trans left
      have after := clause_kept (by decide) found
      refine (asked.blockFront (indent + 1) .loopBody (literal.suffix inside) _).bind
        fun body second => ?_
      refine ⟨(List.drop_suffix _ _).trans inside, ?_⟩
      rw [shown_cons, ← first, ← after, ← second]
      simp only [Piece.texts, Token.residue_append, List.append_assoc]

/-! ### Passes over a block -/

/-- A step keeps what is on its two sides. -/
def KeepsTrack (pieces : List Piece) (cursor : Cursor) : Prop :=
  Literal cursor.after ∧ shown cursor.pieces = shown pieces

variable {before after : List Piece} {piece : Piece}

theorem shown_pass (before after : List Piece) (piece : Piece) :
    shown (Cursor.pieces ⟨piece :: before, after⟩) = shown (before.reverse ++ piece :: after) := by
  rw [Cursor.pieces, List.reverse_cons, List.append_assoc, List.singleton_append]

/-- A construct that was just read takes the place of what it was read from, and the pass goes on
behind it. Every reader of a construct reaches the pass by this lemma. -/
theorem Kept.passed {reading : Reading Piece} (literal : Literal (piece :: after))
    (kept : Kept (piece :: after) reading) (before : List Piece) :
    KeepsTrack (before.reverse ++ piece :: after) (passed before reading) := by
  refine ⟨literal.suffix kept.1, ?_⟩
  rw [Reader.passed, shown_pass, shown_append, kept.2, shown_append]

/-- A construct that a clause word announces is read from behind it; the word shows nothing, so it
can be left out of what is kept. -/
theorem announced {reading : Result (Reading Piece)} {text word : String}
    (literal : Literal (.token text :: after)) (before : List Piece)
    (folded : Text.foldCase text = word) (clause : word ∈ Token.clauseWords)
    (kept : Meets reading (Kept after) Any) :
    Meets (passed before <$> reading)
      (KeepsTrack (before.reverse ++ .token text :: after)) Any := by
  have keyword : (Piece.token text).isKeyword word = true := by simp [folded]
  have silent : Silent (.token text) := silent_of_isKeyword keyword clause
  refine (kept.mono fun reading kept => Kept.passed literal ?_ before).map
  exact ⟨kept.1.trans (List.suffix_cons _ after), kept.2.trans (silent.shown_cons after).symm⟩

theorem keepsTrack_pass (literal : Literal (piece :: after)) (before : List Piece) :
    KeepsTrack (before.reverse ++ piece :: after) ⟨piece :: before, after⟩ :=
  ⟨literal.tail, shown_pass before after piece⟩

theorem memberAt_kept (literal : Literal (piece :: after)) (before : List Piece) :
    KeepsTrack (before.reverse ++ piece :: after) (memberAt before piece after) := by
  rw [memberAt.eq_def]
  split
  · exact keepsTrack_pass literal []
  · next base earlier =>
      split
      · next fused left found =>
          refine ⟨fuse?_literal literal found, ?_⟩
          rw [Cursor.pieces, shown_append, fuse?_kept literal found, ← shown_append,
            List.reverse_cons, List.append_assoc, List.singleton_append]
      · exact keepsTrack_pass literal (base :: earlier)

theorem Conserves.accessAt (asked : reader.Conserves) (indent : Nat) (before : List Piece)
    (opened : piece.is "[" = true) (literal : Literal (piece :: after)) :
    Meets (reader.accessAt indent before after)
      (KeepsTrack (before.reverse ++ piece :: after)) Any := by
  have silent : Silent piece := silent_of_is opened (by decide)
  refine (asked.elements indent "]" after (by decide) literal.tail).bind ?_
  rintro ⟨indices, left⟩ ⟨below, kept⟩
  have alone (before : List Piece) :
      KeepsTrack (before.reverse ++ piece :: after)
        ⟨.access indent none indices :: before, left⟩ := by
    refine ⟨literal.tail.suffix below, ?_⟩
    rw [shown_pass, shown_append, shown_append, silent.shown_cons, ← kept, shown_append, shown_cons]
    rfl
  cases before with
  | nil => exact alone []
  | cons base earlier =>
      refine Meets.ite (fun _ => ?_) fun _ => alone (base :: earlier)
      refine ⟨literal.tail.suffix below, ?_⟩
      rw [shown_pass, List.reverse_cons, List.append_assoc, List.singleton_append, shown_append,
        shown_append, shown_cons, shown_cons, silent.shown_cons, ← kept, shown_append, Piece.texts,
        Token.residue_append, List.append_assoc]
      rfl

theorem Conserves.factorAt (asked : reader.Conserves) (indent : Nat) (before : List Piece)
    (literal : Literal (piece :: after)) :
    Meets (reader.factorAt indent before piece after)
      (KeepsTrack (before.reverse ++ piece :: after)) Any := by
  rw [Reader.factorAt.eq_def]
  split
  · next left earlier right rest =>
      refine Meets.ite (fun _ => keepsTrack_pass literal (left :: earlier)) fun _ => ?_
      refine (asked.element indent literal.tail).bind ?_
      rintro ⟨factor, left'⟩ ⟨below, kept⟩
      refine ⟨literal.tail.suffix below, ?_⟩
      rw [shown_pass, List.reverse_cons, List.append_assoc, List.singleton_append, shown_append,
        shown_append, shown_cons, shown_cons, shown_cons, ← kept, shown_cons]
      simp only [Piece.texts, Piece.textsAll, Token.residue_append, List.append_assoc,
        List.append_nil]
  · exact keepsTrack_pass literal before

theorem Conserves.stepMark (asked : reader.Conserves) (indent : Nat) (before : List Piece)
    {text : String} (literal : Literal (.token text :: after)) :
    Meets (reader.stepMark indent before (.token text) text after)
      (KeepsTrack (before.reverse ++ .token text :: after)) Any := by
  have isText {mark : String} (same : text = mark) : (Piece.token text).is mark = true := by
    simp [same]
  rw [Reader.stepMark]
  refine Meets.ite (fun same => asked.accessAt indent before (isText same) literal) fun _ => ?_
  refine Meets.ite (fun same => ?_) fun _ => ?_
  · exact ((asked.sentinel indent (isText same) literal).mono
      fun _ kept => kept.passed literal before).map
  refine Meets.ite (fun same => ?_) fun _ => ?_
  · exact ((asked.groupAt indent .group (isText same) literal).mono
      fun _ kept => kept.passed literal before).map
  refine Meets.ite (fun _ => asked.factorAt indent before literal) fun _ => ?_
  refine Meets.ite (fun same => ?_) fun _ => ?_
  · have silent : Silent (.token text) := silent_of_is (isText same) (by decide)
    refine ⟨literal.tail, ?_⟩
    rw [Cursor.pieces, shown_append, shown_append, silent.shown_cons]
  refine Meets.ite (fun _ => memberAt_kept literal before) fun _ => ?_
  exact keepsTrack_pass literal before

theorem Conserves.stepToken (asked : reader.Conserves) (indent : Nat) (before : List Piece)
    {text : String} (literal : Literal (.token text :: after)) :
    Meets (reader.stepToken indent before (.token text) text after)
      (KeepsTrack (before.reverse ++ .token text :: after)) Any := by
  have uncast : Text.foldCase text ≠ "as" := by
    have := literal.words _ List.mem_cons_self "as" (by decide)
    simpa using this
  rw [Reader.stepToken.eq_def]
  split
  · next name found =>
      cases (of_callee? found).1
      exact ((asked.call indent text literal.tail).mono
        fun _ kept => kept.passed literal before).map
  refine Meets.ite (fun folded => ?_) fun _ => ?_
  · exact announced literal before folded (by decide) (asked.loop indent literal.tail)
  rw [if_neg uncast]
  exact asked.stepMark indent before literal

/-- One step of the pass over a block loses nothing: what is behind the cursor and in front of it
shows the same before the step and after it. -/
theorem Conserves.step (asked : reader.Conserves) (indent : Nat) (before : List Piece)
    (literal : Literal (piece :: after)) :
    Meets (reader.step indent before piece after)
      (KeepsTrack (before.reverse ++ piece :: after)) Any := by
  cases piece with
  | token text =>
      have other {word : String} (reworded : word ∈ Token.rewordedWords) :
          Text.foldCase text ≠ word := by
        have := literal.words _ List.mem_cons_self word reworded
        simpa using this
      have noStruct := other (by decide : "struct" ∈ _)
      have noFn := other (by decide : "fn" ∈ _)
      have noFunction := other (by decide : "function" ∈ _)
      change Meets (if _ then _ else _) _ _
      rw [if_neg noStruct, if_neg (not_or.mpr ⟨noFn, noFunction⟩)]
      rw [if_neg fun mapped => by simp [literal.tail.not_startsFunction] at mapped]
      refine Meets.ite (fun folded => ?_) fun _ => ?_
      · have kept := asked.readConditional indent literal.tail
        exact announced literal before folded (by decide) kept
      refine Meets.ite (fun folded => ?_) fun _ => ?_
      · exact announced literal before folded (by decide) (asked.attempt indent literal.tail)
      exact asked.stepToken indent before literal
  | _ => exact keepsTrack_pass literal before

/-- The pass shows what it started with. It stops early only at a bracket that closes nothing, and
then what is left stays in the block as it is. -/
theorem Conserves.readItems (asked : reader.Conserves) (indent : Nat) (before : List Piece)
    (literal : Literal after) :
    Meets (reader.readItems indent before after)
      (fun items => shown items = shown (before.reverse ++ after)) Any := by
  cases after with
  | nil => exact congrArg shown (List.append_nil _).symm
  | cons piece rest =>
      refine Meets.ite (fun _ => rfl) fun _ => ?_
      refine (asked.step indent before literal).bind ?_
      rintro ⟨before', after'⟩ ⟨literal', kept⟩
      exact (asked.items indent before' after' literal').mono fun _ same => same.trans kept

theorem Conserves.deeper (asked : reader.Conserves) : reader.deeper.Conserves where
  items indent before _ literal := asked.readItems indent before literal
  conditional indent _ literal := asked.readConditional indent literal
  arguments indent _ literal := asked.readArguments indent literal
  elements indent _ _ mark literal := asked.readElements indent mark literal
  trailers indent operand _ literal := asked.readTrailers indent operand literal

end

/-- By induction on the budget. A reader without one makes nothing at all, so there is nothing that
it could lose. -/
theorem atDepth_conserves (registry : Registry) (depth : Nat) :
    (atDepth registry depth).Conserves := by
  induction depth with
  | zero => constructor <;> intros <;> trivial
  | succ depth ih => exact ih.deeper

/-! ### Streams of tokens -/

/-- Streams of tokens in which nothing is put into other words: no definition, cast or count is
announced, `#` only starts an array, and no member is called like a clause word. -/
structure IsLiteralStream (tokens : List String) : Prop where
  words : ∀ token ∈ tokens, Text.foldCase token ∉ Token.rewordedWords
  pairs : tokens.IsChain fun token next =>
    (token = "#" → next = "(") ∧ (token = "." → isClauseWord next = false)

@[simp] theorem textsAll_map_token (tokens : List String) :
    Piece.textsAll (tokens.map .token) = tokens := by
  induction tokens with
  | nil => rfl
  | cons token rest ih =>
      rw [List.map_cons, Piece.textsAll, ih]
      rfl

theorem IsLiteralStream.literal {tokens : List String} (stream : IsLiteralStream tokens) :
    Literal (tokens.map .token) where
  words := by
    intro piece member word reworded
    obtain ⟨token, inside, rfl⟩ := List.mem_map.mp member
    have other : Text.foldCase token ≠ word :=
      fun same => stream.words token inside (same ▸ reworded)
    simpa using other
  pairs := by
    refine List.isChain_map_of_isChain _ (fun token next => ?_) stream.pairs
    rintro ⟨array, member⟩
    refine ⟨fun hash => ?_, fun dot word clause => ?_⟩
    · have opens := array (by simpa using hash)
      simp [opens]
    · have other := member (by simpa using dot)
      cases keyword : (Piece.token next).isKeyword word with
      | false => rfl
      | true =>
          have folded : Text.foldCase next = word := by simpa using keyword
          rw [isClauseWord, folded, List.contains_iff_mem.mpr clause] at other
          cases other

/-- A block of tokens has the characters of the tokens, but for clause words, brackets and
separators: none is lost, repeated or moved. -/
theorem readBlock_conserves_text {registry : Registry} {indent : Nat} {role : Role}
    {tokens : List String} {body : Piece} (stream : IsLiteralStream tokens)
    (read : readBlock registry indent role (tokens.map .token) = .ok body) :
    residue body.texts = residue tokens := by
  have conserves := atDepth_conserves registry ((tokens.map Piece.token).length + 1)
  have kept := (conserves.block indent role stream.literal).of_ok read
  rw [kept, shown, textsAll_map_token]

/-- A conditional with an array, a call with a keyword argument and brackets that are not closed. -/
def unclosedTokens : List String :=
  ["IF", "a", ".", "b", "[", "1", "]", "\n", "then", "#", "(", "c", ",", "-", "2", ")", "\n",
    "else", "(", "f", "k", ":", "x", "(", "y", "["]

theorem unclosedTokens_conserved :
    ∃ body, readBlock (Registry.empty.classify "f" .userFunction) 0 .root
        (unclosedTokens.map .token) = .ok body ∧
      body.texts = ["a.b", "1", "c", "-2", "f", "k", "x", "y"] ∧
      residue body.texts = residue unclosedTokens := by
  have texts : Piece.texts <$> readBlock (Registry.empty.classify "f" .userFunction) 0 .root
      (unclosedTokens.map .token) = .ok ["a.b", "1", "c", "-2", "f", "k", "x", "y"] := by
    decide +kernel
  cases read : readBlock (Registry.empty.classify "f" .userFunction) 0 .root
      (unclosedTokens.map .token) with
  | error error =>
      rw [read] at texts
      cases texts
  | ok body =>
      rw [read] at texts
      have stream : IsLiteralStream unclosedTokens := ⟨by decide, by decide⟩
      exact ⟨body, rfl, Except.ok.inj texts, readBlock_conserves_text stream read⟩

end Maxscript.Reader
