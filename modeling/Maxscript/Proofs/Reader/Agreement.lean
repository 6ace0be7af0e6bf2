import Mathlib.Data.List.Forall2
import Maxscript.Proofs.Parts
import Maxscript.Proofs.Reader.Asks

/-!
# Readers in step

A reader asks its registry only whether a name is called and whether the call is one of the host.
Two readers with different registries that read the same script are in step as long as their
registries call the same names. They take the same pieces off their lists, since neither looks at
what a construct is made of, and so they make the same constructs around what they read before.

What they read is related by any relation that a token has to itself and that is kept by the ways
to make a construct. `InStep` lists these. The names that are asked for are tokens of the script,
or have members of the script joined to them.
-/

namespace Maxscript

/-- Two results are related values, or the same error. -/
def Agree {α β : Type} (related : α → β → Prop) : Result α → Result β → Prop
  | .ok value, .ok other => related value other
  | .error error, .error other => error = other
  | _, _ => False

namespace Agree

variable {α β γ δ : Type} {related : α → β → Prop} {after : γ → δ → Prop}
variable {first : Result α} {second : Result β}

theorem ok_or_error (h : Agree related first second) :
    (∃ value other, first = .ok value ∧ second = .ok other ∧ related value other) ∨
      ∃ error, first = .error error ∧ second = .error error := by
  cases first with
  | ok value =>
      cases second with
      | ok other => exact .inl ⟨value, other, rfl, rfl, h⟩
      | error error => exact h.elim
  | error error =>
      cases second with
      | ok other => exact h.elim
      | error other => exact .inr ⟨error, rfl, congrArg Except.error (Eq.symm h)⟩

/-- Agreement goes through a chain of steps, if the second step agrees for all values that the first
can give. -/
theorem bind {f : α → Result γ} {g : β → Result δ} (h : Agree related first second)
    (next : ∀ value other, related value other → Agree after (f value) (g other)) :
    Agree after (first >>= f) (second >>= g) := by
  rcases h.ok_or_error with ⟨value, other, rfl, rfl, same⟩ | ⟨error, rfl, rfl⟩
  · exact next value other same
  · exact rfl

theorem mono {weaker : α → β → Prop} (h : Agree related first second)
    (weaken : ∀ value other, related value other → weaker value other) :
    Agree weaker first second := by
  rcases h.ok_or_error with ⟨value, other, rfl, rfl, same⟩ | ⟨error, rfl, rfl⟩
  · exact weaken value other same
  · exact rfl

theorem eq {other : Result α} (h : Agree Eq first other) : first = other := by
  rcases h.ok_or_error with ⟨value, _, rfl, rfl, rfl⟩ | ⟨error, rfl, rfl⟩
  · rfl
  · rfl

end Agree

/-- Two results agree, unless the first one stopped by a fault of the reader. -/
def Matches {α β : Type} (related : α → β → Prop) : Result α → Result β → Prop
  | .error (.internal _), _ => True
  | .ok value, .ok other => related value other
  | .error error, .error other => error = other
  | _, _ => False

namespace Matches

variable {α β γ δ : Type} {related : α → β → Prop} {after : γ → δ → Prop}
variable {first : Result α} {second : Result β}

theorem of_isFault (h : Reader.IsFault first) : Matches related first second := by
  obtain ⟨detail, rfl⟩ := h
  exact trivial

theorem error (error : ConvertError) :
    Matches related (.error error : Result α) (.error error : Result β) := by
  cases error with
  | internal detail => exact trivial
  | _ => exact rfl

theorem isFault_or_agree (h : Matches related first second) :
    Reader.IsFault first ∨ Agree related first second := by
  cases first with
  | ok value =>
      cases second with
      | ok other => exact .inr h
      | error error => exact h.elim
  | error error =>
      cases error with
      | internal detail => exact .inl ⟨detail, rfl⟩
      | _ =>
          cases second with
          | ok other => exact h.elim
          | error other => exact .inr h

/-- As for agreement. Where the first reader is at fault, nothing more is asked of the second. -/
theorem bind {f : α → Result γ} {g : β → Result δ} (h : Matches related first second)
    (next : ∀ value other, related value other → Matches after (f value) (g other)) :
    Matches after (first >>= f) (second >>= g) := by
  rcases h.isFault_or_agree with fault | agree
  · exact of_isFault (fault.bind f)
  · rcases agree.ok_or_error with ⟨value, other, rfl, rfl, same⟩ | ⟨failure, rfl, rfl⟩
    · exact next value other same
    · exact error failure

theorem map {f : α → γ} {g : β → δ} (h : Matches related first second)
    (kept : ∀ value other, related value other → after (f value) (g other)) :
    Matches after (f <$> first) (g <$> second) := by
  rw [map_eq_pure_bind, map_eq_pure_bind]
  exact h.bind kept

/-- Where both readers make the same test, it is enough that they match on either branch of it. -/
theorem ite {condition : Prop} [Decidable condition] {first' : Result α} {second' : Result β}
    (yes : condition → Matches related first second)
    (no : ¬condition → Matches related first' second') :
    Matches related (if condition then first else first')
      (if condition then second else second') := by
  by_cases h : condition
  · rw [if_pos h, if_pos h]
    exact yes h
  · rw [if_neg h, if_neg h]
    exact no h

theorem of_approximates {result : Result α} (approximates : Approximates result first)
    (h : Matches related first second) : Matches related result second := by
  rcases approximates with rfl | fault
  · exact h
  · exact of_isFault fault

end Matches

namespace Reader

def memberTokens (words : List String) : List String := words.flatMap fun word => [".", word]

/-- A text that a registry can be asked for while a script is read: a token, or one with members
joined to it. -/
def Asked (tokens : List String) (name : String) : Prop :=
  name ∈ tokens ∨ ∃ base words, words ≠ [] ∧ memberTokens words <:+: tokens ∧
    name = base ++ String.join (words.map ("." ++ ·))

/-- The pieces are tokens that stand together in the script. -/
def Within (tokens : List String) (pieces : List Piece) : Prop := pieces <:+: tokens.map .token

/-- The reader is asked to go on right behind `base`, with `rest` ahead. -/
def Faces (asks : Ask → Prop) (base : Piece) (rest : List Piece) : Prop :=
  (∃ indent before, asks (.items indent (base :: before) rest)) ∨
    ∃ indent, asks (.trailers indent base rest)

/-- The reader is asked to go on right behind an operand with members. All the members that follow
it there are `words` and then, up to the last, `count`. -/
def CountedBehind (tokens : List String) (asks : Ask → Prop) (base : Piece) (words : List String) :
    Prop :=
  isOperand base = true ∧ ∃ rest counts, Faces asks base rest ∧ Within tokens rest ∧
    (memberRun rest).1 = words ++ counts ∧ counts ≠ [] ∧
    ∀ count ∈ counts, Text.foldCase count = "count"

/-- The same construct is made around related pieces. Calls are not among these. -/
inductive Lift (related : Piece → Piece → Prop) : Piece → Piece → Prop
  | binding {indent : Nat} {name : String} {value other : Option Piece} {named : Bool}
      (h : Option.Rel related value other) :
      Lift related (.binding indent name value named) (.binding indent name other named)
  | statement {indent : Nat} {parts others : List Piece} (h : List.Forall₂ related parts others) :
      Lift related (.statement indent parts) (.statement indent others)
  | chain {indent : Nat} {parts others : List Piece} (h : List.Forall₂ related parts others) :
      Lift related (.chain indent parts) (.chain indent others)
  | block {indent : Nat} {role : Role} {items others : List Piece}
      (h : List.Forall₂ related items others) :
      Lift related (.block indent role items) (.block indent role others)
  | array {indent : Nat} {elements others : List Piece}
      (h : List.Forall₂ related elements others) :
      Lift related (.array indent elements) (.array indent others)
  | access {indent : Nat} {base base' : Option Piece} {indices others : List Piece}
      (hbase : Option.Rel related base base') (h : List.Forall₂ related indices others) :
      Lift related (.access indent base indices) (.access indent base' others)
  | function {indent : Nat} {name : String} {parameters others : List Piece} {body body' : Piece}
      (h : List.Forall₂ related parameters others) (hbody : related body body') :
      Lift related (.function indent name parameters body) (.function indent name others body')
  | struct {indent : Nat} {name : String} {members others : List Piece}
      (h : List.Forall₂ related members others) :
      Lift related (.struct indent name members) (.struct indent name others)
  | conditional {indent : Nat} {condition condition' consequent consequent' : Piece}
      {alternative alternative' : Option Piece} (hcondition : related condition condition')
      (hconsequent : related consequent consequent')
      (halternative : Option.Rel related alternative alternative') :
      Lift related (.conditional indent condition consequent alternative)
        (.conditional indent condition' consequent' alternative')
  | attempt {indent : Nat} {attempted attempted' : Piece} {handler handler' : Option Piece}
      (hattempted : related attempted attempted') (hhandler : Option.Rel related handler handler') :
      Lift related (.attempt indent attempted handler) (.attempt indent attempted' handler')
  | loop {indent : Nat} {header header' : Piece} {comprehension : Bool}
      {body body' : Option Piece} (hheader : related header header')
      (hbody : Option.Rel related body body') :
      Lift related (.loop indent header comprehension body)
        (.loop indent header' comprehension body')
  | cast {indent : Nat} {target : CastTarget} {operand operand' : Piece}
      (h : related operand operand') :
      Lift related (.cast indent target operand) (.cast indent target operand')

theorem forall₂_toList {related : Piece → Piece → Prop} {value other : Option Piece}
    (h : Option.Rel related value other) : List.Forall₂ related value.toList other.toList := by
  cases h with
  | none => exact .nil
  | some h => exact .cons h .nil

theorem eq_of_forall₂ {related : Piece → Piece → Prop} {pieces others : List Piece}
    (h : List.Forall₂ related pieces others)
    (same : ∀ {part part'}, related part part' → part = part') : pieces = others := by
  rw [← List.forall₂_eq_eq_eq]
  exact h.imp fun _ _ => same

namespace Lift

variable {related : Piece → Piece → Prop} {piece piece' : Piece}

theorem parts (lift : Lift related piece piece') :
    List.Forall₂ related piece.parts piece'.parts := by
  cases lift with
  | binding h => exact forall₂_toList h
  | statement h => exact h
  | chain h => exact h
  | block h => exact h
  | array h => exact h
  | access hbase h => exact List.rel_append (forall₂_toList hbase) h
  | function h hbody => exact List.rel_append h (.cons hbody .nil)
  | struct h => exact h
  | conditional hcondition hconsequent halternative =>
      exact .cons hcondition (.cons hconsequent (forall₂_toList halternative))
  | attempt hattempted hhandler => exact .cons hattempted (forall₂_toList hhandler)
  | loop hheader hbody => exact .cons hheader (forall₂_toList hbody)
  | cast h => exact .cons h .nil

theorem text?_eq_none (lift : Lift related piece piece') :
    piece.text? = none ∧ piece'.text? = none := by
  cases lift <;> exact ⟨rfl, rfl⟩

/-- A construct around equal pieces is the same construct. This would fail for calls, whose flag may
differ between two registries, and they are left out of `Lift` for that reason. -/
theorem eq (lift : Lift related piece piece')
    (same : ∀ {part part'}, related part part' → part = part') : piece = piece' := by
  have list {pieces pieces' : List Piece} (h : List.Forall₂ related pieces pieces') :
      pieces = pieces' := eq_of_forall₂ h same
  have option {value value' : Option Piece} (h : Option.Rel related value value') :
      value = value' := by
    cases h with
    | none => rfl
    | some h => rw [same h]
  cases lift with
  | binding h => rw [option h]
  | statement h => rw [list h]
  | chain h => rw [list h]
  | block h => rw [list h]
  | array h => rw [list h]
  | access hbase h => rw [option hbase, list h]
  | function h hbody => rw [list h, same hbody]
  | struct h => rw [list h]
  | conditional hcondition hconsequent halternative =>
      rw [same hcondition, same hconsequent, option halternative]
  | attempt hattempted hhandler => rw [same hattempted, option hhandler]
  | loop hheader hbody => rw [same hheader, option hbody]
  | cast h => rw [same h]

end Lift

/-- What is needed of two registries, and of a relation between pieces, for readers with these
registries to read related pieces from the script `tokens` while the first one makes the `asks`. -/
structure InStep (tokens : List String) (asks : Ask → Prop) (registry other : Registry)
    (related : Piece → Piece → Prop) : Prop where
  token : ∀ text, related (.token text) (.token text)
  text? : ∀ {piece piece'}, related piece piece' → piece.text? = piece'.text?
  lift : ∀ {piece piece'}, Lift related piece piece' → related piece piece'
  length : ∀ {base counted words}, CountedBehind tokens asks base words →
    related (applyMembers base words.reverse) counted →
    related (.call 0 "len" [applyMembers base words.reverse] false)
      (.call 0 "len" [counted] false)
  known : ∀ {name}, Asked tokens name → registry.isKnownCall name = other.isKnownCall name
  call : ∀ {indent name arguments arguments'}, Asked tokens name →
    registry.isKnownCall name = true → List.Forall₂ related arguments arguments' →
    related (.call indent name arguments (registry.isBuiltinCall name))
      (.call indent name arguments' (other.isBuiltinCall name))

section

variable {tokens : List String} {pieces part : List Piece}

theorem Within.isInfix (within : Within tokens pieces) (h : part <:+: pieces) :
    Within tokens part :=
  h.trans within

theorem Within.suffix (within : Within tokens pieces) (h : part <:+ pieces) :
    Within tokens part :=
  h.isInfix.trans within

theorem Within.tail {first : Piece} {rest : List Piece} (within : Within tokens (first :: rest)) :
    Within tokens rest :=
  within.suffix (List.suffix_cons first rest)

theorem Within.head {first : Piece} {rest : List Piece} (within : Within tokens (first :: rest)) :
    ∃ text ∈ tokens, first = .token text := by
  obtain ⟨text, member, rfl⟩ := List.mem_map.mp (within.subset List.mem_cons_self)
  exact ⟨text, member, rfl⟩

/-- What is cut out of a script is part of it, so that a nested reader still reads tokens of the
script. -/
theorem Within.cut {extent : Extent} (within : Within tokens pieces)
    (h : cut pieces extent = .ok part) : Within tokens part :=
  within.isInfix ⟨_, _, (append_of_cut h).symm⟩

/-! ### Members -/

theorem eq_memberRun (pieces : List Piece) :
    pieces = (memberTokens (memberRun pieces).1).map .token ++ (memberRun pieces).2 := by
  fun_induction memberRun pieces with
  | case1 dot word rest member words left found ih =>
      rw [Bool.and_eq_true] at member
      rw [found] at ih
      rw [Piece.eq_token_of_text? (beq_iff_eq.mp member.1), ih]
      rfl
  | case2 dot word rest member => rfl
  | case3 pieces shape => rfl

theorem Within.memberTokens (within : Within tokens pieces) :
    memberTokens (memberRun pieces).1 <:+: tokens := by
  have front := List.prefix_append ((Reader.memberTokens (memberRun pieces).1).map Piece.token)
    (memberRun pieces).2
  rw [← eq_memberRun] at front
  obtain ⟨part, inside, same⟩ := List.infix_map_iff.mp (front.isInfix.trans within)
  rwa [List.map_injective_iff.mpr (fun _ _ => Piece.token.inj) same]

theorem joinMembers_construct {base : Piece} (construct : base.text? = none)
    (words : List String) : joinMembers base words =
      .chain 0 (base :: words.flatMap fun word => [.token ".", .token word]) := by
  cases base with
  | token text => cases construct
  | _ => rfl

/-- The text of a piece with its members is joined from them, and is no mark. So it is either a word
of the script or a name that is joined from several of them. -/
theorem asked_of_applyMembers {base : Piece} {words : List String} {text : String}
    (nonempty : words ≠ []) (run : memberTokens words <:+: tokens)
    (operand : isOperand base = true)
    (found : (applyMembers base words.reverse).text? = some text) :
    Asked tokens text ∧ 1 < text.length := by
  obtain ⟨last, before, shape⟩ :=
    List.exists_cons_of_ne_nil (mt List.reverse_eq_nil_iff.mp nonempty)
  rw [shape, applyMembers] at found
  split at found
  · cases found
  rw [← shape, List.reverse_reverse] at found
  cases base with
  | token front =>
      obtain rfl := Option.some.inj found
      refine ⟨.inr ⟨front, words, nonempty, run, rfl⟩, ?_⟩
      have notEmpty : front.length ≠ 0 := by
        intro empty
        rw [String.length_eq_zero_iff.mp empty] at operand
        exact absurd operand (by decide)
      obtain ⟨word, rest, rfl⟩ := List.exists_cons_of_ne_nil nonempty
      simp only [List.map_cons, String.join_cons, String.length_append]
      have dot : ".".length = 1 := rfl
      omega
  | _ => cases found

end

/-! ### Lists of two readers -/

section

variable (tokens : List String) (asks : Ask → Prop) (related : Piece → Piece → Prop)

/-- Two readings of related values leave the same part of the script. -/
inductive SameRest {α β : Type} (related : α → β → Prop) : Reading α → Reading β → Prop
  | intro {value : α} {other : β} {rest : List Piece} (h : related value other)
      (below : Within tokens rest) : SameRest related (value, rest) (other, rest)

/-- What two passes have before them is the same part of the script, up to the first piece. That can
have been joined with its members, but marks are never joined. -/
inductive Unread : List Piece → List Piece → Prop
  | nil : Unread [] []
  | token {text : String} {rest : List Piece} (asked : Asked tokens text)
      (below : Within tokens rest) (mark : text.length = 1 → Within tokens (.token text :: rest)) :
      Unread (.token text :: rest) (.token text :: rest)
  | construct {piece piece' : Piece} {rest : List Piece} (h : related piece piece')
      (noToken : piece.text? = none) (below : Within tokens rest) :
      Unread (piece :: rest) (piece' :: rest)

structure SamePlace (cursor cursor' : Cursor) : Prop where
  before : List.Forall₂ related cursor.before cursor'.before
  after : Unread tokens related cursor.after cursor'.after

/-- Every nested reader agrees with that of the other. -/
structure Agrees (reader other : Reader) : Prop where
  inStep : InStep tokens asks reader.registry other.registry related
  items : ∀ indent {before before' after after'}, List.Forall₂ related before before' →
    Unread tokens related after after' →
    Matches (List.Forall₂ related) (reader.items indent before after)
      (other.items indent before' after')
  conditional : ∀ indent {rest}, Within tokens rest →
    Matches (SameRest tokens related) (reader.conditional indent rest)
      (other.conditional indent rest)
  parameters : ∀ indent {rest}, Within tokens rest →
    Matches (SameRest tokens (List.Forall₂ related)) (reader.parameters indent rest)
      (other.parameters indent rest)
  members : ∀ indent {rest}, Within tokens rest →
    Matches (List.Forall₂ related) (reader.members indent rest) (other.members indent rest)
  arguments : ∀ indent {rest}, Within tokens rest →
    Matches (SameRest tokens (List.Forall₂ related)) (reader.arguments indent rest)
      (other.arguments indent rest)
  elements : ∀ indent close {rest}, Within tokens rest →
    Matches (SameRest tokens (List.Forall₂ related)) (reader.elements indent close rest)
      (other.elements indent close rest)
  trailers : ∀ indent {operand operand' rest}, related operand operand' → Within tokens rest →
    Matches (SameRest tokens related) (reader.trailers indent operand rest)
      (other.trailers indent operand' rest)

end

section

variable {tokens : List String} {asks : Ask → Prop} {related : Piece → Piece → Prop}
variable {registry other : Registry}

theorem Unread.of_within {pieces : List Piece} (within : Within tokens pieces) :
    Unread tokens related pieces pieces := by
  cases pieces with
  | nil => exact .nil
  | cons first rest =>
      obtain ⟨text, member, rfl⟩ := within.head
      exact .token (.inl member) within.tail fun _ => within

/-- A construct that was just read is put behind both cursors. -/
theorem SameRest.passed {before before' : List Piece} {reading reading' : Reading Piece}
    (earlier : List.Forall₂ related before before')
    (same : SameRest tokens related reading reading') :
    SamePlace tokens related (Reader.passed before reading) (Reader.passed before' reading') := by
  obtain ⟨h, below⟩ := same
  exact ⟨.cons h earlier, .of_within below⟩

namespace InStep

variable (inStep : InStep tokens asks registry other related)

include inStep

theorem head {first : Piece} {rest : List Piece} (within : Within tokens (first :: rest)) :
    related first first := by
  obtain ⟨text, -, rfl⟩ := within.head
  exact inStep.token text

theorem all {pieces : List Piece} (within : Within tokens pieces) :
    List.Forall₂ related pieces pieces := by
  refine List.forall₂_same.mpr fun piece member => ?_
  obtain ⟨text, -, rfl⟩ := List.mem_map.mp (within.subset member)
  exact inStep.token text

theorem isOperand {piece piece' : Piece} (h : related piece piece') :
    isOperand piece = isOperand piece' := by
  rw [Reader.isOperand, Reader.isOperand]
  rw [inStep.text? h]

theorem isTokenWith {piece piece' : Piece} (h : related piece piece') (p : String → Bool) :
    piece.isTokenWith p = piece'.isTokenWith p := by
  rw [Piece.isTokenWith, Piece.isTokenWith, inStep.text? h]

theorem isNewline {piece piece' : Piece} (h : related piece piece') :
    piece.isNewline = piece'.isNewline := by
  rw [Piece.isNewline, Piece.isNewline, Piece.is, Piece.is, inStep.text? h]

theorem joinMembers {base base' : Piece} (h : related base base') (words : List String) :
    related (joinMembers base words) (joinMembers base' words) := by
  cases isText : base.text? with
  | some text =>
      rw [Piece.eq_token_of_text? isText,
        Piece.eq_token_of_text? ((inStep.text? h).symm.trans isText)]
      exact inStep.token _
  | none =>
      have noText := (inStep.text? h).symm.trans isText
      rw [joinMembers_construct isText, joinMembers_construct noText]
      refine inStep.lift (.chain (.cons h (List.forall₂_same.mpr fun piece member => ?_)))
      obtain ⟨word, -, inside⟩ := List.mem_flatMap.mp member
      rcases List.mem_pair.mp inside with rfl | rfl
      · exact inStep.token "."
      · exact inStep.token word

/-- Members are applied to related pieces in the same way. Those in `words`, the last one first, are
followed by the `counts`: what a length is taken of is remembered with the words that follow it. -/
theorem applyMembers {base base' : Piece} (h : related base base') {rest : List Piece}
    (faces : Faces asks base rest) (within : Within tokens rest)
    (operand : Reader.isOperand base = true)
    {words counts : List String} (run : (memberRun rest).1 = words.reverse ++ counts)
    (each : ∀ count ∈ counts, Text.foldCase count = "count") :
    related (applyMembers base words) (applyMembers base' words) := by
  induction words generalizing counts with
  | nil => exact h
  | cons last before ih =>
      rw [List.reverse_cons, List.append_assoc, List.singleton_append] at run
      rw [Reader.applyMembers, Reader.applyMembers]
      split
      · next isCount =>
          have more : ∀ count ∈ last :: counts, Text.foldCase count = "count" :=
            List.forall_mem_cons.mpr ⟨isCount, each⟩
          have behind : CountedBehind tokens asks base before.reverse :=
            ⟨operand, rest, last :: counts, faces, within, run, List.cons_ne_nil last counts, more⟩
          have counted := ih run more
          rw [← List.reverse_reverse before] at counted ⊢
          exact inStep.length behind counted
      · exact inStep.joinMembers h _

/-- Related pieces are joined with the same members, and the results can be looked at again. The
first of them was faced by the reader, which is what a counted operand has to remember. -/
theorem fuse? {base base' : Piece} (h : related base base') {rest : List Piece}
    (faces : Faces asks base rest) (within : Within tokens rest) :
    Option.Rel (fun reading reading' => SameRest tokens related reading reading' ∧
      Unread tokens related (reading.1 :: reading.2) (reading'.1 :: reading'.2))
      (fuse? base rest) (fuse? base' rest) := by
  have run := within.memberTokens
  have below := within.suffix (memberRun_suffix rest)
  have whole : (memberRun rest).1 = (memberRun rest).1.reverse.reverse ++ [] := by simp
  have applied (operand : Reader.isOperand base = true) :=
    inStep.applyMembers h faces within operand whole (List.forall_mem_nil _)
  rw [Reader.fuse?, Reader.fuse?]
  generalize memberRun rest = found at run below applied ⊢
  obtain ⟨words, left⟩ := found
  cases words with
  | nil => exact .none
  | cons word words =>
      simp only [← inStep.isOperand h]
      split
      · next operand =>
          have joined := applied operand
          refine .some ⟨.intro joined below, ?_⟩
          dsimp only
          cases isText : (Reader.applyMembers base (word :: words).reverse).text? with
          | none => exact .construct joined isText below
          | some text =>
              obtain ⟨asked, long⟩ :=
                asked_of_applyMembers (List.cons_ne_nil word words) run operand isText
              rw [Piece.eq_token_of_text? isText,
                Piece.eq_token_of_text? ((inStep.text? joined).symm.trans isText)]
              exact .token asked below fun short => absurd short (Nat.ne_of_gt long)
      · exact .none

/-- Whether a cast is refused depends on its type alone, so related operands are cast to related
pieces. -/
theorem castTo {operand operand' : Piece} (h : related operand operand') (indent : Nat)
    (type : Piece) : Matches related (castTo indent operand type)
    (castTo indent operand' type) := by
  simp only [Reader.castTo]
  split
  · exact inStep.lift (.cast h)
  · exact rfl

theorem negated {mark : Piece} {rest : List Piece} (within : Within tokens (mark :: rest)) :
    SameRest tokens related (negated mark rest) (negated mark rest) := by
  have here := inStep.head within
  rw [Reader.negated.eq_def]
  split
  · split
    · exact .intro (inStep.token _) within.tail.tail
    · exact .intro here within.tail
  · exact .intro here within.tail

theorem castAt (indent : Nat) {before before' rest : List Piece} {operand operand' type : Piece}
    (h : related operand operand') (earlier : List.Forall₂ related before before')
    (within : Within tokens rest) :
    Matches (SamePlace tokens related) (castAt indent operand before type rest)
      (castAt indent operand' before' type rest) := by
  refine (inStep.castTo h indent type).bind ?_
  intro cast cast' made
  have alone : SamePlace tokens related ⟨cast :: before, rest⟩ ⟨cast' :: before', rest⟩ :=
    ⟨.cons made earlier, .of_within within⟩
  cases earlier with
  | nil => exact alone
  | cons first others =>
      cases others with
      | nil => exact alone
      | cons second others =>
          dsimp only
          rw [inStep.isTokenWith first, inStep.isOperand second]
          refine Matches.ite (fun _ => ?_) fun _ => alone
          refine ⟨.cons (inStep.lift (.statement ?_)) others, .of_within within⟩
          exact .cons second (.cons first (.cons made .nil))

theorem memberAt {indent : Nat} {before before' after : List Piece} {dot : Piece}
    (here : asks (.items indent before (dot :: after)))
    (earlier : List.Forall₂ related before before') (within : Within tokens (dot :: after)) :
    SamePlace tokens related (memberAt before dot after) (memberAt before' dot after) := by
  have passes : SamePlace tokens related ⟨dot :: before, after⟩ ⟨dot :: before', after⟩ :=
    ⟨.cons (inStep.head within) earlier, .of_within within.tail⟩
  cases earlier with
  | nil => exact passes
  | @cons base base' _ _ first others =>
      have fused := inStep.fuse? first (.inl ⟨indent, _, here⟩) within
      rw [Reader.memberAt, Reader.memberAt]
      generalize Reader.fuse? base (dot :: after) = found,
        Reader.fuse? base' (dot :: after) = found' at fused ⊢
      cases fused with
      | some both => exact ⟨others, both.2⟩
      | none => exact passes

end InStep

namespace Agrees

open Matches (ite)

variable {reader other : Reader} (asked : Agrees tokens asks related reader other)

include asked

theorem block (indent : Nat) (role : Role) {pieces : List Piece} (within : Within tokens pieces) :
    Matches related (reader.block indent role pieces) (other.block indent role pieces) := by
  refine (asked.items indent .nil (.of_within (within.isInfix (trim_isInfix pieces)))).bind ?_
  intro items others h
  exact asked.inStep.lift (.block h)

theorem blockOf (indent : Nat) (role : Role) {pieces : List Piece} (extent : Extent)
    (within : Within tokens pieces) :
    Matches related (reader.blockOf indent role pieces extent)
      (other.blockOf indent role pieces extent) := by
  rw [Reader.blockOf, Reader.blockOf]
  cases found : cut pieces extent with
  | error error => exact .error error
  | ok part => exact asked.block indent role (within.cut found)

theorem groupAt (indent : Nat) (role : Role) {mark : Piece} {rest : List Piece}
    (within : Within tokens (mark :: rest)) :
    Matches (SameRest tokens related) (reader.groupAt indent role mark rest)
      (other.groupAt indent role mark rest) := by
  refine (asked.blockOf indent role _ within).bind ?_
  intro block block' h
  exact .intro h (within.suffix (List.drop_suffix _ _))

theorem sentinel (indent : Nat) {mark : Piece} {rest : List Piece} (here : related mark mark)
    (within : Within tokens rest) :
    Matches (SameRest tokens related) (reader.sentinel indent mark rest)
      (other.sentinel indent mark rest) := by
  cases rest with
  | nil => exact .intro here within
  | cons next inner =>
      rw [Reader.sentinel, Reader.sentinel]
      refine ite (fun _ => ?_) fun _ => ?_
      · refine (asked.elements indent ")" within.tail).bind ?_
        rintro _ _ ⟨h, below⟩
        exact .intro (asked.inStep.lift (.array h)) below
      · split
        · exact ite (fun _ => .intro (asked.inStep.token _) within.tail) fun _ => .intro here within
        · exact .intro here within

theorem bareOperand (indent : Nat) {first : Piece} {rest : List Piece}
    (within : Within tokens (first :: rest)) :
    Matches (SameRest tokens related) (reader.bareOperand indent first rest)
      (other.bareOperand indent first rest) := by
  have here := asked.inStep.head within
  rw [Reader.bareOperand, Reader.bareOperand]
  refine ite (fun _ => asked.groupAt indent .group within) fun _ => ?_
  refine ite (fun _ => ?_) fun _ => ?_
  · refine (asked.elements indent "]" within.tail).bind ?_
    rintro _ _ ⟨h, below⟩
    exact .intro (asked.inStep.lift (.access .none h)) below
  refine ite (fun _ => asked.sentinel indent here within.tail) fun _ => ?_
  exact ite (fun _ => asked.inStep.negated within) fun _ => .intro here within.tail

theorem operand (indent : Nat) {first : Piece} {rest : List Piece}
    (within : Within tokens (first :: rest)) :
    Matches (SameRest tokens related) (reader.operand indent first rest)
      (other.operand indent first rest) := by
  refine (asked.bareOperand indent within).bind ?_
  rintro _ _ ⟨h, below⟩
  exact asked.trailers indent h below

/-- The operand and what follows it are asked for again with each member or index, so the ask is
known to be one that is made. -/
theorem readTrailers {indent : Nat} {operand operand' : Piece} {rest : List Piece}
    (here : asks (.trailers indent operand rest)) (h : related operand operand')
    (within : Within tokens rest) :
    Matches (SameRest tokens related) (reader.readTrailers indent operand rest)
      (other.readTrailers indent operand' rest) := by
  have fused := asked.inStep.fuse? h (.inr ⟨indent, here⟩) within
  rw [Reader.readTrailers.eq_def, Reader.readTrailers.eq_def]
  generalize Reader.fuse? operand rest = found, Reader.fuse? operand' rest = found' at fused ⊢
  cases fused with
  | some both =>
      obtain ⟨⟨h, below⟩, -⟩ := both
      exact asked.trailers indent h below
  | none =>
      cases rest with
      | nil => exact .intro h within
      | cons next inner =>
          refine ite (fun _ => ?_) fun _ => .intro h within
          refine (asked.elements indent "]" within.tail).bind ?_
          rintro _ _ ⟨indices, below⟩
          exact asked.trailers indent (asked.inStep.lift (.access (.some h) indices)) below

/-- Two registries in step answer alike about every name that the reader can ask for. So both
readers take the same names for calls. -/
theorem callee? {first : Piece} {rest : List Piece}
    (here : ∀ text, first = .token text → Asked tokens text) :
    reader.callee? first rest = other.callee? first rest := by
  cases first with
  | token text =>
      simp only [Reader.callee?, Piece.text?_token, asked.inStep.known (here text rfl)]
  | _ => rfl

/-- A call is related to the call of the same name, whether or not both registries take it for one
of the host. -/
theorem call (indent : Nat) {first : Piece} {name : String} {rest : List Piece}
    (here : ∀ text, first = .token text → Asked tokens text)
    (found : reader.callee? first rest = some name) (within : Within tokens rest) :
    Matches (SameRest tokens related) (reader.call indent name rest)
      (other.call indent name rest) := by
  obtain ⟨isName, known⟩ := of_callee? found
  refine (asked.arguments indent within).bind ?_
  rintro _ _ ⟨h, below⟩
  exact .intro (asked.inStep.call (here name isName) known h) below

theorem keyValue (indent : Nat) (stops : List String) {rest : List Piece}
    (within : Within tokens rest) :
    Matches (SameRest tokens (Option.Rel related)) (reader.keyValue indent stops rest)
      (other.keyValue indent stops rest) := by
  cases rest with
  | nil => exact .intro .none within
  | cons first inner =>
      refine ite (fun _ => .intro .none within) fun _ => ?_
      refine (asked.operand indent within).bind ?_
      rintro _ _ ⟨h, below⟩
      exact .intro (.some h) below

theorem readArguments (indent : Nat) {rest : List Piece} (within : Within tokens rest) :
    Matches (SameRest tokens (List.Forall₂ related)) (reader.readArguments indent rest)
      (other.readArguments indent rest) := by
  cases rest with
  | nil => exact .intro .nil within
  | cons first inner =>
      -- Whatever the first argument is, the others are read behind it.
      have others {argument argument' : Piece} {left : List Piece} (h : related argument argument')
          (below : Within tokens left) :
          Matches (SameRest tokens (List.Forall₂ related))
            (reader.arguments indent left >>= fun reading =>
              return (argument :: reading.1, reading.2))
            (other.arguments indent left >>= fun reading =>
              return (argument' :: reading.1, reading.2)) := by
        refine (asked.arguments indent below).bind ?_
        rintro _ _ ⟨rest, below'⟩
        exact .intro (.cons h rest) below'
      rw [Reader.readArguments, Reader.readArguments]
      refine ite (fun _ => ?_) fun _ => ?_
      · refine ite (fun _ => .intro .nil (within.suffix (List.drop_suffix _ _))) fun _ => ?_
        refine (asked.groupAt indent .argument within).bind ?_
        rintro _ _ ⟨h, below⟩
        exact others h below
      · cases found : key? first inner with
        | some keyed =>
            have behind := within.tail.suffix (key?_suffix found)
            refine (asked.keyValue indent argumentStops behind).bind ?_
            rintro _ _ ⟨h, below⟩
            exact others (asked.inStep.lift (.binding h)) below
        | none =>
            refine ite (fun _ => .intro .nil within) fun _ => ?_
            refine (asked.operand indent within).bind ?_
            rintro _ _ ⟨h, below⟩
            exact others h below

theorem callOrOperand (indent : Nat) {first : Piece} {rest : List Piece}
    (within : Within tokens (first :: rest)) :
    Matches (SameRest tokens related) (reader.callOrOperand indent first rest)
      (other.callOrOperand indent first rest) := by
  have here : ∀ text, first = .token text → Asked tokens text := by
    obtain ⟨text, member, rfl⟩ := within.head
    rintro _ ⟨⟩
    exact .inl member
  rw [Reader.callOrOperand, Reader.callOrOperand]
  rw [← asked.callee? here]
  cases found : reader.callee? first rest with
  | some name => exact asked.call indent here found within.tail
  | none => exact asked.operand indent within

theorem element (indent : Nat) {first : Piece} {rest : List Piece}
    (within : Within tokens (first :: rest)) :
    Matches (SameRest tokens related) (reader.element indent first rest)
      (other.element indent first rest) := by
  refine (asked.callOrOperand indent within).bind ?_
  rintro _ _ ⟨h, below⟩
  dsimp only
  split
  · refine ite (fun _ => ?_) fun _ => .intro h below
    refine (asked.inStep.castTo h indent _).bind ?_
    intro cast cast' made
    exact .intro made below.tail.tail
  · exact .intro h below

theorem readElements (indent : Nat) (close : String) {rest : List Piece}
    (within : Within tokens rest) :
    Matches (SameRest tokens (List.Forall₂ related)) (reader.readElements indent close rest)
      (other.readElements indent close rest) := by
  cases rest with
  | nil => exact .intro .nil within
  | cons first inner =>
      refine ite (fun _ => .intro .nil within.tail) fun _ => ?_
      refine ite (fun _ => asked.elements indent close within.tail) fun _ => ?_
      refine (asked.element indent within).bind ?_
      rintro _ _ ⟨h, below⟩
      refine (asked.elements indent close below).bind ?_
      rintro _ _ ⟨rest, below'⟩
      exact .intro (.cons h rest) below'

theorem alternative (indent : Nat) {rest : List Piece} (within : Within tokens rest) :
    Matches (SameRest tokens related) (reader.alternative indent rest)
      (other.alternative indent rest) := by
  have skipped := within.suffix (skipNewline_suffix rest)
  simp only [Reader.alternative]
  cases found : after? "if" (skipNewline rest) with
  | some nested =>
      obtain ⟨keyword, shape, -⟩ := eq_cons_of_after? found
      rw [shape] at skipped
      refine (asked.conditional (indent + 1) skipped.tail).bind ?_
      rintro _ _ ⟨h, below⟩
      exact .intro (asked.inStep.lift (.block (.cons h .nil))) below
  | none =>
      refine (asked.blockOf (indent + 1) .alternative _ skipped).bind ?_
      intro block block' h
      exact .intro h (skipped.suffix (List.drop_suffix _ _))

theorem readConditional (indent : Nat) {rest : List Piece} (within : Within tokens rest) :
    Matches (SameRest tokens related) (reader.readConditional indent rest)
      (other.readConditional indent rest) := by
  rw [Reader.readConditional, Reader.readConditional]
  refine (asked.blockOf indent .condition _ within).bind ?_
  intro condition condition' hcondition
  have behind := within.suffix (List.drop_suffix (Extent.conditionEnd rest 0 + 1) rest)
  refine (asked.blockOf (indent + 1) .consequent _ behind).bind ?_
  intro consequent consequent' hconsequent
  have left := behind.suffix (List.drop_suffix
    (Extent.consequent (rest.drop (Extent.conditionEnd rest 0 + 1)) 0).stop _)
  dsimp only
  cases found : afterElse? _ with
  | none => exact .intro (asked.inStep.lift (.conditional hcondition hconsequent .none)) left
  | some branch =>
      refine (asked.alternative indent (left.suffix (lt_of_afterElse? found).2)).bind ?_
      rintro _ _ ⟨h, below⟩
      exact .intro (asked.inStep.lift (.conditional hcondition hconsequent (.some h))) below

theorem attempt (indent : Nat) {rest : List Piece} (within : Within tokens rest) :
    Matches (SameRest tokens related) (reader.attempt indent rest) (other.attempt indent rest) := by
  have skipped := within.suffix (skipNewlines_suffix rest)
  rw [Reader.attempt, Reader.attempt]
  generalize skipNewlines rest = rest' at skipped ⊢
  refine (asked.blockOf (indent + 1) .attempted _ skipped).bind ?_
  intro attempted attempted' hattempted
  have left := skipped.suffix (List.drop_suffix (attemptedEnd rest') rest')
  dsimp only
  cases found : after? "catch" _ with
  | none => exact .intro (asked.inStep.lift (.attempt hattempted .none)) left
  | some afterCatch =>
      dsimp only
      have caught := left.suffix (clause_suffix found)
      generalize skipNewlines afterCatch = caughtRest at caught ⊢
      have below := caught.suffix (List.drop_suffix (Extent.clauseEnd caughtRest 0) caughtRest)
      cases inside : cut caughtRest ⟨0, Extent.clauseEnd caughtRest 0⟩ with
      | error error => exact .error error
      | ok part =>
          refine ite (fun _ => ?_) fun _ => ?_
          · exact .intro (asked.inStep.lift (.attempt hattempted .none)) below
          · have handler : Matches (Option.Rel related)
                (some <$> reader.block (indent + 1) .handler part)
                (some <$> other.block (indent + 1) .handler part) :=
              (asked.block (indent + 1) .handler (caught.cut inside)).map fun _ _ h => .some h
            refine handler.bind fun _ _ h => ?_
            exact .intro (asked.inStep.lift (.attempt hattempted h)) below

theorem loop (indent : Nat) {rest : List Piece} (within : Within tokens rest) :
    Matches (SameRest tokens related) (reader.loop indent rest) (other.loop indent rest) := by
  simp only [Reader.loop]
  refine (asked.blockOf indent .loopHeader _ within).bind ?_
  intro header header' hheader
  have left := within.suffix (List.drop_suffix (loopHeader 0 false rest).1 rest)
  refine ite (fun _ => .intro (asked.inStep.lift (.loop hheader .none)) left) fun _ => ?_
  cases found : after? "do" _ with
  | none => exact .intro (asked.inStep.lift (.loop hheader .none)) left
  | some afterDo =>
      have behind := left.suffix (clause_suffix found)
      refine (asked.blockOf (indent + 1) .loopBody _ behind).bind ?_
      intro body body' hbody
      exact .intro (asked.inStep.lift (.loop hheader (.some hbody)))
        (behind.suffix (List.drop_suffix _ _))

theorem readParameters (indent : Nat) {rest : List Piece} (within : Within tokens rest) :
    Matches (SameRest tokens (List.Forall₂ related)) (reader.readParameters indent rest)
      (other.readParameters indent rest) := by
  cases rest with
  | nil => exact .intro .nil within
  | cons first inner =>
      rw [Reader.readParameters, Reader.readParameters]
      refine ite (fun _ => .intro .nil within) fun _ => ?_
      cases found : key? first inner with
      | some keyed =>
          have behind := within.tail.suffix (key?_suffix found)
          refine (asked.keyValue indent _ behind).bind ?_
          rintro _ _ ⟨h, below⟩
          refine (asked.parameters indent below).bind ?_
          rintro _ _ ⟨rest, below'⟩
          exact .intro (.cons (asked.inStep.lift (.binding h)) rest) below'
      | none =>
          refine (asked.parameters indent within.tail).bind ?_
          rintro _ _ ⟨rest, below⟩
          dsimp only
          split
          · refine ite (fun _ => ?_) fun _ => .intro rest below
            exact .intro (.cons (asked.inStep.lift (.binding .none)) rest) below
          · exact .intro rest below

theorem function (indent : Nat) {rest : List Piece} (within : Within tokens rest) :
    Matches (SameRest tokens related) (reader.function indent rest)
      (other.function indent rest) := by
  refine (asked.parameters indent (within.suffix (nameAt_suffix rest))).bind ?_
  rintro _ _ ⟨parameters, below⟩
  have body := (below.suffix (List.drop_suffix 1 _)).suffix (skipNewlines_suffix _)
  refine (asked.blockOf (indent + 1) .functionBody _ body).bind ?_
  intro block block' h
  exact .intro (asked.inStep.lift (.function parameters h)) (body.suffix (List.drop_suffix _ _))

theorem readMembers (indent : Nat) {rest : List Piece} (within : Within tokens rest) :
    Matches (List.Forall₂ related) (reader.readMembers indent rest)
      (other.readMembers indent rest) := by
  cases rest with
  | nil => exact .nil
  | cons first inner =>
      -- After each member, the others are read behind it.
      have others {member member' : Piece} {left : List Piece} (h : related member member')
          (below : Within tokens left) :
          Matches (List.Forall₂ related) (do return member :: (← reader.members indent left))
            (do return member' :: (← other.members indent left)) := by
        refine (asked.members indent below).bind ?_
        intro rest rest' each
        exact .cons h each
      rw [Reader.readMembers, Reader.readMembers]
      refine ite (fun _ => ?_) fun _ => ?_
      · refine (asked.function (indent + 1) within.tail).bind ?_
        rintro _ _ ⟨h, below⟩
        exact others h below
      refine ite (fun _ => ?_) fun _ => ?_
      · exact asked.members indent (within.tail.suffix (skipHandler_suffix inner))
      refine ite (fun _ => ?_) fun _ => ?_
      · exact asked.members indent (within.suffix (List.drop_suffix _ _))
      split
      · exact asked.members indent within.tail
      · refine ite (fun _ => asked.members indent within.tail) fun _ => ?_
        refine ite (fun _ => ?_) fun _ => ?_
        · have behind := within.tail.suffix (List.drop_suffix 1 inner)
          refine (asked.blockOf (indent + 2) .property _ behind).bind ?_
          intro value value' h
          exact others (asked.inStep.lift (.binding (.some h)))
            (behind.suffix (List.drop_suffix _ _))
        · exact others (asked.inStep.lift (.binding .none)) within.tail

theorem struct (indent : Nat) {rest : List Piece} (within : Within tokens rest) :
    Matches (SameRest tokens related) (reader.struct indent rest) (other.struct indent rest) := by
  have named := within.suffix (nameAt_suffix rest)
  have opened := named.suffix (skipNewlines_suffix _)
  simp only [Reader.struct]
  refine ite (fun _ => ?_) fun _ => .intro (asked.inStep.lift (.struct .nil)) named
  cases found : cut _ _ with
  | error error => exact .error error
  | ok part =>
      refine (asked.members indent (opened.cut found)).bind ?_
      intro members members' h
      exact .intro (asked.inStep.lift (.struct h)) (opened.suffix (List.drop_suffix _ _))

/-! ### Passes over a block -/

variable {before before' after : List Piece}

theorem accessAt (indent : Nat) (earlier : List.Forall₂ related before before')
    (within : Within tokens after) :
    Matches (SamePlace tokens related) (reader.accessAt indent before after)
      (other.accessAt indent before' after) := by
  refine (asked.elements indent "]" within).bind ?_
  rintro _ _ ⟨indices, below⟩
  have bare {before before' : List Piece} (earlier : List.Forall₂ related before before') :
      SamePlace tokens related ⟨.access indent none _ :: before, _⟩
        ⟨.access indent none _ :: before', _⟩ :=
    ⟨.cons (asked.inStep.lift (.access .none indices)) earlier, .of_within below⟩
  cases earlier with
  | nil => exact bare .nil
  | cons first others =>
      dsimp only
      rw [asked.inStep.isOperand first]
      refine ite (fun _ => ?_) fun _ => ?_
      · exact ⟨.cons (asked.inStep.lift (.access (.some first) indices)) others, .of_within below⟩
      · exact bare (.cons first others)

theorem factorAt (indent : Nat) {operator : Piece} (here : related operator operator)
    (earlier : List.Forall₂ related before before') (within : Within tokens after) :
    Matches (SamePlace tokens related) (reader.factorAt indent before operator after)
      (other.factorAt indent before' operator after) := by
  have passes : SamePlace tokens related ⟨operator :: before, after⟩ ⟨operator :: before', after⟩ :=
    ⟨.cons here earlier, .of_within within⟩
  cases earlier with
  | nil => exact passes
  | cons first others =>
      cases after with
      | nil => exact passes
      | cons right rest =>
          rw [Reader.factorAt, Reader.factorAt, asked.inStep.isNewline first]
          refine ite (fun _ => passes) fun _ => ?_
          refine (asked.element indent within).bind ?_
          rintro _ _ ⟨h, below⟩
          refine ⟨.cons (asked.inStep.lift (.statement ?_)) others, .of_within below⟩
          exact .cons first (.cons here (.cons h .nil))

theorem stepMark {indent : Nat} {text : String}
    (reached : asks (.items indent before (.token text :: after)))
    (earlier : List.Forall₂ related before before')
    (within : Within tokens after) (mark : text.length = 1 → Within tokens (.token text :: after)) :
    Matches (SamePlace tokens related) (reader.stepMark indent before (.token text) text after)
      (other.stepMark indent before' (.token text) text after) := by
  have here := asked.inStep.token text
  rw [Reader.stepMark, Reader.stepMark]
  refine ite (fun _ => asked.accessAt indent earlier within) fun _ => ?_
  refine ite (fun _ => ?_) fun _ => ?_
  · exact (asked.sentinel indent here within).map fun _ _ same => same.passed earlier
  refine ite (fun bracket => ?_) fun _ => ?_
  · have opened := mark (by rw [bracket]; rfl)
    exact (asked.groupAt indent .group opened).map fun _ _ same => same.passed earlier
  refine ite (fun _ => asked.factorAt indent here earlier within) fun _ => ?_
  refine ite (fun _ => ⟨earlier, .of_within within⟩) fun _ => ?_
  refine ite (fun dot => ?_) fun _ => ⟨.cons here earlier, .of_within within⟩
  exact asked.inStep.memberAt reached earlier (mark (by rw [dot]; rfl))

theorem stepToken {indent : Nat} {text : String}
    (reached : asks (.items indent before (.token text :: after)))
    (earlier : List.Forall₂ related before before')
    (here : Asked tokens text) (within : Within tokens after)
    (mark : text.length = 1 → Within tokens (.token text :: after)) :
    Matches (SamePlace tokens related) (reader.stepToken indent before (.token text) text after)
      (other.stepToken indent before' (.token text) text after) := by
  have looked : ∀ name, Piece.token text = .token name → Asked tokens name := by
    rintro _ ⟨⟩
    exact here
  have passes : SamePlace tokens related ⟨.token text :: before, after⟩
      ⟨.token text :: before', after⟩ :=
    ⟨.cons (asked.inStep.token text) earlier, .of_within within⟩
  rw [Reader.stepToken.eq_def, Reader.stepToken.eq_def]
  rw [← asked.callee? looked]
  cases found : reader.callee? (.token text) after with
  | some name =>
      exact (asked.call indent looked found within).map fun _ _ same => same.passed earlier
  | none =>
      refine ite (fun _ => ?_) fun _ => ?_
      · exact (asked.loop indent within).map fun _ _ same => same.passed earlier
      refine ite (fun _ => ?_) fun _ => asked.stepMark reached earlier within mark
      cases earlier with
      | nil => exact passes
      | cons first others =>
          cases after with
          | nil => exact passes
          | cons type rest =>
              dsimp only
              rw [asked.inStep.isOperand first]
              refine ite (fun _ => ?_) fun _ => passes
              exact asked.inStep.castAt indent first others within.tail

/-- Readers in step move to the same place: the same tokens lie ahead, and related pieces behind. -/
theorem step {indent : Nat} {piece piece' : Piece}
    (reached : asks (.items indent before (piece :: after)))
    (earlier : List.Forall₂ related before before')
    (unread : Unread tokens related (piece :: after) (piece' :: after)) :
    Matches (SamePlace tokens related) (reader.step indent before piece after)
      (other.step indent before' piece' after) := by
  have passes {made : Result (Reading Piece)} {made' : Result (Reading Piece)}
      (h : Matches (SameRest tokens related) made made') :
      Matches (SamePlace tokens related) (passed before <$> made) (passed before' <$> made') :=
    h.map fun _ _ same => same.passed earlier
  cases unread with
  | construct h noToken within =>
      rw [Reader.step, Reader.step, ← asked.inStep.text? h, noToken]
      exact ⟨.cons h earlier, .of_within within⟩
  | token here within mark =>
      rw [Reader.step, Reader.step]
      refine ite (fun _ => passes (asked.struct indent within)) fun _ => ?_
      refine ite (fun _ => passes (asked.function indent within)) fun _ => ?_
      refine ite (fun _ => ⟨earlier, .of_within within⟩) fun _ => ?_
      refine ite (fun _ => passes (asked.readConditional indent within)) fun _ => ?_
      refine ite (fun _ => passes (asked.attempt indent within)) fun _ => ?_
      exact asked.stepToken reached earlier here within mark

/-- The pass goes on from related pieces and the same tokens. It ends for both readers at once, at
the same bracket or at the end. -/
theorem readItems {indent : Nat} {after' : List Piece}
    (reached : asks (.items indent before after)) (earlier : List.Forall₂ related before before')
    (unread : Unread tokens related after after') :
    Matches (List.Forall₂ related) (reader.readItems indent before after)
      (other.readItems indent before' after') := by
  have reversed := List.forall₂_reverse_iff.mpr earlier
  have next {piece piece' : Piece} {rest : List Piece}
      (reached : asks (.items indent before (piece :: rest))) (h : related piece piece')
      (within : Within tokens rest)
      (unread : Unread tokens related (piece :: rest) (piece' :: rest)) :
      Matches (List.Forall₂ related) (reader.readItems indent before (piece :: rest))
        (other.readItems indent before' (piece' :: rest)) := by
    rw [Reader.readItems, Reader.readItems, Piece.is, Piece.is, asked.inStep.text? h]
    refine ite (fun _ => ?_) fun _ => ?_
    · exact List.rel_append reversed (.cons h (asked.inStep.all within))
    · refine (asked.step reached earlier unread).bind ?_
      intro cursor cursor' same
      exact asked.items indent same.before same.after
  cases unread with
  | nil => exact reversed
  | token here within mark =>
      exact next reached (asked.inStep.token _) within
        (.token here within mark)
  | construct h noToken within => exact next reached h within (.construct h noToken within)

end Agrees

/-- Whatever their budget, two readers of one script stay in step. The first answers only what is
asked of it, and that has to be enough. -/
theorem atDepth_agrees (inStep : InStep tokens asks registry other related)
    (enough : IsEnough registry asks) (depth : Nat) :
    Agrees tokens asks related ((atDepth registry depth).answering asks) (atDepth other depth) := by
  induction depth with
  | zero =>
      constructor
      · exact inStep
      all_goals
        intros
        exact .of_isFault (isFault_answered_fault ⟨_, rfl⟩)
  | succ depth ih =>
      have same := answering_approximates enough depth
      constructor
      · exact ih.inStep
      · intro indent before before' after after' earlier unread
        by_cases h : asks (.items indent before after)
        · exact (ih.readItems h earlier unread).of_approximates (same.items indent before after)
        · exact .of_isFault (isFault_answered h _)
      · exact fun indent rest within =>
          (ih.readConditional indent within).of_approximates (same.conditional indent rest)
      · exact fun indent rest within =>
          (ih.readParameters indent within).of_approximates (same.parameters indent rest)
      · exact fun indent rest within =>
          (ih.readMembers indent within).of_approximates (same.members indent rest)
      · exact fun indent rest within =>
          (ih.readArguments indent within).of_approximates (same.arguments indent rest)
      · exact fun indent close rest within =>
          (ih.readElements indent close within).of_approximates (same.elements indent close rest)
      · intro indent operand operand' rest related within
        by_cases h : asks (.trailers indent operand rest)
        · exact (ih.readTrailers h related within).of_approximates
            (same.trailers indent operand rest)
        · exact .of_isFault (isFault_answered h _)

end

end Reader

/-- Two readers in step read related blocks from a script, or refuse it for the same reason. -/
theorem readBlock_agrees {tokens : List String} {related : Piece → Piece → Prop}
    {registry other : Registry} {indent : Nat}
    (inStep : Reader.InStep tokens (Reader.IsMade registry indent tokens) registry other related)
    (role : Role) :
    Agree related (readBlock registry indent role (tokens.map .token))
      (readBlock other indent role (tokens.map .token)) := by
  have enough := Reader.isEnough_isMade registry indent tokens
  have agrees := Reader.atDepth_agrees inStep enough ((tokens.map Piece.token).length + 1)
  have same := agrees.block indent role List.infix_rfl
  have start : Reader.IsMade registry indent tokens
      (.items indent [] (Reader.trim (tokens.map .token))) := .refl
  have unlimited (reader : Reader) :
      (reader.answering (Reader.IsMade registry indent tokens)).block indent role
        (tokens.map .token) = reader.block indent role (tokens.map .token) := by
    rw [Reader.block, Reader.block]
    exact congrArg (· >>= _) (Reader.answered_pos start _)
  rw [unlimited] at same
  rcases same.isFault_or_agree with ⟨detail, fault⟩ | agree
  · have safe := readBlock_safe registry indent role (tokens.map .token)
    rw [readBlock, fault] at safe
    obtain ⟨typeName, impossible⟩ := safe
    cases impossible
  · exact agree

end Maxscript
