import Maxscript.Proofs.Parts
import Maxscript.Proofs.Reader.Locality
import Maxscript.Proofs.Reader.Move

/-!
# Operands

An operand is a word, a string, a symbol or something in brackets, with members and indices behind
it, in any order. It is read from its first token on: the base, and then one member or index at a
time (`applyAll`). Where it ends does not depend on what is behind it, as long as that is neither a
dot nor a square bracket.
-/

namespace Maxscript

open Reader (unbounded Apart prepend brackets elementsOf elements_eq isOperand applyMembers
  joinMembers fuse? memberRun)
open Structured (unread)

namespace Operand

structure Word where
  text : String
  isWord : Token.isWord text = true

structure Value where
  text : String
  isValue : (Token.isWord text || Token.isQuoted text) = true

structure Contents where
  tokens : List String
  nested : WellNested brackets [] tokens

/-- What members and indices are asked of. -/
inductive Base where
  | value (atom : Value)
  | group (contents : Contents)
  | bracket (contents : Contents)
  | array (contents : Contents)
  | symbol (name : Value)

inductive Postfix where
  | member (word : Word)
  | index (contents : Contents)

namespace Base

def first : Base → String
  | value atom => atom.text
  | group _ => "("
  | bracket _ => "["
  | array _ => "#"
  | symbol _ => "#"

def others : Base → List String
  | value _ => []
  | group contents => contents.tokens ++ [")"]
  | bracket contents => contents.tokens ++ ["]"]
  | array contents => "(" :: contents.tokens ++ [")"]
  | symbol name => [name.text]

def isGroup : Base → Bool
  | group _ => true
  | _ => false

def outcome (registry : Registry) (indent : Nat) : Base → Result Piece
  | value atom => .ok (.token atom.text)
  | group contents => (unbounded registry).block indent .group (unread contents.tokens)
  | bracket contents => .access indent none <$> elementsOf registry indent "]" contents.tokens
  | array contents => .array indent <$> elementsOf registry indent ")" contents.tokens
  | symbol name => .ok (.token (Reader.nameLiteral name.text))

end Base

def Postfix.tokens : Postfix → List String
  | member word => [".", word.text]
  | index contents => "[" :: contents.tokens ++ ["]"]

def tokensOf (postfixes : List Postfix) : List String := postfixes.flatMap Postfix.tokens

/-- What an operand with members and indices behind it is read to. The members that no index follows
yet are pending, the last one first. -/
def applyAll (registry : Registry) (indent : Nat) (base : Piece) (pending : List String) :
    List Postfix → Result Piece
  | [] => .ok (applyMembers base pending)
  | .member word :: rest => applyAll registry indent base (word.text :: pending) rest
  | .index contents :: rest => do
    let indices ← elementsOf registry indent "]" contents.tokens
    applyAll registry indent (.access indent (some (applyMembers base pending)) indices) [] rest

end Operand

/-- A base with members and indices. -/
structure Operand where
  base : Operand.Base
  postfixes : List Operand.Postfix

namespace Operand

variable {registry : Registry}

def tokens (operand : Operand) : List String :=
  operand.base.first :: operand.base.others ++ tokensOf operand.postfixes

def outcome (registry : Registry) (indent : Nat) (operand : Operand) : Result Piece :=
  operand.base.outcome registry indent >>= fun piece =>
    applyAll registry indent piece [] operand.postfixes

/-! ### Runs of members -/

theorem unread_postfixes (front back : List Postfix) :
    unread (tokensOf (front ++ back)) = unread (tokensOf front) ++ unread (tokensOf back) := by
  rw [tokensOf, List.flatMap_append, Structured.unread_append]
  rfl

theorem unread_member (word : Word) (rest : List Postfix) :
    unread (tokensOf (.member word :: rest)) =
      .token "." :: .token word.text :: unread (tokensOf rest) := rfl

theorem unread_index (contents : Contents) (rest : List Postfix) (behind : List Piece) :
    unread (tokensOf (.index contents :: rest)) ++ behind =
      .token "[" :: (unread contents.tokens ++
        .token "]" :: (unread (tokensOf rest) ++ behind)) := by
  simp [tokensOf, Postfix.tokens]

/-- Postfixes without a member in front. -/
def Indexed (postfixes : List Postfix) : Prop :=
  ∀ first ∈ postfixes.head?, ∃ contents, first = .index contents

/-- Postfixes are members up to the first index. The reader joins the members in one go, so proofs
about postfixes go from index to index. -/
theorem exists_members (postfixes : List Postfix) :
    ∃ (members : List Word) (tail : List Postfix),
      postfixes = members.map .member ++ tail ∧ Indexed tail := by
  induction postfixes with
  | nil => exact ⟨[], [], rfl, by simp [Indexed]⟩
  | cons first rest ih =>
      cases first with
      | member word =>
          obtain ⟨members, tail, shape, indexed⟩ := ih
          exact ⟨word :: members, tail, by rw [shape]; rfl, indexed⟩
      | index contents => exact ⟨[], .index contents :: rest, rfl, by simp [Indexed]⟩

theorem Indexed.noMember {postfixes : List Postfix} (indexed : Indexed postfixes)
    {rest : List Piece} (next : ∀ piece ∈ rest.head?, piece.is "." = false) :
    ∀ piece ∈ (unread (tokensOf postfixes) ++ rest).head?, piece.is "." = false := by
  cases postfixes with
  | nil => exact next
  | cons first others =>
      obtain ⟨contents, rfl⟩ := indexed first rfl
      rw [unread_index]
      rintro _ ⟨⟩
      decide

/-- A run of members is found as a whole, up to what is no member. -/
theorem memberRun_members (members : List Word) {rest : List Piece}
    (next : ∀ piece ∈ rest.head?, piece.is "." = false) :
    memberRun (unread (tokensOf (members.map .member)) ++ rest) =
      (members.map Word.text, rest) := by
  induction members with
  | nil => exact Reader.memberRun_of_head next
  | cons word members ih =>
      rw [List.map_cons, unread_member, List.cons_append, List.cons_append, memberRun,
        if_pos (by simp [word.isWord]), ih]
      rfl

theorem applyAll_members (indent : Nat) (base : Piece) (members : List Word) (pending : List String)
    (tail : List Postfix) :
    applyAll registry indent base pending (members.map .member ++ tail) =
      applyAll registry indent base ((members.map Word.text).reverse ++ pending) tail := by
  induction members generalizing pending with
  | nil => rfl
  | cons word members ih =>
      rw [List.map_cons, List.cons_append, applyAll, ih]
      simp

/-- At the end of a run, the members that are pending are applied to the base. -/
theorem Indexed.applyAll_eq {tail : List Postfix} (indexed : Indexed tail) (indent : Nat)
    (base : Piece) (pending : List String) :
    applyAll registry indent base pending tail =
      applyAll registry indent (applyMembers base pending) [] tail := by
  cases tail with
  | nil => rfl
  | cons first rest =>
      obtain ⟨contents, rfl⟩ := indexed first rfl
      rfl

/-! ### Pieces that can be asked for members -/

/-- A construct, a string, or a word that stands for a value. -/
def Solid (piece : Piece) : Prop :=
  ∀ text, piece.text? = some text →
    (Token.isWord text || Token.isQuoted text) = true ∧ Token.isReserved text = false

theorem solid_of_construct {piece : Piece} (construct : piece.text? = none) : Solid piece := by
  intro text found
  rw [construct] at found
  cases found

theorem Solid.isOperand {piece : Piece} (solid : Solid piece) : isOperand piece = true := by
  rw [Reader.isOperand]
  cases found : piece.text? with
  | none => rfl
  | some text =>
      obtain ⟨value, free⟩ := solid text found
      rcases Bool.or_eq_true_iff.mp value with word | quoted
      · simp [word, free]
      · simp [quoted]

/-- What members were joined to is no reserved word, since none of them has a dot in it. -/
theorem not_isReserved_of_dot {text : String} (dot : '.' ∈ text.toList) :
    Token.isReserved text = false := by
  have noDot : ∀ word ∈ Token.reserved, '.' ∉ word.toList := by decide
  rw [Token.isReserved, Bool.eq_false_iff]
  intro found
  exact noDot _ (List.contains_iff_mem.mp found) (Reader.mem_foldCase_of_dot dot)

/-- Whether a text is a word or a string shows at its first character, so it stays what it is with
more text behind it. -/
theorem isValue_append {text : String}
    (value : (Token.isWord text || Token.isQuoted text) = true) (behind : String) :
    (Token.isWord (text ++ behind) || Token.isQuoted (text ++ behind)) = true := by
  rw [Token.isWord, Token.isQuoted] at value ⊢
  rw [String.toList_append]
  cases shape : text.toList with
  | nil => simp [shape] at value
  | cons c rest => simpa [shape] using value

/-- A text with members behind it. -/
def joined (text : String) (words : List String) : String :=
  text ++ String.join (words.map ("." ++ ·))

/-- A joined operand is a token only if its base is one, and its text is then the text of the base
and its members. -/
theorem text?_applyMembers {base : Piece} {words : List String} (members : words ≠ [])
    {text : String} (found : (applyMembers base words.reverse).text? = some text) :
    ∃ first, base.text? = some first ∧ text = joined first words := by
  have nonempty : words.reverse ≠ [] := by simpa using members
  obtain ⟨last, before, shape⟩ := List.exists_cons_of_ne_nil nonempty
  rw [shape, applyMembers] at found
  split at found
  · cases found
  · rw [← shape, List.reverse_reverse] at found
    cases base with
    | token first => exact ⟨first, rfl, (Option.some.inj found).symm⟩
    | _ => cases found

theorem dot_mem_joined (text : String) {words : List String} (members : words ≠ []) :
    '.' ∈ (joined text words).toList := by
  obtain ⟨word, rest, rfl⟩ := List.exists_cons_of_ne_nil members
  simp [joined, String.join_cons]

theorem Solid.applyMembers {base : Piece} (solid : Solid base) {words : List String}
    (members : words ≠ []) : Solid (applyMembers base words.reverse) := by
  intro text found
  obtain ⟨first, isFirst, rfl⟩ := text?_applyMembers members found
  exact ⟨isValue_append (solid first isFirst).1 _,
    not_isReserved_of_dot (dot_mem_joined first members)⟩

/-! ### Forward -/

/-- Members and indices are applied from left to right. By strong induction on their number, since
the members up to an index are taken in one step. -/
theorem trailers_applyAll (indent : Nat) {rest : List Piece} (apart : Apart rest)
    (postfixes : List Postfix) (base : Piece) (solid : postfixes ≠ [] → Solid base) :
    (unbounded registry).trailers indent base (unread (tokensOf postfixes) ++ rest) =
      (fun piece => (piece, rest)) <$> applyAll registry indent base [] postfixes := by
  induction length : postfixes.length using Nat.strong_induction_on generalizing postfixes base with
  | _ size ih =>
      obtain ⟨members, tail, rfl, indexed⟩ := exists_members postfixes
      have next := indexed.noMember apart.noMember
      by_cases none : members = []
      · subst none
        cases tail with
        | nil => exact apart.trailers_eq base indent
        | cons first more =>
            obtain ⟨contents, rfl⟩ := indexed first rfl
            have alone := Reader.fuse?_of_head next base
            rw [List.map_nil, List.nil_append, applyAll, applyMembers]
            rw [unread_index] at alone ⊢
            rw [Reader.unbounded_trailers, Reader.readTrailers.eq_def, alone]
            simp only [Piece.is_self, if_true]
            rw [elements_eq contents.nested (by decide)]
            cases elementsOf registry indent "]" contents.tokens with
            | error _ => rfl
            | ok indices =>
                exact ih more.length (by simp at length; omega) more
                  (.access indent (some base) indices) (fun _ => solid_of_construct rfl) rfl
      · have run := memberRun_members members next
        have words : members.map Word.text ≠ [] := by simpa using none
        have ready : Solid base := solid (by simp [none])
        have fewer : tail.length < size := by
          have := List.length_pos_iff.mpr none
          simp at length
          omega
        rw [applyAll_members, List.append_nil, indexed.applyAll_eq]
        rw [unread_postfixes, List.append_assoc]
        rw [Reader.unbounded_trailers, Reader.readTrailers.eq_def,
          Reader.fuse?_of_members run words ready.isOperand]
        exact ih tail.length fewer tail _ (fun _ => ready.applyMembers words) rfl

/-! ### Bases -/

/-- A word or a string behind `#` is a symbol. -/
theorem sentinel_name (name : Value) (indent : Nat) (rest : List Piece) :
    (unbounded registry).sentinel indent (.token "#") (.token name.text :: rest) =
      .ok (.token (Reader.nameLiteral name.text), rest) := by
  have notOpen := Reader.is_of_value name.isValue (by decide : "(" ∈ Token.otherTokens)
  simp only [Reader.sentinel, notOpen, Piece.text?_token, name.isValue]
  rfl

namespace Base

def text? : Base → Option String
  | value atom => some atom.text
  | symbol name => some (Reader.nameLiteral name.text)
  | _ => none

/-- Whether a base is a word that never stands for a value. -/
def isReserved : Base → Bool
  | value atom => Token.isReserved atom.text
  | _ => false

variable (base : Base) (indent : Nat)

/-- A base is read by itself, whatever comes behind it. The contents of its brackets are read as
elements or as a block of their own. -/
theorem bareOperand_eq (rest : List Piece) :
    (unbounded registry).bareOperand indent (.token base.first) (unread base.others ++ rest) =
      (fun piece => (piece, rest)) <$> base.outcome registry indent := by
  cases base with
  | value atom =>
      exact Reader.bareOperand_token
        (Token.not_mem_of_isWord_or_isQuoted atom.isValue (by decide)) indent rest
  | group contents =>
      have shape : unread (contents.tokens ++ [")"]) ++ rest =
          unread contents.tokens ++ .token ")" :: rest := by
        simp
      rw [others, shape]
      exact Reader.groupAt_balanced _ indent .group (contents.nested.balanced (by decide)) rest
  | bracket contents =>
      have shape : unread (contents.tokens ++ ["]"]) ++ rest =
          unread contents.tokens ++ .token "]" :: rest := by
        simp
      rw [others, shape]
      change (unbounded registry).elements indent "]" _ >>= _ = _
      rw [elements_eq contents.nested (by decide), outcome]
      cases elementsOf registry indent "]" contents.tokens with
      | error _ => rfl
      | ok found => rfl
  | array contents =>
      have shape : unread ("(" :: contents.tokens ++ [")"]) ++ rest =
          .token "(" :: (unread contents.tokens ++ .token ")" :: rest) := by
        simp
      rw [others, shape]
      change (unbounded registry).elements indent ")" _ >>= _ = _
      rw [elements_eq contents.nested (by decide), outcome]
      cases elementsOf registry indent ")" contents.tokens with
      | error _ => rfl
      | ok found => rfl
  | symbol name => exact sentinel_name name indent rest

theorem text?_of_outcome {piece : Piece}
    (read : base.outcome registry indent = .ok piece) : piece.text? = base.text? := by
  cases base with
  | value atom =>
      cases read
      rfl
  | group contents =>
      rw [outcome, Reader.block_eq_map] at read
      obtain ⟨items, -, rfl⟩ := exists_ok_of_map read
      rfl
  | bracket contents =>
      obtain ⟨found, -, rfl⟩ := exists_ok_of_map read
      rfl
  | array contents =>
      obtain ⟨found, -, rfl⟩ := exists_ok_of_map read
      rfl
  | symbol name =>
      cases read
      rfl

/-- Unless it is a reserved word, members and indices can be asked of a base. Words such as `then`
only ever stand for themselves. -/
theorem solid (unreserved : base.isReserved = false) {piece : Piece}
    (read : base.outcome registry indent = .ok piece) : Solid piece := by
  intro text found
  rw [base.text?_of_outcome indent read] at found
  cases base with
  | value atom =>
      cases found
      exact ⟨atom.isValue, unreserved⟩
  | symbol name =>
      cases found
      refine ⟨?_, not_isReserved_of_dot (Reader.nameLiteral_dotted name.text _ rfl)⟩
      rw [Reader.nameLiteral]
      split
      · rw [String.append_assoc]
        exact isValue_append (by decide : (Token.isWord "rt.Name(" || _) = true) _
      · rw [String.append_assoc]
        exact isValue_append (by decide : (Token.isWord "rt.Name('" || _) = true) _
  | _ => cases found

/-- A base that is no word or string starts with a mark, by which the reader tells what it is. -/
theorem first_cases : (∃ atom, base = .value atom) ∨ base.first ∈ ["(", "[", "#"] := by
  cases base with
  | value atom => exact .inl ⟨atom, rfl⟩
  | group contents => exact .inr (by simp [first])
  | bracket contents => exact .inr (by simp [first])
  | array contents => exact .inr (by simp [first])
  | symbol name => exact .inr (by simp [first])

theorem first_not_mem {marks : List String} (others : ∀ mark ∈ marks, mark ∈ Token.otherTokens)
    (apart : ∀ mark ∈ ["(", "[", "#"], mark ∉ marks) : base.first ∉ marks := by
  rcases base.first_cases with ⟨atom, rfl⟩ | mark
  · exact Token.not_mem_of_isWord_or_isQuoted atom.isValue others
  · exact apart _ mark

end Base

/-! ### Reading -/

/-- An operand is read to its outcome, and what comes behind it is left, unless that is one more
member or index. -/
theorem operand_eq (operand : Operand)
    (unreserved : operand.postfixes ≠ [] → operand.base.isReserved = false) (indent : Nat)
    {rest : List Piece} (apart : Apart rest) :
    (unbounded registry).operand indent (.token operand.base.first)
        (unread (operand.base.others ++ tokensOf operand.postfixes) ++ rest) =
      (fun piece => (piece, rest)) <$> operand.outcome registry indent := by
  rw [Reader.operand, Structured.unread_append, List.append_assoc, operand.base.bareOperand_eq,
    outcome]
  cases read : operand.base.outcome registry indent with
  | error _ => rfl
  | ok piece =>
      exact trailers_applyAll indent apart operand.postfixes piece fun postfixed =>
        operand.base.solid indent (unreserved postfixed) read

/-! ### Round brackets -/

theorem Contents.balanced (contents : Contents) : Extent.Balanced (unread contents.tokens) :=
  contents.nested.balanced (by decide)

theorem Contents.balanced_square (contents : Contents) {rest : List Piece}
    (tail : Extent.Balanced rest) :
    Extent.Balanced (.token "[" :: (unread contents.tokens ++ .token "]" :: rest)) :=
  .cons (by decide) (by decide) (contents.balanced.append (.cons (by decide) (by decide) tail))

theorem balanced_postfixes (postfixes : List Postfix) :
    Extent.Balanced (unread (tokensOf postfixes)) := by
  induction postfixes with
  | nil => exact .nil
  | cons first rest ih =>
      cases first with
      | member word =>
          rw [unread_member]
          exact .cons (by decide) (by decide) (Reader.balanced_value (by simp [word.isWord]) ih)
      | index contents =>
          have shape := unread_index contents rest []
          simp only [List.append_nil] at shape
          rw [shape]
          exact contents.balanced_square ih

/-- The round brackets of an operand match, so that it can stand anywhere inside a group. -/
theorem balanced (operand : Operand) : Extent.Balanced (unread operand.tokens) := by
  have behind := balanced_postfixes operand.postfixes
  rw [tokens, Structured.unread_append]
  cases operand.base with
  | value atom => exact Reader.balanced_value atom.isValue behind
  | group contents =>
      simpa [Base.first, Base.others] using Extent.Balanced.group contents.balanced behind
  | bracket contents =>
      simpa [Base.first, Base.others] using contents.balanced_square behind
  | array contents =>
      simpa [Base.first, Base.others] using
        Extent.Balanced.cons (by decide) (by decide) (.group contents.balanced behind)
  | symbol name =>
      simpa [Base.first, Base.others] using
        Extent.Balanced.cons (by decide) (by decide) (Reader.balanced_value name.isValue behind)

end Operand

end Maxscript
