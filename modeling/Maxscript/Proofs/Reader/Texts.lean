import Maxscript.Proofs.Reader.Surroundings
import Maxscript.Reader.Control

/-!
# The texts of pieces

The texts that a piece was read from can be collected from it again, in order. Only brackets,
separators, colons and the words that announce a clause are gone, since the constructs stand for
them. `shown` leaves these out, so that it can be asked whether a reading shows what it was read
from.
-/

namespace Maxscript

namespace Token

/-- Words that announce the clauses of conditionals, loops and error handling. -/
def clauseWords : List String := ["if", "then", "do", "else", "try", "catch", "for"]

def isClauseWord (token : String) : Bool := clauseWords.contains (Text.foldCase token)

/-- Words that announce what is put into other words. -/
def rewordedWords : List String := ["struct", "fn", "function", "as", "count"]

/-- The brackets and separators that constructs stand for. -/
def structural : List Char := ['(', ')', '[', ']', ',', ':', '#', '\n']

/-- What is left of tokens without clause words, brackets and separators. -/
def residue (tokens : List String) : List Char :=
  ((tokens.filter (!isClauseWord ·)).flatMap String.toList).filter (!structural.contains ·)

end Token

namespace Piece

mutual

/-- The texts that a piece was read from, in order. A name counts as a text. -/
def texts : Piece → List String
  | .token text => [text]
  | .binding _ name none _ => [name]
  | .binding _ name (some value) _ => name :: texts value
  | .statement _ parts => textsAll parts
  | .chain _ parts => textsAll parts
  | .block _ _ items => textsAll items
  | .array _ elements => textsAll elements
  | .access _ none indices => textsAll indices
  | .access _ (some base) indices => texts base ++ textsAll indices
  | .call _ name arguments _ => name :: textsAll arguments
  | .function _ name parameters body => name :: textsAll parameters ++ texts body
  | .struct _ name members => name :: textsAll members
  | .conditional _ condition consequent none => texts condition ++ texts consequent
  | .conditional _ condition consequent (some alternative) =>
    texts condition ++ texts consequent ++ texts alternative
  | .attempt _ attempted none => texts attempted
  | .attempt _ attempted (some handler) => texts attempted ++ texts handler
  | .loop _ header _ none => texts header
  | .loop _ header _ (some body) => texts header ++ texts body
  | .cast _ _ operand => texts operand

def textsAll : List Piece → List String
  | [] => []
  | piece :: rest => texts piece ++ textsAll rest

end

end Piece

namespace Token

@[simp] theorem residue_append (front back : List String) :
    residue (front ++ back) = residue front ++ residue back := by
  simp [residue]

theorem isAlpha_of_isLower_toLower {c : Char} (h : c.toLower.isLower = true) :
    c.isAlpha = true := by
  delta Char.toLower at h
  split at h
  · next upper => exact Bool.or_eq_true_iff.mpr (.inl (decide_eq_true upper))
  · exact Bool.or_eq_true_iff.mpr (.inr h)

/-- A clause word consists of letters, so that a token with any other character in it is kept. -/
theorem isAlpha_of_isClauseWord {token : String} (h : isClauseWord token = true) {c : Char}
    (member : c ∈ token.toList) : c.isAlpha = true := by
  have lower : ∀ word ∈ clauseWords, word.toList.all Char.isLower = true := by decide
  have folded : c.toLower ∈ (Text.foldCase token).toList := by
    rw [Text.foldCase, String.toList_ofList]
    exact List.mem_map_of_mem member
  exact isAlpha_of_isLower_toLower
    (List.all_eq_true.mp (lower _ (List.contains_iff_mem.mp h)) _ folded)

theorem isClauseWord_of_mem {token : String} {c : Char} (member : c ∈ token.toList)
    (other : c.isAlpha = false) : isClauseWord token = false := by
  cases h : isClauseWord token with
  | false => rfl
  | true =>
      rw [isAlpha_of_isClauseWord h member] at other
      cases other

theorem residue_single {token : String} (h : isClauseWord token = false) :
    residue [token] = token.toList.filter (!structural.contains ·) := by
  simp [residue, h]

/-- Texts without a clause word among them can be joined. The third hypothesis is needed: two words
that are none may be one together. -/
theorem residue_join {first second joined : String} (shape : joined = first ++ second)
    (hfirst : isClauseWord first = false) (hsecond : isClauseWord second = false)
    (hjoined : isClauseWord joined = false) :
    residue [joined] = residue [first] ++ residue [second] := by
  rw [residue_single hfirst, residue_single hsecond, residue_single hjoined, shape,
    String.toList_append, List.filter_append]

end Token

namespace Reader

open Token (isClauseWord residue)

/-- What pieces show of the texts that they were read from. -/
def shown (pieces : List Piece) : List Char := residue (Piece.textsAll pieces)

@[simp] theorem shown_nil : shown [] = [] := rfl

@[simp] theorem shown_cons (piece : Piece) (rest : List Piece) :
    shown (piece :: rest) = residue piece.texts ++ shown rest := by
  rw [shown, Piece.textsAll, Token.residue_append]
  rfl

@[simp] theorem textsAll_append (front back : List Piece) :
    Piece.textsAll (front ++ back) = Piece.textsAll front ++ Piece.textsAll back := by
  induction front with
  | nil => rfl
  | cons piece rest ih =>
      rw [List.cons_append, Piece.textsAll, ih, Piece.textsAll, List.append_assoc]

@[simp] theorem shown_append (front back : List Piece) :
    shown (front ++ back) = shown front ++ shown back := by
  rw [shown, textsAll_append, Token.residue_append]
  rfl

/-- A piece that constructs stand for. -/
def Silent (piece : Piece) : Prop := residue piece.texts = []

theorem Silent.shown_cons {piece : Piece} (h : Silent piece) (rest : List Piece) :
    shown (piece :: rest) = shown rest := by
  rw [Reader.shown_cons, h, List.nil_append]

theorem shown_eq_nil {pieces : List Piece} (h : ∀ piece ∈ pieces, Silent piece) :
    shown pieces = [] := by
  induction pieces with
  | nil => rfl
  | cons piece rest ih =>
      obtain ⟨first, others⟩ := List.forall_mem_cons.mp h
      rw [first.shown_cons, ih others]

theorem eq_token_of_is {piece : Piece} {text : String} (h : piece.is text = true) :
    piece = .token text := by
  cases piece with
  | token other =>
      have same : other = text := by simpa using h
      rw [same]
  | _ => cases h

theorem eq_token_of_isKeyword {piece : Piece} {word : String} (h : piece.isKeyword word = true) :
    ∃ text, piece = .token text ∧ Text.foldCase text = word := by
  cases piece with
  | token other => exact ⟨other, rfl, by simpa using h⟩
  | _ => cases h

/-- Clause words are silent: they say which construct it is, and this is kept in its constructor and
not in its texts. -/
theorem silent_of_isKeyword {piece : Piece} {word : String} (h : piece.isKeyword word = true)
    (clause : word ∈ Token.clauseWords) : Silent piece := by
  obtain ⟨text, rfl, folded⟩ := eq_token_of_isKeyword h
  have isClause : isClauseWord text = true := by
    rw [isClauseWord, folded]
    exact List.contains_iff_mem.mpr clause
  simp [Silent, Piece.texts, residue, isClause]

theorem silent_of_is {piece : Piece} {text : String} (h : piece.is text = true)
    (mark : residue [text] = []) : Silent piece := by
  rw [eq_token_of_is h]
  exact mark

theorem silent_of_isNewline {piece : Piece} (h : piece.isNewline = true) : Silent piece :=
  silent_of_is h (by decide)

/-- What is trimmed off a block is silent, so a block shows what is shown by the list that it was
read from. -/
theorem IsSurrounding.silent {piece : Piece} (h : IsSurrounding piece) : Silent piece := by
  rcases h with h | h | h
  · rw [isSeparator, Bool.or_eq_true] at h
    rcases h with h | h
    · exact silent_of_isNewline h
    · exact silent_of_is h (by decide)
  · exact silent_of_is h (by decide)
  · exact silent_of_is h (by decide)

@[simp] theorem shown_trim (pieces : List Piece) : shown (trim pieces) = shown pieces := by
  obtain ⟨front, back, shape, hfront, hback⟩ := surrounds_trim pieces
  have none := shown_eq_nil fun piece member => (hfront piece member).silent
  have none' := shown_eq_nil fun piece member => (hback piece member).silent
  have whole := congrArg shown shape
  rw [shown_append, shown_append, none, none', List.nil_append, List.append_nil] at whole
  exact whole.symm

@[simp] theorem shown_skipNewlines (pieces : List Piece) :
    shown (skipNewlines pieces) = shown pieces := by
  have skipped : ∀ piece ∈ pieces.takeWhile Piece.isNewline, Silent piece :=
    fun piece member => silent_of_isNewline (List.mem_takeWhile_imp member)
  have whole : shown (pieces.takeWhile Piece.isNewline ++ skipNewlines pieces) = shown pieces :=
    congrArg shown List.takeWhile_append_dropWhile
  rwa [shown_append, shown_eq_nil skipped, List.nil_append] at whole

@[simp] theorem shown_skipNewline (pieces : List Piece) :
    shown (skipNewline pieces) = shown pieces := by
  cases pieces with
  | nil => rfl
  | cons first rest =>
      rw [skipNewline]
      split
      · next newline => rw [(silent_of_isNewline newline).shown_cons]
      · rfl

end Reader

end Maxscript
