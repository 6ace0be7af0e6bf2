import Maxscript.Piece

/-!
# Pieces and their parts

A construct is made of pieces. Most of what holds of all pieces is shown for a construct from its
parts, so the parts are listed here once, in the order of the script, and induction is on them.

Only some constructs open lines of their own. A piece is inline if none of these is part of it, as
far as it can be seen without a look into blocks.
-/

namespace Maxscript

namespace Piece

/-- The pieces that a construct is made of, in the order of their numbers. -/
@[simp] def parts : Piece → List Piece
  | .token _ => []
  | .binding _ _ value _ => value.toList
  | .statement _ parts => parts
  | .chain _ parts => parts
  | .block _ _ items => items
  | .array _ elements => elements
  | .access _ base indices => base.toList ++ indices
  | .call _ _ arguments _ => arguments
  | .function _ _ parameters body => parameters ++ [body]
  | .struct _ _ members => members
  | .conditional _ condition consequent alternative =>
    condition :: consequent :: alternative.toList
  | .attempt _ attempted handler => attempted :: handler.toList
  | .loop _ header _ body => header :: body.toList
  | .cast _ _ operand => [operand]

def level : Piece → Nat
  | .token _ => 0
  | .binding indent _ _ _ => indent
  | .statement indent _ => indent
  | .chain indent _ => indent
  | .block indent _ _ => indent
  | .array indent _ => indent
  | .access indent _ _ => indent
  | .call indent _ _ _ => indent
  | .function indent _ _ _ => indent
  | .struct indent _ _ => indent
  | .conditional indent _ _ _ => indent
  | .attempt indent _ _ => indent
  | .loop indent _ _ _ => indent
  | .cast indent _ _ => indent

def isBlock : Piece → Bool
  | .block _ _ _ => true
  | _ => false

def isStruct : Piece → Bool
  | .struct _ _ _ => true
  | _ => false

def isFunction : Piece → Bool
  | .function _ _ _ _ => true
  | _ => false

/-- Whether a construct opens lines of its own. -/
def isCompound : Piece → Bool
  | .function _ _ _ _ => true
  | .struct _ _ _ => true
  | .conditional _ _ _ _ => true
  | .attempt _ _ _ => true
  | .loop _ _ _ _ => true
  | _ => false

theorem eq_token_of_text? {piece : Piece} {text : String} (h : piece.text? = some text) :
    piece = .token text := by
  cases piece with
  | token text => rw [Option.some.inj h]
  | _ => cases h

/-- What has a property that no token has is a construct. -/
theorem text?_eq_none {piece : Piece} (p : Piece → Bool) (noToken : ∀ text, p (.token text) = false)
    (h : p piece = true) : piece.text? = none := by
  cases piece with
  | token text =>
      rw [noToken] at h
      cases h
  | _ => rfl

theorem mem_parts_of_eq {owner part : Piece} {front back : List Piece}
    (shape : owner.parts = front ++ part :: back) : part ∈ owner.parts := by
  rw [shape]
  exact List.mem_append_right front List.mem_cons_self

/-- Parts are smaller than what they are part of, so recursion through the list of parts ends. -/
theorem sizeOf_lt_of_mem_parts {part piece : Piece} (h : part ∈ piece.parts) :
    sizeOf part < sizeOf piece := by
  have inside {pieces : List Piece} (h : part ∈ pieces) : sizeOf part < sizeOf pieces :=
    List.sizeOf_lt_of_mem h
  have given {value : Option Piece} (h : part ∈ value.toList) : sizeOf part < sizeOf value := by
    obtain rfl := Option.mem_toList.mp h
    simp
  cases piece with
  | token text => cases h
  | binding indent name value named =>
      have := given h
      simp only [binding.sizeOf_spec]
      omega
  | access indent base indices =>
      simp only [access.sizeOf_spec]
      rcases List.mem_append.mp h with h | h
      · have := given h
        omega
      · have := inside h
        omega
  | function indent name parameters body =>
      simp only [function.sizeOf_spec]
      rcases List.mem_append.mp h with h | h
      · have := inside h
        omega
      · obtain rfl := List.mem_singleton.mp h
        omega
  | conditional indent condition consequent alternative =>
      simp only [conditional.sizeOf_spec]
      rcases List.mem_cons.mp h with rfl | h
      · omega
      rcases List.mem_cons.mp h with rfl | h
      · omega
      · have := given h
        omega
  | attempt indent attempted handler =>
      simp only [attempt.sizeOf_spec]
      rcases List.mem_cons.mp h with rfl | h
      · omega
      · have := given h
        omega
  | loop indent header comprehension body =>
      simp only [loop.sizeOf_spec]
      rcases List.mem_cons.mp h with rfl | h
      · omega
      · have := given h
        omega
  | cast indent target operand =>
      obtain rfl := List.mem_singleton.mp h
      simp only [cast.sizeOf_spec]
      omega
  | statement indent parts =>
      have : sizeOf part < sizeOf parts := inside h
      simp only [statement.sizeOf_spec]
      omega
  | chain indent parts =>
      have : sizeOf part < sizeOf parts := inside h
      simp only [chain.sizeOf_spec]
      omega
  | array indent elements =>
      have : sizeOf part < sizeOf elements := inside h
      simp only [array.sizeOf_spec]
      omega
  | block indent role items =>
      have : sizeOf part < sizeOf items := inside h
      simp only [block.sizeOf_spec]
      omega
  | call indent name arguments builtin =>
      have : sizeOf part < sizeOf arguments := inside h
      simp only [call.sizeOf_spec]
      omega
  | struct indent name members =>
      have : sizeOf part < sizeOf members := inside h
      simp only [struct.sizeOf_spec]
      omega

/-- What holds of a piece whenever it holds of its parts holds of every piece. This replaces a case
for each construct where all of them are treated alike. -/
@[elab_as_elim]
theorem partsInduction {motive : Piece → Prop}
    (step : ∀ piece, (∀ part ∈ piece.parts, motive part) → motive piece) (piece : Piece) :
    motive piece :=
  step piece fun part _ => partsInduction step part
termination_by sizeOf piece
decreasing_by exact sizeOf_lt_of_mem_parts ‹_›

end Piece

/-- Outside of blocks, no part of the piece opens lines of its own. -/
inductive Inline : Piece → Prop
  | token (text : String) : Inline (.token text)
  | block (indent : Nat) (role : Role) (items : List Piece) : Inline (.block indent role items)
  | construct {piece : Piece} (notCompound : piece.isCompound = false)
      (parts : ∀ part ∈ piece.parts, Inline part) : Inline piece

theorem Inline.isCompound {piece : Piece} (inline : Inline piece) : piece.isCompound = false := by
  cases inline with
  | token text => rfl
  | block indent role items => rfl
  | construct notCompound parts => exact notCompound

theorem Inline.part {piece part : Piece} (inline : Inline piece) (notBlock : piece.isBlock = false)
    (member : part ∈ piece.parts) : Inline part := by
  cases inline with
  | token text => cases member
  | block indent role items => cases notBlock
  | construct notCompound parts => exact parts part member

end Maxscript
