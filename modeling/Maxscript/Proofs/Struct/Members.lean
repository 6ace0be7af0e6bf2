import Mathlib.Data.List.Forall2
import Maxscript.Proofs.Struct.Method

/-!
# Members of a struct

The members of a struct are properties, with a value or without, and methods. Separators stand
behind each of them but the last, and may stand anywhere else between them. Every member is read, in
the order of the script, and by itself: the value of a property is the block of the tokens up to the
first separator outside its brackets. Nothing is read behind the bracket that closes the struct.
-/

namespace Maxscript.Struct

open Operand (Word)
open Reader (balanced_value unbounded memberWords)
open Structured (unread)

variable {registry : Registry}

structure Name extends Word where
  free : Text.foldCase text ∉ memberWords

/-- The tokens behind the `=` of a property. -/
structure Initialiser where
  tokens : List String
  nested : WellNested Extent.separatorBrackets Extent.separators tokens

inductive Member where
  | property (name : Name)
  | initialised (name : Name) (value : Initialiser)
  | method (definition : Method)

inductive Separator where
  | comma
  | newline

def Separator.text : Separator → String
  | comma => ","
  | newline => "\n"

/-- What stands in the brackets of a struct. -/
inductive Body where
  | nil
  | last (only : Member)
  | separator (mark : Separator) (rest : Body)
  | member (first : Member) (mark : Separator) (rest : Body)

namespace Member

def tokens : Member → List String
  | property name => [name.text]
  | initialised name value => name.text :: "=" :: value.tokens
  | method definition => definition.tokens

/-- What a member is read to: a binding of a property, to its value if there is one, or a
function. -/
def outcome (registry : Registry) (indent : Nat) : Member → Result Piece
  | property name => .ok (.binding (indent + 2) name.text none false)
  | initialised name value =>
    (fun block => .binding (indent + 2) name.text (some block) false) <$>
      readBlock registry (indent + 2) .property (unread value.tokens)
  | method definition => definition.outcome registry (indent + 1)

theorem balanced (member : Member) : Extent.Balanced (unread member.tokens) := by
  have word (name : Name) {rest : List Piece} (tail : Extent.Balanced rest) :
      Extent.Balanced (.token name.text :: rest) :=
    balanced_value (by simp [name.isWord]) tail
  cases member with
  | property name => exact word name .nil
  | initialised name value =>
      exact word name (.cons (by decide) (by decide) (value.nested.balanced (by decide)))
  | method definition => exact definition.balanced_tokens

end Member

theorem Separator.separated (mark : Separator) (rest : List Piece) :
    Extent.Separated (.token mark.text :: rest) := by
  rintro _ ⟨⟩
  cases mark <;> decide

namespace Body

def tokens : Body → List String
  | nil => []
  | last only => only.tokens
  | separator mark rest => mark.text :: rest.tokens
  | member first mark rest => first.tokens ++ mark.text :: rest.tokens

def members : Body → List Member
  | nil => []
  | last only => [only]
  | separator _ rest => rest.members
  | member first _ rest => first :: rest.members

theorem balanced (body : Body) : Extent.Balanced (unread body.tokens) := by
  have passed (mark : Separator) {rest : List Piece} (tail : Extent.Balanced rest) :
      Extent.Balanced (.token mark.text :: rest) :=
    Extent.balanced_token (by cases mark <;> decide) tail
  induction body with
  | nil => exact .nil
  | last only => exact only.balanced
  | separator mark rest ih => exact passed mark ih
  | member first mark rest ih =>
      rw [tokens, Structured.unread_append]
      exact first.balanced.append (passed mark ih)

section

variable {indent : Nat}

end

end Body

end Maxscript.Struct
