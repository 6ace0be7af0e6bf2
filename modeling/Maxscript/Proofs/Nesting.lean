import Maxscript.Proofs.Structured.Reading

/-!
# Nested brackets

Tokens are properly nested if every bracket is closed by one of its own kind, inside the bracket
that it stands in. Which kinds of brackets count is left open: operands are read by round and square
ones, and a separator is looked for outside the curly ones too. It is found right behind tokens that
are properly nested, unless they have a separator outside their brackets themselves.
-/

namespace Maxscript

open Structured (unread)

inductive Bracket where
  | round
  | square
  | curly
deriving DecidableEq

namespace Bracket

@[simp] def opening : Bracket → String
  | round => "("
  | square => "["
  | curly => "\x7b"

@[simp] def closing : Bracket → String
  | round => ")"
  | square => "]"
  | curly => "\x7d"

def Free (kinds : List Bracket) (token : String) : Prop :=
  ∀ kind ∈ kinds, token ≠ kind.opening ∧ token ≠ kind.closing

instance (kinds : List Bracket) (token : String) : Decidable (Free kinds token) :=
  inferInstanceAs (Decidable (∀ kind ∈ kinds, token ≠ kind.opening ∧ token ≠ kind.closing))

end Bracket

/-- Tokens whose brackets of the given kinds match, and none of which is one of the marks unless it
stands inside a bracket. -/
inductive WellNested (kinds : List Bracket) : (marks tokens : List String) → Prop
  | nil {marks : List String} : WellNested kinds marks []
  | cons {marks rest : List String} {token : String} (free : Bracket.Free kinds token)
      (other : token ∉ marks) (tail : WellNested kinds marks rest) :
      WellNested kinds marks (token :: rest)
  | group {marks inner rest : List String} {kind : Bracket} (known : kind ∈ kinds)
      (inside : WellNested kinds [] inner) (tail : WellNested kinds marks rest) :
      WellNested kinds marks (kind.opening :: inner ++ kind.closing :: rest)

namespace WellNested

variable {kinds : List Bracket} {marks tokens : List String}

/-- Round brackets match if they are among those that count. The other kinds are passed as if they
were words. -/
theorem balanced (nested : WellNested kinds marks tokens) (known : .round ∈ kinds) :
    Extent.Balanced (unread tokens) := by
  induction nested with
  | nil => exact .nil
  | cons free _ _ ih =>
      obtain ⟨notOpen, notClose⟩ := free .round known
      exact Extent.balanced_token (by simp_all) ih
  | @group _ inner rest kind _ _ _ ihInside ihTail =>
      rw [Structured.unread_append, Structured.unread_cons, Structured.unread_cons]
      cases kind with
      | round => exact .group ihInside ihTail
      | square =>
          refine .cons (by decide) (by decide) (ihInside.append ?_)
          exact .cons (by decide) (by decide) ihTail
      | curly =>
          refine .cons (by decide) (by decide) (ihInside.append ?_)
          exact .cons (by decide) (by decide) ihTail

/-- A mark does not stand first. -/
theorem head?_ne (nested : WellNested kinds marks tokens) {mark : String} (isMark : mark ∈ marks)
    (free : Bracket.Free kinds mark) : tokens.head? ≠ some mark := by
  intro found
  cases nested with
  | nil => cases found
  | cons _ other _ => exact other (Option.some.inj found ▸ isMark)
  | group known _ _ => exact (free _ known).1 (Option.some.inj found).symm

/-- A mark stands only inside brackets, so one of them is closed behind it. -/
theorem exists_closing_behind (nested : WellNested kinds marks tokens) {mark : String}
    (isMark : mark ∈ marks) (free : Bracket.Free kinds mark) {front back : List String}
    (shape : tokens = front ++ mark :: back) : ∃ kind ∈ kinds, kind.closing ∈ back := by
  induction nested generalizing front with
  | nil =>
      have absurd := congrArg List.length shape
      simp at absurd
  | cons _ other _ ih =>
      cases front with
      | nil =>
          obtain ⟨rfl, -⟩ := List.cons.inj shape
          exact absurd isMark other
      | cons first front => exact ih isMark (List.cons.inj shape).2
  | @group _ inner rest kind known _ _ _ ihTail =>
      cases front with
      | nil =>
          obtain ⟨rfl, -⟩ := List.cons.inj shape
          exact absurd rfl (free kind known).1
      | cons first front =>
          -- The mark stands either inside this bracket or behind it.
          rcases List.append_eq_append_iff.mp (List.cons.inj shape).2 with
            ⟨between, -, behind⟩ | ⟨inside, -, behind⟩
          · cases between with
            | nil =>
                obtain ⟨rfl, -⟩ := List.cons.inj behind
                exact absurd rfl (free kind known).2
            | cons close between => exact ihTail isMark (List.cons.inj behind).2
          · cases inside with
            | nil =>
                obtain ⟨rfl, -⟩ := List.cons.inj behind
                exact absurd rfl (free kind known).2
            | cons found inside =>
                obtain ⟨-, rfl⟩ := List.cons.inj behind
                exact ⟨kind, known, by simp⟩

end WellNested

/-! ### Separators -/

namespace Extent

/-- The kinds of brackets outside of which a separator is looked for. -/
def separatorBrackets : List Bracket := [.round, .square, .curly]

def separators : List String := [",", "\n"]

/-- The end of the list, or a separator. -/
def Separated (rest : List Piece) : Prop :=
  ∀ piece ∈ rest.head?, (piece.is "," || piece.isNewline) = true

namespace Depths

variable (depths : Depths)

def total : Int := depths.round + depths.square + depths.curly

end Depths

end Extent

end Maxscript
