import Maxscript.Proofs.Convert
import Maxscript.Proofs.Reader.Progress
import Maxscript.Proofs.Token.Lexer

/-!
# What a refused script asks for

A script is refused for a cast that it asks for itself: an `as` among its tokens and, right behind
it, a token that names no type. Reading joins and replaces pieces, but it neither makes a new `as`
nor puts anything new behind one, as far as it still has to look at it. So whatever is cast in a
list that a reader is given is cast in the script.
-/

namespace Maxscript

namespace Reader

/-- `type` is a token that stands right behind an `as` of the script. -/
def CastIn (script : List String) (type : Piece) : Prop :=
  ∃ mark name, type = .token name ∧ Text.foldCase mark = "as" ∧ [mark, name] <:+: script

/-- All that is cast in these pieces is cast in the script. -/
def CastsIn (script : List String) (pieces : List Piece) : Prop :=
  ∀ mark type, mark.isKeyword "as" = true → [mark, type] <:+: pieces → CastIn script type

/-- The error names a token of the script that stands behind an `as` and names no type. -/
def IsRefusedIn (script : List String) (error : ConvertError) : Prop :=
  ∃ mark name, error = .unsupportedCast name ∧ CastTarget.ofWord? name = none ∧
    Text.foldCase mark = "as" ∧ [mark, name] <:+: script

/-- Which casts a script has is kept by every part of it, and by what the readers put in front of a
part, which is never an `as`. -/
theorem castsIn_closed (script : List String) :
    CastClosed (CastsIn script) (IsRefusedIn script) := by
  constructor
  · intro part pieces casts inside mark type keyword pair
    exact casts mark type keyword (pair.trans inside)
  · intro piece pieces casts other mark type keyword pair
    rcases List.infix_cons_iff.mp pair with front | behind
    · obtain ⟨rfl, -⟩ := List.cons_prefix_cons.mp front
      rw [keyword] at other
      cases other
    · exact casts mark type keyword behind
  · intro mark type rest casts keyword
    have pair : [mark, type] <:+: mark :: type :: rest :=
      (List.prefix_append [mark, type] rest).isInfix
    obtain ⟨word, name, rfl, folded, inside⟩ := casts mark type keyword pair
    exact fun unknown => ⟨word, name, rfl, unknown, folded, inside⟩

/-- Before anything is read, the pieces are the tokens of the script, and each of its casts is one
among them. -/
theorem castsIn_tokens (script : List String) : CastsIn script (script.map Piece.token) := by
  intro mark type keyword pair
  obtain ⟨tokens, inside, shape⟩ := List.infix_map_iff.mp pair
  obtain ⟨word, _, rfl, rfl, behind⟩ := List.map_eq_cons_iff.mp shape.symm
  obtain ⟨name, _, rfl, rfl, last⟩ := List.map_eq_cons_iff.mp behind
  obtain rfl := List.map_eq_nil_iff.mp last
  exact ⟨word, name, rfl, by simpa using keyword, inside⟩

end Reader

/-- Reading refuses what the script asks for. There is no other error, since the budget is one round
for each token and is never used up. -/
theorem readScript_refusal (registry : Registry) (source : String) :
    Meets (readScript registry source) (fun _ => True)
      (Reader.IsRefusedIn (Token.ofSource registry source)) := by
  let script := Token.ofSource registry source
  let pieces := script.map Piece.token
  have closed := Reader.castsIn_closed script
  have asked := Reader.atDepth_within closed registry (pieces.length + 1)
  have room : Reader.Room
      (fun part => part.length < pieces.length + 1 ∧ Reader.CastsIn script part) pieces := by
    intro part inside
    exact ⟨Nat.lt_succ_of_le inside.length_le,
      closed.isInfix (Reader.castsIn_tokens script) inside⟩
  exact (asked.block 0 .root room).mono fun _ _ => trivial

/-- The text that stands for a type which is not a token is not the text of a token, unless a word
was respelled to it. -/
theorem renamed_of_placeholder {registry : Registry} {source : String}
    (h : "<expression>" ∈ Token.ofSource registry source) :
    ∃ word ∈ Token.normalize (Token.lex source),
      Token.isWord word = true ∧ registry.rename? word = some "<expression>" :=
  Token.renamed_of_mem_ofSource h (by decide +kernel) (by decide) (by decide)

/-- A script is refused only for a cast among its tokens to something that is no type, and the name
in the refusal is the token behind the `as`. A script without an `as` is converted. -/
theorem readScript_refuses_only_casts (registry : Registry) (source : String) :
    (∀ error, readScript registry source = .error error →
      ∃ mark name, error = .unsupportedCast name ∧ CastTarget.ofWord? name = none ∧
        Text.foldCase mark = "as" ∧ [mark, name] <:+: Token.ofSource registry source ∧
        (name = "<expression>" → ∃ word ∈ Token.normalize (Token.lex source),
          Token.isWord word = true ∧ registry.rename? word = some "<expression>")) ∧
    ((∀ token ∈ Token.ofSource registry source, Text.foldCase token ≠ "as") →
      ∀ unit, ∃ text, convertWith unit registry source = .ok text) := by
  have refusal := readScript_refusal registry source
  constructor
  · intro error refused
    rw [refused] at refusal
    obtain ⟨mark, name, rfl, unknown, folded, inside⟩ := refusal
    refine ⟨mark, name, rfl, unknown, folded, inside, ?_⟩
    rintro rfl
    exact renamed_of_placeholder (inside.subset (by simp))
  · intro noCast unit
    cases read : readScript registry source with
    | ok body =>
        refine ⟨Python.renderBody unit body, ?_⟩
        rw [convertWith_eq, read]
        rfl
    | error error =>
        rw [read] at refusal
        obtain ⟨mark, name, -, -, folded, inside⟩ := refusal
        exact absurd folded (noCast mark (inside.subset (by simp)))

/-- The type is the word behind the `as`, and not what the brackets around it were read as. -/
theorem unknown_type_refused :
    readScript Registry.empty "y = (x AS Point3) + 1" = .error (.unsupportedCast "Point3") ∧
      ∃ mark name, ConvertError.unsupportedCast "Point3" = .unsupportedCast name ∧
        CastTarget.ofWord? name = none ∧ Text.foldCase mark = "as" ∧
        [mark, name] <:+: Token.ofSource Registry.empty "y = (x AS Point3) + 1" := by
  have refused : readScript Registry.empty "y = (x AS Point3) + 1" =
      .error (.unsupportedCast "Point3") := by
    apply eq_error_of_map (f := fun _ => ())
    decide +kernel
  obtain ⟨mark, name, same, unknown, folded, inside, -⟩ :=
    (readScript_refuses_only_casts _ _).1 _ refused
  exact ⟨refused, mark, name, same, unknown, folded, inside⟩

/-- A word can be respelled to the text that stands for a type which is not a token. -/
theorem respelled_type_is_placeholder :
    readScript (Registry.empty.addRename "foo" "<expression>") "x as foo" =
      .error (.unsupportedCast "<expression>") := by
  apply eq_error_of_map (f := fun _ => ())
  decide +kernel

end Maxscript
