import Mathlib.Logic.Relation
import Maxscript.Proofs.Reader.Budget

/-!
# What is asked for while a script is read

To read a block is to ask nested readers, which ask others in turn. An ask is made for the sake of
another if that one has no answer without it. The asks that are made for the sake of the first one
are those that the reading of a script comes to, and each has a place in the script: what was read
just before it, and what is ahead.

A reader that answers nothing else reads the script all the same.
-/

namespace Maxscript.Reader

/-- What a construct can ask a nested reader for. -/
inductive Ask
  | items (indent : Nat) (before after : List Piece)
  | conditional (indent : Nat) (rest : List Piece)
  | parameters (indent : Nat) (rest : List Piece)
  | members (indent : Nat) (rest : List Piece)
  | arguments (indent : Nat) (rest : List Piece)
  | elements (indent : Nat) (close : String) (rest : List Piece)
  | trailers (indent : Nat) (operand : Piece) (rest : List Piece)

def IsFault {α : Type} (answer : Result α) : Prop := ∃ detail, answer = .error (.internal detail)

/-- The reader has no answer to an ask. -/
def Ask.Faults (reader : Reader) : Ask → Prop
  | .items indent before after => IsFault (reader.items indent before after)
  | .conditional indent rest => IsFault (reader.conditional indent rest)
  | .parameters indent rest => IsFault (reader.parameters indent rest)
  | .members indent rest => IsFault (reader.members indent rest)
  | .arguments indent rest => IsFault (reader.arguments indent rest)
  | .elements indent close rest => IsFault (reader.elements indent close rest)
  | .trailers indent operand rest => IsFault (reader.trailers indent operand rest)

open Classical in
noncomputable def answered {α : Type} (allowed : Prop) (answer : Result α) : Result α :=
  if allowed then answer else .error (.internal "not answered")

/-- The reader that answers only what is `allowed`. -/
noncomputable def answering (reader : Reader) (allowed : Ask → Prop) : Reader where
  registry := reader.registry
  items indent before after :=
    answered (allowed (.items indent before after)) (reader.items indent before after)
  conditional indent rest :=
    answered (allowed (.conditional indent rest)) (reader.conditional indent rest)
  parameters indent rest :=
    answered (allowed (.parameters indent rest)) (reader.parameters indent rest)
  members indent rest := answered (allowed (.members indent rest)) (reader.members indent rest)
  arguments indent rest :=
    answered (allowed (.arguments indent rest)) (reader.arguments indent rest)
  elements indent close rest :=
    answered (allowed (.elements indent close rest)) (reader.elements indent close rest)
  trailers indent operand rest :=
    answered (allowed (.trailers indent operand rest)) (reader.trailers indent operand rest)

/-- An ask is made for the sake of another, which has no answer if this one has none. -/
def Needs (registry : Registry) (asker ask : Ask) : Prop :=
  asker.Faults ((unbounded registry).answering (· ≠ ask)).deeper

/-- The ask is made while a block is read from the script. -/
def IsMade (registry : Registry) (indent : Nat) (tokens : List String) (ask : Ask) : Prop :=
  Relation.ReflTransGen (Needs registry) (.items indent [] (trim (tokens.map .token))) ask

section

variable {α β : Type} {allowed : Ask → Prop} {registry : Registry}

theorem IsFault.bind {answer : Result α} (h : IsFault answer) (next : α → Result β) :
    IsFault (answer >>= next) := by
  obtain ⟨detail, rfl⟩ := h
  exact ⟨detail, rfl⟩

theorem answered_pos {condition : Prop} (h : condition) (answer : Result α) :
    answered condition answer = answer :=
  if_pos h

/-- An ask that is not allowed has no answer, which shows as an internal error. -/
theorem isFault_answered {condition : Prop} (h : ¬condition) (answer : Result α) :
    IsFault (answered condition answer) :=
  ⟨_, if_neg h⟩

theorem isFault_answered_fault {condition : Prop} {answer : Result α} (h : IsFault answer) :
    IsFault (answered condition answer) := by
  by_cases allowed : condition
  · rw [answered_pos allowed]
    exact h
  · exact isFault_answered allowed answer

/-- Readers that differ in what they answer: a reader with a budget, first with what is allowed
only, and the reader without one, also with all but one ask. -/
inductive Stage
  | limited
  | budget
  | full
  | without (ask : Ask)

noncomputable def Stage.reader (registry : Registry) (depth : Nat) (allowed : Ask → Prop) :
    Stage → Reader
  | .limited => (atDepth registry depth).answering allowed
  | .budget => atDepth registry depth
  | .full => unbounded registry
  | .without ask => (unbounded registry).answering (· ≠ ask)

/-- If what is allowed is too little for an answer, then there is an ask that is not allowed and
that the answer needs. Asks are made one after the other, so the first such ask will do. -/
structure Limits (allowed : Ask → Prop) (answers : Stage → Result α) : Prop where
  budget : Maxscript.Approximates (answers .budget) (answers .full)
  without : ∀ ask, Maxscript.Approximates (answers (.without ask)) (answers .full)
  limited : IsFault (answers .budget) ∨ answers .limited = answers .budget ∨
    ∃ ask, ¬allowed ask ∧ IsFault (answers (.without ask))

namespace Limits

theorem const (answer : Result α) : Limits allowed fun _ => answer :=
  ⟨.refl answer, fun _ => .refl answer, .inr (.inl rfl)⟩

/-- A chain of steps needs what each of its steps needs. If one of them has no answer without an
ask, neither has the chain. -/
theorem bind {first : Stage → Result α} {next : Stage → α → Result β}
    (h : Limits allowed first) (others : ∀ value, Limits allowed fun i => next i value) :
    Limits allowed fun i => first i >>= next i where
  budget := h.budget.bind fun value => (others value).budget
  without ask := (h.without ask).bind fun value => (others value).without ask
  limited := by
    rcases h.limited with fault | same | ⟨ask, forbidden, fault⟩
    · exact .inl (fault.bind _)
    · rcases h.budget with final | fault
      · rw [same, final]
        cases found : first .full with
        | error error => exact .inr (.inl rfl)
        | ok value =>
            rcases (others value).limited with fault | same | ⟨ask, forbidden, fault⟩
            · exact .inl fault
            · exact .inr (.inl same)
            · refine .inr (.inr ⟨ask, forbidden, ?_⟩)
              rcases h.without ask with same | earlier
              · rw [same, found]
                exact fault
              · exact IsFault.bind earlier _
      · exact .inl (IsFault.bind fault _)
    · exact .inr (.inr ⟨ask, forbidden, fault.bind _⟩)

/-- An ask of its own is answered if it is allowed, and needed if it is left out. -/
theorem of_ask {answers : Stage → Result α} (ask : Ask)
    (limited : answers .limited = answered (allowed ask) (answers .budget))
    (without : ∀ other, answers (.without other) = answered (ask ≠ other) (answers .full))
    (budget : Maxscript.Approximates (answers .budget) (answers .full)) :
    Limits allowed answers where
  budget := budget
  without other := by
    rw [without]
    by_cases h : ask ≠ other
    · exact .inl (answered_pos h _)
    · exact .inr (isFault_answered h _)
  limited := by
    by_cases h : allowed ask
    · exact .inr (.inl (limited.trans (answered_pos h _)))
    · refine .inr (.inr ⟨ask, h, ?_⟩)
      rw [without]
      exact isFault_answered (not_not_intro rfl) _

/-- Where all that an ask needs is allowed, its answer is the same as without a limit. -/
theorem approximates {answers : Stage → Result α} (h : Limits allowed answers) (ask : Ask)
    (enough : ∀ other, allowed ask → IsFault (answers (.without other)) → allowed other) :
    Maxscript.Approximates (answered (allowed ask) (answers .budget)) (answers .limited) := by
  by_cases inside : allowed ask
  · rw [answered_pos inside]
    rcases h.limited with fault | same | ⟨other, forbidden, fault⟩
    · exact .inr fault
    · exact .inl same.symm
    · exact absurd (enough other inside fault) forbidden
  · exact .inr (isFault_answered inside _)

end Limits

def limiting (allowed : Ask → Prop) : Law Stage where
  Holds answers := Limits allowed answers
  const := .const
  bind h others := h.bind others

/-- The reader with its full budget, the one that is limited to what is allowed, and those that lack
a single ask all follow the law of limits. -/
theorem stage_obeys (registry : Registry) (depth : Nat) (allowed : Ask → Prop) :
    Obeys (limiting allowed) registry (Stage.reader registry depth allowed) := by
  have budget := atDepth_approximates_unbounded registry depth
  constructor
  · rintro (- | - | - | ask)
    · exact atDepth_registry registry depth
    · exact atDepth_registry registry depth
    · rfl
    · rfl
  · exact fun indent before after => Limits.of_ask (.items indent before after) rfl
      (fun _ => rfl) (budget.items indent before after)
  · exact fun indent rest => Limits.of_ask (.conditional indent rest) rfl
      (fun _ => rfl) (budget.conditional indent rest)
  · exact fun indent rest => Limits.of_ask (.parameters indent rest) rfl
      (fun _ => rfl) (budget.parameters indent rest)
  · exact fun indent rest => Limits.of_ask (.members indent rest) rfl
      (fun _ => rfl) (budget.members indent rest)
  · exact fun indent rest => Limits.of_ask (.arguments indent rest) rfl
      (fun _ => rfl) (budget.arguments indent rest)
  · exact fun indent close rest => Limits.of_ask (.elements indent close rest) rfl
      (fun _ => rfl) (budget.elements indent close rest)
  · exact fun indent operand rest => Limits.of_ask (.trailers indent operand rest) rfl
      (fun _ => rfl) (budget.trailers indent operand rest)

/-- What is allowed contains all that it needs. -/
def IsEnough (registry : Registry) (allowed : Ask → Prop) : Prop :=
  ∀ asker ask, allowed asker → Needs registry asker ask → allowed ask

/-- If what is allowed is enough, then nothing else is asked for. The limited reader then answers
every ask that is allowed as the reader without a limit does. -/
theorem answering_approximates (enough : IsEnough registry allowed) (depth : Nat) :
    Approximates ((atDepth registry (depth + 1)).answering allowed)
      ((atDepth registry depth).answering allowed).deeper := by
  have limits := (stage_obeys registry depth allowed).deeper
  constructor
  · rfl
  · exact fun indent before after =>
      (limits.items indent before after).approximates (.items indent before after) (enough _)
  · exact fun indent rest =>
      (limits.conditional indent rest).approximates (.conditional indent rest) (enough _)
  · exact fun indent rest =>
      (limits.parameters indent rest).approximates (.parameters indent rest) (enough _)
  · exact fun indent rest =>
      (limits.members indent rest).approximates (.members indent rest) (enough _)
  · exact fun indent rest =>
      (limits.arguments indent rest).approximates (.arguments indent rest) (enough _)
  · exact fun indent close rest =>
      (limits.elements indent close rest).approximates (.elements indent close rest) (enough _)
  · exact fun indent operand rest =>
      (limits.trailers indent operand rest).approximates (.trailers indent operand rest) (enough _)

/-- The asks that are made while a script is read are enough to read it, as each of them is made on
the way from the first one. -/
theorem isEnough_isMade (registry : Registry) (indent : Nat) (tokens : List String) :
    IsEnough registry (IsMade registry indent tokens) :=
  fun _ _ made needs => made.tail needs

end

end Maxscript.Reader
