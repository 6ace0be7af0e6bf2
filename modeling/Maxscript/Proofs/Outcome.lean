import Maxscript.Reader.Basic

/-!
# Outcomes of reading

A contract on a result names what holds of a value and which errors are admitted. Contracts
compose along `bind`, so a reader is verified from the contracts of the readers it asks, without
unfolding them. Admitting every error gives partial correctness; admitting only the error of a
cast says that the reader itself is never at fault.
-/

namespace Maxscript

/-- A value satisfies `post`, and an error is one that `fault` admits. -/
def Meets {α : Type} (result : Result α) (post : α → Prop) (fault : ConvertError → Prop) : Prop :=
  match result with
  | .ok value => post value
  | .error error => fault error

/-- The script asks for a cast to a type without a Python counterpart. -/
def ConvertError.IsCast (error : ConvertError) : Prop :=
  ∃ typeName, error = .unsupportedCast typeName

def ConvertError.Any (_ : ConvertError) : Prop := True

namespace Meets

variable {α β : Type} {result : Result α} {post post' : α → Prop} {after : β → Prop}
variable {fault : ConvertError → Prop}

theorem of_ok {value : α} (h : Meets result post fault) (read : result = .ok value) :
    post value := by
  subst read
  exact h

theorem pure {value : α} (h : post value) : Meets (Pure.pure value : Result α) post fault := h

/-- A contract may promise less than it could. -/
theorem mono (h : Meets result post fault) (weaken : ∀ value, post value → post' value) :
    Meets result post' fault := by
  cases result with
  | ok value => exact weaken value h
  | error error => exact h

theorem and (first : Meets result post fault) (second : Meets result post' fault) :
    Meets result (fun value => post value ∧ post' value) fault := by
  cases result with
  | ok value => exact ⟨first, second⟩
  | error error => exact first

/-- What is done with a value only has to be verified for values that the first part can give.
Errors of either part must be admitted. -/
theorem bind {next : α → Result β} (first : Meets result post fault)
    (second : ∀ value, post value → Meets (next value) after fault) :
    Meets (result >>= next) after fault := by
  cases result with
  | ok value => exact second value first
  | error error => exact first

theorem map {f : α → β} (h : Meets result (fun value => after (f value)) fault) :
    Meets (f <$> result) after fault := by
  cases result with
  | ok value => exact h
  | error error => exact h

theorem map_some (h : Meets result post fault) :
    Meets (some <$> result) (fun found => ∃ value, found = some value ∧ post value) fault :=
  (h.mono fun value holds => ⟨value, rfl, holds⟩).map

/-- A contract that admits the error of a cast only leaves a value or such an error. This is how the
absence of internal errors is read off. -/
theorem ok_or_cast (h : Meets result post ConvertError.IsCast) :
    (∃ value, result = .ok value) ∨
      ∃ typeName, result = .error (.unsupportedCast typeName) := by
  cases result with
  | ok value => exact .inl ⟨value, rfl⟩
  | error error =>
      obtain ⟨typeName, rfl⟩ := h
      exact .inr ⟨typeName, rfl⟩

theorem ite {condition : Prop} [Decidable condition] {yes no : Result α}
    (ifTrue : condition → Meets yes post fault) (ifFalse : ¬condition → Meets no post fault) :
    Meets (if condition then yes else no) post fault := by
  by_cases h : condition
  · rw [if_pos h]
    exact ifTrue h
  · rw [if_neg h]
    exact ifFalse h

end Meets

/-- A result of which something is seen is a value. -/
theorem exists_ok_of_map {α β : Type} {result : Result α} {f : α → β} {seen : β}
    (h : f <$> result = .ok seen) : ∃ value, result = .ok value ∧ f value = seen := by
  cases result with
  | ok value => exact ⟨value, rfl, Except.ok.inj h⟩
  | error error => cases h

/-- An error can be seen without a look at the values. -/
theorem eq_error_of_map {α β : Type} {result : Result α} {f : α → β} {error : ConvertError}
    (h : f <$> result = .error error) : result = .error error := by
  cases result with
  | ok value => cases h
  | error other => exact congrArg Except.error (Except.error.inj h)

end Maxscript
