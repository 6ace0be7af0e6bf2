import Maxscript.Proofs.Reader.Progress
import Maxscript.Proofs.Reader.Uniform

/-!
# Readers without a budget

A larger budget changes no answer but the one that the budget was used up. Since a budget beyond
the number of pieces is never used up, the readers with ever larger budgets agree from some point
on, and `unbounded` is what they agree on. It is a fixed point of `deeper`: its constructs ask
`unbounded` itself for what they nest, and proofs about reading need not mention budgets.
-/

namespace Maxscript

/-- The first result is the second, unless it stopped by a fault of the reader. -/
def Approximates {α : Type} (first second : Result α) : Prop :=
  first = second ∨ ∃ detail, first = .error (.internal detail)

namespace Approximates

variable {α β : Type} {first second : Result α}

theorem refl (result : Result α) : Approximates result result := .inl rfl

theorem bind {f g : α → Result β} (h : Approximates first second)
    (next : ∀ value, Approximates (f value) (g value)) :
    Approximates (first >>= f) (second >>= g) := by
  rcases h with rfl | ⟨detail, rfl⟩
  · cases first with
    | ok value => exact next value
    | error error => exact .refl _
  · exact .inr ⟨detail, rfl⟩

/-- A result that the reader is not at fault for is final: a larger budget does not change it. -/
theorem eq_of_meets {post : α → Prop} (h : Approximates first second)
    (safe : Meets first post ConvertError.IsCast) : first = second := by
  rcases h with rfl | ⟨detail, rfl⟩
  · rfl
  · obtain ⟨typeName, impossible⟩ := safe
    cases impossible

end Approximates

namespace Reader

/-- Every nested reader approximates that of the other. -/
structure Approximates (reader other : Reader) : Prop where
  registry : reader.registry = other.registry
  items : ∀ indent before after,
    Maxscript.Approximates (reader.items indent before after) (other.items indent before after)
  conditional : ∀ indent rest,
    Maxscript.Approximates (reader.conditional indent rest) (other.conditional indent rest)
  parameters : ∀ indent rest,
    Maxscript.Approximates (reader.parameters indent rest) (other.parameters indent rest)
  members : ∀ indent rest,
    Maxscript.Approximates (reader.members indent rest) (other.members indent rest)
  arguments : ∀ indent rest,
    Maxscript.Approximates (reader.arguments indent rest) (other.arguments indent rest)
  elements : ∀ indent close rest,
    Maxscript.Approximates (reader.elements indent close rest) (other.elements indent close rest)
  trailers : ∀ indent operand rest,
    Maxscript.Approximates (reader.trailers indent operand rest)
      (other.trailers indent operand rest)

/-- Approximation, as a law of the answers of two readers. -/
def approximation : Law Bool where
  Holds answers := Maxscript.Approximates (answers false) (answers true)
  const answer := .refl answer
  bind h next := h.bind next

namespace Approximates

variable {reader other : Reader}

theorem obeys (asked : Approximates reader other) :
    Obeys approximation other.registry fun second => bif second then other else reader where
  registry second := by
    cases second with
    | false => exact asked.registry
    | true => rfl
  items := asked.items
  conditional := asked.conditional
  parameters := asked.parameters
  members := asked.members
  arguments := asked.arguments
  elements := asked.elements
  trailers := asked.trailers

/-- Constructs that ask approximating readers approximate each other. This holds of every law that
steps obey, so there is one proof of it for all of them. -/
theorem deeper (asked : Approximates reader other) :
    Approximates reader.deeper other.deeper where
  registry := asked.registry
  items := asked.obeys.readItems
  conditional := asked.obeys.readConditional
  parameters := asked.obeys.readParameters
  members := asked.obeys.readMembers
  arguments := asked.obeys.readArguments
  elements := asked.obeys.readElements
  trailers := asked.obeys.readTrailers

/-- A used-up budget approximates everything, since it gives no answer at all. -/
theorem exhausted (reader : Reader) : Approximates (Reader.exhausted reader.registry) reader := by
  constructor
  · rfl
  all_goals
    intros
    exact .inr ⟨_, rfl⟩

end Approximates

@[simp] theorem atDepth_registry (registry : Registry) (depth : Nat) :
    (atDepth registry depth).registry = registry := by
  induction depth with
  | zero => rfl
  | succ depth ih => exact ih

/-- A larger budget only replaces the answer that the budget was used up. By induction on the
smaller of the two. -/
theorem atDepth_approximates (registry : Registry) {depth larger : Nat} (h : depth ≤ larger) :
    Approximates (atDepth registry depth) (atDepth registry larger) := by
  induction depth generalizing larger with
  | zero =>
      have := Approximates.exhausted (atDepth registry larger)
      rwa [atDepth_registry] at this
  | succ depth ih =>
      cases larger with
      | zero => cases h
      | succ larger => exact (ih (Nat.le_of_succ_le_succ h)).deeper

/-- The reader whose nested constructs have all the budget that their lists can take. -/
def unbounded (registry : Registry) : Reader where
  registry := registry
  items indent before after := (atDepth registry (after.length + 1)).items indent before after
  conditional indent rest := (atDepth registry (rest.length + 2)).conditional indent rest
  parameters indent rest := (atDepth registry (rest.length + 1)).parameters indent rest
  members indent rest := (atDepth registry (rest.length + 1)).members indent rest
  arguments indent rest := (atDepth registry (rest.length + 1)).arguments indent rest
  elements indent close rest := (atDepth registry (rest.length + 1)).elements indent close rest
  trailers indent operand rest := (atDepth registry (rest.length + 1)).trailers indent operand rest

/-- Without a budget, lists of any length can be read. Each question is answered with a budget that
its length is enough for. -/
theorem unbounded_safe (registry : Registry) :
    (unbounded registry).Progresses (fun _ => True) ConvertError.IsCast where
  items indent before after _ :=
    (atDepth_safe registry _).items indent before after (Nat.lt_succ_self _)
  conditional indent first rest _ :=
    (atDepth_safe registry _).conditional indent first rest (Nat.lt_succ_self _)
  parameters indent rest _ := (atDepth_safe registry _).parameters indent rest (Nat.lt_succ_self _)
  members indent rest _ := (atDepth_safe registry _).members indent rest (Nat.lt_succ_self _)
  arguments indent rest _ := (atDepth_safe registry _).arguments indent rest (Nat.lt_succ_self _)
  elements indent close rest _ :=
    (atDepth_safe registry _).elements indent close rest (Nat.lt_succ_self _)
  trailers indent operand rest _ :=
    (atDepth_safe registry _).trailers indent operand rest (Nat.lt_succ_self _)

section

variable {registry : Registry} {α : Type} {post : α → Prop}

/-- A question that some budget is enough for has the same answer with every larger one. -/
theorem approximates_enough {ask : Reader → Result α} (enough : Nat)
    (mono : ∀ {reader other}, Approximates reader other →
      Maxscript.Approximates (ask reader) (ask other))
    (same : ask (unbounded registry) = ask (atDepth registry enough))
    (safe : Meets (ask (unbounded registry)) post ConvertError.IsCast) (depth : Nat) :
    Maxscript.Approximates (ask (atDepth registry depth)) (ask (unbounded registry)) := by
  rw [same] at safe ⊢
  rcases Nat.le_total depth enough with h | h
  · exact mono (atDepth_approximates registry h)
  · exact .inl ((mono (atDepth_approximates registry h)).eq_of_meets safe).symm

theorem atDepth_approximates_unbounded (registry : Registry) (depth : Nat) :
    Approximates (atDepth registry depth) (unbounded registry) := by
  have safe := unbounded_safe registry
  constructor
  · exact atDepth_registry registry depth
  · exact fun indent before after => approximates_enough (after.length + 1)
      (fun h => h.items indent before after) rfl (safe.items indent before after trivial) depth
  · exact fun indent rest => approximates_enough (rest.length + 2)
      (fun h => h.conditional indent rest) rfl (safe.conditional indent default rest trivial) depth
  · exact fun indent rest => approximates_enough (rest.length + 1)
      (fun h => h.parameters indent rest) rfl (safe.parameters indent rest trivial) depth
  · exact fun indent rest => approximates_enough (rest.length + 1)
      (fun h => h.members indent rest) rfl (safe.members indent rest trivial) depth
  · exact fun indent rest => approximates_enough (rest.length + 1)
      (fun h => h.arguments indent rest) rfl (safe.arguments indent rest trivial) depth
  · exact fun indent close rest => approximates_enough (rest.length + 1)
      (fun h => h.elements indent close rest) rfl (safe.elements indent close rest trivial) depth
  · exact fun indent operand rest => approximates_enough (rest.length + 1)
      (fun h => h.trailers indent operand rest) rfl
      (safe.trailers indent operand rest trivial) depth

/-- With enough budget, the answer is that of the constructs that ask `unbounded`. -/
theorem eq_deeper_unbounded {ask : Reader → Result α}
    (mono : ∀ {reader other}, Approximates reader other →
      Maxscript.Approximates (ask reader) (ask other))
    {depth : Nat} (safe : Meets (ask (atDepth registry (depth + 1))) post ConvertError.IsCast) :
    ask (unbounded registry).deeper = ask (atDepth registry (depth + 1)) :=
  ((mono (atDepth_approximates_unbounded registry depth).deeper).eq_of_meets safe).symm

/-- The constructs of the reader without a budget ask that reader itself. So it is a fixed point,
and proofs about it need no count of rounds. -/
@[simp] theorem unbounded_deeper (registry : Registry) :
    (unbounded registry).deeper = unbounded registry := by
  have safe := unbounded_safe registry
  have items : (unbounded registry).readItems = (unbounded registry).items := by
    funext indent before after
    exact eq_deeper_unbounded (fun h => h.items indent before after)
      (safe.items indent before after trivial)
  have conditional : (unbounded registry).readConditional = (unbounded registry).conditional := by
    funext indent rest
    exact eq_deeper_unbounded (fun h => h.conditional indent rest)
      (safe.conditional indent default rest trivial)
  have parameters : (unbounded registry).readParameters = (unbounded registry).parameters := by
    funext indent rest
    exact eq_deeper_unbounded (fun h => h.parameters indent rest)
      (safe.parameters indent rest trivial)
  have members : (unbounded registry).readMembers = (unbounded registry).members := by
    funext indent rest
    exact eq_deeper_unbounded (fun h => h.members indent rest)
      (safe.members indent rest trivial)
  have arguments : (unbounded registry).readArguments = (unbounded registry).arguments := by
    funext indent rest
    exact eq_deeper_unbounded (fun h => h.arguments indent rest)
      (safe.arguments indent rest trivial)
  have elements : (unbounded registry).readElements = (unbounded registry).elements := by
    funext indent close rest
    exact eq_deeper_unbounded (fun h => h.elements indent close rest)
      (safe.elements indent close rest trivial)
  have trailers : (unbounded registry).readTrailers = (unbounded registry).trailers := by
    funext indent operand rest
    exact eq_deeper_unbounded (fun h => h.trailers indent operand rest)
      (safe.trailers indent operand rest trivial)
  rw [deeper, items, conditional, parameters, members, arguments, elements, trailers]

@[simp] theorem unbounded_registry (registry : Registry) :
    (unbounded registry).registry = registry := rfl

theorem unbounded_items (indent : Nat) (before after : List Piece) :
    (unbounded registry).items indent before after =
      (unbounded registry).readItems indent before after := by
  have fixed := congrArg Reader.items (unbounded_deeper registry)
  exact (congrFun (congrFun (congrFun fixed indent) before) after).symm

theorem unbounded_conditional (indent : Nat) (rest : List Piece) :
    (unbounded registry).conditional indent rest =
      (unbounded registry).readConditional indent rest := by
  have fixed := congrArg Reader.conditional (unbounded_deeper registry)
  exact (congrFun (congrFun fixed indent) rest).symm

theorem unbounded_parameters (indent : Nat) (rest : List Piece) :
    (unbounded registry).parameters indent rest =
      (unbounded registry).readParameters indent rest := by
  have fixed := congrArg Reader.parameters (unbounded_deeper registry)
  exact (congrFun (congrFun fixed indent) rest).symm

theorem unbounded_arguments (indent : Nat) (rest : List Piece) :
    (unbounded registry).arguments indent rest =
      (unbounded registry).readArguments indent rest := by
  have fixed := congrArg Reader.arguments (unbounded_deeper registry)
  exact (congrFun (congrFun fixed indent) rest).symm

theorem unbounded_elements (indent : Nat) (close : String) (rest : List Piece) :
    (unbounded registry).elements indent close rest =
      (unbounded registry).readElements indent close rest := by
  have fixed := congrArg Reader.elements (unbounded_deeper registry)
  exact (congrFun (congrFun (congrFun fixed indent) close) rest).symm

theorem unbounded_trailers (indent : Nat) (operand : Piece) (rest : List Piece) :
    (unbounded registry).trailers indent operand rest =
      (unbounded registry).readTrailers indent operand rest := by
  have fixed := congrArg Reader.trailers (unbounded_deeper registry)
  exact (congrFun (congrFun (congrFun fixed indent) operand) rest).symm

/-! ### Steps -/

/-- Words that start a construct, or that look back at an operand. -/
def stepWords : List String := ["struct", "fn", "function", "mapped", "if", "try", "for", "as"]

theorem callee?_of_unknown {token : String} (unknown : registry.isKnownCall token = false)
    (after : List Piece) : (unbounded registry).callee? (.token token) after = none := by
  simp [callee?, unbounded, unknown]

/-- A token that is none of these words and calls nothing is read as a mark. All other tests of a
step fail on it. -/
theorem step_mark {token : String} (words : Text.foldCase token ∉ stepWords) {after : List Piece}
    (callee : (unbounded registry).callee? (.token token) after = none) (indent : Nat)
    (before : List Piece) :
    (unbounded registry).step indent before (.token token) after =
      (unbounded registry).stepMark indent before (.token token) token after := by
  simp_all [stepWords, step, stepToken]

/-- Marks at which the pass does something. -/
def stepMarks : List String := ["[", "#", "(", "*", "/", "%", ",", "."]

/-- Every other token is left as it is. -/
theorem stepMark_of_not_mem {token : String} (plain : token ∉ stepMarks) (indent : Nat)
    (before after : List Piece) :
    (unbounded registry).stepMark indent before (.token token) token after =
      .ok ⟨.token token :: before, after⟩ := by
  simp_all [stepMarks, stepMark, pure, Except.pure]

/-- The pass goes on where a step leaves it. -/
theorem items_step {indent : Nat} {before after : List Piece} {piece : Piece}
    (notClose : piece.is ")" = false) :
    (unbounded registry).items indent before (piece :: after) =
      (unbounded registry).step indent before piece after >>= fun cursor =>
        (unbounded registry).items indent cursor.before cursor.after := by
  rw [unbounded_items, readItems, if_neg (by simp [notClose])]

end

end Reader

/-- Reading refuses casts only. The budget that is given to a block is one more than its length, and
each nested construct is shorter than what it stands in. -/
theorem readBlock_safe (registry : Registry) (indent : Nat) (role : Role) (pieces : List Piece) :
    Meets (readBlock registry indent role pieces) (fun _ => True) ConvertError.IsCast := by
  have asked := Reader.atDepth_safe registry (pieces.length + 1)
  have room : Reader.Room (fun part => part.length < pieces.length + 1) pieces :=
    fun part inside => Nat.lt_succ_of_le inside.length_le
  exact (asked.block indent role room).mono fun _ _ => trivial

/-- A block is read as without a budget. From here on the budget plays no part in what is proved
about reading. -/
theorem readBlock_eq (registry : Registry) (indent : Nat) (role : Role) (pieces : List Piece) :
    readBlock registry indent role pieces =
      (Reader.unbounded registry).block indent role pieces := by
  have inner : (Reader.trim pieces).length < pieces.length + 1 :=
    Nat.lt_succ_of_le (Reader.length_trim_le pieces)
  have enough := ((Reader.atDepth_approximates_unbounded registry (pieces.length + 1)).items indent
    [] (Reader.trim pieces)).eq_of_meets ((Reader.atDepth_safe registry _).items indent [] _ inner)
  rw [readBlock, Reader.block, Reader.block, enough]

end Maxscript
