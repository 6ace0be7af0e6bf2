import Maxscript.Reader.Block

/-!
# What all constructs have in common

A construct asks the nested readers one after the other and goes on with what they answer. It never
looks into a reader in any other way, so whatever can be said of the answers of several readers to
one question, and is kept by going on from an answer, can be said of all constructs as well.
-/

namespace Maxscript.Reader

/-- A statement about the answers of several readers to one question. It is true of an answer that
does not depend on the reader, and stays true when the readers go on from their answers. -/
structure Law (ι : Type) where
  Holds : {α : Type} → (ι → Result α) → Prop
  const : ∀ {α : Type} (answer : Result α), Holds fun _ => answer
  bind : ∀ {α β : Type} {first : ι → Result α} {next : ι → α → Result β}, Holds first →
    (∀ value, Holds fun i => next i value) → Holds fun i => first i >>= next i

namespace Law

variable {ι α β : Type} (law : Law ι)

theorem map {answers : ι → Result α} (h : law.Holds answers) (f : α → β) :
    law.Holds fun i => f <$> answers i := by
  simp only [map_eq_pure_bind]
  exact law.bind h fun value => law.const (pure (f value))

theorem ite {condition : Prop} [Decidable condition] {first second : ι → Result α}
    (yes : condition → law.Holds first) (no : ¬condition → law.Holds second) :
    law.Holds fun i => if condition then first i else second i := by
  by_cases h : condition
  · simp only [if_pos h]
    exact yes h
  · simp only [if_neg h]
    exact no h

end Law

/-- The law holds of the answers of the nested readers. -/
structure Obeys {ι : Type} (law : Law ι) (registry : Registry) (readers : ι → Reader) : Prop where
  registry : ∀ i, (readers i).registry = registry
  items : ∀ indent before after, law.Holds fun i => (readers i).items indent before after
  conditional : ∀ indent rest, law.Holds fun i => (readers i).conditional indent rest
  parameters : ∀ indent rest, law.Holds fun i => (readers i).parameters indent rest
  members : ∀ indent rest, law.Holds fun i => (readers i).members indent rest
  arguments : ∀ indent rest, law.Holds fun i => (readers i).arguments indent rest
  elements : ∀ indent close rest, law.Holds fun i => (readers i).elements indent close rest
  trailers : ∀ indent operand rest, law.Holds fun i => (readers i).trailers indent operand rest

namespace Obeys

variable {ι : Type} {law : Law ι} {registry : Registry} {readers : ι → Reader}
variable (asked : Obeys law registry readers)

include asked

/-- A law that holds of the items of a block holds of the block, which is made of them by a function
that is the same for all readers. -/
theorem block (indent : Nat) (role : Role) (pieces : List Piece) :
    law.Holds fun i => (readers i).block indent role pieces :=
  law.bind (asked.items indent [] (trim pieces)) fun _ => law.const _

theorem blockOf (indent : Nat) (role : Role) (pieces : List Piece) (extent : Extent) :
    law.Holds fun i => (readers i).blockOf indent role pieces extent :=
  law.bind (law.const (cut pieces extent)) fun part => asked.block indent role part

theorem groupAt (indent : Nat) (role : Role) (mark : Piece) (rest : List Piece) :
    law.Holds fun i => (readers i).groupAt indent role mark rest :=
  law.bind (asked.blockOf indent role (mark :: rest) _) fun _ => law.const _

theorem sentinel (indent : Nat) (mark : Piece) (rest : List Piece) :
    law.Holds fun i => (readers i).sentinel indent mark rest := by
  cases rest with
  | nil => exact law.const _
  | cons next inner =>
      refine law.ite (fun _ => ?_) fun _ => law.const _
      exact law.bind (asked.elements indent ")" inner) fun _ => law.const _

theorem bareOperand (indent : Nat) (first : Piece) (rest : List Piece) :
    law.Holds fun i => (readers i).bareOperand indent first rest := by
  refine law.ite (fun _ => asked.groupAt indent .group first rest) fun _ => ?_
  refine law.ite (fun _ => ?_) fun _ => ?_
  · exact law.bind (asked.elements indent "]" rest) fun _ => law.const _
  exact law.ite (fun _ => asked.sentinel indent first rest) fun _ => law.const _

theorem operand (indent : Nat) (first : Piece) (rest : List Piece) :
    law.Holds fun i => (readers i).operand indent first rest :=
  law.bind (asked.bareOperand indent first rest) fun reading =>
    asked.trailers indent reading.1 reading.2

theorem readTrailers (indent : Nat) (operand : Piece) (rest : List Piece) :
    law.Holds fun i => (readers i).readTrailers indent operand rest := by
  simp only [Reader.readTrailers.eq_def]
  cases fuse? operand rest with
  | some fused => exact asked.trailers indent fused.1 fused.2
  | none =>
      cases rest with
      | nil => exact law.const _
      | cons next inner =>
          refine law.ite (fun _ => ?_) fun _ => law.const _
          exact law.bind (asked.elements indent "]" inner) fun reading =>
            asked.trailers indent _ reading.2

theorem call (indent : Nat) (name : String) (rest : List Piece) :
    law.Holds fun i => (readers i).call indent name rest := by
  simp only [Reader.call, asked.registry]
  exact law.bind (asked.arguments indent rest) fun _ => law.const _

theorem keyValue (indent : Nat) (stops : List String) (rest : List Piece) :
    law.Holds fun i => (readers i).keyValue indent stops rest := by
  cases rest with
  | nil => exact law.const _
  | cons first inner =>
      refine law.ite (fun _ => law.const _) fun _ => ?_
      exact law.bind (asked.operand indent first inner) fun _ => law.const _

theorem readArguments (indent : Nat) (rest : List Piece) :
    law.Holds fun i => (readers i).readArguments indent rest := by
  cases rest with
  | nil => exact law.const _
  | cons first inner =>
      simp only [Reader.readArguments]
      refine law.ite (fun _ => ?_) fun _ => ?_
      · refine law.ite (fun _ => law.const _) fun _ => ?_
        exact law.bind (asked.groupAt indent .argument first inner) fun reading =>
          law.bind (asked.arguments indent reading.2) fun _ => law.const _
      · cases key? first inner with
        | some found =>
            exact law.bind (asked.keyValue indent argumentStops found.2) fun reading =>
              law.bind (asked.arguments indent reading.2) fun _ => law.const _
        | none =>
            refine law.ite (fun _ => law.const _) fun _ => ?_
            exact law.bind (asked.operand indent first inner) fun reading =>
              law.bind (asked.arguments indent reading.2) fun _ => law.const _

/-- What is called depends on the registry only, and this is the same for all readers of the family.
-/
theorem callee? (first : Piece) (rest : List Piece) (i : ι) :
    (readers i).callee? first rest = (exhausted registry).callee? first rest := by
  rw [Reader.callee?, Reader.callee?, asked.registry]
  rfl

theorem callOrOperand (indent : Nat) (first : Piece) (rest : List Piece) :
    law.Holds fun i => (readers i).callOrOperand indent first rest := by
  simp only [Reader.callOrOperand, asked.callee?]
  cases (exhausted registry).callee? first rest with
  | some name => exact asked.call indent name rest
  | none => exact asked.operand indent first rest

theorem element (indent : Nat) (first : Piece) (rest : List Piece) :
    law.Holds fun i => (readers i).element indent first rest :=
  law.bind (asked.callOrOperand indent first rest) fun _ => law.const _

theorem readElements (indent : Nat) (close : String) (rest : List Piece) :
    law.Holds fun i => (readers i).readElements indent close rest := by
  cases rest with
  | nil => exact law.const _
  | cons first inner =>
      refine law.ite (fun _ => law.const _) fun _ => ?_
      refine law.ite (fun _ => asked.elements indent close inner) fun _ => ?_
      exact law.bind (asked.element indent first inner) fun reading =>
        law.bind (asked.elements indent close reading.2) fun _ => law.const _

theorem alternative (indent : Nat) (rest : List Piece) :
    law.Holds fun i => (readers i).alternative indent rest := by
  simp only [Reader.alternative]
  cases after? "if" (skipNewline rest) with
  | some nested => exact law.bind (asked.conditional (indent + 1) nested) fun _ => law.const _
  | none => exact law.bind (asked.blockOf (indent + 1) .alternative _ _) fun _ => law.const _

theorem readConditional (indent : Nat) (rest : List Piece) :
    law.Holds fun i => (readers i).readConditional indent rest := by
  simp only [Reader.readConditional]
  refine law.bind (asked.blockOf indent .condition rest _) fun condition => ?_
  refine law.bind (asked.blockOf (indent + 1) .consequent _ _) fun consequent => ?_
  cases afterElse? _ with
  | none => exact law.const _
  | some branch => exact law.bind (asked.alternative indent branch) fun _ => law.const _

theorem attempt (indent : Nat) (rest : List Piece) :
    law.Holds fun i => (readers i).attempt indent rest := by
  simp only [Reader.attempt]
  refine law.bind (asked.blockOf (indent + 1) .attempted _ _) fun attempted => ?_
  cases after? "catch" _ with
  | none => exact law.const _
  | some afterCatch =>
      refine law.bind (law.const (cut _ _)) fun pieces => ?_
      refine law.ite (fun _ => law.const _) fun _ => ?_
      exact law.bind (law.map (asked.block (indent + 1) .handler pieces) some) fun _ => law.const _

theorem loop (indent : Nat) (rest : List Piece) :
    law.Holds fun i => (readers i).loop indent rest := by
  simp only [Reader.loop]
  refine law.bind (asked.blockOf indent .loopHeader rest _) fun header => ?_
  refine law.ite (fun _ => law.const _) fun _ => ?_
  cases after? "do" _ with
  | none => exact law.const _
  | some afterDo =>
      exact law.bind (asked.blockOf (indent + 1) .loopBody _ _) fun _ => law.const _

theorem readParameters (indent : Nat) (rest : List Piece) :
    law.Holds fun i => (readers i).readParameters indent rest := by
  cases rest with
  | nil => exact law.const _
  | cons first inner =>
      simp only [Reader.readParameters]
      refine law.ite (fun _ => law.const _) fun _ => ?_
      cases key? first inner with
      | some found =>
          exact law.bind (asked.keyValue indent _ found.2) fun reading =>
            law.bind (asked.parameters indent reading.2) fun _ => law.const _
      | none => exact law.bind (asked.parameters indent inner) fun _ => law.const _

theorem function (indent : Nat) (rest : List Piece) :
    law.Holds fun i => (readers i).function indent rest :=
  law.bind (asked.parameters indent (nameAt rest).2) fun _ =>
    law.bind (asked.blockOf (indent + 1) .functionBody _ _) fun _ => law.const _

theorem readMembers (indent : Nat) (rest : List Piece) :
    law.Holds fun i => (readers i).readMembers indent rest := by
  cases rest with
  | nil => exact law.const _
  | cons first inner =>
      simp only [Reader.readMembers]
      refine law.ite (fun _ => ?_) fun _ => ?_
      · exact law.bind (asked.function (indent + 1) inner) fun reading =>
          law.bind (asked.members indent reading.2) fun _ => law.const _
      refine law.ite (fun _ => asked.members indent _) fun _ => ?_
      refine law.ite (fun _ => asked.members indent _) fun _ => ?_
      cases first.text? with
      | none => exact asked.members indent inner
      | some name =>
          refine law.ite (fun _ => asked.members indent inner) fun _ => ?_
          refine law.ite (fun _ => ?_) fun _ =>
            law.bind (asked.members indent inner) fun _ => law.const _
          exact law.bind (asked.blockOf (indent + 2) .property _ _) fun _ =>
            law.bind (asked.members indent _) fun _ => law.const _

theorem struct (indent : Nat) (rest : List Piece) :
    law.Holds fun i => (readers i).struct indent rest := by
  simp only [Reader.struct]
  refine law.ite (fun _ => ?_) fun _ => law.const _
  exact law.bind (law.const (cut _ _)) fun part =>
    law.bind (asked.members indent part) fun _ => law.const _

theorem stepMark (indent : Nat) (before : List Piece) (piece : Piece) (text : String)
    (after : List Piece) :
    law.Holds fun i => (readers i).stepMark indent before piece text after := by
  refine law.ite (fun _ => law.bind (asked.elements indent "]" after) fun _ => law.const _)
    fun _ => ?_
  refine law.ite (fun _ => law.map (asked.sentinel indent piece after) _) fun _ => ?_
  refine law.ite (fun _ => law.map (asked.groupAt indent .group piece after) _) fun _ => ?_
  refine law.ite (fun _ => ?_) fun _ => law.const _
  cases before with
  | nil => exact law.const _
  | cons left earlier =>
      cases after with
      | nil => exact law.const _
      | cons right rest =>
          refine law.ite (fun _ => law.const _) fun _ => ?_
          exact law.bind (asked.element indent right rest) fun _ => law.const _

theorem stepToken (indent : Nat) (before : List Piece) (piece : Piece) (text : String)
    (after : List Piece) :
    law.Holds fun i => (readers i).stepToken indent before piece text after := by
  simp only [Reader.stepToken.eq_def, asked.callee?]
  cases (exhausted registry).callee? piece after with
  | some name => exact law.map (asked.call indent name after) _
  | none =>
      refine law.ite (fun _ => law.map (asked.loop indent after) _) fun _ => ?_
      exact law.ite (fun _ => law.const _) fun _ => asked.stepMark indent before piece text after

/-- The step at a piece is chosen by the piece and by the registry. All readers of the family take
the same one, and the law is needed only inside of it. -/
theorem step (indent : Nat) (before : List Piece) (piece : Piece) (after : List Piece) :
    law.Holds fun i => (readers i).step indent before piece after := by
  simp only [Reader.step]
  cases piece.text? with
  | none => exact law.const _
  | some text =>
      refine law.ite (fun _ => law.map (asked.struct indent after) _) fun _ => ?_
      refine law.ite (fun _ => law.map (asked.function indent after) _) fun _ => ?_
      refine law.ite (fun _ => law.const _) fun _ => ?_
      refine law.ite (fun _ => law.map (asked.readConditional indent after) _) fun _ => ?_
      refine law.ite (fun _ => law.map (asked.attempt indent after) _) fun _ => ?_
      exact asked.stepToken indent before piece text after

theorem readItems (indent : Nat) (before after : List Piece) :
    law.Holds fun i => (readers i).readItems indent before after := by
  cases after with
  | nil => exact law.const _
  | cons piece rest =>
      refine law.ite (fun _ => law.const _) fun _ => ?_
      exact law.bind (asked.step indent before piece rest) fun cursor =>
        asked.items indent cursor.before cursor.after

/-- A law that holds of what constructs ask for holds of the constructs. By induction it holds at
every depth, and no construct has to be looked at again. -/
theorem deeper : Obeys law registry fun i => (readers i).deeper where
  registry := asked.registry
  items := asked.readItems
  conditional := asked.readConditional
  parameters := asked.readParameters
  members := asked.readMembers
  arguments := asked.readArguments
  elements := asked.readElements
  trailers := asked.readTrailers

end Obeys

end Maxscript.Reader
