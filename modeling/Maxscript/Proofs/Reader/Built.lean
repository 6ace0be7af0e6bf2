import Maxscript.Proofs.Parts
import Maxscript.Proofs.Reader.Progress

/-!
# What readers build

`Built` lists the shapes that a construct can have, each as its reader makes it: which parts are
blocks and in which role, at which level they stand, and when a name is called. Every invariant of
what is read follows from it by induction, without a further look at the readers.

Values, as opposed to statements, do not open lines of their own. This matters for the parameters
of functions and the properties of structs, which stand on another level than the block around.

A construct is only ever made from tokens that were not read before and from the constructs right
before it, so the lists that readers pass on are unread. This is why nothing is built twice.
-/

namespace Maxscript

/-- What readers build on the level `indent`. -/
inductive Built (registry : Registry) : Nat → Piece → Prop
  | token (indent : Nat) (text : String) : Built registry indent (.token text)
  | bare (indent : Nat) (name : String) (named : Bool) :
      Built registry indent (.binding indent name none named)
  | binding {indent : Nat} {value : Piece} (name : String) (named : Bool)
      (inner : Built registry indent value) :
      Built registry indent (.binding indent name (some value) named)
  | statement {indent : Nat} {parts : List Piece}
      (each : ∀ part ∈ parts, Built registry indent part) :
      Built registry indent (.statement indent parts)
  | chain {indent : Nat} {parts : List Piece} (each : ∀ part ∈ parts, Built registry indent part) :
      Built registry indent (.chain 0 parts)
  | block {indent : Nat} {items : List Piece} (role : Role) (dense : Reader.Dense items)
      (each : ∀ item ∈ items, Built registry indent item) :
      Built registry indent (.block indent role items)
  | array {indent : Nat} {elements : List Piece}
      (each : ∀ element ∈ elements, Built registry indent element) :
      Built registry indent (.array indent elements)
  | indices {indent : Nat} {indices : List Piece}
      (each : ∀ index ∈ indices, Built registry indent index) :
      Built registry indent (.access indent none indices)
  | access {indent : Nat} {base : Piece} {indices : List Piece} (first : Built registry indent base)
      (each : ∀ index ∈ indices, Built registry indent index) :
      Built registry indent (.access indent (some base) indices)
  | call {indent : Nat} {name : String} {arguments : List Piece}
      (known : registry.isKnownCall name = true)
      (each : ∀ argument ∈ arguments, Built registry indent argument) :
      Built registry indent (.call indent name arguments (registry.isBuiltinCall name))
  | length {indent : Nat} {counted : Piece} (inner : Built registry indent counted) :
      Built registry indent (.call 0 "len" [counted] false)
  | function {indent : Nat} {parameters items : List Piece} (name : String)
      (bindings : ∀ parameter ∈ parameters, parameter.isBinding = true)
      (inline : ∀ parameter ∈ parameters, Inline parameter)
      (each : ∀ parameter ∈ parameters, Built registry indent parameter)
      (body : Built registry (indent + 1) (.block (indent + 1) .functionBody items)) :
      Built registry indent
        (.function indent name parameters (.block (indent + 1) .functionBody items))
  | struct {indent : Nat} {members : List Piece} (name : String)
      (inline : ∀ member ∈ members, member.isBinding = true → Inline member)
      (properties : ∀ member ∈ members, member.isBinding = true →
        Built registry (indent + 2) member)
      (functions : ∀ member ∈ members, member.isBinding = false → member.isFunction = true)
      (methods : ∀ member ∈ members, member.isBinding = false →
        Built registry (indent + 1) member) :
      Built registry indent (.struct indent name members)
  | conditional {indent : Nat} {condition items : List Piece}
      (first : Built registry indent (.block indent .condition condition))
      (second : Built registry (indent + 1) (.block (indent + 1) .consequent items)) :
      Built registry indent (.conditional indent (.block indent .condition condition)
        (.block (indent + 1) .consequent items) none)
  | branches {indent : Nat} {condition items others : List Piece}
      (first : Built registry indent (.block indent .condition condition))
      (second : Built registry (indent + 1) (.block (indent + 1) .consequent items))
      (third : Built registry (indent + 1) (.block (indent + 1) .alternative others)) :
      Built registry indent (.conditional indent (.block indent .condition condition)
        (.block (indent + 1) .consequent items)
        (some (.block (indent + 1) .alternative others)))
  | attempt {indent : Nat} {items : List Piece}
      (first : Built registry (indent + 1) (.block (indent + 1) .attempted items)) :
      Built registry indent (.attempt indent (.block (indent + 1) .attempted items) none)
  | handled {indent : Nat} {items others : List Piece}
      (first : Built registry (indent + 1) (.block (indent + 1) .attempted items))
      (second : Built registry (indent + 1) (.block (indent + 1) .handler others)) :
      Built registry indent (.attempt indent (.block (indent + 1) .attempted items)
        (some (.block (indent + 1) .handler others)))
  | header {indent : Nat} {items : List Piece} (comprehension : Bool)
      (first : Built registry indent (.block indent .loopHeader items)) :
      Built registry indent (.loop indent (.block indent .loopHeader items) comprehension none)
  | loop {indent : Nat} {items others : List Piece}
      (first : Built registry indent (.block indent .loopHeader items))
      (second : Built registry (indent + 1) (.block (indent + 1) .loopBody others)) :
      Built registry indent (.loop indent (.block indent .loopHeader items) false
        (some (.block (indent + 1) .loopBody others)))
  | cast {indent : Nat} {operand : Piece} (target : CastTarget)
      (inner : Built registry indent operand) :
      Built registry indent (.cast indent target operand)

namespace Built

variable {registry : Registry} {indent : Nat} {piece : Piece}

/-- A part stands on the level of its construct, unless it is a value, a block or a method. Blocks
are on the level below, and methods too. -/
theorem part {part : Piece} (built : Built registry indent piece) (member : part ∈ piece.parts) :
    Built registry indent part ∨ (Inline part ∧ ∃ level, Built registry level part) ∨
      (piece.isStruct = true ∧ part.isBinding = false ∧ part.isFunction = true ∧
        Built registry (indent + 1) part) := by
  have body {role : Role} {items : List Piece} {level : Nat}
      (built : Built registry level (.block level role items)) :
      Inline (.block level role items) ∧
        ∃ other, Built registry other (.block level role items) :=
    ⟨.block level role items, level, built⟩
  cases built with
  | token indent text => cases member
  | bare indent name named => cases member
  | binding name named inner =>
      left
      rwa [List.mem_singleton.mp member]
  | statement each => exact .inl (each part member)
  | chain each => exact .inl (each part member)
  | block role dense each => exact .inl (each part member)
  | array each => exact .inl (each part member)
  | indices each => exact .inl (each part member)
  | access first each => exact .inl (List.forall_mem_cons.mpr ⟨first, each⟩ part member)
  | call known each => exact .inl (each part member)
  | length inner =>
      left
      rwa [List.mem_singleton.mp member]
  | function name bindings inline each body' =>
      rcases List.mem_append.mp member with member | member
      · exact .inl (each part member)
      · rw [List.mem_singleton.mp member]
        exact .inr (.inl (body body'))
  | struct name inline properties functions methods =>
      cases isBinding : part.isBinding with
      | true =>
          exact .inr (.inl ⟨inline part member isBinding, _, properties part member isBinding⟩)
      | false =>
          exact .inr (.inr ⟨rfl, rfl, functions part member isBinding,
            methods part member isBinding⟩)
  | conditional first second =>
      rcases List.mem_cons.mp member with rfl | member
      · exact .inl first
      · rw [List.mem_singleton.mp member]
        exact .inr (.inl (body second))
  | branches first second third =>
      rcases List.mem_cons.mp member with rfl | member
      · exact .inl first
      rcases List.mem_cons.mp member with rfl | member
      · exact .inr (.inl (body second))
      · rw [List.mem_singleton.mp member]
        exact .inr (.inl (body third))
  | attempt first =>
      rw [List.mem_singleton.mp member]
      exact .inr (.inl (body first))
  | handled first second =>
      rcases List.mem_cons.mp member with rfl | member
      · exact .inr (.inl (body first))
      · rw [List.mem_singleton.mp member]
        exact .inr (.inl (body second))
  | header comprehension first =>
      left
      rwa [List.mem_singleton.mp member]
  | loop first second =>
      rcases List.mem_cons.mp member with rfl | member
      · exact .inl first
      · rw [List.mem_singleton.mp member]
        exact .inr (.inl (body second))
  | cast target inner =>
      left
      rwa [List.mem_singleton.mp member]

/-- Whatever is built is built of what is built, on one level or another. -/
theorem parts (built : Built registry indent piece) :
    ∀ part ∈ piece.parts, ∃ level, Built registry level part := by
  intro part member
  rcases built.part member with same | ⟨-, level, other⟩ | ⟨-, -, -, method⟩
  · exact ⟨indent, same⟩
  · exact ⟨level, other⟩
  · exact ⟨indent + 1, method⟩

/-- A construct that opens lines is made of constructs. Its condition, its header and its bodies are
blocks even if they consist of a single token. -/
theorem compound_parts (built : Built registry indent piece) (compound : piece.isCompound = true) :
    ∀ part ∈ piece.parts, part.text? = none := by
  have construct {part : Piece} : part.isBinding = true → part.text? = none :=
    Piece.text?_eq_none Piece.isBinding fun _ => rfl
  cases built with
  | function name bindings inline each body =>
      refine List.forall_mem_append.mpr ⟨?_, List.forall_mem_singleton.mpr rfl⟩
      exact fun parameter member => construct (bindings parameter member)
  | struct name inline properties functions methods =>
      intro member inside
      cases isBinding : member.isBinding with
      | true => exact construct isBinding
      | false =>
          have function := functions member inside isBinding
          exact Piece.text?_eq_none Piece.isFunction (fun _ => rfl) function
  | conditional first second => simp [Piece.text?]
  | branches first second third => simp [Piece.text?]
  | attempt first => simp [Piece.text?]
  | handled first second => simp [Piece.text?]
  | header comprehension first => simp [Piece.text?]
  | loop first second => simp [Piece.text?]
  | _ => cases compound

/-- What makes up a function is a value or its body. -/
theorem function_parts (built : Built registry indent piece) (function : piece.isFunction = true) :
    ∀ part ∈ piece.parts, Inline part := by
  cases built with
  | function name bindings inline each body =>
      refine List.forall_mem_append.mpr ⟨inline, List.forall_mem_singleton.mpr ?_⟩
      exact .block _ _ _
  | _ => cases function

/-- Constructs that open lines and blocks carry the level that they were read on. Values may carry
another one, which the writer does not look at. -/
theorem level_eq (built : Built registry indent piece)
    (outer : piece.isCompound = true ∨ piece.isBlock = true) : piece.level = indent := by
  cases built with
  | token => rcases outer with no | no <;> cases no
  | chain => rcases outer with no | no <;> cases no
  | length => rcases outer with no | no <;> cases no
  | _ => rfl

theorem dense {role : Role} {level : Nat} {items : List Piece}
    (built : Built registry indent (.block level role items)) : Reader.Dense items := by
  cases built with
  | block role dense each => exact dense

end Built

namespace Reader

open ConvertError (Any)

/-- Tokens that were not read yet. -/
def Raw (pieces : List Piece) : Prop := ∀ piece ∈ pieces, ∃ text, piece = .token text

def AllBuilt (registry : Registry) (indent : Nat) (pieces : List Piece) : Prop :=
  ∀ piece ∈ pieces, Built registry indent piece

/-- What a pass over a block has before it: at most the first piece was read. -/
def Ahead (registry : Registry) (indent : Nat) : List Piece → Prop
  | [] => True
  | piece :: rest => Built registry indent piece ∧ Raw rest

def IsBlock (registry : Registry) (indent : Nat) (role : Role) (piece : Piece) : Prop :=
  ∃ items, piece = .block indent role items ∧ Dense items ∧ AllBuilt registry indent items

/-- What is read as a value on the level `indent`. -/
structure IsValue (registry : Registry) (indent : Nat) (piece : Piece) : Prop where
  built : Built registry indent piece
  inline : Inline piece

section

variable {registry : Registry} {indent : Nat}

namespace Raw

theorem suffix {pieces left : List Piece} (h : Raw pieces) (below : left <:+ pieces) : Raw left :=
  fun piece member => h piece (below.subset member)

theorem tail {first : Piece} {rest : List Piece} (h : Raw (first :: rest)) : Raw rest :=
  h.suffix (List.suffix_cons first rest)

theorem isValue {pieces : List Piece} (h : Raw pieces) :
    ∀ piece ∈ pieces, IsValue registry indent piece := by
  intro piece member
  obtain ⟨text, rfl⟩ := h piece member
  exact ⟨.token indent text, .token text⟩

theorem built {pieces : List Piece} (h : Raw pieces) : AllBuilt registry indent pieces :=
  fun piece member => (h.isValue piece member).built

theorem head {first : Piece} {rest : List Piece} (h : Raw (first :: rest)) :
    IsValue registry indent first :=
  h.isValue first List.mem_cons_self

theorem ahead {pieces : List Piece} (h : Raw pieces) : Ahead registry indent pieces := by
  cases pieces with
  | nil => trivial
  | cons first rest => exact ⟨h.head.built, h.tail⟩

end Raw

theorem AllBuilt.nil : AllBuilt registry indent [] := List.forall_mem_nil _

theorem AllBuilt.cons {first : Piece} {rest : List Piece} (h : Built registry indent first)
    (tail : AllBuilt registry indent rest) : AllBuilt registry indent (first :: rest) :=
  List.forall_mem_cons.mpr ⟨h, tail⟩

theorem IsBlock.isValue {role : Role} {piece : Piece} (h : IsBlock registry indent role piece) :
    IsValue registry indent piece := by
  obtain ⟨items, rfl, dense, each⟩ := h
  exact ⟨.block role dense each, .block indent role items⟩

namespace IsValue

variable {pieces : List Piece}

/-- A construct of values is a value, unless it opens lines. Values are written in the middle of a
line, so nothing in them may open one. -/
theorem construct {piece : Piece} (built : Built registry indent piece)
    (notCompound : piece.isCompound = false)
    (parts : ∀ part ∈ piece.parts, IsValue registry indent part) : IsValue registry indent piece :=
  ⟨built, .construct notCompound fun part member => (parts part member).inline⟩

theorem bare (name : String) (named : Bool) :
    IsValue registry indent (.binding indent name none named) :=
  construct (.bare indent name named) rfl (List.forall_mem_nil _)

theorem binding {value : Piece} (h : IsValue registry indent value) (name : String)
    (named : Bool) : IsValue registry indent (.binding indent name (some value) named) :=
  construct (.binding name named h.built) rfl (List.forall_mem_singleton.mpr h)

theorem array (each : ∀ piece ∈ pieces, IsValue registry indent piece) :
    IsValue registry indent (.array indent pieces) :=
  construct (.array fun piece member => (each piece member).built) rfl each

theorem indices (each : ∀ piece ∈ pieces, IsValue registry indent piece) :
    IsValue registry indent (.access indent none pieces) :=
  construct (.indices fun piece member => (each piece member).built) rfl each

theorem access {base : Piece} (first : IsValue registry indent base)
    (each : ∀ piece ∈ pieces, IsValue registry indent piece) :
    IsValue registry indent (.access indent (some base) pieces) :=
  construct (.access first.built fun piece member => (each piece member).built) rfl
    (List.forall_mem_cons.mpr ⟨first, each⟩)

theorem call {name : String} (known : registry.isKnownCall name = true)
    (each : ∀ piece ∈ pieces, IsValue registry indent piece) :
    IsValue registry indent (.call indent name pieces (registry.isBuiltinCall name)) :=
  construct (.call known fun piece member => (each piece member).built) rfl each

theorem cast {operand : Piece} (h : IsValue registry indent operand) (target : CastTarget) :
    IsValue registry indent (.cast indent target operand) :=
  construct (.cast target h.built) rfl (List.forall_mem_singleton.mpr h)

end IsValue

/-- A reading builds a piece and leaves tokens. -/
def Yields (holds : Piece → Prop) (reading : Reading Piece) : Prop :=
  holds reading.1 ∧ Raw reading.2

def YieldsAll (registry : Registry) (indent : Nat) (reading : Reading (List Piece)) : Prop :=
  (∀ piece ∈ reading.1, IsValue registry indent piece) ∧ Raw reading.2

theorem Yields.built {reading : Reading Piece} (h : Yields (IsValue registry indent) reading) :
    Yields (Built registry indent) reading :=
  ⟨h.1.built, h.2⟩

theorem cut_raw {pieces : List Piece} (raw : Raw pieces) (extent : Extent) :
    Meets (cut pieces extent) Raw Any := by
  rw [cut]
  refine Meets.ite (fun _ => ?_) fun _ => trivial
  intro piece member
  exact raw piece (List.mem_of_mem_take (List.mem_of_mem_drop member))

theorem negated_yields {mark : Piece} {rest : List Piece} (raw : Raw (mark :: rest)) :
    Yields (IsValue registry indent) (negated mark rest) := by
  refine ⟨?_, raw.tail.suffix (negated_suffix mark rest)⟩
  rw [negated.eq_def]
  split
  · split
    · exact ⟨.token _ _, .token _⟩
    · exact raw.head
  · exact raw.head

theorem castTo_built {operand : Piece} (built : Built registry indent operand) (type : Piece) :
    Meets (castTo indent operand type) (Built registry indent) Any := by
  simp only [castTo]
  split
  · exact .cast _ built
  · trivial

theorem castTo_isValue {operand : Piece} (value : IsValue registry indent operand)
    (type : Piece) : Meets (castTo indent operand type) (IsValue registry indent) Any := by
  simp only [castTo]
  split
  · exact value.cast _
  · trivial

section

variable {holds : Piece → Prop} (token : ∀ text, holds (.token text))
  (chain : ∀ {parts}, (∀ part ∈ parts, holds part) → holds (.chain 0 parts))
  (length : ∀ {counted}, holds counted → holds (.call 0 "len" [counted] false))
include token chain

theorem joinMembers_holds {base : Piece} (first : holds base) (words : List String) :
    holds (joinMembers base words) := by
  rw [joinMembers.eq_def]
  split
  · exact token _
  · refine chain (List.forall_mem_cons.mpr ⟨first, ?_⟩)
    intro part member
    obtain ⟨word, -, inside⟩ := List.mem_flatMap.mp member
    rcases List.mem_cons.mp inside with rfl | inside
    · exact token _
    · rw [List.mem_singleton.mp inside]
      exact token _

include length

theorem applyMembers_holds {base : Piece} (first : holds base) (words : List String) :
    holds (applyMembers base words) := by
  induction words with
  | nil => exact first
  | cons last before ih =>
      rw [applyMembers]
      split
      · exact length ih
      · exact joinMembers_holds token chain first _

/-- What holds of tokens, of chains and of lengths goes over from a base to what its members make of
it. The two notions of a piece that is built are instances of this. -/
theorem fuse?_holds {base fused : Piece} {rest left : List Piece} (first : holds base)
    (h : fuse? base rest = some (fused, left)) : holds fused := by
  rw [fuse?] at h
  split at h
  · cases h
  · split at h
    · cases h
      exact applyMembers_holds token chain length first _
    · cases h

end

theorem fuse?_built {base fused : Piece} {rest left : List Piece}
    (built : Built registry indent base) (h : fuse? base rest = some (fused, left)) :
    Built registry indent fused :=
  fuse?_holds (.token indent) .chain .length built h

theorem fuse?_isValue {base fused : Piece} {rest left : List Piece}
    (value : IsValue registry indent base) (h : fuse? base rest = some (fused, left)) :
    IsValue registry indent fused := by
  refine ⟨fuse?_built value.built h, fuse?_holds .token ?_ ?_ value.inline h⟩
  · exact fun each => .construct rfl each
  · exact fun inner => .construct rfl (List.forall_mem_singleton.mpr inner)

structure AreMembers (registry : Registry) (indent : Nat) (members : List Piece) : Prop where
  properties : ∀ member ∈ members, member.isBinding = true → IsValue registry (indent + 2) member
  functions : ∀ member ∈ members, member.isBinding = false → member.isFunction = true
  methods : ∀ member ∈ members, member.isBinding = false → Built registry (indent + 1) member

namespace AreMembers

variable {members : List Piece}

theorem nil : AreMembers registry indent [] where
  properties := List.forall_mem_nil _
  functions := List.forall_mem_nil _
  methods := List.forall_mem_nil _

theorem property {name : String} {value : Option Piece}
    (built : IsValue registry (indent + 2) (.binding (indent + 2) name value false))
    (others : AreMembers registry indent members) :
    AreMembers registry indent (.binding (indent + 2) name value false :: members) where
  properties := List.forall_mem_cons.mpr ⟨fun _ => built, others.properties⟩
  functions := List.forall_mem_cons.mpr ⟨fun no => Bool.noConfusion no, others.functions⟩
  methods := List.forall_mem_cons.mpr ⟨fun no => Bool.noConfusion no, others.methods⟩

theorem method {name : String} {parameters : List Piece} {body : Piece}
    (built : Built registry (indent + 1) (.function (indent + 1) name parameters body))
    (others : AreMembers registry indent members) :
    AreMembers registry indent (.function (indent + 1) name parameters body :: members) where
  properties := List.forall_mem_cons.mpr ⟨fun no => Bool.noConfusion no, others.properties⟩
  functions := List.forall_mem_cons.mpr ⟨fun _ => rfl, others.functions⟩
  methods := List.forall_mem_cons.mpr ⟨fun _ => built, others.methods⟩

/-- A struct is built from members that are properties two levels deeper or methods one level
deeper. -/
theorem struct (each : AreMembers registry indent members) (name : String) :
    Built registry indent (.struct indent name members) :=
  .struct name (fun member inside isBinding => (each.properties member inside isBinding).inline)
    (fun member inside isBinding => (each.properties member inside isBinding).built)
    each.functions each.methods

end AreMembers

structure Builds (registry : Registry) (reader : Reader) : Prop where
  known : reader.registry = registry
  progresses : reader.Progresses (fun _ => True) Any
  items : ∀ indent before after, AllBuilt registry indent before → Ahead registry indent after →
    Meets (reader.items indent before after) (AllBuilt registry indent) Any
  conditional : ∀ indent rest, Raw rest →
    Meets (reader.conditional indent rest) (Yields (Built registry indent)) Any
  parameters : ∀ indent rest, Raw rest →
    Meets (reader.parameters indent rest) (fun reading => YieldsAll registry indent reading ∧
      ∀ parameter ∈ reading.1, parameter.isBinding = true) Any
  members : ∀ indent rest, Raw rest →
    Meets (reader.members indent rest) (AreMembers registry indent) Any
  arguments : ∀ indent rest, Raw rest →
    Meets (reader.arguments indent rest) (YieldsAll registry indent) Any
  elements : ∀ indent close rest, Raw rest →
    Meets (reader.elements indent close rest) (YieldsAll registry indent) Any
  trailers : ∀ indent operand rest, IsValue registry indent operand → Raw rest →
    Meets (reader.trailers indent operand rest) (Yields (IsValue registry indent)) Any

namespace Builds

variable {reader : Reader} {rest : List Piece}

theorem block (asked : reader.Builds registry) (indent : Nat) (role : Role) {pieces : List Piece}
    (raw : Raw pieces) :
    Meets (reader.block indent role pieces) (IsBlock registry indent role) Any := by
  have inner : Raw (trim pieces) :=
    fun piece member => raw piece ((trim_isInfix pieces).subset member)
  have dense := asked.progresses.items indent [] (trim pieces) trivial
  refine ((asked.items indent [] (trim pieces) .nil inner.ahead).and dense).bind ?_
  rintro items ⟨each, dense⟩
  exact ⟨items, rfl, dense (List.forall_mem_nil _), each⟩

theorem blockOf (asked : reader.Builds registry) (indent : Nat) (role : Role)
    {pieces : List Piece} (raw : Raw pieces) (extent : Extent) :
    Meets (reader.blockOf indent role pieces extent) (IsBlock registry indent role) Any := by
  refine Meets.bind (cut_raw raw extent) fun part inside => ?_
  exact asked.block indent role inside

theorem groupAt (asked : reader.Builds registry) (indent : Nat) (role : Role) {mark : Piece}
    (raw : Raw (mark :: rest)) :
    Meets (reader.groupAt indent role mark rest) (Yields (IsValue registry indent)) Any := by
  refine (asked.blockOf indent role raw _).bind fun block built => ?_
  exact ⟨built.isValue, raw.suffix (List.drop_suffix _ _)⟩

theorem sentinel (asked : reader.Builds registry) (indent : Nat) {mark : Piece}
    (raw : Raw (mark :: rest)) :
    Meets (reader.sentinel indent mark rest) (Yields (IsValue registry indent)) Any := by
  cases rest with
  | nil => exact ⟨raw.head, raw.tail⟩
  | cons next inner =>
      rw [Reader.sentinel]
      refine Meets.ite (fun _ => ?_) fun _ => ?_
      · refine (asked.elements indent ")" inner raw.tail.tail).bind ?_
        rintro ⟨elements, left⟩ ⟨each, leftRaw⟩
        exact ⟨.array each, leftRaw⟩
      · split
        · refine Meets.ite (fun _ => ?_) fun _ => ?_
          · exact ⟨⟨.token _ _, .token _⟩, raw.tail.tail⟩
          · exact ⟨raw.head, raw.tail⟩
        · exact ⟨raw.head, raw.tail⟩

theorem bareOperand (asked : reader.Builds registry) (indent : Nat) {first : Piece}
    (raw : Raw (first :: rest)) :
    Meets (reader.bareOperand indent first rest) (Yields (IsValue registry indent)) Any := by
  rw [Reader.bareOperand]
  refine Meets.ite (fun _ => asked.groupAt indent .group raw) fun _ => ?_
  refine Meets.ite (fun _ => ?_) fun _ => ?_
  · refine (asked.elements indent "]" rest raw.tail).bind ?_
    rintro ⟨indices, left⟩ ⟨each, leftRaw⟩
    exact ⟨.indices each, leftRaw⟩
  refine Meets.ite (fun _ => asked.sentinel indent raw) fun _ => ?_
  refine Meets.ite (fun _ => negated_yields raw) fun _ => ?_
  exact ⟨raw.head, raw.tail⟩

theorem operand (asked : reader.Builds registry) (indent : Nat) {first : Piece}
    (raw : Raw (first :: rest)) :
    Meets (reader.operand indent first rest) (Yields (IsValue registry indent)) Any := by
  refine (asked.bareOperand indent raw).bind ?_
  rintro ⟨bare, left⟩ ⟨built, leftRaw⟩
  exact asked.trailers indent bare left built leftRaw

theorem readTrailers (asked : reader.Builds registry) (indent : Nat) {operand : Piece}
    (built : IsValue registry indent operand) (raw : Raw rest) :
    Meets (reader.readTrailers indent operand rest) (Yields (IsValue registry indent)) Any := by
  rw [Reader.readTrailers.eq_def]
  split
  · next fused left found =>
      have below := (lt_of_fuse? found).2
      exact asked.trailers indent fused left (fuse?_isValue built found) (raw.suffix below)
  · cases rest with
    | nil => exact ⟨built, raw⟩
    | cons next inner =>
        refine Meets.ite (fun _ => ?_) fun _ => ⟨built, raw⟩
        refine (asked.elements indent "]" inner raw.tail).bind ?_
        rintro ⟨indices, left⟩ ⟨each, leftRaw⟩
        exact asked.trailers indent _ left (.access built each) leftRaw

theorem call (asked : reader.Builds registry) (indent : Nat) {name : String}
    (known : registry.isKnownCall name = true) (raw : Raw rest) :
    Meets (reader.call indent name rest) (Yields (IsValue registry indent)) Any := by
  refine (asked.arguments indent rest raw).bind ?_
  rintro ⟨arguments, left⟩ ⟨each, leftRaw⟩
  refine ⟨?_, leftRaw⟩
  dsimp only
  rw [asked.known]
  exact .call known each

/-- Only known functions are called, so every call in a script is one of the registry. -/
theorem isKnownCall_of_callee? (asked : reader.Builds registry) {first : Piece} {name : String}
    (h : reader.callee? first rest = some name) : registry.isKnownCall name = true := by
  rw [← asked.known]
  exact (of_callee? h).2

/-- A key is bound to the value after its colon, or to none if one of the tokens that end it comes
first. The binding is a value either way. -/
theorem keyValue (asked : reader.Builds registry) (indent : Nat) (stops : List String)
    (name : String) (raw : Raw rest) :
    Meets (reader.keyValue indent stops rest)
      (fun reading => IsValue registry indent (.binding indent name reading.1 true) ∧
        Raw reading.2)
      Any := by
  cases rest with
  | nil => exact ⟨.bare name true, raw⟩
  | cons first inner =>
      refine Meets.ite (fun _ => ⟨.bare name true, raw⟩) fun _ => ?_
      refine (asked.operand indent raw).bind ?_
      rintro ⟨value, left⟩ ⟨built, leftRaw⟩
      exact ⟨built.binding name true, leftRaw⟩

/-- Arguments are values. A group among them becomes a block that is written as part of its line. -/
theorem readArguments (asked : reader.Builds registry) (indent : Nat) (raw : Raw rest) :
    Meets (reader.readArguments indent rest) (YieldsAll registry indent) Any := by
  cases rest with
  | nil => exact ⟨List.forall_mem_nil _, raw⟩
  | cons first inner =>
      have others {argument : Piece} {left : List Piece} (value : IsValue registry indent argument)
          (leftRaw : Raw left) :
          Meets (reader.arguments indent left >>= fun arguments =>
            return (argument :: arguments.1, arguments.2)) (YieldsAll registry indent) Any := by
        refine (asked.arguments indent left leftRaw).bind ?_
        rintro ⟨arguments, final⟩ ⟨each, finalRaw⟩
        exact ⟨List.forall_mem_cons.mpr ⟨value, each⟩, finalRaw⟩
      rw [Reader.readArguments]
      refine Meets.ite (fun _ => ?_) fun _ => ?_
      · refine Meets.ite (fun _ => ⟨List.forall_mem_nil _, raw.suffix (List.drop_suffix _ _)⟩)
          fun _ => ?_
        refine (asked.groupAt indent .argument raw).bind ?_
        rintro ⟨argument, left⟩ ⟨built, leftRaw⟩
        exact others built leftRaw
      split
      · next key left found =>
          refine (asked.keyValue indent _ key (raw.tail.suffix (key?_suffix found))).bind ?_
          rintro ⟨value, left⟩ ⟨built, leftRaw⟩
          exact others built leftRaw
      · refine Meets.ite (fun _ => ⟨List.forall_mem_nil _, raw⟩) fun _ => ?_
        refine (asked.operand indent raw).bind ?_
        rintro ⟨argument, left⟩ ⟨built, leftRaw⟩
        exact others built leftRaw

theorem callOrOperand (asked : reader.Builds registry) (indent : Nat) {first : Piece}
    (raw : Raw (first :: rest)) :
    Meets (reader.callOrOperand indent first rest) (Yields (IsValue registry indent)) Any := by
  rw [Reader.callOrOperand]
  split
  · next name found => exact asked.call indent (asked.isKnownCall_of_callee? found) raw.tail
  · exact asked.operand indent raw

theorem element (asked : reader.Builds registry) (indent : Nat) {first : Piece}
    (raw : Raw (first :: rest)) :
    Meets (reader.element indent first rest) (Yields (IsValue registry indent)) Any := by
  refine (asked.callOrOperand indent raw).bind ?_
  rintro ⟨value, left⟩ ⟨built, leftRaw⟩
  dsimp only
  split
  · next mark type after =>
      refine Meets.ite (fun _ => ?_) fun _ => ⟨built, leftRaw⟩
      refine (castTo_isValue built type).bind fun cast castBuilt => ?_
      exact ⟨castBuilt, leftRaw.tail.tail⟩
  · exact ⟨built, leftRaw⟩

theorem readElements (asked : reader.Builds registry) (indent : Nat) (close : String)
    (raw : Raw rest) :
    Meets (reader.readElements indent close rest) (YieldsAll registry indent) Any := by
  cases rest with
  | nil => exact ⟨List.forall_mem_nil _, raw⟩
  | cons first inner =>
      refine Meets.ite (fun _ => ⟨List.forall_mem_nil _, raw.tail⟩) fun _ => ?_
      refine Meets.ite (fun _ => asked.elements indent close inner raw.tail) fun _ => ?_
      refine (asked.element indent raw).bind ?_
      rintro ⟨element, left⟩ ⟨built, leftRaw⟩
      refine (asked.elements indent close left leftRaw).bind ?_
      rintro ⟨elements, final⟩ ⟨each, finalRaw⟩
      exact ⟨List.forall_mem_cons.mpr ⟨built, each⟩, finalRaw⟩

theorem alternative (asked : reader.Builds registry) (indent : Nat) (raw : Raw rest) :
    Meets (reader.alternative indent rest) (fun reading =>
      IsBlock registry (indent + 1) .alternative reading.1 ∧ Raw reading.2) Any := by
  have skipped := raw.suffix (skipNewline_suffix rest)
  simp only [Reader.alternative]
  split
  · next nested found =>
      obtain ⟨keyword, shape, -⟩ := eq_cons_of_after? found
      rw [shape] at skipped
      have progress := asked.progresses.conditional (indent + 1) keyword nested trivial
      refine ((asked.conditional (indent + 1) nested skipped.tail).and progress).bind ?_
      rintro ⟨conditional, left⟩ ⟨⟨built, leftRaw⟩, -, construct⟩
      have settled := List.forall_mem_singleton.mpr (settled_of_construct construct)
      exact ⟨⟨_, rfl, dense_of_settled settled, .cons built .nil⟩, leftRaw⟩
  · refine (asked.blockOf (indent + 1) .alternative skipped _).bind fun block built => ?_
    exact ⟨built, skipped.suffix (List.drop_suffix _ _)⟩

theorem readConditional (asked : reader.Builds registry) (indent : Nat) (raw : Raw rest) :
    Meets (reader.readConditional indent rest) (Yields (Built registry indent)) Any := by
  rw [Reader.readConditional]
  refine (asked.blockOf indent .condition raw _).bind ?_
  rintro _ ⟨condition, rfl, denseFirst, first⟩
  have behind := raw.suffix (List.drop_suffix (Extent.conditionEnd rest 0 + 1) rest)
  generalize rest.drop (Extent.conditionEnd rest 0 + 1) = remaining at behind ⊢
  refine (asked.blockOf (indent + 1) .consequent behind _).bind ?_
  rintro _ ⟨items, rfl, denseSecond, second⟩
  have left := behind.suffix (List.drop_suffix (Extent.consequent remaining 0).stop remaining)
  dsimp only
  split
  · exact ⟨.conditional (.block _ denseFirst first) (.block _ denseSecond second), left⟩
  · next branch found =>
      obtain ⟨-, below⟩ := lt_of_afterElse? found
      refine (asked.alternative indent (left.suffix below)).bind ?_
      rintro ⟨_, final⟩ ⟨⟨others, rfl, denseThird, third⟩, finalRaw⟩
      exact ⟨.branches (.block _ denseFirst first) (.block _ denseSecond second)
        (.block _ denseThird third), finalRaw⟩

theorem attempt (asked : reader.Builds registry) (indent : Nat) (raw : Raw rest) :
    Meets (reader.attempt indent rest) (Yields (Built registry indent)) Any := by
  have skipped := raw.suffix (skipNewlines_suffix rest)
  rw [Reader.attempt]
  generalize skipNewlines rest = rest' at skipped ⊢
  refine (asked.blockOf (indent + 1) .attempted skipped _).bind ?_
  rintro _ ⟨items, rfl, denseFirst, first⟩
  have built : Built registry (indent + 1) (.block (indent + 1) .attempted items) :=
    .block _ denseFirst first
  have left := skipped.suffix (List.drop_suffix (attemptedEnd rest') rest')
  generalize rest'.drop (attemptedEnd rest') = remaining at left ⊢
  dsimp only
  split
  · exact ⟨.attempt built, left⟩
  · next afterCatch found =>
      have below := left.suffix (clause_suffix found)
      have final := below.suffix (List.drop_suffix
        (Extent.clauseEnd (skipNewlines afterCatch) 0) _)
      refine (cut_raw below _).bind fun part inside => ?_
      refine Meets.ite (fun _ => ⟨.attempt built, final⟩) fun _ => ?_
      refine (asked.block (indent + 1) .handler inside).map_some.bind ?_
      rintro _ ⟨_, rfl, others, rfl, denseSecond, second⟩
      exact ⟨.handled built (.block _ denseSecond second), final⟩

theorem loop (asked : reader.Builds registry) (indent : Nat) (raw : Raw rest) :
    Meets (reader.loop indent rest) (Yields (Built registry indent)) Any := by
  simp only [Reader.loop]
  refine (asked.blockOf indent .loopHeader raw _).bind ?_
  rintro _ ⟨items, rfl, denseFirst, first⟩
  have built : Built registry indent (.block indent .loopHeader items) :=
    .block _ denseFirst first
  have left := raw.suffix (List.drop_suffix (loopHeader 0 false rest).1 rest)
  generalize rest.drop (loopHeader 0 false rest).1 = remaining at left ⊢
  refine Meets.ite (fun _ => ⟨.header true built, left⟩) fun _ => ?_
  split
  · exact ⟨.header false built, left⟩
  · next afterDo found =>
      have below := left.suffix (clause_suffix found)
      refine (asked.blockOf (indent + 1) .loopBody below _).bind ?_
      rintro _ ⟨others, rfl, denseSecond, second⟩
      exact ⟨.loop built (.block _ denseSecond second), below.suffix (List.drop_suffix _ _)⟩

/-- Parameters are bindings without exception, as the rest of what stands before the `=` is dropped.
-/
theorem readParameters (asked : reader.Builds registry) (indent : Nat) (raw : Raw rest) :
    Meets (reader.readParameters indent rest) (fun reading => YieldsAll registry indent reading ∧
      ∀ parameter ∈ reading.1, parameter.isBinding = true) Any := by
  cases rest with
  | nil => exact ⟨⟨List.forall_mem_nil _, raw⟩, List.forall_mem_nil _⟩
  | cons first inner =>
      rw [Reader.readParameters]
      refine Meets.ite (fun _ => ⟨⟨List.forall_mem_nil _, raw⟩, List.forall_mem_nil _⟩)
        fun _ => ?_
      split
      · next key left found =>
          refine (asked.keyValue indent _ key (raw.tail.suffix (key?_suffix found))).bind ?_
          rintro ⟨value, left⟩ ⟨built, leftRaw⟩
          refine (asked.parameters indent left leftRaw).bind ?_
          rintro ⟨parameters, final⟩ ⟨⟨each, finalRaw⟩, bindings⟩
          exact ⟨⟨List.forall_mem_cons.mpr ⟨built, each⟩, finalRaw⟩,
            List.forall_mem_cons.mpr ⟨rfl, bindings⟩⟩
      · refine (asked.parameters indent inner raw.tail).bind ?_
        rintro ⟨parameters, left⟩ ⟨⟨each, leftRaw⟩, bindings⟩
        dsimp only
        split
        · next name _ =>
            refine Meets.ite (fun _ => ?_) fun _ => ⟨⟨each, leftRaw⟩, bindings⟩
            exact ⟨⟨List.forall_mem_cons.mpr ⟨.bare name false, each⟩, leftRaw⟩,
              List.forall_mem_cons.mpr ⟨rfl, bindings⟩⟩
        · exact ⟨⟨each, leftRaw⟩, bindings⟩

/-- A function is a construct of its own kind, so a struct can tell its methods from the rest. -/
theorem function (asked : reader.Builds registry) (indent : Nat) (raw : Raw rest) :
    Meets (reader.function indent rest) (fun reading => Yields (Built registry indent) reading ∧
      ∃ name parameters body, reading.1 = .function indent name parameters body) Any := by
  simp only [Reader.function]
  refine (asked.parameters indent _ (raw.suffix (nameAt_suffix rest))).bind ?_
  rintro ⟨parameters, left⟩ ⟨⟨each, leftRaw⟩, bindings⟩
  have below := (leftRaw.suffix (List.drop_suffix 1 left)).suffix (skipNewlines_suffix _)
  refine (asked.blockOf (indent + 1) .functionBody below _).bind ?_
  rintro _ ⟨items, rfl, dense, body⟩
  have built := Built.function (nameAt rest).1 bindings
    (fun parameter member => (each parameter member).inline)
    (fun parameter member => (each parameter member).built) (.block _ dense body)
  exact ⟨⟨built, below.suffix (List.drop_suffix _ _)⟩, _, _, _, rfl⟩

theorem readMembers (asked : reader.Builds registry) (indent : Nat) (raw : Raw rest) :
    Meets (reader.readMembers indent rest) (AreMembers registry indent) Any := by
  cases rest with
  | nil => exact .nil
  | cons first inner =>
      have others {left : List Piece} (below : left <:+ inner) :
          Meets (reader.members indent left) (AreMembers registry indent) Any :=
        asked.members indent left (raw.tail.suffix below)
      have property {left : List Piece} {name : String} {value : Option Piece}
          (built : IsValue registry (indent + 2) (.binding (indent + 2) name value false))
          (below : left <:+ inner) :
          Meets (do return .binding (indent + 2) name value false ::
            (← reader.members indent left)) (AreMembers registry indent) Any :=
        (others below).bind fun _ members => members.property built
      rw [Reader.readMembers]
      refine Meets.ite (fun _ => ?_) fun _ => ?_
      · refine (asked.function (indent + 1) raw.tail).bind ?_
        rintro ⟨_, left⟩ ⟨⟨built, leftRaw⟩, name, parameters, body, rfl⟩
        refine (asked.members indent left leftRaw).bind fun _ members => ?_
        exact members.method built
      refine Meets.ite (fun _ => others (skipHandler_suffix inner)) fun _ => ?_
      refine Meets.ite (fun _ => ?_) fun _ => ?_
      · exact asked.members indent _ (raw.suffix (List.drop_suffix _ _))
      split
      · exact others (List.suffix_refl _)
      · next name _ =>
          refine Meets.ite (fun _ => others (List.suffix_refl _)) fun _ => ?_
          refine Meets.ite (fun _ => ?_) fun _ => ?_
          · have behind := List.drop_suffix 1 inner
            refine (asked.blockOf (indent + 2) .property (raw.tail.suffix behind) _).bind ?_
            rintro value block
            exact property (block.isValue.binding name false)
              ((List.drop_suffix _ _).trans behind)
          · exact property (.bare name false) (List.suffix_refl _)

theorem struct (asked : reader.Builds registry) (indent : Nat) (raw : Raw rest) :
    Meets (reader.struct indent rest) (Yields (Built registry indent)) Any := by
  have named := raw.suffix (nameAt_suffix rest)
  have opened := named.suffix (skipNewlines_suffix _)
  simp only [Reader.struct]
  refine Meets.ite (fun _ => ?_) fun _ => ?_
  · refine (cut_raw opened _).bind fun part inside => ?_
    refine (asked.members indent part inside).bind fun members each => ?_
    exact ⟨each.struct _, opened.suffix (List.drop_suffix _ _)⟩
  · exact ⟨AreMembers.nil.struct _, named⟩

end Builds

/-- What one step of the pass over a block leaves on its two sides. -/
def Keeps (registry : Registry) (indent : Nat) (cursor : Cursor) : Prop :=
  AllBuilt registry indent cursor.before ∧ Ahead registry indent cursor.after

theorem Yields.passed {before : List Piece} {reading : Reading Piece}
    (h : Yields (Built registry indent) reading) (each : AllBuilt registry indent before) :
    Keeps registry indent (passed before reading) :=
  ⟨each.cons h.1, h.2.ahead⟩

theorem castAt_keeps {operand type : Piece} {before rest : List Piece}
    (built : Built registry indent operand) (each : AllBuilt registry indent before)
    (raw : Raw rest) :
    Meets (castAt indent operand before type rest) (Keeps registry indent) Any := by
  refine (castTo_built built type).bind fun cast castBuilt => ?_
  split
  · next operator target before =>
      obtain ⟨first, second, others⟩ := by simpa only [AllBuilt, List.forall_mem_cons] using each
      refine Meets.ite (fun _ => ?_) fun _ => ⟨each.cons castBuilt, raw.ahead⟩
      have parts : AllBuilt registry indent [target, operator, cast] :=
        .cons second (.cons first (.cons castBuilt .nil))
      exact ⟨.cons (.statement parts) others, raw.ahead⟩
  · exact ⟨each.cons castBuilt, raw.ahead⟩

theorem memberAt_keeps {dot : Piece} {before after : List Piece}
    (built : Built registry indent dot) (each : AllBuilt registry indent before)
    (raw : Raw after) : Keeps registry indent (memberAt before dot after) := by
  rw [memberAt.eq_def]
  split
  · exact ⟨.cons built .nil, raw.ahead⟩
  · next base earlier =>
      obtain ⟨first, others⟩ := by simpa only [AllBuilt, List.forall_mem_cons] using each
      split
      · next fused left found =>
          exact ⟨others, fuse?_built first found, raw.suffix (suffix_of_fuse? found)⟩
      · exact ⟨each.cons built, raw.ahead⟩

namespace Builds

variable {reader : Reader} {before after : List Piece}

theorem accessAt (asked : reader.Builds registry) (indent : Nat)
    (each : AllBuilt registry indent before) (raw : Raw after) :
    Meets (reader.accessAt indent before after) (Keeps registry indent) Any := by
  refine (asked.elements indent "]" after raw).bind ?_
  rintro ⟨indices, left⟩ ⟨values, leftRaw⟩
  have inside : AllBuilt registry indent indices :=
    fun index member => (values index member).built
  cases before with
  | nil => exact ⟨.cons (.indices inside) .nil, leftRaw.ahead⟩
  | cons base earlier =>
      obtain ⟨first, others⟩ := by simpa only [AllBuilt, List.forall_mem_cons] using each
      refine Meets.ite (fun _ => ?_) fun _ => ?_
      · exact ⟨.cons (.access first inside) others, leftRaw.ahead⟩
      · exact ⟨each.cons (.indices inside), leftRaw.ahead⟩

theorem factorAt (asked : reader.Builds registry) (indent : Nat) {operator : Piece}
    (built : Built registry indent operator) (each : AllBuilt registry indent before)
    (raw : Raw after) :
    Meets (reader.factorAt indent before operator after) (Keeps registry indent) Any := by
  rw [Reader.factorAt.eq_def]
  split
  · next left earlier right rest =>
      obtain ⟨first, others⟩ := by simpa only [AllBuilt, List.forall_mem_cons] using each
      refine Meets.ite (fun _ => ⟨each.cons built, raw.ahead⟩) fun _ => ?_
      refine (asked.element indent raw).bind ?_
      rintro ⟨factor, final⟩ ⟨factorBuilt, finalRaw⟩
      have parts : AllBuilt registry indent [left, operator, factor] :=
        .cons first (.cons built (.cons factorBuilt.built .nil))
      exact ⟨.cons (.statement parts) others, finalRaw.ahead⟩
  · exact ⟨each.cons built, raw.ahead⟩

theorem stepMark (asked : reader.Builds registry) (indent : Nat) {piece : Piece} (text : String)
    (each : AllBuilt registry indent before) (raw : Raw (piece :: after)) :
    Meets (reader.stepMark indent before piece text after) (Keeps registry indent) Any := by
  have built : Built registry indent piece := raw.head.built
  rw [Reader.stepMark]
  refine Meets.ite (fun _ => asked.accessAt indent each raw.tail) fun _ => ?_
  refine Meets.ite (fun _ => ?_) fun _ => ?_
  · exact ((asked.sentinel indent raw).mono fun _ yields => yields.built.passed each).map
  refine Meets.ite (fun _ => ?_) fun _ => ?_
  · exact ((asked.groupAt indent .group raw).mono fun _ yields => yields.built.passed each).map
  refine Meets.ite (fun _ => asked.factorAt indent built each raw.tail) fun _ => ?_
  refine Meets.ite (fun _ => ⟨each, raw.tail.ahead⟩) fun _ => ?_
  refine Meets.ite (fun _ => memberAt_keeps built each raw.tail) fun _ => ?_
  exact ⟨each.cons built, raw.tail.ahead⟩

theorem stepToken (asked : reader.Builds registry) (indent : Nat) {piece : Piece} (text : String)
    (each : AllBuilt registry indent before) (raw : Raw (piece :: after)) :
    Meets (reader.stepToken indent before piece text after) (Keeps registry indent) Any := by
  have built : Built registry indent piece := raw.head.built
  rw [Reader.stepToken.eq_def]
  split
  · next name found =>
      have known := asked.isKnownCall_of_callee? found
      exact ((asked.call indent known raw.tail).mono fun _ yields => yields.built.passed each).map
  refine Meets.ite (fun _ => ?_) fun _ => ?_
  · exact ((asked.loop indent raw.tail).mono fun _ yields => yields.passed each).map
  refine Meets.ite (fun _ => ?_) fun _ => asked.stepMark indent text each raw
  cases before with
  | nil => exact ⟨each.cons built, raw.tail.ahead⟩
  | cons operand earlier =>
      cases after with
      | nil => exact ⟨each.cons built, raw.tail.ahead⟩
      | cons type rest =>
          obtain ⟨first, others⟩ := by simpa only [AllBuilt, List.forall_mem_cons] using each
          refine Meets.ite (fun _ => ?_) fun _ => ⟨each.cons built, raw.tail.ahead⟩
          exact castAt_keeps first others raw.tail.tail

/-- One step of the pass leaves pieces that are built behind its cursor and right ahead of it, and
only tokens after those. -/
theorem step (asked : reader.Builds registry) (indent : Nat) {piece : Piece}
    (built : Built registry indent piece) (each : AllBuilt registry indent before)
    (raw : Raw after) :
    Meets (reader.step indent before piece after) (Keeps registry indent) Any := by
  have passes {reading : Result (Reading Piece)}
      (h : Meets reading (Yields (Built registry indent)) Any) :
      Meets (passed before <$> reading) (Keeps registry indent) Any :=
    (h.mono fun _ yields => yields.passed each).map
  cases piece with
  | token text =>
      have unread : Raw (.token text :: after) :=
        List.forall_mem_cons.mpr ⟨⟨text, rfl⟩, raw⟩
      change Meets (if _ then _ else _) _ _
      refine Meets.ite (fun _ => passes (asked.struct indent raw)) fun _ => ?_
      refine Meets.ite (fun _ => passes ?_) fun _ => ?_
      · exact (asked.function indent raw).mono fun _ yields => yields.1
      refine Meets.ite (fun _ => ⟨each, raw.ahead⟩) fun _ => ?_
      refine Meets.ite (fun _ => passes (asked.readConditional indent raw)) fun _ => ?_
      refine Meets.ite (fun _ => passes (asked.attempt indent raw)) fun _ => ?_
      exact asked.stepToken indent text each unread
  | _ => exact ⟨each.cons built, raw.ahead⟩

/-- The pass over a block keeps what it has built behind its cursor, and tokens ahead of it. Only
the piece right at the cursor may be a construct, after a step back. -/
theorem readItems (asked : reader.Builds registry) (indent : Nat)
    (each : AllBuilt registry indent before) (ahead : Ahead registry indent after) :
    Meets (reader.readItems indent before after) (AllBuilt registry indent) Any := by
  have passed : AllBuilt registry indent before.reverse :=
    fun piece member => each piece (List.mem_reverse.mp member)
  cases after with
  | nil => exact passed
  | cons piece rest =>
      obtain ⟨built, raw⟩ := ahead
      refine Meets.ite (fun _ => ?_) fun _ => ?_
      · exact List.forall_mem_append.mpr ⟨passed, AllBuilt.cons built raw.built⟩
      · refine (asked.step indent built each raw).bind ?_
        rintro ⟨before', after'⟩ ⟨each', ahead'⟩
        exact asked.items indent before' after' each' ahead'

/-- If nested readers build pieces then so do the constructs that ask them. One lemma for each
construct stands above. -/
theorem deeper (asked : reader.Builds registry) : reader.deeper.Builds registry where
  known := asked.known
  progresses := asked.progresses.deeper .trivial
  items indent _ _ each ahead := asked.readItems indent each ahead
  conditional indent _ raw := asked.readConditional indent raw
  parameters indent _ raw := asked.readParameters indent raw
  members indent _ raw := asked.readMembers indent raw
  arguments indent _ raw := asked.readArguments indent raw
  elements indent close _ raw := asked.readElements indent close raw
  trailers indent _ _ built raw := asked.readTrailers indent built raw

end Builds

end

/-- By induction on the budget: without any, nothing is built. -/
theorem atDepth_builds (registry : Registry) (depth : Nat) :
    (atDepth registry depth).Builds registry := by
  induction depth with
  | zero =>
      constructor
      · rfl
      · exact atDepth_progresses registry 0
      all_goals
        intros
        trivial
  | succ depth ih => exact ih.deeper

end Reader

/-- Reading tokens builds a block. -/
theorem readBlock_built (registry : Registry) (indent : Nat) (role : Role)
    (tokens : List String) :
    Meets (readBlock registry indent role (tokens.map .token))
      (Reader.IsBlock registry indent role) ConvertError.Any := by
  refine (Reader.atDepth_builds registry _).block indent role ?_
  intro piece member
  obtain ⟨text, -, rfl⟩ := List.mem_map.mp member
  exact ⟨text, rfl⟩

end Maxscript
