import Maxscript.Proofs.Extent
import Maxscript.Proofs.Outcome
import Maxscript.Proofs.Reader.Move
import Maxscript.Proofs.Reader.Surroundings

/-!
# Reading makes progress

Every reader leaves an end of the list it was given: it takes pieces from the front and neither
invents nor reorders what it does not read. Together with the extents this bounds the size of
whatever a construct asks for, so a budget beyond the number of pieces is never used up and no
extent ever falls outside its list. Every step of a pass is one of the moves, so blocks are dense.

The contracts are stated once for all uses. `fits` says with which lists a nested reader can be
asked, and `fault` which errors it may answer with. For partial correctness both admit everything.
A reader with budget `n` fits lists shorter than `n` and may only refuse a cast. If in addition all
that is cast in these lists is cast in some given list, then what is refused is cast there.
-/

namespace Maxscript.Reader

def Leaves {α : Type} (rest : List Piece) (reading : Reading α) : Prop := reading.2 <:+ rest

/-- A reading is of a construct and leaves an end of `rest`. -/
def Constructs (rest : List Piece) (reading : Reading Piece) : Prop :=
  Leaves rest reading ∧ reading.1.text? = none

def IsDenseBlock (indent : Nat) (role : Role) (piece : Piece) : Prop :=
  ∃ items, piece = .block indent role items ∧ Dense items

/-- What the nested readers promise on lists that they can be asked with. -/
structure Progresses (fits : List Piece → Prop) (fault : ConvertError → Prop) (reader : Reader) :
    Prop where
  items : ∀ indent before after, fits after →
    Meets (reader.items indent before after)
      (fun items => (∀ piece ∈ before, Settled piece) → Dense items) fault
  /-- A chained conditional has its condition and its branches read before the next link is asked
  for, so its list has to fit together with the word that announces it. -/
  conditional : ∀ indent first rest, fits (first :: rest) →
    Meets (reader.conditional indent rest) (Constructs rest) fault
  parameters : ∀ indent rest, fits rest →
    Meets (reader.parameters indent rest) (Leaves rest) fault
  members : ∀ indent rest, fits rest →
    Meets (reader.members indent rest) (fun _ => True) fault
  arguments : ∀ indent rest, fits rest →
    Meets (reader.arguments indent rest) (Leaves rest) fault
  elements : ∀ indent close rest, fits rest →
    Meets (reader.elements indent close rest) (Leaves rest) fault
  trailers : ∀ indent operand rest, fits rest →
    Meets (reader.trailers indent operand rest) (Leaves rest) fault

/-- A nested reader can be asked with whatever stands together in `pieces`. -/
def Room (fits : List Piece → Prop) (pieces : List Piece) : Prop :=
  ∀ part, part <:+: pieces → fits part

theorem Room.isInfix {fits : List Piece → Prop} {pieces part : List Piece}
    (room : Room fits pieces) (h : part <:+: pieces) : Room fits part :=
  fun inner inside => room inner (inside.trans h)

theorem Room.suffix {fits : List Piece → Prop} {pieces part : List Piece}
    (room : Room fits pieces) (h : part <:+ pieces) : Room fits part :=
  room.isInfix h.isInfix

theorem Room.self {fits : List Piece → Prop} {pieces : List Piece} (room : Room fits pieces) :
    fits pieces :=
  room pieces List.infix_rfl

/-- A nested reader can be asked with whatever stands together behind the first piece. -/
def RoomBehind (fits : List Piece → Prop) (pieces : List Piece) : Prop :=
  ∀ first rest, pieces = first :: rest → Room fits rest

/-- A cast to the type that `type` names can be refused. -/
def Refusable (fault : ConvertError → Prop) (type : Piece) : Prop :=
  let name := type.text?.getD "<expression>"
  CastTarget.ofWord? name = none → fault (.unsupportedCast name)

/-- Every cast in a list that fits can be refused. -/
def CastsRefusable (fits : List Piece → Prop) (fault : ConvertError → Prop) : Prop :=
  ∀ mark type rest, fits (mark :: type :: rest) → mark.isKeyword "as" = true →
    Refusable fault type

theorem skipNewlines_suffix (pieces : List Piece) : skipNewlines pieces <:+ pieces :=
  List.dropWhile_suffix _

theorem skipNewline_suffix (pieces : List Piece) : skipNewline pieces <:+ pieces := by
  cases pieces with
  | nil => exact List.suffix_refl _
  | cons first rest =>
      rw [skipNewline]
      split
      · exact List.suffix_cons first rest
      · exact List.suffix_refl _

theorem eq_cons_of_after? {word : String} {pieces rest : List Piece}
    (h : after? word pieces = some rest) :
    ∃ keyword : Piece, pieces = keyword :: rest ∧ keyword.isKeyword word = true := by
  cases pieces with
  | nil => cases h
  | cons first tail =>
      rw [after?] at h
      split at h
      · next found =>
          cases h
          exact ⟨first, rfl, found⟩
      · cases h

/-- A clause starts behind its word and the newlines around it. What its reader is asked with is an
end of the list. -/
theorem clause_suffix {word : String} {pieces rest : List Piece}
    (h : after? word (skipNewlines pieces) = some rest) : skipNewlines rest <:+ pieces := by
  obtain ⟨keyword, shape, -⟩ := eq_cons_of_after? h
  have tail : rest <:+ skipNewlines pieces := shape ▸ List.suffix_cons keyword rest
  exact (skipNewlines_suffix rest).trans (tail.trans (skipNewlines_suffix pieces))

theorem lt_of_afterElse? {pieces branch : List Piece} (h : afterElse? pieces = some branch) :
    branch.length < pieces.length ∧ branch <:+ pieces := by
  cases pieces with
  | nil => cases h
  | cons first rest =>
      rw [afterElse?] at h
      split at h
      · obtain ⟨keyword, rfl, -⟩ := eq_cons_of_after? h
        refine ⟨?_, (List.suffix_cons keyword branch).trans (List.suffix_cons first _)⟩
        simp only [List.length_cons]
        omega
      · obtain ⟨keyword, shape, -⟩ := eq_cons_of_after? h
        rw [shape]
        exact ⟨Nat.lt_succ_self _, List.suffix_cons keyword branch⟩

section

variable {fits : List Piece → Prop} {fault : ConvertError → Prop} {reader : Reader}

theorem Progresses.block (asked : reader.Progresses fits fault) (indent : Nat) (role : Role)
    {pieces : List Piece} (room : Room fits pieces) :
    Meets (reader.block indent role pieces) (IsDenseBlock indent role) fault := by
  have inner : fits (trim pieces) := room _ (trim_isInfix pieces)
  refine (asked.items indent [] (trim pieces) inner).bind fun items dense => ?_
  exact ⟨items, rfl, dense (List.forall_mem_nil _)⟩

theorem Progresses.blockOf (asked : reader.Progresses fits fault) (indent : Nat) (role : Role)
    {pieces : List Piece} {extent : Extent} (inside : extent.Fits pieces)
    (room : Room fits ((pieces.take extent.stop).drop extent.start)) :
    Meets (reader.blockOf indent role pieces extent) (IsDenseBlock indent role) fault := by
  rw [Reader.blockOf, cut_eq_ok inside]
  exact asked.block indent role room

theorem take_drop_isInfix (pieces : List Piece) (start stop : Nat) :
    (pieces.take stop).drop start <:+: pieces :=
  (List.drop_suffix start _).isInfix.trans (List.take_prefix stop pieces).isInfix

/-- A part at the front of a list takes no more room than the list. The parts of a condition or a
loop are cut off in this way, one after the other. -/
theorem Progresses.blockFront (asked : reader.Progresses fits fault) (indent : Nat) (role : Role)
    {pieces : List Piece} {stop : Nat} (le : stop ≤ pieces.length) (room : Room fits pieces) :
    Meets (reader.blockOf indent role pieces ⟨0, stop⟩) (IsDenseBlock indent role) fault :=
  asked.blockOf indent role ⟨Nat.zero_le _, le⟩ (room.isInfix (take_drop_isInfix pieces 0 stop))

theorem Progresses.groupAt (asked : reader.Progresses fits fault) (indent : Nat) (role : Role)
    (mark : Piece) {rest : List Piece} (room : Room fits rest) :
    Meets (reader.groupAt indent role mark rest) (Constructs rest) fault := by
  obtain ⟨inside, behind⟩ := Extent.group_inside_fits mark rest
  obtain ⟨skipped, after⟩ := Nat.exists_eq_add_of_le' (Extent.one_le_group_after mark rest)
  -- The inside of the group starts behind its mark, so it is a part of `rest`.
  have part : ((mark :: rest).take (Extent.group (mark :: rest) 0).inside.stop).drop
      (Extent.group (mark :: rest) 0).inside.start <:+: rest := by
    obtain ⟨start, hstart⟩ := Nat.exists_eq_add_of_le' behind
    obtain ⟨stop, hstop⟩ := Nat.exists_eq_add_of_le' (Nat.le_trans behind inside.1)
    rw [hstart, hstop, List.take_succ_cons, List.drop_succ_cons]
    exact take_drop_isInfix rest start stop
  refine (asked.blockOf indent role inside (room.isInfix part)).bind ?_
  rintro _ ⟨items, rfl, -⟩
  refine ⟨?_, rfl⟩
  change (mark :: rest).drop _ <:+ rest
  rw [after, List.drop_succ_cons]
  exact List.drop_suffix _ _

theorem Progresses.sentinel (asked : reader.Progresses fits fault) (indent : Nat) {mark : Piece}
    (settled : Settled mark) {rest : List Piece} (room : Room fits rest) :
    Meets (reader.sentinel indent mark rest)
      (fun reading => Leaves rest reading ∧ Settled reading.1) fault := by
  cases rest with
  | nil => exact ⟨List.suffix_refl _, settled⟩
  | cons next inner =>
      have below := room.suffix (List.suffix_cons next inner)
      rw [Reader.sentinel]
      refine Meets.ite (fun _ => ?_) (fun _ => ?_)
      · refine (asked.elements indent ")" inner below.self).bind ?_
        rintro ⟨elements, left⟩ (h : left <:+ inner)
        exact ⟨h.trans (List.suffix_cons next inner), settled_of_construct rfl⟩
      · split
        · next name _ =>
            refine Meets.ite (fun _ => ?_) (fun _ => ?_)
            · exact ⟨List.suffix_cons next inner, (nameLiteral_dotted name).settled⟩
            · exact ⟨List.suffix_refl _, settled⟩
        · exact ⟨List.suffix_refl _, settled⟩

theorem negated_suffix (mark : Piece) (rest : List Piece) : (negated mark rest).2 <:+ rest := by
  rw [negated.eq_def]
  split
  · split
    · exact List.suffix_cons _ _
    · exact List.suffix_refl _
  · exact List.suffix_refl _

theorem Progresses.bareOperand (asked : reader.Progresses fits fault) (indent : Nat)
    (first : Piece) {rest : List Piece} (room : Room fits rest) :
    Meets (reader.bareOperand indent first rest) (Leaves rest) fault := by
  rw [Reader.bareOperand]
  refine Meets.ite (fun _ => ?_) fun _ => ?_
  · exact (asked.groupAt indent .group first room).mono fun _ reading => reading.1
  refine Meets.ite (fun _ => ?_) fun _ => ?_
  · exact (asked.elements indent "]" rest room.self).bind fun reading left => Meets.pure left
  refine Meets.ite (fun sharp => ?_) fun _ => ?_
  · have settled : Settled first := settled_of_is sharp (by decide) (by decide)
    exact (asked.sentinel indent settled room).mono fun _ reading => reading.1
  refine Meets.ite (fun _ => ?_) fun _ => ?_
  · exact negated_suffix first rest
  · exact List.suffix_refl _

/-- An operand takes the first piece and leaves an end of the rest. The readers of operands never
give back what they have read. -/
theorem Progresses.operand (asked : reader.Progresses fits fault) (indent : Nat) (first : Piece)
    {rest : List Piece} (room : Room fits rest) :
    Meets (reader.operand indent first rest) (Leaves rest) fault := by
  refine (asked.bareOperand indent first room).bind ?_
  rintro ⟨bare, left⟩ (h : left <:+ rest)
  exact (asked.trailers indent bare left (room.suffix h).self).mono fun _ h' => h'.trans h

/-- Each member or index is read with what is behind it, which is shorter; the nested reader is
asked only after that. -/
theorem Progresses.readTrailers (asked : reader.Progresses fits fault) (indent : Nat)
    (operand : Piece) {rest : List Piece} (room : RoomBehind fits rest) :
    Meets (reader.readTrailers indent operand rest) (Leaves rest) fault := by
  cases rest with
  | nil => exact List.suffix_refl _
  | cons next inner =>
      have below := room next inner rfl
      have tail := List.suffix_cons next inner
      rw [Reader.readTrailers.eq_def]
      split
      · next fused left found =>
          have h := suffix_of_fuse? found
          refine (asked.trailers indent fused left (below.suffix h).self).mono fun _ h' => ?_
          exact h'.trans (h.trans tail)
      · refine Meets.ite (fun _ => ?_) fun _ => List.suffix_refl _
        refine (asked.elements indent "]" inner below.self).bind ?_
        rintro ⟨indices, left⟩ (h : left <:+ inner)
        refine (asked.trailers indent _ left (below.suffix h).self).mono fun _ h' => ?_
        exact h'.trans (h.trans tail)

theorem Progresses.call (asked : reader.Progresses fits fault) (indent : Nat) (name : String)
    {rest : List Piece} (room : Room fits rest) :
    Meets (reader.call indent name rest) (Constructs rest) fault :=
  (asked.arguments indent rest room.self).bind fun _ left => Meets.pure ⟨left, rfl⟩

theorem Progresses.keyValue (asked : reader.Progresses fits fault) (indent : Nat)
    (stops : List String) {rest : List Piece} (room : Room fits rest) :
    Meets (reader.keyValue indent stops rest) (Leaves rest) fault := by
  cases rest with
  | nil => exact List.suffix_refl _
  | cons first inner =>
      have below := List.suffix_cons first inner
      refine Meets.ite (fun _ => List.suffix_refl _) fun _ => ?_
      refine (asked.operand indent first (room.suffix below)).bind ?_
      rintro ⟨value, left⟩ (h : left <:+ inner)
      exact h.trans below

theorem key?_suffix {first : Piece} {rest left : List Piece} {key : String}
    (h : key? first rest = some (key, left)) : left <:+ rest := by
  rw [key?.eq_def] at h
  split at h
  · split at h
    · cases h
      exact List.suffix_cons _ _
    · cases h
  · cases h

theorem Progresses.readArguments (asked : reader.Progresses fits fault) (indent : Nat)
    {rest : List Piece} (room : RoomBehind fits rest) :
    Meets (reader.readArguments indent rest) (Leaves rest) fault := by
  cases rest with
  | nil => exact List.suffix_refl _
  | cons first inner =>
      have below := room first inner rfl
      have tail := List.suffix_cons first inner
      -- Whatever the first argument is, the others are asked for on an end of `inner`.
      have others {left : List Piece} (h : left <:+ inner) (argument : Piece) :
          Meets (reader.arguments indent left >>= fun arguments =>
            return (argument :: arguments.1, arguments.2)) (Leaves (first :: inner)) fault := by
        refine (asked.arguments indent left (below.suffix h).self).bind ?_
        rintro ⟨arguments, rest⟩ (h' : rest <:+ left)
        exact h'.trans (h.trans tail)
      rw [Reader.readArguments]
      refine Meets.ite (fun _ => ?_) fun _ => ?_
      · refine Meets.ite (fun _ => List.drop_suffix _ _) fun _ => ?_
        refine (asked.groupAt indent .argument first below).bind ?_
        rintro ⟨argument, left⟩ ⟨h, -⟩
        exact others h argument
      · split
        · next key left found =>
            have h := key?_suffix found
            refine (asked.keyValue indent argumentStops (below.suffix h)).bind ?_
            rintro ⟨value, left'⟩ (h' : left' <:+ left)
            exact others (h'.trans h) (.binding indent key value true)
        · refine Meets.ite (fun _ => List.suffix_refl _) fun _ => ?_
          refine (asked.operand indent first below).bind ?_
          rintro ⟨argument, left⟩ (h : left <:+ inner)
          exact others h argument

/-- A call starts at the name of a known function. The name is a token, and so it is kept in the
call as it was written. -/
theorem of_callee? {first : Piece} {rest : List Piece} {name : String}
    (h : reader.callee? first rest = some name) :
    first = .token name ∧ reader.registry.isKnownCall name = true := by
  cases first with
  | token text =>
      simp only [Reader.callee?, Piece.text?_token] at h
      split at h
      · next known =>
          obtain rfl := Option.some.inj h
          exact ⟨rfl, (Bool.and_eq_true_iff.mp known).1⟩
      · cases h
  | _ => cases h

theorem Progresses.callOrOperand (asked : reader.Progresses fits fault) (indent : Nat)
    (first : Piece) {rest : List Piece} (room : Room fits rest) :
    Meets (reader.callOrOperand indent first rest) (Leaves rest) fault := by
  rw [Reader.callOrOperand]
  split
  · next name _ => exact (asked.call indent name room).mono fun _ reading => reading.1
  · exact asked.operand indent first room

/-- A cast fails only for its type, whatever is cast. This is the only place where a reader refuses
a script. -/
theorem castTo_meets {type : Piece} (refusable : Refusable fault type) (indent : Nat)
    (operand : Piece) :
    Meets (castTo indent operand type) (fun cast => cast.text? = none) fault := by
  simp only [castTo]
  split
  · rfl
  · next unknown => exact refusable unknown

/-- An element is a call or an operand, and the cast of it if `as` follows. It is refused only if
the type of that cast is. -/
theorem Progresses.element (asked : reader.Progresses fits fault)
    (casts : CastsRefusable fits fault) (indent : Nat) (first : Piece)
    {rest : List Piece} (room : Room fits rest) :
    Meets (reader.element indent first rest) (Leaves rest) fault := by
  refine (asked.callOrOperand indent first room).bind ?_
  rintro ⟨value, left⟩ (h : left <:+ rest)
  dsimp only
  split
  · next mark type after =>
      refine Meets.ite (fun keyword => ?_) fun _ => h
      have refusable := casts mark type after (room.suffix h).self keyword
      refine (castTo_meets refusable indent value).bind fun _ _ => ?_
      exact ((List.suffix_cons type after).trans (List.suffix_cons mark _)).trans h
  · exact h

theorem Progresses.readElements (asked : reader.Progresses fits fault)
    (casts : CastsRefusable fits fault) (indent : Nat) (close : String)
    {rest : List Piece} (room : RoomBehind fits rest) :
    Meets (reader.readElements indent close rest) (Leaves rest) fault := by
  cases rest with
  | nil => exact List.suffix_refl _
  | cons first inner =>
      have below := room first inner rfl
      have tail := List.suffix_cons first inner
      refine Meets.ite (fun _ => tail) fun _ => ?_
      refine Meets.ite (fun _ => ?_) fun _ => ?_
      · exact (asked.elements indent close inner below.self).mono fun _ h => h.trans tail
      · refine (asked.element casts indent first below).bind ?_
        rintro ⟨element, left⟩ (h : left <:+ inner)
        refine (asked.elements indent close left (below.suffix h).self).bind ?_
        rintro ⟨elements, left'⟩ (h' : left' <:+ left)
        exact h'.trans (h.trans tail)

/-- The block of an alternative is dense and one level further in. A chained conditional is read by
the nested reader, whose list has to fit with its `if`. -/
theorem Progresses.alternative (asked : reader.Progresses fits fault) (indent : Nat)
    {rest : List Piece} (room : Room fits rest) :
    Meets (reader.alternative indent rest)
      (fun reading => Leaves rest reading ∧ IsDenseBlock (indent + 1) .alternative reading.1)
      fault := by
  have skipped := skipNewline_suffix rest
  simp only [Reader.alternative]
  split
  · next nested found =>
      obtain ⟨keyword, shape, -⟩ := eq_cons_of_after? found
      have announced : fits (keyword :: nested) := shape ▸ (room.suffix skipped).self
      refine (asked.conditional (indent + 1) keyword nested announced).bind ?_
      rintro ⟨conditional, left⟩ ⟨h, construct⟩
      refine ⟨(h.trans (shape ▸ List.suffix_cons keyword nested)).trans skipped, _, rfl, ?_⟩
      exact dense_of_settled (List.forall_mem_singleton.mpr (settled_of_construct construct))
  · refine (asked.blockFront (indent + 1) .alternative (Extent.clauseEnd_le _ 0)
      (room.suffix skipped)).bind fun block dense => Meets.pure ?_
    exact ⟨(List.drop_suffix _ _).trans skipped, dense⟩

theorem Progresses.readConditional (asked : reader.Progresses fits fault) (indent : Nat)
    {rest : List Piece} (room : Room fits rest) :
    Meets (reader.readConditional indent rest) (Constructs rest) fault := by
  rw [Reader.readConditional]
  have conditionEnd := Extent.conditionEnd_le rest 0
  refine (asked.blockFront indent .condition conditionEnd room).bind fun condition _ => ?_
  have behind := List.drop_suffix (Extent.conditionEnd rest 0 + 1) rest
  generalize rest.drop (Extent.conditionEnd rest 0 + 1) = remaining at behind ⊢
  have inside := (room.suffix behind).isInfix (take_drop_isInfix remaining
    (Extent.consequent remaining 0).start (Extent.consequent remaining 0).stop)
  refine (asked.blockOf (indent + 1) .consequent (Extent.consequent_fits remaining 0)
    inside).bind fun consequent _ => ?_
  have left := (List.drop_suffix (Extent.consequent remaining 0).stop remaining).trans behind
  generalize remaining.drop (Extent.consequent remaining 0).stop = remaining' at left ⊢
  dsimp only
  split
  · exact ⟨left, rfl⟩
  · next branch found =>
      obtain ⟨-, below⟩ := lt_of_afterElse? found
      refine (asked.alternative indent (room.suffix (below.trans left))).bind ?_
      rintro ⟨alternative, left'⟩ ⟨h, -⟩
      exact ⟨h.trans (below.trans left), rfl⟩

theorem attemptedEnd_le (pieces : List Piece) : attemptedEnd pieces ≤ pieces.length := by
  rw [attemptedEnd]
  split
  · exact Extent.clauseEnd_le _ _
  · exact (List.takeWhile_sublist _).length_le

theorem Progresses.attempt (asked : reader.Progresses fits fault) (indent : Nat)
    {rest : List Piece} (room : Room fits rest) :
    Meets (reader.attempt indent rest) (Constructs rest) fault := by
  have skipped := skipNewlines_suffix rest
  rw [Reader.attempt]
  generalize skipNewlines rest = rest' at skipped ⊢
  refine (asked.blockFront (indent + 1) .attempted (attemptedEnd_le rest')
    (room.suffix skipped)).bind fun attempted _ => ?_
  have left := (List.drop_suffix (attemptedEnd rest') rest').trans skipped
  generalize rest'.drop (attemptedEnd rest') = remaining at left ⊢
  dsimp only
  split
  · exact ⟨left, rfl⟩
  · next afterCatch found =>
      have below : skipNewlines afterCatch <:+ rest := (clause_suffix found).trans left
      generalize skipNewlines afterCatch = caught at below ⊢
      rw [cut_eq_ok ⟨Nat.zero_le _, Extent.clauseEnd_le caught 0⟩, List.drop_zero]
      have inside := (List.drop_suffix (Extent.clauseEnd caught 0) caught).trans below
      refine Meets.ite (fun _ => ⟨inside, rfl⟩) fun _ => ?_
      have part : Room fits (caught.take (Extent.clauseEnd caught 0)) :=
        (room.suffix below).isInfix (List.take_prefix _ _).isInfix
      exact (asked.block (indent + 1) .handler part).map_some.bind fun _ _ => ⟨inside, rfl⟩

theorem loopHeader_le (depth : Nat) (collects : Bool) (pieces : List Piece) :
    (loopHeader depth collects pieces).1 ≤ pieces.length := by
  induction pieces generalizing depth collects with
  | nil => exact Nat.le_refl _
  | cons piece rest ih =>
      simp only [loopHeader, List.length_cons]
      repeat' split
      all_goals first
        | exact Nat.zero_le _
        | exact Nat.succ_le_succ (ih _ _)

theorem Progresses.loop (asked : reader.Progresses fits fault) (indent : Nat)
    {rest : List Piece} (room : Room fits rest) :
    Meets (reader.loop indent rest) (Constructs rest) fault := by
  have le := loopHeader_le 0 false rest
  simp only [Reader.loop]
  refine (asked.blockFront indent .loopHeader le room).bind fun header _ => ?_
  have left := List.drop_suffix (loopHeader 0 false rest).1 rest
  generalize rest.drop (loopHeader 0 false rest).1 = remaining at left ⊢
  refine Meets.ite (fun _ => ⟨left, rfl⟩) fun _ => ?_
  split
  · exact ⟨left, rfl⟩
  · next afterDo found =>
      have below : skipNewlines afterDo <:+ rest := (clause_suffix found).trans left
      refine (asked.blockFront (indent + 1) .loopBody (Extent.clauseEnd_le _ 0)
        (room.suffix below)).bind fun body _ => ?_
      exact ⟨(List.drop_suffix _ _).trans below, rfl⟩

theorem nameAt_suffix (pieces : List Piece) : (nameAt pieces).2 <:+ pieces := by
  cases pieces with
  | nil => exact List.suffix_refl _
  | cons first rest => exact List.suffix_cons first rest

theorem Progresses.readParameters (asked : reader.Progresses fits fault) (indent : Nat)
    {rest : List Piece} (room : RoomBehind fits rest) :
    Meets (reader.readParameters indent rest) (Leaves rest) fault := by
  cases rest with
  | nil => exact List.suffix_refl _
  | cons first inner =>
      have below := room first inner rfl
      have tail := List.suffix_cons first inner
      rw [Reader.readParameters]
      refine Meets.ite (fun _ => List.suffix_refl _) fun _ => ?_
      split
      · next key left found =>
          refine (asked.keyValue indent _ (below.suffix (key?_suffix found))).bind ?_
          rintro ⟨value, valueLeft⟩ (h : valueLeft <:+ left)
          have h := h.trans (key?_suffix found)
          refine (asked.parameters indent valueLeft (below.suffix h).self).bind ?_
          rintro ⟨parameters, final⟩ (h' : final <:+ valueLeft)
          exact h'.trans (h.trans tail)
      · refine (asked.parameters indent inner below.self).bind ?_
        rintro ⟨parameters, left⟩ (h : left <:+ inner)
        dsimp only
        split
        · refine Meets.ite (fun _ => ?_) fun _ => ?_
          · exact h.trans tail
          · exact h.trans tail
        · exact h.trans tail

theorem bodyEnd_le (pieces : List Piece) : bodyEnd pieces ≤ pieces.length := by
  rw [bodyEnd]
  split
  · next opened =>
      cases pieces with
      | nil => simp [startsWith] at opened
      | cons _ _ => exact Extent.closingParen_lt (Nat.succ_pos _)
  · exact Nat.le_trans (Nat.min_le_left _ _) (Extent.statementEnd_le _ _)

theorem Progresses.function (asked : reader.Progresses fits fault) (indent : Nat)
    {rest : List Piece} (room : Room fits rest) :
    Meets (reader.function indent rest) (Constructs rest) fault := by
  have named := nameAt_suffix rest
  simp only [Reader.function]
  refine (asked.parameters indent _ (room.suffix named).self).bind ?_
  rintro ⟨parameters, left⟩ (h : left <:+ (nameAt rest).2)
  have below : skipNewlines (left.drop 1) <:+ rest :=
    (skipNewlines_suffix _).trans <| (List.drop_suffix 1 left).trans <| h.trans named
  refine (asked.blockFront (indent + 1) .functionBody (bodyEnd_le _)
    (room.suffix below)).bind fun body _ => ?_
  exact ⟨(List.drop_suffix _ _).trans below, rfl⟩

theorem skipHandler_suffix (pieces : List Piece) : skipHandler pieces <:+ pieces := by
  simp only [skipHandler]
  split
  · exact (List.drop_suffix _ _).trans (List.dropWhile_suffix _)
  · exact List.dropWhile_suffix _

/-- Nothing is said about what is left: a struct cuts its members out before it has them read, and
goes on behind them by itself. -/
theorem Progresses.readMembers (asked : reader.Progresses fits fault) (indent : Nat)
    {rest : List Piece} (room : RoomBehind fits rest) :
    Meets (reader.readMembers indent rest) (fun _ => True) fault := by
  cases rest with
  | nil => trivial
  | cons first inner =>
      have below := room first inner rfl
      -- After each member, the others are asked for on an end of `inner`.
      have others {left : List Piece} (h : left <:+ inner) :
          Meets (reader.members indent left) (fun _ => True) fault :=
        asked.members indent left (below.suffix h).self
      have followed {left : List Piece} (h : left <:+ inner) (member : Piece) :
          Meets (do return member :: (← reader.members indent left)) (fun _ => True) fault :=
        (others h).bind fun _ _ => Meets.pure trivial
      rw [Reader.readMembers]
      refine Meets.ite (fun _ => ?_) fun _ => ?_
      · refine (asked.function (indent + 1) below).bind ?_
        rintro ⟨method, left⟩ ⟨h, -⟩
        exact followed h method
      refine Meets.ite (fun _ => others (skipHandler_suffix inner)) fun _ => ?_
      refine Meets.ite (fun _ => ?_) fun _ => ?_
      · obtain ⟨skipped, shape⟩ :=
          Nat.exists_eq_add_of_le' (Extent.one_le_group_after first inner)
        rw [shape, List.drop_succ_cons]
        exact others (List.drop_suffix _ _)
      split
      · exact others (List.suffix_refl _)
      · next name _ =>
          refine Meets.ite (fun _ => others (List.suffix_refl _)) fun _ => ?_
          refine Meets.ite (fun _ => ?_) fun _ => followed (List.suffix_refl _) _
          have behind := List.drop_suffix 1 inner
          refine (asked.blockFront (indent + 2) .property (Extent.separatorEnd_le _ 0)
            (below.suffix behind)).bind fun value _ => ?_
          exact followed ((List.drop_suffix _ _).trans behind) _

theorem Progresses.struct (asked : reader.Progresses fits fault) (indent : Nat)
    {rest : List Piece} (room : Room fits rest) :
    Meets (reader.struct indent rest) (Constructs rest) fault := by
  have named := nameAt_suffix rest
  have skipped := (skipNewlines_suffix (nameAt rest).2).trans named
  simp only [Reader.struct]
  generalize skipNewlines (nameAt rest).2 = opened at skipped ⊢
  refine Meets.ite (fun starts => ?_) fun _ => ⟨named, rfl⟩
  cases opened with
  | nil => simp [startsWith] at starts
  | cons mark inner =>
      obtain ⟨inside, -⟩ := Extent.group_inside_fits mark inner
      rw [cut_eq_ok inside]
      refine (asked.members indent _
        (room.suffix skipped _ (take_drop_isInfix _ _ _))).bind fun members _ => ?_
      exact ⟨(List.drop_suffix _ _).trans skipped, rfl⟩

/-! ### Passes over a block -/

variable {before after : List Piece} {piece : Piece}

/-- A construct that was just read takes the place of what it was read from. Nearly every step of
the pass makes this move. -/
theorem Constructs.moves {reading : Reading Piece} (h : Constructs after reading) :
    Move before piece after (passed before reading) :=
  .build [] rfl (settled_of_construct h.2) h.1

theorem castAt_moves {type operand : Piece} {rest : List Piece} (refusable : Refusable fault type)
    (indent : Nat) (before : List Piece) :
    Meets (castAt indent operand before type rest)
      (Move (operand :: before) piece (type :: rest)) fault := by
  have below := List.suffix_cons type rest
  refine (castTo_meets refusable indent operand).bind fun cast construct => ?_
  split
  · next operator target earlier =>
      refine Meets.ite (fun _ => ?_) fun _ => ?_
      · exact .build [operand, operator, target] rfl (settled_of_construct rfl) below
      · exact .build [operand] rfl (settled_of_construct construct) below
  · exact .build [operand] rfl (settled_of_construct construct) below

theorem Progresses.accessAt (asked : reader.Progresses fits fault) (indent : Nat)
    (before : List Piece) (room : Room fits after) :
    Meets (reader.accessAt indent before after) (Move before piece after) fault := by
  refine (asked.elements indent "]" after room.self).bind ?_
  rintro ⟨indices, left⟩ (h : left <:+ after)
  have alone (before : List Piece) :
      Move before piece after ⟨.access indent none indices :: before, left⟩ :=
    .build [] rfl (settled_of_construct rfl) h
  cases before with
  | nil => exact alone []
  | cons base earlier =>
      refine Meets.ite (fun _ => ?_) fun _ => alone (base :: earlier)
      exact .build [base] rfl (settled_of_construct rfl) h

theorem Progresses.factorAt (asked : reader.Progresses fits fault)
    (casts : CastsRefusable fits fault) (indent : Nat) (before : List Piece)
    (settled : Settled piece) (room : Room fits after) :
    Meets (reader.factorAt indent before piece after) (Move before piece after) fault := by
  rw [Reader.factorAt.eq_def]
  split
  · next left earlier right rest =>
      refine Meets.ite (fun _ => .pass settled) fun _ => ?_
      have tail := List.suffix_cons right rest
      refine (asked.element casts indent right (room.suffix tail)).bind ?_
      rintro ⟨factor, remaining⟩ (h : remaining <:+ rest)
      exact .build [left] rfl (settled_of_construct rfl) (h.trans tail)
  · exact .pass settled

theorem Progresses.stepMark (asked : reader.Progresses fits fault)
    (casts : CastsRefusable fits fault) (indent : Nat) (before : List Piece) {text : String}
    (isText : piece.text? = some text) (notClose : text ≠ ")")
    (words : Text.foldCase text ∉ reducibleWords) (room : Room fits after) :
    Meets (reader.stepMark indent before piece text after) (Move before piece after) fault := by
  have settled (marks : text ∉ reducibleMarks) : Settled piece := settled_of_text isText marks words
  rw [Reader.stepMark]
  refine Meets.ite (fun _ => asked.accessAt indent before room) fun notSquare => ?_
  refine Meets.ite (fun sharp => ?_) fun _ => ?_
  · have mark := settled (by rw [sharp]; decide)
    exact ((asked.sentinel indent mark room).mono fun _ reading =>
      .build [] rfl reading.2 reading.1).map
  refine Meets.ite (fun _ => ?_) fun notRound => ?_
  · exact ((asked.groupAt indent .group piece room).mono fun _ reading => reading.moves).map
  refine Meets.ite (fun operator => ?_) fun _ => ?_
  · have mark : text ∉ reducibleMarks := by
      rcases operator with same | same | same
      · rw [same]; decide
      · rw [same]; decide
      · rw [same]; decide
    exact asked.factorAt casts indent before (settled mark) room
  refine Meets.ite (fun _ => .drop) fun notComma => ?_
  have mark : text ∉ reducibleMarks := by
    simp [reducibleMarks, notSquare, notRound, notComma, notClose]
  refine Meets.ite (fun _ => ?_) fun _ => .pass (settled mark)
  exact memberAt_moves (settled mark) before after

theorem Progresses.stepToken (asked : reader.Progresses fits fault)
    (casts : CastsRefusable fits fault) (indent : Nat) (before : List Piece) {text : String}
    (isText : piece.text? = some text) (notClose : text ≠ ")")
    (words : Text.foldCase text = "for" ∨ Text.foldCase text ∉ reducibleWords)
    (here : ∀ type rest, after = type :: rest → piece.isKeyword "as" = true →
      Refusable fault type)
    (room : Room fits after) :
    Meets (reader.stepToken indent before piece text after) (Move before piece after) fault := by
  rw [Reader.stepToken.eq_def]
  split
  · next name _ => exact ((asked.call indent name room).mono fun _ reading => reading.moves).map
  refine Meets.ite (fun _ => ?_) fun notFor => ?_
  · exact ((asked.loop indent room).mono fun _ reading => reading.moves).map
  have words := words.resolve_left notFor
  refine Meets.ite (fun folded => ?_) fun _ => ?_
  · have keyword : piece.isKeyword "as" = true := by simp [Piece.isKeyword, isText, folded]
    have mark : text ∉ reducibleMarks := by
      have unfolded : ∀ mark ∈ reducibleMarks, Text.foldCase mark ≠ "as" := by decide
      exact fun member => unfolded text member folded
    have passes : Move before piece after ⟨piece :: before, after⟩ :=
      .pass (settled_of_text isText mark words)
    cases before with
    | nil => exact passes
    | cons operand earlier =>
        cases after with
        | nil => exact passes
        | cons type rest =>
            refine Meets.ite (fun _ => ?_) fun _ => passes
            exact castAt_moves (here type rest rfl keyword) indent earlier
  · exact asked.stepMark casts indent before isText notClose words room

/-- A step of the pass over a block is one of the moves. What follows from that for the pass is
derived from the moves alone. -/
theorem Progresses.step (asked : reader.Progresses fits fault)
    (casts : CastsRefusable fits fault) (indent : Nat) (before : List Piece)
    (notClose : piece.is ")" = false)
    (here : ∀ type rest, after = type :: rest → piece.isKeyword "as" = true →
      Refusable fault type)
    (room : Room fits after) :
    Meets (reader.step indent before piece after) (Move before piece after) fault := by
  have passes {reading : Result (Reading Piece)} (h : Meets reading (Constructs after) fault) :
      Meets (passed before <$> reading) (Move before piece after) fault :=
    (h.mono fun _ reading => reading.moves).map
  rw [Reader.step]
  cases isText : piece.text? with
  | none => exact .pass (settled_of_construct isText)
  | some text =>
      have other : text ≠ ")" := by
        rintro rfl
        simp [Piece.is, isText] at notClose
      refine Meets.ite (fun _ => passes (asked.struct indent room)) fun noStruct => ?_
      refine Meets.ite (fun _ => passes (asked.function indent room)) fun noFunction => ?_
      refine Meets.ite (fun _ => .drop) fun _ => ?_
      refine Meets.ite (fun _ => passes (asked.readConditional indent room)) fun noIf => ?_
      refine Meets.ite (fun _ => passes (asked.attempt indent room)) fun noTry => ?_
      have words : Text.foldCase text = "for" ∨ Text.foldCase text ∉ reducibleWords := by
        rw [not_or] at noFunction
        by_cases loops : Text.foldCase text = "for"
        · exact .inl loops
        · right
          simp [reducibleWords, noStruct, noFunction, noIf, noTry, loops]
      exact asked.stepToken casts indent before isText other words here room

theorem Progresses.readItems (asked : reader.Progresses fits fault)
    (casts : CastsRefusable fits fault)
    (joined : ∀ {piece left after}, fits after → left <:+ after → left.length < after.length →
      piece.isKeyword "as" = false → fits (piece :: left))
    (indent : Nat) (before : List Piece)
    (here : ∀ piece type rest, after = piece :: type :: rest → piece.isKeyword "as" = true →
      Refusable fault type)
    (room : RoomBehind fits after) :
    Meets (reader.readItems indent before after)
      (fun items => (∀ piece ∈ before, Settled piece) → Dense items) fault := by
  have reversed (all : ∀ piece ∈ before, Settled piece) :
      ∀ piece ∈ before.reverse, Settled piece :=
    fun piece member => all piece (List.mem_reverse.mp member)
  cases after with
  | nil =>
      exact fun all => dense_of_settled (reversed all)
  | cons piece rest =>
      have below := room piece rest rfl
      refine Meets.ite (fun closes => ?_) fun open_ => ?_
      · exact fun all => dense_of_close (reversed all) closes
      have step := asked.step casts indent before (Bool.eq_false_iff.mpr open_)
        (fun type rest' shape => here piece type rest' (by rw [shape])) below
      refine step.bind fun cursor move => ?_
      have fitting : fits cursor.after := by
        cases move with
        | pass settled => exact below.self
        | drop => exact below.self
        | build taken shape settled below' => exact (below.suffix below').self
        | join shape dotted below' shorter =>
            exact joined below.self below' shorter dotted.isKeyword_as
      exact (asked.items indent cursor.before cursor.after fitting).mono
        fun items dense all => dense (move.settled all)

/-- What readers need of the lists that they are asked with, for the readers that they ask. -/
structure Nested (more fits : List Piece → Prop) (fault : ConvertError → Prop) : Prop where
  behind : ∀ first rest, more (first :: rest) → Room fits rest
  joined : ∀ {piece left after}, fits after → left <:+ after → left.length < after.length →
    piece.isKeyword "as" = false → fits (piece :: left)
  casts : CastsRefusable fits fault
  outerCasts : CastsRefusable more fault

/-- A reader is as good as the readers it asks, on lists that are longer by one: it takes at least
one piece before it asks. -/
theorem Progresses.deeper {more : List Piece → Prop} (asked : reader.Progresses fits fault)
    (nested : Nested more fits fault) : reader.deeper.Progresses more fault := by
  have behind {pieces : List Piece} (h : more pieces) : RoomBehind fits pieces := by
    rintro first rest rfl
    exact nested.behind first rest h
  constructor
  · intro indent before after h
    apply asked.readItems nested.casts nested.joined indent before _ (behind h)
    rintro piece type rest rfl
    exact nested.outerCasts piece type rest h
  · exact fun indent first rest h => asked.readConditional indent (nested.behind first rest h)
  · exact fun indent rest h => asked.readParameters indent (behind h)
  · exact fun indent rest h => asked.readMembers indent (behind h)
  · exact fun indent rest h => asked.readArguments indent (behind h)
  · exact fun indent close rest h => asked.readElements nested.casts indent close (behind h)
  · exact fun indent operand rest h => asked.readTrailers indent operand (behind h)

end

/-- If every list fits and every error is admitted, nothing is left to be said about lists, and what
remains is the shape of the answers. -/
theorem Nested.trivial : Nested (fun _ => True) (fun _ => True) ConvertError.Any :=
  ⟨fun _ _ _ _ _ => True.intro, fun _ _ _ _ => True.intro, fun _ _ _ _ _ _ => True.intro,
    fun _ _ _ _ _ _ => True.intro⟩

/-- Whatever the budget, what is read leaves an end of the list, if it is read at all. -/
theorem atDepth_progresses (registry : Registry) (depth : Nat) :
    (atDepth registry depth).Progresses (fun _ => True) ConvertError.Any := by
  induction depth with
  | zero => constructor <;> intros <;> trivial
  | succ depth ih => exact ih.deeper .trivial

/-- A property of lists that only depends on what is cast in them. -/
structure CastClosed (allowed : List Piece → Prop) (fault : ConvertError → Prop) : Prop where
  isInfix : ∀ {part pieces}, allowed pieces → part <:+: pieces → allowed part
  cons : ∀ {piece pieces}, allowed pieces → piece.isKeyword "as" = false → allowed (piece :: pieces)
  casts : CastsRefusable allowed fault

/-- Within its budget a reader only answers with errors that its list allows. The induction is on
the budget, and the lists get shorter with it. -/
theorem atDepth_within {allowed : List Piece → Prop} {fault : ConvertError → Prop}
    (closed : CastClosed allowed fault) (registry : Registry) (depth : Nat) :
    (atDepth registry depth).Progresses (fun pieces => pieces.length < depth ∧ allowed pieces)
      fault := by
  have casts (depth : Nat) :
      CastsRefusable (fun pieces => pieces.length < depth ∧ allowed pieces) fault :=
    fun mark type rest h => closed.casts mark type rest h.2
  induction depth with
  | zero => constructor <;> intros <;> omega
  | succ depth ih =>
      refine ih.deeper ⟨?_, ?_, casts depth, casts (depth + 1)⟩
      · rintro first rest ⟨short, ok⟩ part inside
        have := inside.length_le
        rw [List.length_cons] at short
        exact ⟨by omega, closed.isInfix ok (inside.trans (List.suffix_cons first rest).isInfix)⟩
      · rintro piece left after ⟨short, ok⟩ below shorter other
        refine ⟨?_, closed.cons (closed.isInfix ok below.isInfix) other⟩
        rw [List.length_cons]
        omega

/-- Within its budget a reader is never at fault: it answers, or it refuses a cast. In particular
the budget is never used up. -/
theorem atDepth_safe (registry : Registry) (depth : Nat) :
    (atDepth registry depth).Progresses (fun pieces => pieces.length < depth)
      ConvertError.IsCast := by
  have closed : CastClosed (fun _ => True) ConvertError.IsCast :=
    ⟨fun _ _ => trivial, fun _ _ => trivial, fun _ _ _ _ _ _ => ⟨_, rfl⟩⟩
  simpa using atDepth_within closed registry depth

end Maxscript.Reader
