import Maxscript.Proofs.Python.Marks
import Maxscript.Proofs.Reader.Built
import Maxscript.Proofs.Reader.Texts

/-!
# How constructs are laid out

A construct on some level breaks its lines to this level or to deeper ones, and what it opens stands
one level below it. This is shown for all that is built at once, from the marks of the parts, since
a body is written on its own level and not indented afterwards.

The words among the marks are texts of the script, and the writer's own texts have no line break. So
every line of the Python text that is not begun inside of a word is begun by a break mark.
-/

namespace Maxscript

namespace Piece

theorem mem_textsAll {text : String} {pieces : List Piece} :
    text ∈ textsAll pieces ↔ ∃ piece ∈ pieces, text ∈ piece.texts := by
  induction pieces with
  | nil => simp [textsAll]
  | cons piece rest ih => simp [textsAll, ih]

/-- The texts of a part are texts of the construct. So a word that is written for a part is one of
the script. -/
theorem texts_subset {part piece : Piece} (member : part ∈ piece.parts) :
    part.texts ⊆ piece.texts := by
  have parts : textsAll piece.parts ⊆ piece.texts := by
    cases piece with
    | binding indent name value named => cases value <;> simp [texts, textsAll]
    | access indent base indices => cases base <;> simp [texts, textsAll]
    | function indent name parameters body =>
        simp [texts, textsAll]
    | conditional indent condition consequent alternative =>
        cases alternative <;> simp [texts, textsAll]
    | attempt indent attempted handler => cases handler <;> simp [texts, textsAll]
    | loop indent header comprehension body => cases body <;> simp [texts, textsAll]
    | _ => simp [texts, textsAll]
  intro text inside
  exact parts (mem_textsAll.mpr ⟨part, member, inside⟩)

end Piece

namespace Python

/-! ### The marks of the parts -/

section

variable {unit : String} {inner : List Mark}

theorem mem_marksEach {pieces : List Piece} :
    inner ∈ marksEach unit pieces ↔ ∃ piece ∈ pieces, marks unit piece = inner := by
  induction pieces with
  | nil => simp [marksEach]
  | cons piece rest ih => simp [marksEach, ih, @eq_comm _ inner]

theorem mem_marksItems {items : List Piece} :
    some inner ∈ marksItems unit items ↔
      ∃ item ∈ items, item.isNewline = false ∧ marks unit item = inner := by
  induction items with
  | nil => simp [marksItems]
  | cons item rest ih =>
      cases newline : item.isNewline with
      | true => simp [marksItems, ih, newline]
      | false => simp [marksItems, ih, newline, @eq_comm _ inner]

/-- The lines of a block are made of its items, and each item is on one of them. -/
theorem mem_splitLines {α : Type} {item : α} {items : List (Option α)} :
    (∃ line ∈ splitLines items, item ∈ line) ↔ some item ∈ items := by
  induction items with
  | nil => simp [splitLines]
  | cons first rest ih =>
      cases first with
      | none => simp [splitLines, ih]
      | some first =>
          rw [List.mem_cons, ← ih, splitLines]
          cases splitLines rest with
          | nil => simp
          | cons line lines => simp [or_assoc]

theorem mem_namedLast {α : Type} {parameter : α} {parameters : List (Bool × α)} :
    parameter ∈ namedLast parameters ↔ ∃ named, (named, parameter) ∈ parameters := by
  simp [namedLast]

/-- Reordering the parameters keeps all of them. -/
theorem mem_parameterMarks {parameters : List Piece} :
    inner ∈ namedLast ((parameters.map Piece.isNamed).zip (marksEach unit parameters)) ↔
      inner ∈ marksEach unit parameters := by
  rw [mem_namedLast, mem_marksEach]
  induction parameters with
  | nil => simp [marksEach]
  | cons parameter rest ih => simp [marksEach, exists_or, ih, @eq_comm _ inner]

theorem propertyMarks_binding (indent : Nat) (name : String) (value : Option Piece) (named : Bool)
    (rest : List Piece) :
    propertyMarks unit (.binding indent name value named :: rest) =
      (name, value.elim [.plain "None"] (marks unit)) :: propertyMarks unit rest := by
  cases value <;> rw [propertyMarks] <;> rfl

/-- A property is written with its value, or with `None` if it has none. -/
theorem mem_propertyMarks {name : String} {members : List Piece} :
    (name, inner) ∈ propertyMarks unit members ↔ ∃ indent value named,
      .binding indent name value named ∈ members ∧
        inner = value.elim [.plain "None"] (marks unit) := by
  induction members with
  | nil => simp [propertyMarks]
  | cons member rest ih =>
      cases member with
      | binding indent other value named =>
          simp only [propertyMarks_binding, List.mem_cons, ih, Prod.mk.injEq, Piece.binding.injEq]
          constructor
          · rintro (⟨rfl, rfl⟩ | ⟨indent', value', named', inside, rfl⟩)
            · exact ⟨indent, value, named, .inl ⟨rfl, rfl, rfl, rfl⟩, rfl⟩
            · exact ⟨indent', value', named', .inr inside, rfl⟩
          · rintro ⟨indent', value', named', ⟨rfl, rfl, rfl, rfl⟩ | inside, rfl⟩
            · exact .inl ⟨rfl, rfl⟩
            · exact .inr ⟨indent', value', named', inside, rfl⟩
      | _ => simp [propertyMarks, ih]

/-- A clause goes on a line of its own, or is written behind the colon if it is one line of text.
There is no third way. -/
theorem clauseMarks_cases (unit : String) (level : Nat) (inner : List Mark) :
    clauseMarks unit level inner = .lineBreak level :: inner ∨
      ∃ text, clauseMarks unit level inner = [.plain (" " ++ text)] ∧
        Text.hasChar '\n' text = false ∧
        text = String.ofList
          (Text.trimStart (Text.times unit level ++ flatten unit inner).toList) := by
  simp only [clauseMarks]
  split
  · exact .inl rfl
  · next oneLine =>
      simp only [Bool.or_eq_true, not_or, Bool.not_eq_true] at oneLine
      refine .inr ⟨_, rfl, ?_, rfl⟩
      rw [Text.hasChar, String.toList_ofList]
      exact oneLine.2

theorem mem_methodMarks {members : List Piece} :
    inner ∈ methodMarks unit members ↔
      ∃ member ∈ members, member.isFunction = true ∧ marks unit member = inner := by
  induction members with
  | nil => simp [methodMarks]
  | cons member rest ih =>
      cases member with
      | function indent name parameters body =>
          simp [methodMarks, ih, Piece.isFunction, @eq_comm _ inner]
      | _ => simp [methodMarks, ih, Piece.isFunction]

end

/-! ### Levels of the line breaks -/

/-- A word is one of `texts`, a text of the writer's own stays on its line, and a line break goes to
`level` or deeper. -/
def Mark.Fits (texts : List String) (level : Nat) : Mark → Prop
  | .word text => text ∈ texts
  | .plain text => Text.hasChar '\n' text = false
  | .lineBreak deeper => level ≤ deeper

def AllFit (texts : List String) (level : Nat) (marks : List Mark) : Prop :=
  ∀ mark ∈ marks, mark.Fits texts level

namespace AllFit

variable {texts more : List String} {level deeper : Nat} {front back inner : List Mark}

theorem nil : AllFit texts level [] := List.forall_mem_nil _

theorem word {text : String} (member : text ∈ texts) (rest : AllFit texts level back) :
    AllFit texts level (.word text :: back) :=
  List.forall_mem_cons.mpr ⟨member, rest⟩

theorem plain {text : String} (onLine : Text.hasChar '\n' text = false)
    (rest : AllFit texts level back) : AllFit texts level (.plain text :: back) :=
  List.forall_mem_cons.mpr ⟨onLine, rest⟩

theorem lineBreak (below : level ≤ deeper) (rest : AllFit texts level back) :
    AllFit texts level (.lineBreak deeper :: back) :=
  List.forall_mem_cons.mpr ⟨below, rest⟩

theorem append (first : AllFit texts level front) (second : AllFit texts level back) :
    AllFit texts level (front ++ back) :=
  List.forall_mem_append.mpr ⟨first, second⟩

/-- What fits among few texts and on a deep level fits among more texts and on a higher level. This
is how the marks of a part become marks of the construct. -/
theorem mono (h : AllFit texts deeper inner) (subset : texts ⊆ more) (le : level ≤ deeper) :
    AllFit more level inner := by
  intro mark member
  have fits := h mark member
  cases mark with
  | word text => exact subset fits
  | plain text => exact fits
  | lineBreak target => exact Nat.le_trans le fits

theorem joinMarks {separator : List Mark} (between : AllFit texts level separator)
    {parts : List (List Mark)} (each : ∀ part ∈ parts, AllFit texts level part) :
    AllFit texts level (joinMarks separator parts) := by
  induction parts with
  | nil => exact nil
  | cons first rest ih =>
      obtain ⟨here, others⟩ := List.forall_mem_cons.mp each
      cases rest with
      | nil => exact here
      | cons second rest => exact (here.append between).append (ih others)

theorem lineMarks (below : level ≤ deeper) {items : List (Option (List Mark))}
    (each : ∀ item, some item ∈ items → AllFit texts level item) :
    AllFit texts level (lineMarks deeper items) := by
  refine joinMarks (lineBreak below nil) fun part member => ?_
  obtain ⟨line, inside, rfl⟩ := List.mem_map.mp member
  refine joinMarks (plain rfl nil) fun item inLine => ?_
  exact each item (mem_splitLines.mp ⟨line, List.mem_of_mem_filter inside, inLine⟩)

theorem clauseMarks {unit : String} (below : level ≤ deeper) (h : AllFit texts level inner) :
    AllFit texts level (clauseMarks unit deeper inner) := by
  rcases clauseMarks_cases unit deeper inner with own | ⟨text, same, onLine, -⟩
  · rw [own]
    exact lineBreak below h
  · rw [same]
    refine plain ?_ nil
    rw [Text.hasChar_append, onLine]
    rfl

theorem onlyMarks {indices : List (List Mark)}
    (each : ∀ index ∈ indices, AllFit texts level index) :
    AllFit texts level (onlyMarks indices) := by
  rw [Python.onlyMarks.eq_def]
  split
  · exact each _ List.mem_cons_self
  · exact nil

theorem hasChar_times {c : Char} {text : String} (h : Text.hasChar c text = false) (count : Nat) :
    Text.hasChar c (Text.times text count) = false := by
  induction count with
  | zero => rfl
  | succ count ih => rw [Text.times, Text.hasChar_append, h, ih, Bool.or_self]

theorem assignmentMarks {properties : List (String × List Mark)}
    (each : ∀ name value, (name, value) ∈ properties → name ∈ texts ∧ AllFit texts level value) :
    ∀ line ∈ assignmentMarks properties, AllFit texts level line := by
  intro line member
  obtain ⟨⟨name, value⟩, inside, rfl⟩ := List.mem_map.mp member
  obtain ⟨known, fits⟩ := each name value inside
  refine plain rfl (word known (plain ?_ fits))
  rw [Text.hasChar_append, hasChar_times rfl]
  rfl

theorem flatMap_lineBreak (below : level ≤ deeper) {lines : List (List Mark)}
    (each : ∀ line ∈ lines, AllFit texts level line) :
    AllFit texts level (lines.flatMap (.lineBreak deeper :: ·)) := by
  intro mark member
  obtain ⟨line, inside, here⟩ := List.mem_flatMap.mp member
  exact lineBreak below (each line inside) mark here

theorem classMarks {name : String} (known : name ∈ texts)
    {properties : List (String × List Mark)} {methods : List (List Mark)}
    (assigned : ∀ name value, (name, value) ∈ properties → name ∈ texts ∧ AllFit texts level value)
    (each : ∀ method ∈ methods, AllFit texts level method) :
    AllFit texts level (classMarks level name properties methods) := by
  have body : ∀ line ∈ if properties.isEmpty then [[.plain "pass"]]
      else Python.assignmentMarks properties, AllFit texts level line := by
    split
    · exact List.forall_mem_singleton.mpr (plain rfl nil)
    · exact assignmentMarks assigned
  refine (append ?_ (flatMap_lineBreak (by omega) body)).append (flatMap_lineBreak (by omega) each)
  exact plain rfl (word known (plain rfl (lineBreak (by omega) (plain rfl nil))))

/-- A body is written as the block, or as a statement that does nothing, which has no line break in
it. -/
theorem bodyMarks {unit : String} {piece : Piece} (h : AllFit texts level (marks unit piece)) :
    AllFit texts level (bodyMarks unit piece) := by
  have pass : AllFit texts level [.plain "pass"] := plain rfl nil
  cases piece with
  | block indent role items =>
      rw [marks] at h
      rw [Python.bodyMarks]
      split
      · exact pass
      · next notBlank =>
          rw [if_neg notBlank] at h
          dsimp only at h
          split at h
          · intro mark member
            exact h mark (List.mem_cons_of_mem _ (List.mem_append_left _ member))
          · exact h
  | _ =>
      rw [Python.bodyMarks]
      · exact pass
      · intros
        contradiction

end AllFit

/-- A piece breaks its lines to `level` or deeper, and what it writes word by word are texts of it.
-/
def FitsOn (unit : String) (level : Nat) (piece : Piece) : Prop :=
  AllFit piece.texts level (marks unit piece)

namespace FitsOn

variable {unit : String} {indent level : Nat} {piece part : Piece}

theorem within (inside : part ∈ piece.parts) (fits : FitsOn unit level part) :
    AllFit piece.texts level (marks unit part) :=
  fits.mono (Piece.texts_subset inside) (Nat.le_refl _)

theorem each {pieces : List Piece} (inside : pieces ⊆ piece.parts)
    (fits : ∀ part ∈ pieces, FitsOn unit level part) :
    ∀ inner ∈ marksEach unit pieces, AllFit piece.texts level inner := by
  intro inner member
  obtain ⟨part, here, rfl⟩ := mem_marksEach.mp member
  exact (fits part here).within (inside here)

/-- What a body opens on the level below fits around it as well. -/
theorem body (inside : part ∈ piece.parts) (fits : FitsOn unit (level + 1) part) :
    AllFit piece.texts level (bodyMarks unit part) :=
  fits.bodyMarks.mono (Piece.texts_subset inside) (Nat.le_succ level)

/-- A body that is written on lines of its own starts with a break to its own level, one deeper than
the construct. -/
theorem ownLines {role : Role} {items : List Piece}
    (inside : .block (level + 1) role items ∈ piece.parts)
    (fits : FitsOn unit (level + 1) (.block (level + 1) role items)) :
    AllFit piece.texts level
      (.lineBreak (level + 1) :: bodyMarks unit (.block (level + 1) role items)) :=
  .lineBreak (Nat.le_succ level) (fits.body inside)

/-- A clause fits on the level of its construct in either way of writing it. -/
theorem clause {role : Role} {items : List Piece}
    (inside : .block (level + 1) role items ∈ piece.parts)
    (fits : FitsOn unit (level + 1) (.block (level + 1) role items)) :
    AllFit piece.texts level
      (clauseMarks unit (level + 1) (bodyMarks unit (.block (level + 1) role items))) :=
  .clauseMarks (Nat.le_succ level) (fits.body inside)

theorem token (text : String) : FitsOn unit level (.token text) := .word List.mem_cons_self .nil

theorem bare (name : String) (named : Bool) :
    FitsOn unit level (.binding indent name none named) :=
  .word List.mem_cons_self .nil

theorem binding {value : Piece} (name : String) (named : Bool) (fits : FitsOn unit level value) :
    FitsOn unit level (.binding indent name (some value) named) :=
  .word List.mem_cons_self (.plain rfl (fits.within List.mem_cons_self))

theorem statement {parts : List Piece} (fits : ∀ part ∈ parts, FitsOn unit level part) :
    FitsOn unit level (.statement indent parts) :=
  .joinMarks (.plain rfl .nil) (each (List.Subset.refl _) fits)

theorem chain {parts : List Piece} (fits : ∀ part ∈ parts, FitsOn unit level part) :
    FitsOn unit level (.chain indent parts) := by
  intro mark member
  obtain ⟨inner, inside, here⟩ := List.mem_flatten.mp member
  have all : parts ⊆ (Piece.chain indent parts).parts := List.Subset.refl parts
  exact each all fits inner inside mark here

theorem block {role : Role} {items : List Piece} (fits : ∀ item ∈ items, FitsOn unit indent item) :
    FitsOn unit indent (.block indent role items) := by
  have inner : AllFit (Piece.textsAll items) indent (lineMarks indent (marksItems unit items)) := by
    refine .lineMarks (Nat.le_refl _) fun item member => ?_
    obtain ⟨piece, inside, -, rfl⟩ := mem_marksItems.mp member
    have member : piece ∈ (Piece.block indent role items).parts := inside
    exact (fits piece inside).within member
  rw [FitsOn, marks]
  split
  · split
    · exact .plain rfl .nil
    · exact .nil
  · dsimp only
    split
    · exact .append (.plain rfl inner) (.plain rfl .nil)
    · exact inner

theorem array {elements : List Piece} (fits : ∀ element ∈ elements, FitsOn unit level element) :
    FitsOn unit level (.array indent elements) := by
  refine .append (.plain rfl (.joinMarks (.plain rfl .nil) ?_)) (.plain rfl .nil)
  exact each (List.Subset.refl _) fits

theorem indices {indices : List Piece} (fits : ∀ index ∈ indices, FitsOn unit level index) :
    FitsOn unit level (.access indent none indices) := by
  refine .append (.plain rfl (.onlyMarks ?_)) (.plain rfl .nil)
  exact each (List.Subset.refl _) fits

theorem access {base : Piece} {indices : List Piece} (first : FitsOn unit level base)
    (fits : ∀ index ∈ indices, FitsOn unit level index) :
    FitsOn unit level (.access indent (some base) indices) := by
  refine .append (.append (first.within List.mem_cons_self) (.plain rfl (.onlyMarks ?_)))
    (.plain rfl .nil)
  exact each (List.subset_cons_self _ _) fits

theorem call {arguments : List Piece} (name : String) (builtin : Bool)
    (fits : ∀ argument ∈ arguments, FitsOn unit level argument) :
    FitsOn unit level (.call indent name arguments builtin) := by
  have host : Text.hasChar '\n' (if builtin then "rt." else "") = false := by
    cases builtin <;> rfl
  refine .append (.plain host (.word List.mem_cons_self (.plain rfl ?_))) (.plain rfl .nil)
  exact .joinMarks (.plain rfl .nil) (each (List.Subset.refl _) fits)

theorem function {parameters items : List Piece} {role : Role} (name : String)
    (fits : ∀ parameter ∈ parameters, FitsOn unit indent parameter)
    (inner : FitsOn unit (indent + 1) (.block (indent + 1) role items)) :
    FitsOn unit indent (.function indent name parameters (.block (indent + 1) role items)) := by
  let whole := Piece.function indent name parameters (.block (indent + 1) role items)
  have inside : .block (indent + 1) role items ∈ whole.parts := by simp [whole]
  refine .append (.plain rfl (.word List.mem_cons_self (.plain rfl ?_)))
    (.plain rfl (inner.ownLines inside))
  refine .joinMarks (.plain rfl .nil) fun marks member => ?_
  exact each (List.subset_append_left _ _) fits marks (mem_parameterMarks.mp member)

/-- The value of a property fits if the property does, as the two are written with nothing but the
name and the sign between them. -/
theorem property {texts : List String} {name : String} {value : Option Piece} {named : Bool}
    (fits : AllFit texts level (marks unit (.binding indent name value named))) :
    name ∈ texts ∧ AllFit texts level (value.elim [.plain "None"] (marks unit)) := by
  cases value with
  | none => exact ⟨fits _ List.mem_cons_self, .plain rfl .nil⟩
  | some value =>
      obtain ⟨known, -, assigned⟩ := by
        simpa only [marks, AllFit, List.forall_mem_cons] using fits
      exact ⟨known, assigned⟩

/-- The properties of a struct are assigned two levels deeper, inside the initialiser, and its
methods stand one level deeper. -/
theorem struct {members : List Piece} (name : String)
    (properties : ∀ member ∈ members, member.isBinding = true → FitsOn unit (indent + 2) member)
    (methods : ∀ member ∈ members, member.isFunction = true → FitsOn unit (indent + 1) member) :
    FitsOn unit indent (.struct indent name members) := by
  have texts {member : Piece} (inside : member ∈ members) :
      member.texts ⊆ (Piece.struct indent name members).texts :=
    Piece.texts_subset inside
  refine .classMarks List.mem_cons_self (fun key written member => ?_) fun method member => ?_
  · obtain ⟨level, value, named, inside, rfl⟩ := mem_propertyMarks.mp member
    exact property ((properties _ inside rfl).mono (texts inside) (Nat.le_add_right indent 2))
  · obtain ⟨piece, inside, function, rfl⟩ := mem_methodMarks.mp member
    exact (methods piece inside function).mono (texts inside) (Nat.le_succ indent)

theorem conditional {condition : Piece} {role : Role} {items : List Piece}
    (first : FitsOn unit indent condition)
    (second : FitsOn unit (indent + 1) (.block (indent + 1) role items)) :
    FitsOn unit indent
      (.conditional indent condition (.block (indent + 1) role items) none) := by
  let whole := Piece.conditional indent condition (.block (indent + 1) role items) none
  have inside : .block (indent + 1) role items ∈ whole.parts := by simp [whole]
  exact .append (.plain rfl (first.within List.mem_cons_self))
    (.plain rfl (second.ownLines inside))

theorem branches {condition : Piece} {role role' : Role} {items others : List Piece}
    (first : FitsOn unit indent condition)
    (second : FitsOn unit (indent + 1) (.block (indent + 1) role items))
    (third : FitsOn unit (indent + 1) (.block (indent + 1) role' others)) :
    FitsOn unit indent (.conditional indent condition (.block (indent + 1) role items)
      (some (.block (indent + 1) role' others))) := by
  let whole := Piece.conditional indent condition (.block (indent + 1) role items)
    (some (.block (indent + 1) role' others))
  have consequent : .block (indent + 1) role items ∈ whole.parts := by simp [whole]
  have alternative : .block (indent + 1) role' others ∈ whole.parts := by simp [whole]
  exact .append (.append (.plain rfl (first.within List.mem_cons_self))
    (.plain rfl (second.ownLines consequent)))
    (.lineBreak (Nat.le_refl _) (.plain rfl (third.ownLines alternative)))

theorem attempt {role : Role} {items : List Piece}
    (first : FitsOn unit (indent + 1) (.block (indent + 1) role items)) :
    FitsOn unit indent (.attempt indent (.block (indent + 1) role items) none) :=
  .append (.plain rfl (first.clause List.mem_cons_self))
    (.lineBreak (Nat.le_refl _) (.plain rfl .nil))

theorem handled {role role' : Role} {items others : List Piece}
    (first : FitsOn unit (indent + 1) (.block (indent + 1) role items))
    (second : FitsOn unit (indent + 1) (.block (indent + 1) role' others)) :
    FitsOn unit indent (.attempt indent (.block (indent + 1) role items)
      (some (.block (indent + 1) role' others))) := by
  let whole := Piece.attempt indent (.block (indent + 1) role items)
    (some (.block (indent + 1) role' others))
  have handler : .block (indent + 1) role' others ∈ whole.parts := by simp [whole]
  exact .append (.plain rfl (first.clause List.mem_cons_self))
    (.lineBreak (Nat.le_refl _) (.plain rfl (second.clause handler)))

theorem header {header : Piece} (comprehension : Bool) (first : FitsOn unit indent header) :
    FitsOn unit indent (.loop indent header comprehension none) := by
  have head : AllFit (Piece.loop indent header comprehension none).texts indent
      (.plain "for " :: marks unit header) :=
    .plain rfl (first.within List.mem_cons_self)
  cases comprehension with
  | true => exact head
  | false => exact head.append (.plain rfl (.lineBreak (Nat.le_succ _) (.plain rfl .nil)))

theorem loop {header : Piece} {role : Role} {items : List Piece}
    (first : FitsOn unit indent header)
    (second : FitsOn unit (indent + 1) (.block (indent + 1) role items)) :
    FitsOn unit indent (.loop indent header false (some (.block (indent + 1) role items))) := by
  let whole := Piece.loop indent header false (some (.block (indent + 1) role items))
  have inside : .block (indent + 1) role items ∈ whole.parts := by simp [whole]
  exact .append (.plain rfl (first.within List.mem_cons_self))
    (.plain rfl (second.ownLines inside))

theorem cast {operand : Piece} (target : CastTarget) (fits : FitsOn unit level operand) :
    FitsOn unit level (.cast indent target operand) := by
  refine .append (.plain ?_ (.plain rfl (fits.within List.mem_cons_self))) (.plain rfl .nil)
  cases target <;> rfl

end FitsOn

section

variable {registry : Registry} {unit : String} {indent : Nat} {piece : Piece}

/-- A construct breaks its lines to its own level or deeper. By induction on how it was built, with
one lemma for each construct. -/
theorem fitsOn_of_built (built : Built registry indent piece) : FitsOn unit indent piece := by
  induction built with
  | token indent text => exact .token text
  | bare indent name named => exact .bare name named
  | binding name named inner ih => exact ih.binding name named
  | statement each ih => exact .statement ih
  | chain each ih => exact .chain ih
  | block role dense each ih => exact .block ih
  | array each ih => exact .array ih
  | indices each ih => exact .indices ih
  | access first each firstIh ih => exact firstIh.access ih
  | @call indent name arguments known each ih => exact .call name _ ih
  | length inner ih => exact .call "len" false (List.forall_mem_singleton.mpr ih)
  | function name bindings inline each body ih bodyIh => exact .function name ih bodyIh
  | struct name inline properties functions methods propertiesIh methodsIh =>
      refine .struct name propertiesIh fun member inside function => ?_
      refine methodsIh member inside ?_
      cases member with
      | function => rfl
      | _ => cases function
  | conditional first second firstIh secondIh => exact .conditional firstIh secondIh
  | branches first second third firstIh secondIh thirdIh =>
      exact .branches firstIh secondIh thirdIh
  | attempt first firstIh => exact .attempt firstIh
  | handled first second firstIh secondIh => exact .handled firstIh secondIh
  | header comprehension first ih => exact .header comprehension ih
  | loop first second firstIh secondIh => exact .loop firstIh secondIh
  | cast target inner ih => exact ih.cast target

end

/-! ### Bodies and the words between them -/

/-- A body on lines of its own. The first starts on `level`, and the others there or deeper. -/
def OwnLines (unit : String) (level : Nat) (body : Piece) (written : List Mark) : Prop :=
  ∃ inner, written = .lineBreak level :: inner ∧ AllFit body.texts level inner ∧
    Text.times unit level ++ flatten unit inner = renderBody unit body

/-- A body of one line, on the line of the word that announces it. -/
def SameLine (unit : String) (body : Piece) (written : List Mark) : Prop :=
  ∃ text, written = [.plain (" " ++ text)] ∧ Text.hasChar '\n' text = false ∧
    text = String.ofList (Text.trimStart (renderBody unit body).toList)

/-- Where the bodies of a construct on the level `indent` stand among its marks, and where the words
stand that announce the second of two. -/
inductive Layout (unit : String) (indent : Nat) : Piece → List Mark → Prop
  | struct {name : String} {members : List Piece} :
      Layout unit indent (.struct indent name members)
        (classMarks indent name (propertyMarks unit members) (methodMarks unit members))
  | function {name : String} {parameters : List Piece} {body : Piece} {head first : List Mark}
      (own : OwnLines unit (indent + 1) body first) :
      Layout unit indent (.function indent name parameters body)
        (.plain "def " :: head ++ .plain "):" :: first)
  | conditional {condition consequent : Piece} {first : List Mark}
      (own : OwnLines unit (indent + 1) consequent first) :
      Layout unit indent (.conditional indent condition consequent none)
        (.plain "if " :: marks unit condition ++ .plain ":" :: first)
  | branches {condition consequent alternative : Piece} {first second : List Mark}
      (own : OwnLines unit (indent + 1) consequent first)
      (other : OwnLines unit (indent + 1) alternative second) :
      Layout unit indent (.conditional indent condition consequent (some alternative))
        (.plain "if " :: marks unit condition ++ .plain ":" :: first ++
          .lineBreak indent :: .plain "else:" :: second)
  | attempt {attempted : Piece} {first : List Mark}
      (own : OwnLines unit (indent + 1) attempted first ∨ SameLine unit attempted first) :
      Layout unit indent (.attempt indent attempted none)
        (.plain "try:" :: first ++ [.lineBreak indent, .plain "except: pass"])
  | handled {attempted handler : Piece} {first second : List Mark}
      (own : OwnLines unit (indent + 1) attempted first ∨ SameLine unit attempted first)
      (other : OwnLines unit (indent + 1) handler second ∨ SameLine unit handler second) :
      Layout unit indent (.attempt indent attempted (some handler))
        (.plain "try:" :: first ++ .lineBreak indent :: .plain "except:" :: second)
  | comprehension {header : Piece} :
      Layout unit indent (.loop indent header true none) (.plain "for " :: marks unit header)
  /-- A loop without a body does nothing, on a line of its own. -/
  | header {header : Piece} :
      Layout unit indent (.loop indent header false none)
        (.plain "for " :: marks unit header ++
          [.plain ":", .lineBreak (indent + 1), .plain "pass"])
  | loop {header body : Piece} {first : List Mark} (own : OwnLines unit (indent + 1) body first) :
      Layout unit indent (.loop indent header false (some body))
        (.plain "for " :: marks unit header ++ .plain ":" :: first)

section

variable {registry : Registry} {unit : String} {indent level : Nat} {piece : Piece} {role : Role}
  {items : List Piece}

/-- A block that was built on a level is written with every line break on that level or deeper, and
the first of them on it. -/
theorem ownLines_of_built (built : Built registry level (.block level role items)) :
    OwnLines unit level (.block level role items)
      (.lineBreak level :: bodyMarks unit (.block level role items)) :=
  ⟨_, rfl, (fitsOn_of_built built).bodyMarks, flatten_bodyMarks unit (.block level role items)⟩

/-- A clause is on lines of its own, or it is one line behind the colon. -/
theorem clause_of_built (built : Built registry level (.block level role items)) :
    OwnLines unit level (.block level role items)
        (clauseMarks unit level (bodyMarks unit (.block level role items))) ∨
      SameLine unit (.block level role items)
        (clauseMarks unit level (bodyMarks unit (.block level role items))) := by
  have body := flatten_bodyMarks unit (.block level role items)
  rw [bodyLevel] at body
  rcases clauseMarks_cases unit level (bodyMarks unit (.block level role items)) with
    own | ⟨text, same, onLine, trimmed⟩
  · left
    rw [own]
    exact ownLines_of_built built
  · right
    rw [body] at trimmed
    exact ⟨text, same, onLine, trimmed⟩

/-- A construct that opens lines of its own is laid out as its kind demands: where its header is,
where its bodies are and what stands between them. -/
theorem layout_of_built (built : Built registry indent piece)
    (compound : piece.isCompound = true) : Layout unit indent piece (marks unit piece) := by
  cases built with
  | function name bindings inline each body => exact .function (ownLines_of_built body)
  | struct => exact .struct
  | conditional first second => exact .conditional (ownLines_of_built second)
  | branches first second third =>
      exact .branches (ownLines_of_built second) (ownLines_of_built third)
  | attempt first => exact .attempt (clause_of_built first)
  | handled first second => exact .handled (clause_of_built first) (clause_of_built second)
  | header comprehension first =>
      cases comprehension with
      | true => exact .comprehension
      | false => exact .header
  | loop first second => exact .loop (ownLines_of_built second)
  | _ => cases compound

end

end Python

end Maxscript
