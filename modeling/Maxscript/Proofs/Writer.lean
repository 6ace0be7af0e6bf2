import Maxscript.Proofs.Engine.Buffer
import Maxscript.Proofs.Text
import Maxscript.Proofs.Tree.Placement
import Maxscript.Writer

/-!
# Writing a tree is writing its pieces

The tree of a script is written by looking up the numbers that its nodes list. All of them are
there, and a node is written as the piece it stands for: if this is so for the parts of a piece, it
is so for the piece. The budget is never used up, since parts have smaller numbers.
-/

namespace Maxscript

open Python (joinLines lineBreak render renderBody renderEach renderItems renderMethods
  renderProperties splitLines)
open Tree (Element Kind Node count countAll elementAt elementsAt idAt idsAt kindAt)

/-! ### Lines -/

namespace Python

/-- The lines of a block, written from left to right. -/
def streamLines (lineBreak : String) (startsLine first : Bool) : List (Option String) → String
  | [] => ""
  | none :: rest => streamLines lineBreak true first rest
  | some text :: rest =>
    (if startsLine then if first then "" else lineBreak else " ") ++ text ++
      streamLines lineBreak false false rest

theorem exists_splitLines (items : List (Option String)) :
    ∃ line lines, splitLines items = line :: lines := by
  cases items with
  | nil => exact ⟨[], [], rfl⟩
  | cons item rest =>
      cases item with
      | none => exact ⟨[], splitLines rest, rfl⟩
      | some text =>
          rw [splitLines]
          cases splitLines rest with
          | nil => exact ⟨[text], [], rfl⟩
          | cons line lines => exact ⟨text :: line, lines, rfl⟩

def laterLines (lineBreak : String) (lines : List (List String)) : String :=
  String.join (((lines.filter fun line => !line.isEmpty).map (Text.joinWith " ")).map
    (lineBreak ++ ·))

@[simp] theorem laterLines_nil (lineBreak : String) (lines : List (List String)) :
    laterLines lineBreak ([] :: lines) = laterLines lineBreak lines := rfl

@[simp] theorem laterLines_cons (lineBreak text : String) (line : List String)
    (lines : List (List String)) :
    laterLines lineBreak ((text :: line) :: lines) =
      lineBreak ++ (text ++ String.join (line.map (" " ++ ·))) ++ laterLines lineBreak lines := by
  rw [← Text.joinWith_eq_join]
  exact String.join_cons

theorem streamLines_later (lineBreak : String) (items : List (Option String)) :
    streamLines lineBreak true false items = laterLines lineBreak (splitLines items) ∧
      ∀ line lines, splitLines items = line :: lines →
        streamLines lineBreak false false items =
          String.join (line.map (" " ++ ·)) ++ laterLines lineBreak lines := by
  induction items with
  | nil =>
      refine ⟨rfl, ?_⟩
      rintro line lines ⟨⟩
      rfl
  | cons item rest ih =>
      obtain ⟨fresh, running⟩ := ih
      cases item with
      | none =>
          refine ⟨fresh, ?_⟩
          rintro line lines ⟨⟩
          exact fresh.trans (String.empty_append).symm
      | some text =>
          obtain ⟨line, lines, split⟩ := exists_splitLines rest
          have whole : splitLines (some text :: rest) = (text :: line) :: lines := by
            rw [splitLines, split]
          have goes := running line lines split
          rw [whole, streamLines, streamLines, goes, laterLines_cons]
          refine ⟨by simp [String.append_assoc], ?_⟩
          rintro _ _ ⟨⟩
          simp [String.append_assoc]

/-- Writing items one by one gives the text that joining them by lines does. The stream only has to
know whether it is at the start of a line. -/
theorem streamLines_eq (lineBreak : String) (items : List (Option String)) :
    streamLines lineBreak true true items = joinLines lineBreak items := by
  induction items with
  | nil => rfl
  | cons item rest ih =>
      cases item with
      | none => exact ih
      | some text =>
          obtain ⟨line, lines, split⟩ := exists_splitLines rest
          have whole : splitLines (some text :: rest) = (text :: line) :: lines := by
            rw [splitLines, split]
          have later := (streamLines_later lineBreak rest).2 line lines split
          rw [streamLines, later, joinLines, whole]
          simp only [List.filter_cons, List.isEmpty_cons, Bool.not_false, if_true, List.map_cons,
            Text.joinWith_eq_join]
          simp [laterLines, String.append_assoc]

end Python

/-! ### Parts -/

/-- A condition on several pieces and the numbers that their first nodes get. -/
def Along (p : Nat → Piece → Prop) : Nat → List Piece → Prop
  | _, [] => True
  | start, piece :: rest => p start piece ∧ Along p (start + count piece) rest

namespace Along

variable {p q : Nat → Piece → Prop} {start : Nat} {pieces front back : List Piece}

theorem of_forall (each : ∀ front part back, pieces = front ++ part :: back →
    p (start + countAll front) part) : Along p start pieces := by
  induction pieces generalizing start with
  | nil => trivial
  | cons piece rest ih =>
      refine ⟨each [] piece rest rfl, ih fun front part back shape => ?_⟩
      have there := each (piece :: front) part back (congrArg (piece :: ·) shape)
      rwa [countAll, ← Nat.add_assoc] at there

theorem append (along : Along p start (front ++ back)) :
    Along p start front ∧ Along p (start + countAll front) back := by
  induction front generalizing start with
  | nil => exact ⟨trivial, along⟩
  | cons piece rest ih =>
      obtain ⟨others, behind⟩ := ih along.2
      rw [Nat.add_assoc] at behind
      exact ⟨⟨along.1, others⟩, behind⟩

theorem mono (along : Along p start pieces)
    (weaken : ∀ start piece, p start piece → q start piece) :
    Along q start pieces := by
  induction pieces generalizing start with
  | nil => trivial
  | cons piece rest ih => exact ⟨weaken start piece along.1, ih along.2⟩

end Along

namespace Writer

section

variable {unit : String} {tree : Tree} {write : Nat → Result String}

/-- A piece is written as its text. -/
def Written (unit : String) (write : Nat → Result String) (start : Nat) (piece : Piece) : Prop :=
  element write (elementAt start piece) = .ok (render unit piece)

/-- A piece is written as its text and so are its parts. Its node is in the tree. -/
structure Shown (unit : String) (tree : Tree) (write : Nat → Result String) (start : Nat)
    (piece : Piece) : Prop where
  written : Written unit write start piece
  node_eq : piece.text? = none →
    ∃ parent, tree.node (idAt start piece) = .ok ⟨kindAt start piece, piece.level, parent⟩
  parts : Along (Written unit write) start piece.parts

theorem Shown.write_eq {start : Nat} {piece : Piece} (shown : Shown unit tree write start piece)
    (construct : piece.text? = none) : write (idAt start piece) = .ok (render unit piece) := by
  have written := shown.written
  rwa [Written, Tree.elementAt_construct construct] at written

/-- A list of parts is written as it is rendered, if each of them is. The numbers in it are those
that the places of the parts give. -/
theorem elements_eq (separator : String) {start : Nat} {pieces : List Piece}
    (along : Along (Written unit write) start pieces) :
    elements write separator (elementsAt start pieces) =
      .ok (Text.joinWith separator (renderEach unit pieces)) := by
  have each : (elementsAt start pieces).mapM (element write) = .ok (renderEach unit pieces) := by
    induction pieces generalizing start with
    | nil => rfl
    | cons piece rest ih =>
        rw [elementsAt, List.mapM_cons, along.1, ih along.2]
        rfl
  rw [elements, each]
  rfl

theorem lines_eq (lineBreak : String) {start : Nat} {items : List Piece}
    (along : Along (Written unit write) start items) (startsLine first : Bool) :
    lines write lineBreak startsLine first (elementsAt start items) =
      .ok (Python.streamLines lineBreak startsLine first (renderItems unit items)) := by
  induction items generalizing start startsLine first with
  | nil => rfl
  | cons item rest ih =>
      rw [elementsAt, lines, renderItems, Piece.isNewline, is_seen_elementAt]
      by_cases newline : item.is "\n" = true
      · rw [if_pos newline, if_pos (show item.isNewline = true from newline)]
        exact ih along.2 true first
      · rw [if_neg newline, if_neg (show ¬item.isNewline = true from newline), along.1,
          ih along.2 false false]
        rfl

theorem isBlank_elementsAt (start : Nat) (items : List Piece) :
    isBlank (elementsAt start items) = Python.isBlank items := by
  induction items generalizing start with
  | nil => rfl
  | cons item rest ih =>
      rw [elementsAt, isBlank, List.all_cons, Python.isBlank, List.all_cons, Piece.isNewline,
        is_seen_elementAt]
      exact congrArg (item.is "\n" && ·) (ih (start + count item))

theorem blockLines_eq (level : Nat) {start : Nat} {items : List Piece}
    (written : Along (Written unit write) start items) :
    lines write (lineBreak unit level) true true (elementsAt start items) =
      .ok (joinLines (lineBreak unit level) (renderItems unit items)) := by
  rw [← Python.streamLines_eq]
  exact lines_eq _ written true true

/-- A block in the place of a body is written as one, and the writer has to look it up in the tree
to know that it is a block. -/
theorem body_eq {start : Nat} {piece : Piece} (isBlock : piece.isBlock = true)
    (shown : Shown unit tree write start piece) :
    body write unit tree (idAt start piece) = .ok (renderBody unit piece) := by
  cases piece with
  | block level role items =>
      obtain ⟨parent, found⟩ := shown.node_eq rfl
      have written : Along (Written unit write) start items := shown.parts
      rw [body, found, renderBody]
      change (if isBlank (elementsAt start items) then _ else
        lines write (lineBreak unit level) true true (elementsAt start items) >>= _) = _
      rw [isBlank_elementsAt, blockLines_eq level written]
      cases Python.isBlank items <;> rfl
  | _ => cases isBlock

/-- Constructs that were sorted are written in the new order. -/
theorem idsAt_eq (p : Piece → Bool) {start : Nat} {pieces : List Piece}
    (along : Along (Written unit write) start pieces)
    (constructs : ∀ piece ∈ pieces, piece.text? = none) :
    (idsAt p start pieces).mapM write = .ok ((pieces.filter p).map (render unit)) := by
  induction pieces generalizing start with
  | nil => rfl
  | cons piece rest ih =>
      obtain ⟨construct, others⟩ := List.forall_mem_cons.mp constructs
      have first := along.1
      rw [Written, Tree.elementAt_construct construct] at first
      rw [idsAt, List.filter_cons]
      split
      · rw [List.mapM_cons, ih along.2 others]
        change (element write (.node (idAt start piece)) >>= _) = _
        rw [first]
        rfl
      · exact ih along.2 others

theorem renderEach_eq_map (unit : String) (pieces : List Piece) :
    renderEach unit pieces = pieces.map (render unit) := by
  induction pieces with
  | nil => rfl
  | cons piece rest ih => rw [renderEach, ih, List.map_cons]

/-- Parameters are written in the order in which the function lists them, those with a colon last.
-/
theorem parameters_eq {start : Nat} {parameters : List Piece}
    (along : Along (Written unit write) start parameters)
    (constructs : ∀ parameter ∈ parameters, parameter.text? = none) :
    elements write ", " ((idsAt (!·.isNamed) start parameters ++
        idsAt (·.isNamed) start parameters).map .node) =
      .ok (Text.joinWith ", " (Python.namedLast
        ((parameters.map Piece.isNamed).zip (renderEach unit parameters)))) := by
  have sorted : Python.namedLast ((parameters.map Piece.isNamed).zip (renderEach unit parameters)) =
      (parameters.filter (!·.isNamed)).map (render unit) ++
        (parameters.filter (·.isNamed)).map (render unit) := by
    rw [renderEach_eq_map, List.zip_map', Python.namedLast, List.partition_eq_filter_filter]
    dsimp only
    rw [List.map_append, List.filter_map, List.filter_map, List.map_map, List.map_map]
    rfl
  rw [elements, List.mapM_map, sorted]
  change ((idsAt (!·.isNamed) start parameters ++ idsAt (·.isNamed) start parameters).mapM write >>=
    _) = _
  rw [List.mapM_append, idsAt_eq _ along constructs, idsAt_eq _ along constructs]
  rfl

/-- Properties are looked up by their numbers, as the struct needs their names and values and not
their text. -/
theorem properties_eq {start : Nat} {members : List Piece}
    (along : Along (Shown unit tree write) start members) :
    properties write tree (idsAt (·.isBinding) start members) =
      .ok (renderProperties unit members) := by
  have sorted : ∃ kinds,
      (idsAt (·.isBinding) start members).mapM (fun id => Node.kind <$> tree.node id) = .ok kinds ∧
      (kinds.filterMap Kind.property?).mapM (fun property =>
        Prod.mk property.1 <$> optional write "None" property.2) =
        .ok (renderProperties unit members) := by
    induction members generalizing start with
    | nil => exact ⟨[], rfl, rfl⟩
    | cons member rest ih =>
        obtain ⟨kinds, found, texts⟩ := ih along.2
        cases member with
        | binding indent name value named =>
            obtain ⟨parent, node_eq⟩ := along.1.node_eq rfl
            refine ⟨.binding name (value.map (elementAt start)) :: kinds, ?_, ?_⟩
            · change (List.mapM _ (idAt start _ :: idsAt _ _ rest)) = _
              rw [List.mapM_cons, node_eq, found]
              rfl
            · cases value with
              | none =>
                  change (List.mapM _ ((name, none) :: kinds.filterMap Kind.property?)) = _
                  rw [List.mapM_cons, texts]
                  rfl
              | some value =>
                  have written : element write (elementAt start value) = _ := along.1.parts.1
                  change (List.mapM _ ((name, some (elementAt start value)) ::
                    kinds.filterMap Kind.property?)) = _
                  rw [List.mapM_cons, texts, optional, written]
                  rfl
        | _ => exact ⟨kinds, found, texts⟩
  obtain ⟨kinds, found, texts⟩ := sorted
  rw [properties, found]
  exact texts

theorem methods_eq {members : List Piece}
    (functions : ∀ member ∈ members, member.isBinding = false → member.isFunction = true) :
    (members.filter (!·.isBinding)).map (render unit) = renderMethods unit members := by
  induction members with
  | nil => rfl
  | cons member rest ih =>
      obtain ⟨first, others⟩ := List.forall_mem_cons.mp functions
      cases member with
      | binding indent name value named =>
          cases value <;> exact ih others
      | function indent name parameters body => exact congrArg (_ :: ·) (ih others)
      | _ => cases first rfl

/-! ### Constructs -/

section

variable {start level : Nat}

theorem block_eq (role : Role) {items : List Piece}
    (written : Along (Written unit write) start items) :
    kind write unit tree level (kindAt start (.block level role items)) =
      .ok (render unit (.block level role items)) := by
  rw [kindAt, kind, isBlank_elementsAt, blockLines_eq level written, render]
  cases Python.isBlank items <;> rfl

theorem array_eq {parts : List Piece} (written : Along (Written unit write) start parts) :
    kind write unit tree level (kindAt start (.array level parts)) =
      .ok (render unit (.array level parts)) := by
  rw [kindAt, kind, elements_eq ", " written]
  rfl

theorem call_eq (name : String) {arguments : List Piece} (builtin : Bool)
    (written : Along (Written unit write) start arguments) :
    kind write unit tree level (kindAt start (.call level name arguments builtin)) =
      .ok (render unit (.call level name arguments builtin)) := by
  rw [kindAt, kind, elements_eq ", " written]
  rfl

theorem onlyIndex_eq {indices : List Piece} (written : Along (Written unit write) start indices) :
    onlyIndex write (elementsAt start indices) =
      .ok (Python.onlyIndex (renderEach unit indices)) := by
  match indices, written with
  | [], _ => rfl
  | [index], written => exact written.1
  | _ :: _ :: _, _ => rfl

theorem access_eq {base : Option Piece} {indices : List Piece}
    (written : Along (Written unit write) start (base.toList ++ indices)) :
    kind write unit tree level (kindAt start (.access level base indices)) =
      .ok (render unit (.access level base indices)) := by
  obtain ⟨first, others⟩ := written.append
  rw [kindAt, kind, onlyIndex_eq others]
  cases base with
  | none => rfl
  | some base =>
      rw [Option.map_some, optional, first.1]
      rfl

theorem function_eq (name : String) {parameters : List Piece} {inner : Piece}
    (constructs : ∀ parameter ∈ parameters, parameter.text? = none) (isBlock : inner.isBlock = true)
    (along : Along (Shown unit tree write) start (parameters ++ [inner])) :
    kind write unit tree level (kindAt start (.function level name parameters inner)) =
      .ok (render unit (.function level name parameters inner)) := by
  obtain ⟨first, behind⟩ := along.append
  rw [kindAt, kind, parameters_eq (first.mono fun _ _ shown => shown.written) constructs, render]
  change (body write unit tree _ >>= _) = _
  rw [body_eq isBlock behind.1]
  rfl

theorem struct_eq (name : String) {members : List Piece}
    (constructs : ∀ member ∈ members, member.text? = none)
    (functions : ∀ member ∈ members, member.isBinding = false → member.isFunction = true)
    (along : Along (Shown unit tree write) start members) :
    kind write unit tree level (kindAt start (.struct level name members)) =
      .ok (render unit (.struct level name members)) := by
  have written := along.mono fun _ _ shown => shown.written
  rw [kindAt, kind, properties_eq along, idsAt_eq _ written constructs, methods_eq functions]
  rfl

theorem conditional_eq {condition consequent : Piece} {alternative : Option Piece}
    (construct : condition.text? = none)
    (blocks : ∀ branch ∈ consequent :: alternative.toList, branch.isBlock = true)
    (along : Along (Shown unit tree write) start
      (condition :: consequent :: alternative.toList)) :
    kind write unit tree level
        (kindAt start (.conditional level condition consequent alternative)) =
      .ok (render unit (.conditional level condition consequent alternative)) := by
  obtain ⟨second, third⟩ := List.forall_mem_cons.mp blocks
  rw [kindAt, kind, along.1.write_eq construct, body_eq second along.2.1]
  cases alternative with
  | none => rfl
  | some alternative =>
      change (body write unit tree _ >>= _) = _
      rw [body_eq (third alternative List.mem_cons_self) along.2.2.1]
      rfl

theorem attempt_eq {attempted : Piece} {handler : Option Piece}
    (blocks : ∀ part ∈ attempted :: handler.toList, part.isBlock = true)
    (along : Along (Shown unit tree write) start (attempted :: handler.toList)) :
    kind write unit tree level (kindAt start (.attempt level attempted handler)) =
      .ok (render unit (.attempt level attempted handler)) := by
  obtain ⟨first, second⟩ := List.forall_mem_cons.mp blocks
  rw [kindAt, kind, body_eq first along.1]
  cases handler with
  | none =>
      have last : "except:" ++ " pass" = "except: pass" := by decide
      rw [render, ← last, ← String.append_assoc]
      rfl
  | some handler =>
      change (body write unit tree _ >>= _) = _
      rw [body_eq (second handler List.mem_cons_self) along.2.1]
      rfl

theorem loop_eq {header : Piece} {inner : Option Piece} (comprehension : Bool)
    (construct : header.text? = none) (blocks : ∀ part ∈ inner.toList, part.isBlock = true)
    (along : Along (Shown unit tree write) start (header :: inner.toList)) :
    kind write unit tree level (kindAt start (.loop level header comprehension inner)) =
      .ok (render unit (.loop level header comprehension inner)) := by
  rw [kindAt, kind, along.1.write_eq construct]
  cases comprehension with
  | true => cases inner <;> rfl
  | false =>
      cases inner with
      | none => rfl
      | some inner =>
          change (body write unit tree _ >>= _) = _
          rw [body_eq (blocks inner List.mem_cons_self) along.2.1]
          rfl

end

/-- A node is written as the piece it stands for if its parts are. There is one case for each kind
of construct, and it is the lemma above of that name. -/
theorem kind_eq {registry : Registry} {level start : Nat} {piece : Piece}
    (built : Built registry level piece) (construct : piece.text? = none)
    (along : Along (Shown unit tree write) start piece.parts) :
    kind write unit tree piece.level (kindAt start piece) = .ok (render unit piece) := by
  have written := along.mono fun _ _ shown => shown.written
  cases built with
  | token indent text => cases construct
  | bare indent name named => rfl
  | binding name named inner =>
      rw [kindAt, Option.map_some, kind, written.1]
      rfl
  | statement each => exact elements_eq " " written
  | chain each =>
      rw [render, ← Text.joinWith_empty]
      exact elements_eq "" written
  | block role dense each => exact block_eq role written
  | array each => exact array_eq written
  | indices each => exact access_eq written
  | access first each => exact access_eq written
  | call known each => exact call_eq _ _ written
  | length inner => exact call_eq _ _ written
  | function name bindings inline each body =>
      refine function_eq name (fun parameter member => ?_) rfl along
      exact Piece.text?_eq_none Piece.isBinding (fun _ => rfl) (bindings parameter member)
  | struct name inline properties functions methods =>
      refine struct_eq name (fun member inside => ?_) functions along
      cases isBinding : member.isBinding with
      | true => exact Piece.text?_eq_none Piece.isBinding (fun _ => rfl) isBinding
      | false =>
          exact Piece.text?_eq_none Piece.isFunction (fun _ => rfl)
            (functions member inside isBinding)
  | conditional first second => exact conditional_eq rfl (by simp [Piece.isBlock]) along
  | branches first second third => exact conditional_eq rfl (by simp [Piece.isBlock]) along
  | attempt first => exact attempt_eq (by simp [Piece.isBlock]) along
  | handled first second => exact attempt_eq (by simp [Piece.isBlock]) along
  | header comprehension first => exact loop_eq comprehension rfl (by simp) along
  | loop first second => exact loop_eq false rfl (by simp [Piece.isBlock]) along
  | cast target inner =>
      rw [kindAt, kind, written.1]
      rfl

end

section

variable {registry : Registry} {body piece : Piece} {start parent budget : Nat} {unit : String}

/-- Constructs with numbers below the budget are written as their texts. -/
structure Covers (registry : Registry) (unit : String) (body : Piece) (budget : Nat)
    (write : Nat → Result String) : Prop where
  write_eq : ∀ {piece : Piece} {start parent level : Nat}, Tree.Placed body start parent piece →
    Built registry level piece → piece.text? = none → idAt start piece < budget →
    write (idAt start piece) = .ok (render unit piece)

variable {write : Nat → Result String}

theorem Covers.written (covers : Covers registry unit body budget write)
    (placed : Tree.Placed body start parent piece) (built : ∃ level, Built registry level piece)
    (inside : start + count piece ≤ budget) : Written unit write start piece := by
  obtain ⟨level, built⟩ := built
  cases isText : piece.text? with
  | some text =>
      obtain rfl := Piece.eq_token_of_text? isText
      rfl
  | none =>
      have number := Tree.idAt_eq isText start
      have size := Tree.count_eq isText
      rw [Written, Tree.elementAt_construct isText]
      exact covers.write_eq placed built isText (by omega)

/-- The parts of a construct have numbers below its own, so a budget that is enough for it is enough
for them. -/
theorem along_parts {p : Nat → Piece → Prop} (placed : Tree.Placed body start parent piece)
    (built : ∃ level, Built registry level piece) (inside : start + countAll piece.parts ≤ budget)
    (each : ∀ {start parent : Nat} {part : Piece}, Tree.Placed body start parent part →
      (∃ level, Built registry level part) → start + count part ≤ budget → p start part) :
    Along p start piece.parts := by
  obtain ⟨level, built⟩ := built
  refine .of_forall fun front part back shape => ?_
  have size := congrArg countAll shape
  rw [Tree.countAll_append, countAll] at size
  exact each (placed.part shape) (built.parts part (Piece.mem_parts_of_eq shape)) (by omega)

theorem Covers.shown (covers : Covers registry unit body budget write)
    (placed : Tree.Placed body start parent piece) (built : ∃ level, Built registry level piece)
    (inside : start + count piece ≤ budget) : Shown unit (.ofBody body) write start piece where
  written := covers.written placed built inside
  node_eq construct := by
    refine ⟨some parent, ?_⟩
    rw [Tree.node, placed.getElem? construct]
  parts := by
    cases isText : piece.text? with
    | some text =>
        obtain rfl := Piece.eq_token_of_text? isText
        trivial
    | none =>
        have size := Tree.count_eq isText
        exact along_parts placed built (by omega) covers.written

/-- The writer with some budget covers as many numbers. By induction on the budget, since a node
only lists nodes with smaller numbers. -/
theorem covers_node (registry : Registry) (unit : String) (body : Piece) (budget : Nat) :
    Covers registry unit body budget (node unit (.ofBody body) budget) := by
  induction budget with
  | zero => exact ⟨fun _ _ _ enough => absurd enough (Nat.not_lt_zero _)⟩
  | succ budget ih =>
      refine ⟨fun {piece start parent level} placed built construct enough => ?_⟩
      have number := Tree.idAt_eq construct start
      have shown := along_parts placed ⟨level, built⟩ (by omega) ih.shown
      rw [node, Tree.node, placed.getElem? construct]
      exact kind_eq built construct shown

end

end Writer

namespace Tree

/-- The tree of a script is written as the script is: the budget of the writer is the number of
nodes, and this is never used up. -/
theorem write_eq {registry : Registry} {body : Piece} (unit : String)
    (isBlock : body.isBlock = true)
    (built : ∃ level, Built registry level body) :
    (ofBody body).write unit = .ok (renderBody unit body) := by
  have size : 1 + count body ≤ (ofBody body).size := by
    rw [Tree.size, ofBody, List.length_cons, length_layOut]
    omega
  exact Writer.body_eq isBlock ((Writer.covers_node registry unit body _).shown .body built size)

end Tree

end Maxscript
