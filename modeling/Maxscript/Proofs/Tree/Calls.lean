import Maxscript.Proofs.Engine.Block
import Maxscript.Proofs.Tree.Placement

/-!
# Calls in the tree of a script

Names become calls because the registry knows them. The only other calls are those of `len`, which
stand for a `count` at the end of the members of something. Whether a known function is one of the
host is no more than a mark on its calls: registries that know the same functions give the same tree
up to these marks.
-/

namespace Maxscript.Tree

open Reader (Ask CountedBehind InStep IsMade Lift applyMembers)

/-! ### Trees without marks -/

/-- Leaves out whether a call is one of the host. -/
def Kind.unmarked : Kind → Kind
  | .call name arguments _ => .call name arguments false
  | kind => kind

def Node.unmarked (node : Node) : Node := { node with kind := node.kind.unmarked }

def unmarked (tree : Tree) : Tree := { tree with nodes := tree.nodes.map Node.unmarked }

/-- Two pieces have the same nodes wherever they stand, up to the marks of calls. -/
structure SameNodes (piece piece' : Piece) : Prop where
  text : piece.text? = piece'.text?
  isBinding : piece.isBinding = piece'.isBinding
  isNamed : piece.isNamed = piece'.isNamed
  count : count piece = count piece'
  nodes : ∀ start parent, (layOut start parent piece).map Node.unmarked =
    (layOut start parent piece').map Node.unmarked

namespace SameNodes

variable {piece piece' : Piece} {value value' : Option Piece} {pieces pieces' : List Piece}

theorem idAt (same : SameNodes piece piece') (start : Nat) :
    idAt start piece = idAt start piece' := by
  rw [Tree.idAt, Tree.idAt, same.count]

theorem elementAt (same : SameNodes piece piece') (start : Nat) :
    elementAt start piece = elementAt start piece' := by
  cases isText : piece.text? with
  | some text =>
      rw [Piece.eq_token_of_text? isText, Piece.eq_token_of_text? (same.text.symm.trans isText)]
  | none =>
      rw [elementAt_construct isText, elementAt_construct (same.text.symm.trans isText),
        same.idAt start]

theorem map {α : Type} {f : Piece → α} (same : Option.Rel SameNodes value value')
    (kept : ∀ {piece piece'}, SameNodes piece piece' → f piece = f piece') :
    value.map f = value'.map f := by
  cases same with
  | none => rfl
  | some same => exact congrArg some (kept same)

theorem countAll (same : List.Forall₂ SameNodes pieces pieces') :
    countAll pieces = countAll pieces' := by
  induction same with
  | nil => rfl
  | cons first rest ih => rw [Tree.countAll, Tree.countAll, first.count, ih]

theorem elementsAt (same : List.Forall₂ SameNodes pieces pieces') (start : Nat) :
    elementsAt start pieces = elementsAt start pieces' := by
  induction same generalizing start with
  | nil => rfl
  | cons first rest ih =>
      rw [Tree.elementsAt, Tree.elementsAt, first.elementAt, first.count, ih]

theorem idsAt (same : List.Forall₂ SameNodes pieces pieces') {p : Piece → Bool}
    (kept : ∀ {piece piece'}, SameNodes piece piece' → p piece = p piece') (start : Nat) :
    idsAt p start pieces = idsAt p start pieces' := by
  induction same generalizing start with
  | nil => rfl
  | cons first rest ih =>
      rw [Tree.idsAt, Tree.idsAt, kept first, first.idAt, first.count, ih]

theorem layOutAll (same : List.Forall₂ SameNodes pieces pieces') (start parent : Nat) :
    (layOutAll start parent pieces).map Node.unmarked =
      (layOutAll start parent pieces').map Node.unmarked := by
  induction same generalizing start with
  | nil => rfl
  | cons first rest ih =>
      rw [Tree.layOutAll, Tree.layOutAll, List.map_append, List.map_append, first.nodes,
        first.count, ih]

/-- Constructs have the same nodes if their parts do and they differ at most in a mark. Numbers
depend on how many nodes come before, and so on the parts only. -/
theorem of_parts (parts : List.Forall₂ SameNodes piece.parts piece'.parts)
    (construct : piece.text? = none ∧ piece'.text? = none)
    (isBinding : piece.isBinding = piece'.isBinding) (isNamed : piece.isNamed = piece'.isNamed)
    (level : piece.level = piece'.level)
    (kind : ∀ start, (kindAt start piece).unmarked = (kindAt start piece').unmarked) :
    SameNodes piece piece' where
  text := construct.1.trans construct.2.symm
  isBinding := isBinding
  isNamed := isNamed
  count := by rw [count_eq construct.1, count_eq construct.2, countAll parts]
  nodes start parent := by
    rw [layOut_eq construct.1, layOut_eq construct.2, List.map_append, List.map_append,
      countAll parts, layOutAll parts]
    simp only [List.map_cons, List.map_nil, Node.unmarked, kind, level]

theorem kindAt (lift : Lift SameNodes piece piece') (start : Nat) :
    kindAt start piece = kindAt start piece' := by
  cases lift with
  | binding h => rw [Tree.kindAt, Tree.kindAt, map h fun same => same.elementAt start]
  | statement h => rw [Tree.kindAt, Tree.kindAt, elementsAt h]
  | chain h => rw [Tree.kindAt, Tree.kindAt, elementsAt h]
  | block h => rw [Tree.kindAt, Tree.kindAt, elementsAt h]
  | array h => rw [Tree.kindAt, Tree.kindAt, elementsAt h]
  | access hbase h =>
      rw [Tree.kindAt, Tree.kindAt, map hbase fun same => same.elementAt start,
        countAll (Reader.forall₂_toList hbase), elementsAt h]
  | function h hbody =>
      rw [Tree.kindAt, Tree.kindAt, idsAt h fun same => same.isNamed,
        idsAt h fun same => congrArg (!·) same.isNamed, countAll h, hbody.idAt]
  | struct h =>
      rw [Tree.kindAt, Tree.kindAt, idsAt h fun same => same.isBinding,
        idsAt h fun same => congrArg (!·) same.isBinding]
  | conditional hcondition hconsequent halternative =>
      rw [Tree.kindAt, Tree.kindAt, hcondition.idAt, hcondition.count, hconsequent.idAt,
        hconsequent.count, map halternative fun same => same.idAt _]
  | attempt hattempted hhandler =>
      rw [Tree.kindAt, Tree.kindAt, hattempted.idAt, hattempted.count,
        map hhandler fun same => same.idAt _]
  | loop hheader hbody =>
      rw [Tree.kindAt, Tree.kindAt, hheader.idAt, hheader.count,
        map hbody fun same => same.idAt _]
  | cast h => rw [Tree.kindAt, Tree.kindAt, h.elementAt]

/-- One construct around parts with the same nodes has the same nodes. This and the lemma about
calls are all that reading in step asks for. -/
theorem of_lift (lift : Lift SameNodes piece piece') : SameNodes piece piece' := by
  refine of_parts lift.parts lift.text?_eq_none ?_ ?_ ?_ fun start => by rw [kindAt lift]
  all_goals cases lift <;> rfl

/-- The mark of a call does not count, so a function may be one of the host for one registry and not
for the other. -/
theorem call {indent : Nat} {name : String} {arguments arguments' : List Piece}
    (same : List.Forall₂ SameNodes arguments arguments') (builtin builtin' : Bool) :
    SameNodes (.call indent name arguments builtin) (.call indent name arguments' builtin') := by
  refine of_parts same ⟨rfl, rfl⟩ rfl rfl rfl fun start => ?_
  rw [Tree.kindAt, Tree.kindAt, elementsAt same]
  rfl

end SameNodes

/-- Registries that know the same functions are read with in step. Only whether a name is known
decides what is read, and not by which list. -/
theorem inStep_sameNodes {registry other : Registry}
    (known : ∀ name, registry.isKnownFunction name = other.isKnownFunction name)
    (tokens : List String) (asks : Ask → Prop) : InStep tokens asks registry other SameNodes where
  token text := ⟨rfl, rfl, rfl, rfl, fun _ _ => rfl⟩
  text? same := same.text
  lift made := .of_lift made
  length _ same := .call (.cons same .nil) false false
  known _ := by rw [Registry.isKnownCall, Registry.isKnownCall, funext known]
  call _ _ same := .call same _ _

/-- Registries with the same renames that know the same functions give the same tree, up to which
calls are marked as calls of the host, or refuse a script for the same reason. -/
theorem readScript_unmarked_eq {registry other : Registry}
    (renames : registry.renames = other.renames)
    (functions : ∀ key, key ∈ registry.builtins ∨ key ∈ registry.userFunctions ↔
      key ∈ other.builtins ∨ key ∈ other.userFunctions) (source : String) :
    Agree (fun body body' => (ofBody body).unmarked = (ofBody body').unmarked)
      (readScript registry source) (readScript other source) := by
  have known (name : String) : registry.isKnownFunction name = other.isKnownFunction name := by
    rw [Bool.eq_iff_iff]
    simpa [Registry.isKnownFunction, Registry.isBuiltin, Registry.isUserFunction]
      using functions (Unicode.lower name)
  have tokens : Token.ofSource registry source = Token.ofSource other source := by
    simp only [Token.ofSource, Token.applyRenames, Registry.rename?, renames]
  rw [readScript, readScript, ← tokens]
  refine (readBlock_agrees (inStep_sameNodes known _ _) .root).mono ?_
  intro body body' same
  simp only [ofBody, unmarked, List.map_cons, same.nodes, same.idAt]

/-- The calls of `f` are marked if it is a function of the host. Nothing else depends on that. -/
theorem host_calls_unmarked_eq :
    ∃ body body', readScript { builtins := {"f"} } "x = g.f (f 1)" = .ok body ∧
      readScript { userFunctions := {"f"} } "x = g.f (f 1)" = .ok body' ∧
      (ofBody body).unmarked = (ofBody body').unmarked ∧
      (ofBody body).nodes[1]? = some ⟨.call "f" [.token "1"] true, 0, some 2⟩ ∧
      (ofBody body').nodes[1]? = some ⟨.call "f" [.token "1"] false, 0, some 2⟩ := by
  have marked : (fun body => (ofBody body).nodes[1]?) <$>
      readScript { builtins := {"f"} } "x = g.f (f 1)" =
        .ok (some ⟨.call "f" [.token "1"] true, 0, some 2⟩) := by
    decide +kernel
  have unmarked : (fun body => (ofBody body).nodes[1]?) <$>
      readScript { userFunctions := {"f"} } "x = g.f (f 1)" =
        .ok (some ⟨.call "f" [.token "1"] false, 0, some 2⟩) := by
    decide +kernel
  obtain ⟨body, read, found⟩ := exists_ok_of_map marked
  obtain ⟨body', read', found'⟩ := exists_ok_of_map unmarked
  have agrees := @readScript_unmarked_eq { builtins := {"f"} } { userFunctions := {"f"} } rfl
    (fun _ => or_comm) "x = g.f (f 1)"
  rw [read, read'] at agrees
  exact ⟨body, body', read, read', agrees, found, found'⟩

/-! ### Where calls come from -/

/-- The registry knows the function that is called, by its name or by the last segment of it, and
the call is marked if the host has that function. -/
structure IsRegistered (registry : Registry) (name : String) (builtin : Bool) : Prop where
  word : Token.isWord name = true
  known : registry.isKnownFunction name = true ∨
    ∃ segment ∈ Registry.lastSegment? name, registry.isKnownFunction segment = true
  marked : builtin = true ↔ registry.isBuiltin name = true ∨
    ∃ segment ∈ Registry.lastSegment? name, registry.isBuiltin segment = true

/-- A call that is read is one of a function under one of the two names that it is looked up by,
with the mark of the list it is in. -/
theorem isRegistered_of_isKnownCall {registry : Registry} {name : String}
    (h : registry.isKnownCall name = true) :
    IsRegistered registry name (registry.isBuiltinCall name) := by
  rw [Registry.isKnownCall, Bool.and_eq_true, Bool.or_eq_true, Option.any_eq_true] at h
  refine ⟨h.1, h.2, ?_⟩
  rw [Registry.isBuiltinCall, Bool.or_eq_true, Option.any_eq_true]
  exact Iff.rfl

/-- A registry without functions knows none under any name. -/
theorem IsRegistered.exists_function {registry : Registry} {name : String} {builtin : Bool}
    (registered : IsRegistered registry name builtin) :
    registry.builtins ≠ ∅ ∨ registry.userFunctions ≠ ∅ := by
  have found {text : String} (known : registry.isKnownFunction text = true) :
      registry.builtins ≠ ∅ ∨ registry.userFunctions ≠ ∅ := by
    rw [← not_and_or]
    rintro ⟨noBuiltins, noFunctions⟩
    simp [Registry.isKnownFunction, Registry.isBuiltin, Registry.isUserFunction, noBuiltins,
      noFunctions] at known
  rcases registered.known with whole | ⟨segment, -, last⟩
  · exact found whole
  · exact found last

/-- While the script is read, the reader comes to an operand whose members end in `count`. Joined
with the members before that `count`, the operand is what is counted. -/
def IsCounted (registry : Registry) (tokens : List String) (counted : Piece) : Prop :=
  ∃ base words, CountedBehind tokens (IsMade registry 0 tokens) base words ∧
    counted = applyMembers base words.reverse

/-- A piece that is a call is one of a registered function, or that of `len` for a `count`. -/
def IsGrounded (registry : Registry) (tokens : List String) : Piece → Prop
  | .call _ name arguments builtin =>
    IsRegistered registry name builtin ∨
      name = "len" ∧ builtin = false ∧ ∃ counted, arguments = [counted] ∧
        IsCounted registry tokens counted
  | _ => True

/-- All calls in a piece are grounded. -/
inductive Grounded (registry : Registry) (tokens : List String) : Piece → Prop
  | intro {piece : Piece} (own : IsGrounded registry tokens piece)
      (parts : ∀ part ∈ piece.parts, Grounded registry tokens part) : Grounded registry tokens piece

theorem Placed.grounded {registry : Registry} {tokens : List String} {body piece : Piece}
    {start parent : Nat} (placed : Placed body start parent piece)
    (grounded : Grounded registry tokens body) : Grounded registry tokens piece := by
  induction placed with
  | body => exact grounded
  | part inside shape ih =>
      obtain ⟨-, parts⟩ := ih
      exact parts _ (Piece.mem_parts_of_eq shape)

/-- A reader is in step with itself, and all that it makes is grounded. What is said about one
reading is proved as a statement about two equal ones. -/
theorem inStep_grounded (registry : Registry) (tokens : List String) :
    InStep tokens (IsMade registry 0 tokens) registry registry
      fun piece piece' => Grounded registry tokens piece ∧ piece = piece' where
  token text := ⟨.intro trivial (List.forall_mem_nil _), rfl⟩
  text? same := congrArg Piece.text? same.2
  lift made := by
    have own := ((List.forall₂_and_left _ _).mp made.parts).1
    refine ⟨.intro ?_ own, made.eq And.right⟩
    cases made <;> trivial
  length behind counted := by
    refine ⟨.intro (.inr ⟨rfl, rfl, _, rfl, _, _, behind, rfl⟩) ?_, by rw [counted.2]⟩
    exact List.forall_mem_singleton.mpr counted.1
  known _ := rfl
  call _ known same := by
    have grounded := ((List.forall₂_and_left _ _).mp same).1
    refine ⟨.intro (.inl (isRegistered_of_isKnownCall known)) grounded, ?_⟩
    rw [Reader.eq_of_forall₂ same And.right]

/-- The node `id` calls `len` with one argument, which is counted in the script. -/
structure IsLength (registry : Registry) (tokens : List String) (body : Piece) (id : Nat)
    (name : String) (arguments : List Element) (builtin : Bool) : Prop where
  name_eq : name = "len"
  unmarked : builtin = false
  counted : ∃ start counted, Placed body start id counted ∧ arguments = [elementAt start counted] ∧
    IsCounted registry tokens counted

theorem Placed.call_grounded {registry : Registry} {tokens : List String} {body : Piece}
    {start parent level : Nat} {name : String} {given : List Piece} {builtin : Bool}
    (placed : Placed body start parent (.call level name given builtin))
    (grounded : Grounded registry tokens body) :
    IsRegistered registry name builtin ∨
      IsLength registry tokens body (idAt start (.call level name given builtin)) name
        (elementsAt start given) builtin := by
  obtain ⟨own, -⟩ := placed.grounded grounded
  rcases own with registered | ⟨isLen, unmarked, counted, rfl, isCounted⟩
  · exact .inl registered
  · have only : (Piece.call level name [counted] builtin).parts = [] ++ counted :: [] := rfl
    exact .inr ⟨isLen, unmarked, start, counted, placed.part only, rfl, isCounted⟩

/-- All calls in what a script is read to are grounded. -/
theorem readScript_grounded {registry : Registry} {source : String} {body : Piece}
    (read : readScript registry source = .ok body) :
    Grounded registry (Token.ofSource registry source) body := by
  have agrees : Agree _ (readScript registry source) (readScript registry source) :=
    readBlock_agrees (inStep_grounded registry (Token.ofSource registry source)) .root
  rw [read] at agrees
  exact agrees.1

/-- Every call in the tree of a script is one of a function that the registry knows, or that of
`len` for a `count` at the end of the members of something. If the registry knows no functions, only
the latter is left. -/
theorem readTree_calls_grounded {registry : Registry} {source : String} {tree : Tree}
    (read : readTree registry source = .ok tree) {id indent : Nat} {parent : Option Nat}
    {name : String} {arguments : List Element} {builtin : Bool}
    (found : tree.nodes[id]? = some ⟨.call name arguments builtin, indent, parent⟩) :
    ∃ body, readScript registry source = .ok body ∧ tree = ofBody body ∧
      (IsRegistered registry name builtin ∨
        IsLength registry (Token.ofSource registry source) body id name arguments builtin) ∧
      (registry.builtins = ∅ → registry.userFunctions = ∅ →
        IsLength registry (Token.ofSource registry source) body id name arguments builtin) := by
  rw [readTree_eq] at read
  obtain ⟨body, script, rfl⟩ := exists_ok_of_map read
  refine ⟨body, script, rfl, ?_⟩
  have notRoot : id ≠ root := by
    rintro rfl
    cases Option.some.inj found
  obtain ⟨start, owner, piece, placed, -, rfl, shape⟩ := exists_placed found notRoot
  obtain ⟨kind, -, -⟩ := Node.mk.inj shape
  cases piece with
  | call level called given mark =>
      obtain ⟨rfl, rfl, rfl⟩ := Kind.call.inj kind
      have grounded := placed.call_grounded (readScript_grounded script)
      refine ⟨grounded, fun noBuiltins noFunctions => ?_⟩
      refine grounded.resolve_left fun registered => ?_
      rcases registered.exists_function with some | some
      · exact some noBuiltins
      · exact some noFunctions
  | _ => cases kind

/-- A registry that knows `f` makes a call of it. The `count` is a call for every registry. -/
theorem counted_argument_grounded :
    (∃ body, readScript { builtins := {"f"} } "f a.b.count" = .ok body ∧
      (ofBody body).nodes[2]? = some ⟨.call "f" [.node 1] true, 0, some 3⟩ ∧
      IsRegistered { builtins := {"f"} } "f" true) ∧
    ∃ body, readScript Registry.empty "f a.b.count" = .ok body ∧
      (ofBody body).nodes[1]? = some ⟨.call "len" [.token "a.b"] false, 0, some 2⟩ ∧
      IsLength Registry.empty (Token.ofSource Registry.empty "f a.b.count") body 1 "len"
        [.token "a.b"] false := by
  constructor
  · have nodes : (fun body => (ofBody body).nodes[2]?) <$>
        readScript { builtins := {"f"} } "f a.b.count" =
          .ok (some ⟨.call "f" [.node 1] true, 0, some 3⟩) := by
      decide +kernel
    obtain ⟨body, script, found⟩ := exists_ok_of_map nodes
    have read : readTree { builtins := {"f"} } "f a.b.count" = .ok (ofBody body) := by
      rw [readTree_eq, script]
      rfl
    obtain ⟨_, -, -, grounded, -⟩ := readTree_calls_grounded read found
    refine ⟨body, script, found, grounded.resolve_right fun length => ?_⟩
    exact absurd length.name_eq (by decide)
  · have nodes : (fun body => (ofBody body).nodes[1]?) <$>
        readScript Registry.empty "f a.b.count" =
          .ok (some ⟨.call "len" [.token "a.b"] false, 0, some 2⟩) := by
      decide +kernel
    obtain ⟨body, script, found⟩ := exists_ok_of_map nodes
    have read : readTree Registry.empty "f a.b.count" = .ok (ofBody body) := by
      rw [readTree_eq, script]
      rfl
    obtain ⟨other, same, -, -, length⟩ := readTree_calls_grounded read found
    obtain rfl : body = other := Except.ok.inj (script.symm.trans same)
    exact ⟨body, script, found, length rfl rfl⟩

end Maxscript.Tree
