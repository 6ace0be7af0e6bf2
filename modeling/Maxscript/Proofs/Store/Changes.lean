import Maxscript.Proofs.File.Disk
import Maxscript.Proofs.Store.Lists

/-!
# Stored registries follow the registries in memory

Every change to a stored registry reads a file, changes its list and writes the whole file again.
One change to the files is the same change to the registry that is loaded from them. So the registry
that is loaded after any number of changes is the one that was loaded before them, with the same
changes made to it in memory.
-/

namespace Maxscript.Store

variable {words : Classification → List String} {renames : List String}

/-! ### Actions on a disk -/

/-- An action succeeds, with this value and this disk after it. -/
def Yields {α : Type} (action : ExceptT StoreError (StateM Disk) α) (disk : Disk) (value : α)
    (final : Disk) : Prop :=
  action.run.run disk = (.ok value, final)

section

variable {α β : Type} {disk between final : Disk}

theorem yields_of_fst {action : ExceptT StoreError (StateM Disk) α} {value : α}
    (succeeds : (action.run.run disk).1 = .ok value) :
    Yields action disk value (action.run.run disk).2 :=
  Prod.ext succeeds rfl

theorem yields_pure {given value : α} :
    Yields (pure given) disk value final ↔ given = value ∧ disk = final := by
  constructor
  · intro yields
    obtain ⟨same, rest⟩ := Prod.mk.inj yields
    exact ⟨Except.ok.inj same, rest⟩
  · rintro ⟨rfl, rfl⟩
    rfl

/-- An action that cannot fail yields what it answers. -/
theorem yields_lift {action : StateM Disk α} {value : α} :
    Yields (ExceptT.lift action) disk value final ↔ action.run disk = (value, final) := by
  constructor
  · intro yields
    obtain ⟨same, rest⟩ := Prod.mk.inj yields
    exact Prod.ext (Except.ok.inj same) rest
  · intro run
    rw [Yields, ExceptT.run_lift, StateT.run_map, run]
    rfl

theorem not_yields_throw {error : StoreError} {value : α} :
    ¬Yields (throw error) disk value final := by
  intro yields
  cases (Prod.mk.inj yields).1

variable {action : ExceptT StoreError (StateM Disk) α}
variable {next : α → ExceptT StoreError (StateM Disk) β}

theorem run_bind_ok {middle : α} (first : action.run.run disk = (.ok middle, between)) :
    (action >>= next).run.run disk = (next middle).run.run between := by
  rw [ExceptT.run_bind, StateT.run_bind, first]
  rfl

theorem run_bind_error {error : StoreError}
    (first : action.run.run disk = (.error error, between)) :
    (action >>= next).run.run disk = (.error error, between) := by
  rw [ExceptT.run_bind, StateT.run_bind, first]
  rfl

/-- An action in two steps yields what its second step does, from the files that the first one has
left. The statements about the store are unfolded with this. -/
theorem yields_bind {value : β} : Yields (action >>= next) disk value final ↔
    ∃ middle between, Yields action disk middle between ∧
      Yields (next middle) between value final := by
  constructor
  · intro yields
    rw [Yields] at yields
    cases first : action.run.run disk with
    | mk result between =>
        cases result with
        | error error =>
            rw [run_bind_error first] at yields
            cases (Prod.mk.inj yields).1
        | ok middle =>
            rw [run_bind_ok first] at yields
            exact ⟨middle, between, first, yields⟩
  · rintro ⟨middle, between, first, second⟩
    rw [Yields, run_bind_ok first]
    exact second

end

/-- The lines of a file. A file that is missing has none. -/
def linesAt (store : Store) (disk : Disk) (file : String) : Except StoreError (List String) :=
  match disk.readText (Path.join store.directory file) with
  | .ok content => .ok (linesOf content)
  | .error .notFound => .ok []
  | .error cause => .error (.read (Path.join store.directory file) cause)

variable {store : Store} {disk final : Disk} {location lines : List String} {file : String}

theorem isLine_of_linesAt (found : store.linesAt disk file = .ok lines) :
    ∀ line ∈ lines, IsLine line := by
  unfold linesAt at found
  split at found
  · obtain rfl := Except.ok.inj found
    exact fun line => isLine_of_mem_linesOf
  · obtain rfl := Except.ok.inj found
    exact List.forall_mem_nil _
  · cases found

theorem yields_readLines : Yields (store.readLines file) disk lines final ↔
    store.linesAt disk file = .ok lines ∧ disk = final := by
  have run : (store.readLines file : ExceptT StoreError (StateM Disk) _).run.run disk =
      (store.linesAt disk file, disk) := by
    have first : (ExceptT.lift (FileAccess.readText (Path.join store.directory file)) :
        ExceptT StoreError (StateM Disk) _).run.run disk =
          (.ok (disk.readText (Path.join store.directory file)), disk) := rfl
    refine (run_bind_ok first).trans ?_
    unfold linesAt
    cases disk.readText (Path.join store.directory file) with
    | ok content => rfl
    | error cause => cases cause <;> rfl
  rw [Yields, run]
  exact Iff.of_eq (Prod.mk.injEq ..)

theorem yields_readWords {names : Std.ExtTreeSet String} :
    Yields (store.readWords file) disk names final ↔
      ∃ lines, store.linesAt disk file = .ok lines ∧ wordsOf lines = names ∧ disk = final := by
  rw [readWords, yields_bind]
  constructor
  · rintro ⟨lines, between, first, second⟩
    obtain ⟨found, rfl⟩ := yields_readLines.mp first
    exact ⟨lines, found, yields_pure.mp second⟩
  · rintro ⟨lines, found, rest⟩
    exact ⟨lines, disk, yields_readLines.mpr ⟨found, rfl⟩, yields_pure.mpr rest⟩

theorem yields_readRenames {table : Std.ExtTreeMap String String} :
    Yields store.readRenames disk table final ↔
      ∃ lines, store.linesAt disk renameFile = .ok lines ∧ renamesOf lines = table ∧
        disk = final := by
  rw [readRenames, yields_bind]
  constructor
  · rintro ⟨lines, between, first, second⟩
    obtain ⟨found, rfl⟩ := yields_readLines.mp first
    exact ⟨lines, found, yields_pure.mp second⟩
  · rintro ⟨lines, found, rest⟩
    exact ⟨lines, disk, yields_readLines.mpr ⟨found, rfl⟩, yields_pure.mpr rest⟩

/-- Writing the lines of a file makes its directory and then writes the file. It succeeds only if
both do. -/
theorem exists_of_yields_writeLines
    (yields : Yields (store.writeLines file lines) disk () final) :
    ∃ made, (FileAccess.createDirectories store.directory : StateM Disk _).run disk =
        (.ok (), made) ∧
      made.writeText (Path.join store.directory file) (contentOf lines) = .ok final := by
  obtain ⟨result, made, first, rest⟩ := yields_bind.mp yields
  have prepared : (FileAccess.createDirectories store.directory : StateM Disk _).run disk =
      (result, made) := yields_lift.mp first
  cases result with
  | error cause => exact absurd rest not_yields_throw
  | ok done =>
      obtain ⟨result, written, second, rest⟩ := yields_bind.mp rest
      have update : Disk.update (·.writeText (Path.join store.directory file) (contentOf lines))
          made = (result, written) := yields_lift.mp second
      rw [Disk.update] at update
      split at update
      · next changed succeeds =>
          obtain ⟨rfl, rfl⟩ := Prod.mk.inj update
          obtain ⟨-, rfl⟩ := yields_pure.mp rest
          exact ⟨made, prepared, succeeds⟩
      · obtain ⟨rfl, rfl⟩ := Prod.mk.inj update
        exact absurd rest not_yields_throw

/-- Writing the lines of a file writes that file of the directory and no other. The path has to lead
somewhere before, or making it could change where it leads. -/
theorem writes_of_yields_writeLines (tree : disk.IsTree)
    (reaches : disk.Reaches store.directory location) (isName : Path.IsName file)
    (yields : Yields (store.writeLines file lines) disk () final) :
    disk.Writes store.directory file (contentOf lines) final := by
  obtain ⟨made, prepared, succeeds⟩ := exists_of_yields_writeLines yields
  have grows := Disk.Paves.createDirectories store.directory disk location reaches
  rw [prepared] at grows
  exact Disk.writes_of_grows tree reaches grows isName succeeds

/-! ### The files of a registry -/

theorem isName_wordFile (kind : Classification) : Path.IsName (wordFile kind) := by
  cases kind <;> exact ⟨by decide, by decide, by decide, by decide⟩

theorem isName_renameFile : Path.IsName renameFile :=
  ⟨by decide, by decide, by decide, by decide⟩

theorem wordFile_ne_renameFile (kind : Classification) : wordFile kind ≠ renameFile := by
  cases kind <;> decide

theorem wordFile_inj {first second : Classification} :
    wordFile first = wordFile second ↔ first = second := by
  cases first <;> cases second <;> decide

/-- What the files hold. -/
structure Holds (store : Store) (disk : Disk) (words : Classification → List String)
    (renames : List String) : Prop where
  words : ∀ kind, store.linesAt disk (wordFile kind) = .ok (words kind)
  renames : store.linesAt disk renameFile = .ok renames

theorem Holds.isTable (holds : store.Holds disk words renames) : IsTable (renamesOf renames) :=
  isTable_renamesOf (isLine_of_linesAt holds.renames)

theorem yields_load {registry : Registry} : Yields store.load disk registry final ↔
    ∃ words renames, store.Holds disk words renames ∧ registryOf words renames = registry ∧
      disk = final := by
  rw [load]
  constructor
  · intro yields
    obtain ⟨builtins, _, first, yields⟩ := yields_bind.mp yields
    obtain ⟨functions, _, second, yields⟩ := yields_bind.mp yields
    obtain ⟨held, _, third, yields⟩ := yields_bind.mp yields
    obtain ⟨table, _, fourth, yields⟩ := yields_bind.mp yields
    obtain ⟨lines₁, found₁, rfl, rfl⟩ := yields_readWords.mp first
    obtain ⟨lines₂, found₂, rfl, rfl⟩ := yields_readWords.mp second
    obtain ⟨lines₃, found₃, rfl, rfl⟩ := yields_readWords.mp third
    obtain ⟨renames, found, rfl, rfl⟩ := yields_readRenames.mp fourth
    let words : Classification → List String := Classification.rec lines₁ lines₂ lines₃
    have holds : store.Holds disk words renames := by
      refine ⟨?_, found⟩
      intro kind
      cases kind with
      | builtinFunction => exact found₁
      | userFunction => exact found₂
      | userVariable => exact found₃
    have result := yields_pure.mp yields
    exact ⟨words, renames, holds, result⟩
  · rintro ⟨words, renames, holds, rfl, rfl⟩
    have readWords (kind : Classification) :
        Yields (store.readWords (wordFile kind)) disk (wordsOf (words kind)) disk :=
      yields_readWords.mpr ⟨_, holds.words kind, rfl, rfl⟩
    refine yields_bind.mpr ⟨_, disk, readWords _, ?_⟩
    refine yields_bind.mpr ⟨_, disk, readWords _, ?_⟩
    refine yields_bind.mpr ⟨_, disk, readWords _, ?_⟩
    refine yields_bind.mpr ⟨_, disk, yields_readRenames.mpr ⟨_, holds.renames, rfl, rfl⟩, ?_⟩
    exact yields_pure.mpr ⟨rfl, rfl⟩

/-- A file that was written holds its new lines. They must not have line breaks themselves, or they
would be found again as several. -/
theorem linesAt_written
    (written : final.readText (Path.join store.directory file) = .ok (contentOf lines))
    (isLine : ∀ line ∈ lines, IsLine line) : store.linesAt final file = .ok lines := by
  unfold linesAt
  rw [written]
  exact congrArg Except.ok (linesOf_contentOf isLine)

/-- The other files hold what they held. They are told apart by their names, which are the names of
the kinds of words. -/
theorem linesAt_kept {content other : String}
    (writes : disk.Writes store.directory file content final) (isName : Path.IsName other)
    (ne : other ≠ file) (found : store.linesAt disk other = .ok lines) :
    store.linesAt final other = .ok lines := by
  unfold linesAt at found ⊢
  cases held : disk.readText (Path.join store.directory other) with
  | ok text =>
      rw [held] at found
      rw [writes.kept isName ne held]
      exact found
  | error cause =>
      rw [held] at found
      cases cause with
      | notFound =>
          rw [writes.missing isName ne held]
          exact found
      | _ => cases found

theorem Holds.writeWords {kind : Classification} (holds : store.Holds disk words renames)
    (writes : disk.Writes store.directory (wordFile kind) (contentOf lines) final)
    (isLine : ∀ line ∈ lines, IsLine line) :
    store.Holds final (Function.update words kind lines) renames := by
  constructor
  · intro other
    by_cases same : other = kind
    · rw [same, Function.update_self]
      exact linesAt_written writes.written isLine
    · rw [Function.update_of_ne same]
      exact linesAt_kept writes (isName_wordFile other) (mt wordFile_inj.mp same)
        (holds.words other)
  · exact linesAt_kept writes isName_renameFile (wordFile_ne_renameFile kind).symm holds.renames

theorem Holds.writeRenames (holds : store.Holds disk words renames)
    (writes : disk.Writes store.directory renameFile (contentOf lines) final)
    (isLine : ∀ line ∈ lines, IsLine line) : store.Holds final words lines where
  words kind := linesAt_kept writes (isName_wordFile kind) (wordFile_ne_renameFile kind)
    (holds.words kind)
  renames := linesAt_written writes.written isLine

/-! ### Changes -/

inductive Change where
  | known (name : String) (kind : Classification)
  | rename (name target : String)

def change (store : Store) : Change → ExceptT StoreError (StateM Disk) Unit
  | .known name kind => do
    let _ ← store.add name kind
  | .rename name target => store.addRename name target

def changeAll (store : Store) : List Change → ExceptT StoreError (StateM Disk) Unit
  | [] => pure ()
  | first :: rest => do
    store.change first
    store.changeAll rest

def Change.apply (registry : Registry) : Change → Registry
  | .known name kind => registry.classify name kind
  | .rename name target => registry.addRename name target

/-- The texts of an entry fit on a line, and its name is not cut by the `=` behind it. -/
def Change.Fits : Change → Prop
  | .known name _ => '\n' ∉ name.toList
  | .rename name target => '\n' ∉ name.toList ∧ '=' ∉ name.toList ∧ '\n' ∉ target.toList

/-- A list that has one more word gives the registry with one more entry. The lists are compared by
their words, as their order makes no difference. -/
theorem registryOf_classify {words words' : Classification → List String} {name : String}
    {kind : Classification} (table : IsTable (renamesOf renames))
    (others : ∀ other, other ≠ kind → words' other = words other)
    (here : ∀ entry, entry ≠ "" → ((∃ word ∈ words' kind, Registry.key word = entry) ↔
      (∃ word ∈ words kind, Registry.key word = entry) ∨ Registry.key name = entry)) :
    registryOf words' renames = (registryOf words renames).classify name kind := by
  apply Registry.ext_entries
  · intro other entry
    rw [Registry.mem_names_classify, mem_names_registryOf, mem_names_registryOf]
    by_cases blank : entry = ""
    · simp [blank]
    by_cases same : other = kind
    · subst same
      simp [blank, here entry blank]
    · simp [same, others other same]
  · intro entry
    rw [Registry.renames_classify, renames_registryOf table, renames_registryOf table]

theorem registryOf_addRename {renames' : List String} {name target : String}
    (table : IsTable (renamesOf renames)) (table' : IsTable (renamesOf renames'))
    (changed : renamesOf renames' =
      (renamesOf renames).insert (Registry.key name) (Text.trimmed target)) :
    registryOf words renames' = (registryOf words renames).addRename name target := by
  apply Registry.ext_entries
  · intro kind entry
    rw [Registry.names_addRename, mem_names_registryOf, mem_names_registryOf]
  · intro entry
    rw [Registry.getElem?_renames_addRename, renames_registryOf table', changed,
      renames_registryOf table, Std.ExtTreeMap.getElem?_insert]
    by_cases blank : entry = ""
    · simp [blank]
    · simp [blank]

/-- A stored registry that can be changed. -/
structure Sound (store : Store) (disk : Disk) : Prop where
  tree : disk.IsTree
  reaches : ∃ location, disk.Reaches store.directory location

/-- What adding a name does: nothing if the list has it in this spelling, and else the list is
written with it. -/
theorem yields_add {name : String} {kind : Classification} {added : Bool} :
    Yields (store.add name kind) disk added final ↔
      ∃ lines, store.linesAt disk (wordFile kind) = .ok lines ∧
        (Text.trimmed name ∈ wordsOf lines ∧ added = false ∧ final = disk ∨
          Text.trimmed name ∉ wordsOf lines ∧ added = true ∧
            Yields (store.writeLines (wordFile kind)
              ((wordsOf lines).insert (Text.trimmed name)).toList) disk () final) := by
  rw [add, yields_bind]
  constructor
  · rintro ⟨_, _, read, done⟩
    obtain ⟨lines, found, rfl, rfl⟩ := yields_readWords.mp read
    refine ⟨lines, found, ?_⟩
    split at done
    · next there =>
        obtain ⟨rfl, rfl⟩ := yields_pure.mp done
        exact .inl ⟨Std.ExtTreeSet.contains_iff_mem.mp there, rfl, rfl⟩
    · next absent =>
        obtain ⟨_, _, write, done⟩ := yields_bind.mp done
        obtain ⟨rfl, rfl⟩ := yields_pure.mp done
        exact .inr ⟨mt Std.ExtTreeSet.contains_iff_mem.mpr absent, rfl, write⟩
  · rintro ⟨lines, found, outcome⟩
    refine ⟨_, disk, yields_readWords.mpr ⟨lines, found, rfl, rfl⟩, ?_⟩
    rcases outcome with ⟨there, rfl, rfl⟩ | ⟨absent, rfl, write⟩
    · rw [if_pos (Std.ExtTreeSet.contains_iff_mem.mpr there)]
      exact yields_pure.mpr ⟨rfl, rfl⟩
    · rw [if_neg (mt Std.ExtTreeSet.contains_iff_mem.mp absent)]
      exact yields_bind.mpr ⟨(), final, write, yields_pure.mpr ⟨rfl, rfl⟩⟩

theorem mem_toList_insert {lines : List String} {name word : String} :
    word ∈ ((wordsOf lines).insert (Text.trimmed name)).toList ↔
      Text.trimmed name = word ∨ word ∈ lines ∧ word ≠ "" := by
  rw [Std.ExtTreeSet.mem_toList, Std.ExtTreeSet.mem_insert, mem_wordsOf,
    Std.LawfulEqOrd.compare_eq_iff_eq]

theorem isLine_of_mem_toList_insert {lines : List String} {name : String}
    (isLine : ∀ line ∈ lines, IsLine line) (single : '\n' ∉ name.toList) :
    ∀ line ∈ ((wordsOf lines).insert (Text.trimmed name)).toList, IsLine line := by
  intro line inside
  rcases mem_toList_insert.mp inside with rfl | ⟨old, -⟩
  · exact isLine_trimmed single
  · exact isLine line old

/-- A name that was added is loaded the next time, as if it had been added to the registry in
memory. -/
theorem load_after_add {name : String} {kind : Classification} {registry : Registry}
    {added : Bool} (sound : store.Sound disk) (loaded : Yields store.load disk registry disk)
    (single : '\n' ∉ name.toList) (done : Yields (store.add name kind) disk added final) :
    store.Sound final ∧ Yields store.load final (registry.classify name kind) final := by
  obtain ⟨location, reaches⟩ := sound.reaches
  obtain ⟨words, renames, holds, rfl, -⟩ := yields_load.mp loaded
  obtain ⟨lines, found, rest⟩ := yields_add.mp done
  obtain rfl : words kind = lines := Except.ok.inj ((holds.words kind).symm.trans found)
  rcases rest with ⟨there, -, rfl⟩ | ⟨-, -, write⟩
  · -- The name was there, so its key is in the registry.
    refine ⟨sound, yields_load.mpr ⟨words, renames, holds, ?_, rfl⟩⟩
    apply registryOf_classify holds.isTable (fun _ _ => rfl)
    intro entry named
    constructor
    · exact .inl
    · rintro (found | rfl)
      · exact found
      · exact ⟨_, (mem_wordsOf.mp there).1, Registry.key_trimmed name⟩
  · have isLine := isLine_of_mem_toList_insert (isLine_of_linesAt found) single
    have writes := writes_of_yields_writeLines sound.tree reaches (isName_wordFile kind) write
    refine ⟨⟨writes.tree, writes.reaches⟩, yields_load.mpr
      ⟨Function.update words kind _, renames, holds.writeWords writes isLine, ?_, rfl⟩⟩
    apply registryOf_classify holds.isTable
    · exact fun other ne => Function.update_of_ne ne _ _
    · intro entry named
      rw [Function.update_self]
      constructor
      · rintro ⟨word, inside, rfl⟩
        rcases mem_toList_insert.mp inside with rfl | ⟨old, -⟩
        · exact .inr (Registry.key_trimmed name).symm
        · exact .inl ⟨word, old, rfl⟩
      · rintro (⟨word, old, rfl⟩ | rfl)
        · refine ⟨word, mem_toList_insert.mpr (.inr ⟨old, ?_⟩), rfl⟩
          rintro rfl
          exact named (by decide)
        · exact ⟨_, mem_toList_insert.mpr (.inl rfl), Registry.key_trimmed name⟩

/-- A new spelling is loaded the next time. The name has no `=` in it, which is where its line is
cut; the target may. -/
theorem load_after_addRename {name target : String} {registry : Registry}
    (sound : store.Sound disk) (loaded : Yields store.load disk registry disk)
    (singleName : '\n' ∉ name.toList) (unmarked : '=' ∉ name.toList)
    (singleTarget : '\n' ∉ target.toList)
    (done : Yields (store.addRename name target) disk () final) :
    store.Sound final ∧ Yields store.load final (registry.addRename name target) final := by
  obtain ⟨location, reaches⟩ := sound.reaches
  obtain ⟨words, renames, holds, rfl, -⟩ := yields_load.mp loaded
  obtain ⟨_, _, read, write⟩ := yields_bind.mp done
  obtain ⟨lines, found, rfl, rfl⟩ := yields_readRenames.mp read
  obtain rfl : renames = lines := Except.ok.inj (holds.renames.symm.trans found)
  have table := holds.isTable.insert (isEntry_key unmarked singleName singleTarget)
  have changed := renamesOf_renameLines table
  have isLine : ∀ line ∈ ((renamesOf renames).insert (Registry.key name)
      (Text.trimmed target)).toList.map renameLine, IsLine line := by
    intro line inside
    obtain ⟨entry, member, rfl⟩ := List.mem_map.mp inside
    exact isLine_renameLine (table _ _ (Std.ExtTreeMap.mem_toList_iff_getElem?_eq_some.mp member))
  have writes : disk.Writes store.directory renameFile (contentOf _) final :=
    writes_of_yields_writeLines sound.tree reaches isName_renameFile write
  refine ⟨⟨writes.tree, writes.reaches⟩, yields_load.mpr
    ⟨words, _, holds.writeRenames writes isLine, ?_, rfl⟩⟩
  exact registryOf_addRename holds.isTable (changed.symm ▸ table) changed

/-- One change to the files is the same change to the registry, and the files are sound again, so
that the next change can be made. -/
theorem load_after_change {change : Change} {registry : Registry} (sound : store.Sound disk)
    (loaded : Yields store.load disk registry disk) (fits : change.Fits)
    (done : Yields (store.change change) disk () final) :
    store.Sound final ∧ Yields store.load final (change.apply registry) final := by
  cases change with
  | known name kind =>
      obtain ⟨added, between, first, rest⟩ := yields_bind.mp done
      obtain ⟨-, rfl⟩ := yields_pure.mp rest
      exact load_after_add sound loaded fits first
  | rename name target =>
      obtain ⟨singleName, unmarked, singleTarget⟩ := fits
      exact load_after_addRename sound loaded singleName unmarked singleTarget done

/-- The registry that is loaded after changes to the files is the one that was loaded before, with
the same changes made to it in memory. -/
theorem load_after_changes {changes : List Change} {registry : Registry} (sound : store.Sound disk)
    (loaded : Yields store.load disk registry disk) (fits : ∀ change ∈ changes, change.Fits)
    (done : Yields (store.changeAll changes) disk () final) :
    Yields store.load final (changes.foldl Change.apply registry) final := by
  induction changes generalizing disk registry with
  | nil =>
      obtain ⟨-, rfl⟩ := yields_pure.mp done
      exact loaded
  | cons change changes ih =>
      obtain ⟨here, others⟩ := List.forall_mem_cons.mp fits
      obtain ⟨_, between, first, rest⟩ := yields_bind.mp done
      obtain ⟨sound', loaded'⟩ := load_after_change sound loaded here first
      exact ih sound' loaded' others rest

/-- The files of a directory that is yet to be made, with a name that is renamed twice. -/
theorem load_from_new_directory :
    ∃ final, Yields (changeAll ⟨"words"⟩ [.known "Print " .builtinFunction,
        .rename "Foo" "a=b", .rename "FOO" " c"]) {} () final ∧
      Yields (load ⟨"words"⟩) final (((Registry.empty.classify "Print " .builtinFunction).addRename
        "Foo" "a=b").addRename "FOO" " c") final := by
  have sound : Sound ⟨"words"⟩ {} := by
    refine ⟨Disk.isTree_blank [], ["words"], [], ["words"], [], ?_⟩
    exact ⟨by decide, by decide, rfl, rfl, rfl⟩
  have loaded : Yields (load ⟨"words"⟩) {} Registry.empty {} := rfl
  have fits : ∀ change ∈ [Change.known "Print " .builtinFunction, .rename "Foo" "a=b",
      .rename "FOO" " c"], change.Fits := by
    simp [Change.Fits]
  have succeeds : ((changeAll ⟨"words"⟩ [.known "Print " .builtinFunction,
      .rename "Foo" "a=b", .rename "FOO" " c"]).run.run {}).1 = .ok () := by
    decide +kernel
  have done := yields_of_fst succeeds
  exact ⟨_, done, load_after_changes sound loaded fits done⟩

/-- A directory `words` that lists a function. -/
def olderFiles : Disk :=
  (Disk.put {} ["words"] .directory).put ["words", "maxscript_functions.txt"]
    (.file (.text "print\n"))

/-- Without the condition on the path, names turn up that were never added: `new/../words` leads
nowhere as long as `new` is missing, and to older files once it is made. -/
theorem older_names_turn_up :
    olderFiles.IsTree ∧ Yields (load ⟨"new/../words"⟩) olderFiles Registry.empty olderFiles ∧
      ∃ final, Yields (changeAll ⟨"new/../words"⟩ [.known "f" .userFunction]) olderFiles () final ∧
        ¬Yields (load ⟨"new/../words"⟩) final (Registry.empty.classify "f" .userFunction)
          final := by
  have tree : olderFiles.IsTree := by
    have words : (Disk.put {} ["words"] .directory).IsTree :=
      @Disk.IsTree.put _ (Disk.isTree_blank []) [] "words" rfl (by decide) _
    exact @Disk.IsTree.put _ words ["words"] "maxscript_functions.txt" rfl (by decide) _
  have succeeds : ((changeAll ⟨"new/../words"⟩ [.known "f" .userFunction]).run.run
      olderFiles).1 = .ok () := by
    decide +kernel
  refine ⟨tree, rfl, _, yields_of_fst succeeds, ?_⟩
  intro loaded
  have present : (((load ⟨"new/../words"⟩ : ExceptT StoreError (StateM Disk) Registry).run.run
      (((changeAll ⟨"new/../words"⟩ [.known "f" .userFunction]).run.run olderFiles).2)).1.map
        fun registry => registry.isBuiltin "print") = .ok true := by
    decide +kernel
  rw [Yields] at loaded
  rw [loaded] at present
  exact absurd (Except.ok.inj present) (by decide +kernel)

end Maxscript.Store
