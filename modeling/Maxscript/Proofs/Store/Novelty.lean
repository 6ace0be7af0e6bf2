import Maxscript.Proofs.Store.Changes

/-!
# What a stored registry reports as new

Whether a name is new is asked in two places. A registry in memory goes by the key of the name, and
a blank name is never new. A stored list goes by the spelling: it is searched for the name as it was
given, and a blank line is no entry. So whatever is new to the registry is new to the list, but a
known name is reported as new again in every other spelling, and a blank name each time.
-/

namespace Maxscript

theorem Unicode.lower_eq_empty_iff (text : String) : lower text = "" ↔ text = "" := by
  rw [lower, String.ofList_eq_empty_iff, ← String.toList_eq_nil_iff]
  cases text.toList with
  | nil => simp [lowerAfter]
  | cons c cs => simp [lowerAfter_cons, formAfter_ne_nil]

namespace Registry

variable {registry : Registry} {name : String} {kind : Classification}

theorem key_eq_empty_iff (name : String) : key name = "" ↔ Text.trimmed name = "" :=
  Unicode.lower_eq_empty_iff _

/-- The registry looks names up by their key, so a name in another spelling is not new to it. A
blank name is never new. -/
theorem isNew_iff : registry.isNew name kind = true ↔
    Text.trimmed name ≠ "" ∧ key name ∉ registry.names kind := by
  rw [Ne, ← key_eq_empty_iff, Std.ExtTreeSet.mem_iff_contains, Bool.not_eq_true]
  simp [isNew]

end Registry

namespace Store

variable {store : Store} {disk between final : Disk} {registry : Registry} {name : String}
variable {kind : Classification} {words : Std.ExtTreeSet String} {added : Bool}

/-- A name is reported as new if the list does not have its spelling. The list is not folded, and so
it may have a name several times. -/
theorem added_iff (listed : Yields (store.readWords (wordFile kind)) disk words disk)
    (done : Yields (store.add name kind) disk added between) :
    added = true ↔ Text.trimmed name ∉ words := by
  obtain ⟨lines, found, rfl, -⟩ := yields_readWords.mp listed
  obtain ⟨lines', found', outcome⟩ := yields_add.mp done
  obtain rfl : lines = lines' := Except.ok.inj (found.symm.trans found')
  rcases outcome with ⟨there, rfl, -⟩ | ⟨absent, rfl, -⟩
  · simp [there]
  · simp [absent]

/-- The registry knows every name of the list, under its key. The converse would need the spelling,
which the registry does not keep. -/
theorem key_mem_names (loaded : Yields store.load disk registry disk)
    (listed : Yields (store.readWords (wordFile kind)) disk words disk) {word : String}
    (member : word ∈ words) : Registry.key word ∈ registry.names kind := by
  obtain ⟨held, renames, holds, rfl, -⟩ := yields_load.mp loaded
  obtain ⟨lines, found, rfl, -⟩ := yields_readWords.mp listed
  obtain rfl : held kind = lines := Except.ok.inj ((holds.words kind).symm.trans found)
  obtain ⟨inside, named⟩ := mem_wordsOf.mp member
  rw [mem_names_registryOf]
  refine ⟨?_, word, inside, rfl⟩
  rw [Ne, Registry.key_eq_empty_iff, (isLine_of_linesAt found word inside).trimmed_eq]
  exact named

theorem ne_empty_of_mem (listed : Yields (store.readWords (wordFile kind)) disk words disk)
    {word : String} (member : word ∈ words) : word ≠ "" := by
  obtain ⟨lines, -, rfl, -⟩ := yields_readWords.mp listed
  exact (mem_wordsOf.mp member).2

/-- A blank name is not found in any list, since blank lines are not names. It is reported as new
however often it is added. -/
theorem added_of_blank (blank : Text.trimmed name = "")
    (done : Yields (store.add name kind) disk added final) : added = true := by
  obtain ⟨lines, found, outcome⟩ := yields_add.mp done
  rcases outcome with ⟨there, -, -⟩ | ⟨-, rfl, -⟩
  · exact absurd blank (mem_wordsOf.mp there).2
  · rfl

/-- Any other name is found once it was added: adding it again reports nothing new and leaves the
files as they are. -/
theorem yields_add_again (single : '\n' ∉ name.toList) (named : Text.trimmed name ≠ "")
    (done : Yields (store.add name kind) disk added final) :
    Yields (store.add name kind) final false final := by
  obtain ⟨lines, found, outcome⟩ := yields_add.mp done
  rcases outcome with ⟨there, -, rfl⟩ | ⟨-, -, write⟩
  · exact yields_add.mpr ⟨lines, found, .inl ⟨there, rfl, rfl⟩⟩
  · have isLine := isLine_of_mem_toList_insert (isLine_of_linesAt found) single
    obtain ⟨_, -, succeeds⟩ := exists_of_yields_writeLines write
    have written := Disk.readText_of_writeText (isName_wordFile kind) succeeds
    refine yields_add.mpr ⟨_, linesAt_written written isLine, .inl ⟨?_, rfl, rfl⟩⟩
    exact mem_wordsOf.mpr ⟨mem_toList_insert.mpr (.inl rfl), named⟩

/-- What is new to the loaded registry is reported as new when it is added to the files. The two
agree exactly for a name that is not blank and, if the registry knows it, is listed in the spelling
that is added. Right after it was added, a name is reported as new only if it is blank. -/
theorem added_eq_isNew_iff (single : '\n' ∉ name.toList)
    (loaded : Yields store.load disk registry disk)
    (listed : Yields (store.readWords (wordFile kind)) disk words disk)
    (done : Yields (store.add name kind) disk added between) :
    (registry.isNew name kind = true → added = true) ∧
      (added = registry.isNew name kind ↔ Text.trimmed name ≠ "" ∧
        (Registry.key name ∈ registry.names kind → Text.trimmed name ∈ words)) ∧
      (Text.trimmed name ≠ "" → Yields (store.add name kind) between false between) ∧
      (Text.trimmed name = "" → ∀ again final,
        Yields (store.add name kind) between again final → again = true) := by
  have reported := added_iff listed done
  have known : Text.trimmed name ∈ words → Registry.key name ∈ registry.names kind := by
    intro member
    rw [← Registry.key_trimmed]
    exact key_mem_names loaded listed member
  refine ⟨?_, ?_, fun named => yields_add_again single named done, ?_⟩
  · intro isNew
    exact reported.mpr (mt known (Registry.isNew_iff.mp isNew).2)
  · rw [Bool.eq_iff_iff, reported, Registry.isNew_iff]
    constructor
    · intro agree
      by_cases there : Text.trimmed name ∈ words
      · exact ⟨ne_empty_of_mem listed there, fun _ => there⟩
      · obtain ⟨named, unknown⟩ := agree.mp there
        exact ⟨named, fun inside => absurd inside unknown⟩
    · rintro ⟨named, spelled⟩
      exact ⟨fun absent => ⟨named, mt spelled absent⟩, fun isNew => mt known isNew.2⟩
  · exact fun blank again final repeated => added_of_blank blank repeated

/-- A directory `words` that lists the function `foo`. -/
def fooListed : Disk :=
  (Disk.put {} ["words"] .directory).put ["words", "custom_functions.txt"]
    (.file (.text "foo\n"))

def fooLines : Classification → List String
  | .userFunction => ["foo"]
  | _ => []

theorem fooListed_holds : Holds ⟨"words"⟩ fooListed fooLines [] where
  words kind := by cases kind <;> rfl
  renames := rfl

def addFunction (name : String) : ExceptT StoreError (StateM Disk) Bool :=
  add ⟨"words"⟩ name .userFunction

/-- The listed spelling is new to neither, with blanks behind it. -/
theorem foo_not_reported :
    Yields (load ⟨"words"⟩) fooListed (registryOf fooLines []) fooListed ∧
      Yields (addFunction "foo ") fooListed false fooListed ∧
      (registryOf fooLines []).isNew "foo " .userFunction = false := by
  have loaded := yields_load.mpr ⟨_, _, fooListed_holds, rfl, rfl⟩
  have listed := yields_readWords.mpr ⟨_, fooListed_holds.words .userFunction, rfl, rfl⟩
  have there : Text.trimmed "foo " ∈ wordsOf (fooLines .userFunction) :=
    mem_wordsOf.mpr ⟨List.mem_singleton.mpr (by decide), by decide⟩
  have done : Yields (addFunction "foo ") fooListed false fooListed :=
    yields_add.mpr ⟨_, fooListed_holds.words .userFunction, .inl ⟨there, rfl, rfl⟩⟩
  obtain ⟨-, agree, -⟩ := added_eq_isNew_iff (by decide) loaded listed done
  exact ⟨loaded, done, (agree.mpr ⟨by decide, fun _ => there⟩).symm⟩

/-- Adds the known function in capitals, and then a blank name twice. -/
def addKnown : ExceptT StoreError (StateM Disk) (Bool × Bool × Bool) := do
  let respelled ← addFunction "FOO"
  let blank ← addFunction " "
  let again ← addFunction " "
  return (respelled, blank, again)

/-- None of these is new to the registry, but all are reported as new, the blank name also the
second time. -/
theorem known_reported_as_new :
    Yields (load ⟨"words"⟩) fooListed (registryOf fooLines []) fooListed ∧
      (registryOf fooLines []).isNew "FOO" .userFunction = false ∧
      (registryOf fooLines []).isNew " " .userFunction = false ∧
      ∃ final, Yields addKnown fooListed (true, true, true) final := by
  have known : Registry.key "FOO" ∈ (registryOf fooLines []).names .userFunction := by
    rw [mem_names_registryOf]
    exact ⟨by decide, "foo", List.mem_singleton_self _, by decide⟩
  have succeeds : (addKnown.run.run fooListed).1 = .ok (true, true, true) := by
    decide +kernel
  refine ⟨yields_load.mpr ⟨_, _, fooListed_holds, rfl, rfl⟩, ?_, ?_, _, yields_of_fst succeeds⟩
  · rw [Bool.eq_false_iff, Ne, Registry.isNew_iff]
    exact fun isNew => isNew.2 known
  · rw [Bool.eq_false_iff, Ne, Registry.isNew_iff]
    exact fun isNew => isNew.1 (by decide)

end Store

end Maxscript
