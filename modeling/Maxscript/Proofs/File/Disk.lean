import Maxscript.File.Disk
import Maxscript.Proofs.File.Path

/-!
# Files in one directory

Writing a file to a directory leaves the other files of the directory alone, and so does making the
directory and what is missing above it. The exception is a path that steps back out of a directory
that is missing, as `new/../words` does: it leads nowhere at first, and to what has been there all
the time once `new` is made. `Reaches` says that a path is not of this kind.
-/

namespace Maxscript.Disk

/-! ### Entries -/

theorem lookup_filter_ne {location other : List String} (ne : other ≠ location)
    (entries : List (List String × DiskEntry)) :
    (entries.filter fun entry => entry.1 != location).lookup other = entries.lookup other := by
  induction entries with
  | nil => rfl
  | cons entry entries ih =>
      obtain ⟨place, held⟩ := entry
      by_cases same : place = location
      · have skipped : (other == place) = false := by simpa [same] using ne
        rw [List.filter_cons_of_neg (by simp [same]), ih, List.lookup_cons, skipped]
      · rw [List.filter_cons_of_pos (by simp [same]), List.lookup_cons, List.lookup_cons, ih]

/-- Putting an entry changes what is found at its location and nowhere else. The root has no entry
of its own and is left out. -/
theorem entry?_put (disk : Disk) {location : List String} (nonempty : location ≠ [])
    (entry : DiskEntry) (other : List String) :
    entry? (disk.put location entry) other =
      if other = location then some entry else disk.entry? other := by
  by_cases same : other = location
  · subst same
    simp [put, entry?, nonempty]
  · have differs : (other == location) = false := by simpa using same
    rw [if_neg same, entry?, entry?, put, List.lookup_cons, differs, lookup_filter_ne same]

/-- Whatever has a name is in a directory. -/
def IsTree (disk : Disk) : Prop :=
  ∀ location name entry, disk.entry? (location ++ [name]) = some entry →
    disk.entry? location = some .directory

theorem isTree_blank (current : List String) : IsTree ⟨[], current⟩ := by
  intro location name entry found
  unfold entry? at found
  simp at found

theorem IsTree.directory_above {disk : Disk} (tree : disk.IsTree) {location further : List String}
    {entry : DiskEntry} (below : further ≠ [])
    (found : disk.entry? (location ++ further) = some entry) :
    disk.entry? location = some .directory := by
  induction further generalizing location with
  | nil => exact absurd rfl below
  | cons name rest ih =>
      rw [← List.singleton_append, ← List.append_assoc] at found
      by_cases last : rest = []
      · rw [last, List.append_nil] at found
        exact tree _ _ _ found
      · exact tree _ _ _ (ih last found)

/-- A new entry in a directory, in no directory's place, leaves the disk a tree. Whatever was below
a directory would otherwise lose the directory that it is in. -/
theorem IsTree.put {disk : Disk} (tree : disk.IsTree) {parent : List String} {name : String}
    (inside : disk.entry? parent = some .directory)
    (replaces : disk.entry? (parent ++ [name]) ≠ some .directory) (entry : DiskEntry) :
    (disk.put (parent ++ [name]) entry).IsTree := by
  intro location name' entry' found
  have nonempty : parent ++ [name] ≠ [] := List.append_ne_nil_of_right_ne_nil _ (by simp)
  rw [entry?_put disk nonempty] at found ⊢
  have above : disk.entry? location = some .directory := by
    split at found
    · next same => rwa [(List.append_inj' same rfl).1]
    · exact tree _ _ _ found
  rw [if_neg]
  · exact above
  · rintro rfl
    exact replaces above

/-! ### Following names -/

variable {disk : Disk} {location start place : List String}

theorem follow_directory {name : String} (inside : disk.entry? location = some .directory)
    (rest : List String) : disk.follow location (name :: rest) =
      if name = "." then disk.follow location rest
      else if name = ".." then disk.follow location.dropLast rest
      else disk.follow (location ++ [name]) rest := by
  rw [follow, inside]

/-- Names are followed one after the other, so a path can be cut anywhere and its second half
followed from where the first one leads. -/
theorem follow_append (disk : Disk) (location front back : List String) :
    disk.follow location (front ++ back) =
      disk.follow location front >>= fun reached => disk.follow reached back := by
  induction front generalizing location with
  | nil => rfl
  | cons name front ih =>
      rw [List.cons_append, follow, follow]
      cases disk.entry? location with
      | none => rfl
      | some entry =>
          cases entry with
          | file content => rfl
          | directory =>
              dsimp only
              split
              · exact ih _
              split
              · exact ih _
              · exact ih _

theorem follow_append_eq_ok {front back : List String}
    (reached : disk.follow location (front ++ back) = .ok place) :
    ∃ middle, disk.follow location front = .ok middle ∧ disk.follow middle back = .ok place := by
  rw [follow_append] at reached
  cases first : disk.follow location front with
  | error error =>
      rw [first] at reached
      cases reached
  | ok middle =>
      rw [first] at reached
      exact ⟨middle, rfl, reached⟩

/-- Names are followed from directories only. A file cannot be stepped through, not even by `.` or
`..`. -/
theorem directory_of_follow {name : String} {rest : List String}
    (reached : disk.follow location (name :: rest) = .ok place) :
    disk.entry? location = some .directory := by
  rw [follow] at reached
  split at reached
  · cases reached
  · cases reached
  · assumption

/-- So a directory is reached through directories, the place where the path starts included. -/
theorem directory_of_follow_directory {names : List String}
    (reached : disk.follow location names = .ok place)
    (inside : disk.entry? place = some .directory) : disk.entry? location = some .directory := by
  cases names with
  | nil => rwa [Except.ok.inj reached]
  | cons name rest => exact directory_of_follow reached

theorem follow_cons_name {name : String} (notHere : name ≠ ".") (notAbove : name ≠ "..")
    (inside : disk.entry? location = some .directory) (rest : List String) :
    disk.follow location (name :: rest) = disk.follow (location ++ [name]) rest := by
  rw [follow_directory inside, if_neg notHere, if_neg notAbove]

theorem follow_name {name : String} (isName : Path.IsName name)
    (inside : disk.entry? location = some .directory) :
    disk.follow location [name] = .ok (location ++ [name]) := by
  rw [follow_cons_name isName.notHere isName.notAbove inside]
  rfl

/-- Names that never step back lead downwards: to the place that is spelled by them, without the
dots that stay where they are. -/
theorem eq_append_of_follow {names : List String} (noStep : ".." ∉ names)
    (reached : disk.follow start names = .ok place) :
    place = start ++ names.filter (· != ".") := by
  induction names generalizing start with
  | nil =>
      rw [List.filter_nil, List.append_nil]
      exact (Except.ok.inj reached).symm
  | cons name rest ih =>
      rw [List.mem_cons, not_or] at noStep
      have inside := directory_of_follow reached
      rw [follow_directory inside] at reached
      by_cases here : name = "."
      · rw [if_pos here] at reached
        rw [ih noStep.2 reached, List.filter_cons_of_neg (by simp [here])]
      · rw [if_neg here, if_neg (Ne.symm noStep.1)] at reached
        rw [ih noStep.2 reached, List.filter_cons_of_pos (by simp [here]), List.append_assoc,
          List.singleton_append]

/-- In a tree, names that never step back lead to a directory that is there. This is the converse of
`eq_append_of_follow`, which holds on every disk. -/
theorem IsTree.follow_eq {disk : Disk} (tree : disk.IsTree) {names : List String}
    (noStep : ".." ∉ names)
    (inside : disk.entry? (start ++ names.filter (· != ".")) = some .directory) :
    disk.follow start names = .ok (start ++ names.filter (· != ".")) := by
  induction names generalizing start with
  | nil =>
      rw [List.filter_nil, List.append_nil]
      rfl
  | cons name rest ih =>
      rw [List.mem_cons, not_or] at noStep
      have here : disk.entry? start = some .directory := by
        by_cases alone : (name :: rest).filter (· != ".") = []
        · rwa [alone, List.append_nil] at inside
        · exact tree.directory_above alone inside
      by_cases stays : name = "."
      · rw [List.filter_cons_of_neg (by simp [stays])] at inside ⊢
        rw [follow_directory here, if_pos stays, ih noStep.2 inside]
      · rw [List.filter_cons_of_pos (by simp [stays])] at inside ⊢
        rw [List.append_cons] at inside
        rw [follow_cons_name stays (Ne.symm noStep.1) here, ih noStep.2 inside, List.append_assoc,
          List.singleton_append]

/-- Where every directory is kept, names lead to the same place as before. -/
theorem follow_mono {old new : Disk}
    (kept : ∀ {place}, old.entry? place = some .directory → new.entry? place = some .directory)
    {names : List String} (reached : old.follow start names = .ok place) :
    new.follow start names = .ok place := by
  induction names generalizing start with
  | nil => exact reached
  | cons name rest ih =>
      have inside := directory_of_follow reached
      rw [follow_directory inside] at reached
      rw [follow_directory (kept inside)]
      split at reached
      · next here => rw [if_pos here, ih reached]
      · next elsewhere =>
          rw [if_neg elsewhere]
          split at reached
          · next back => rw [if_pos back, ih reached]
          · next forth => rw [if_neg forth, ih reached]

/-! ### Files of a directory -/

/-- A path leads to a directory. -/
structure Leads (disk : Disk) (path : String) (location : List String) : Prop where
  follows : disk.follow (disk.origin path) (Path.names path) = .ok location
  directory : disk.entry? location = some .directory

def textOf : Option DiskEntry → Except FileError String
  | none => .error .notFound
  | some .directory => .error .isDirectory
  | some (.file (.bytes _)) => .error .notText
  | some (.file (.text text)) => .ok text

theorem textOf_eq_ok {held : Option DiskEntry} {text : String} (found : textOf held = .ok text) :
    held = some (.file (.text text)) := by
  fun_cases textOf held <;> simp_all [textOf]

theorem textOf_eq_notFound {held : Option DiskEntry} (lost : textOf held = .error .notFound) :
    held = none := by
  fun_cases textOf held <;> simp_all [textOf]

variable {path name : String}

theorem origin_join (disk : Disk) (isName : Path.IsName name) (path : String) :
    disk.origin (Path.join path name) = disk.origin path := by
  rw [origin, isName.isAbsolute_join, origin]

theorem readText_join (disk : Disk) (isName : Path.IsName name) (path : String) :
    disk.readText (Path.join path name) =
      disk.follow (disk.origin path) (Path.names path ++ [name]) >>= fun place =>
        textOf (disk.entry? place) := by
  have located : disk.locate (Path.join path name) =
      disk.follow (disk.origin path) (Path.names path ++ [name]) := by
    rw [locate, isName.hasTrailingSlash_join, origin_join disk isName, isName.names_join]
    rfl
  rw [readText, at?, if_neg (by simpa using isName.join_ne_empty path), located]
  cases disk.follow (disk.origin path) (Path.names path ++ [name]) with
  | error error => rfl
  | ok place =>
      dsimp only [bind, Except.bind]
      cases disk.entry? place with
      | none => rfl
      | some entry =>
          cases entry with
          | directory => rfl
          | file content => cases content <;> rfl

theorem Leads.readText_join (leads : disk.Leads path location) (isName : Path.IsName name) :
    disk.readText (Path.join path name) = textOf (disk.entry? (location ++ [name])) := by
  rw [Disk.readText_join disk isName, follow_append, leads.follows]
  dsimp only [bind, Except.bind]
  rw [follow_name isName leads.directory]

/-- Only in a directory can a file be found. So a path at which a file is read has been followed to
its end. -/
theorem exists_leads_of_readText {text : String} (isName : Path.IsName name)
    (found : disk.readText (Path.join path name) = .ok text) :
    ∃ location, disk.Leads path location := by
  rw [Disk.readText_join disk isName] at found
  cases followed : disk.follow (disk.origin path) (Path.names path ++ [name]) with
  | error error =>
      rw [followed] at found
      cases found
  | ok place =>
      obtain ⟨location, leads, last⟩ := follow_append_eq_ok followed
      exact ⟨location, leads, directory_of_follow last⟩

/-- Writing succeeds only inside a directory and in no directory's place, and puts the text there.
-/
theorem writeText_join_eq_ok {content : String} {new : Disk} (isName : Path.IsName name)
    (written : disk.writeText (Path.join path name) content = .ok new) :
    ∃ location, disk.Leads path location ∧
      disk.entry? (location ++ [name]) ≠ some .directory ∧
      new = disk.put (location ++ [name]) (.file (.text content)) := by
  rw [writeText, if_neg (by simpa using isName.join_ne_empty path), locateParent,
    origin_join disk isName, isName.names_join, List.dropLast_concat] at written
  cases followed : disk.follow (disk.origin path) (Path.names path ++ ["."]) with
  | error error =>
      rw [followed] at written
      cases written
  | ok parent =>
      obtain ⟨location, follows, last⟩ := follow_append_eq_ok followed
      have inside := directory_of_follow last
      obtain rfl : parent = location := by
        rw [follow_directory inside, if_pos rfl] at last
        exact (Except.ok.inj last).symm
      rw [followed] at written
      simp only [bind, Except.bind, List.getLast?_concat, isName.hasTrailingSlash_join,
        isName.notHere, isName.notAbove, Bool.false_eq_true, or_self, if_false] at written
      split at written
      · cases written
      · next replaces => exact ⟨parent, ⟨follows, inside⟩, replaces, (Except.ok.inj written).symm⟩

/-- An entry in the directory that a path leads to, in no directory's place, keeps the path leading
there. -/
theorem Leads.put (leads : disk.Leads path location)
    (replaces : disk.entry? (location ++ [name]) ≠ some .directory) (entry : DiskEntry) :
    (disk.put (location ++ [name]) entry).Leads path location := by
  have nonempty : location ++ [name] ≠ [] := List.append_ne_nil_of_right_ne_nil _ (by simp)
  have kept {spot : List String} (inside : disk.entry? spot = some .directory) :
      entry? (disk.put (location ++ [name]) entry) spot = some .directory := by
    rw [disk.entry?_put nonempty, if_neg]
    · exact inside
    · rintro rfl
      exact replaces inside
  exact ⟨follow_mono kept leads.follows, kept leads.directory⟩

/-- What is written to a path is found there, wherever the path leads. Paths with `..` in them are
no exception, since no directory on the way has changed. -/
theorem readText_of_writeText {content : String} {new : Disk} (isName : Path.IsName name)
    (written : disk.writeText (Path.join path name) content = .ok new) :
    new.readText (Path.join path name) = .ok content := by
  obtain ⟨place, leads, replaces, rfl⟩ := writeText_join_eq_ok isName written
  have nonempty : place ++ [name] ≠ [] := List.append_ne_nil_of_right_ne_nil _ (by simp)
  rw [(leads.put replaces _).readText_join isName, disk.entry?_put nonempty, if_pos rfl, textOf]

/-- A directory is made in another one, under a name that nothing has yet. The last name of its path
is neither `.` nor `..`. -/
theorem makeDirectory_eq_ok {new : Disk} (made : disk.makeDirectory path = .ok new) :
    ∃ front name parent, Path.names path = front ++ [name] ∧ name ≠ "." ∧ name ≠ ".." ∧
      disk.follow (disk.origin path) front = .ok parent ∧
      disk.entry? parent = some .directory ∧ disk.entry? (parent ++ [name]) = none ∧
      new = disk.put (parent ++ [name]) .directory := by
  rw [makeDirectory] at made
  split at made
  · cases made
  rw [locateParent] at made
  cases followed : disk.follow (disk.origin path) ((Path.names path).dropLast ++ ["."]) with
  | error error =>
      rw [followed] at made
      cases made
  | ok reached =>
      obtain ⟨parent, follows, last⟩ := follow_append_eq_ok followed
      have inside := directory_of_follow last
      obtain rfl : reached = parent := by
        rw [follow_directory inside, if_pos rfl] at last
        exact (Except.ok.inj last).symm
      rw [followed] at made
      dsimp only [bind, Except.bind] at made
      split at made
      · cases made
      · next name ends =>
          split at made
          · cases made
          · next free =>
              simp only [not_or, Bool.not_eq_true, Option.isSome_eq_false_iff,
                Option.isNone_iff_eq_none] at free
              obtain ⟨front, shape⟩ := List.getLast?_eq_some_iff.mp ends
              rw [shape, List.dropLast_concat] at follows
              exact ⟨front, name, reached, shape, free.1, free.2.1, follows, inside, free.2.2,
                (Except.ok.inj made).symm⟩

/-! ### Making directories -/

/-- A path leads to the location once the directories that are missing at its end are made: some of
its names lead to a directory, and the others do not step back. -/
def Reaches (disk : Disk) (path : String) (location : List String) : Prop :=
  ∃ front back start, Path.names path = front ++ back ∧ ".." ∉ back ∧
    disk.follow (disk.origin path) front = .ok start ∧
    disk.entry? start = some .directory ∧ location = start ++ back.filter (· != ".")

theorem Leads.reaches (leads : disk.Leads path location) : disk.Reaches path location :=
  ⟨Path.names path, [], location, (List.append_nil _).symm, List.not_mem_nil, leads.follows,
    leads.directory, (List.append_nil _).symm⟩

theorem Reaches.eq_of_leads (reaches : disk.Reaches path location)
    (leads : disk.Leads path place) : place = location := by
  obtain ⟨front, back, start, shape, noStep, first, inside, rfl⟩ := reaches
  have whole := leads.follows
  rw [shape, follow_append, first] at whole
  exact eq_append_of_follow noStep whole

/-- A directory that is there is led to. The disk must be a tree for that, or a directory on the way
could be missing. -/
theorem Reaches.leads (reaches : disk.Reaches path location) (tree : disk.IsTree)
    (inside : disk.entry? location = some .directory) : disk.Leads path location := by
  obtain ⟨front, back, start, shape, noStep, first, -, rfl⟩ := reaches
  constructor
  · rw [shape, follow_append, first]
    exact tree.follow_eq noStep inside
  · exact inside

/-- The disk has more directories than it had, all of them on the way to the location. -/
structure Grows (location : List String) (old new : Disk) : Prop where
  current : new.current = old.current
  kept : ∀ {place entry}, old.entry? place = some entry → new.entry? place = some entry
  added : ∀ {place entry}, new.entry? place = some entry →
    old.entry? place = some entry ∨ place <+: location
  tree : old.IsTree → new.IsTree

namespace Grows

variable {old new last : Disk}

theorem refl (location : List String) (disk : Disk) : Grows location disk disk where
  current := rfl
  kept := id
  added := .inl
  tree := id

/-- Growing twice is growing. The directories that are made in between are kept by the second step.
-/
theorem trans (first : Grows location old new) (second : Grows location new last) :
    Grows location old last where
  current := second.current.trans first.current
  kept found := second.kept (first.kept found)
  added found := (second.added found).elim first.added .inr
  tree := second.tree ∘ first.tree

theorem origin (grows : Grows location old new) (path : String) :
    new.origin path = old.origin path := by
  rw [Disk.origin, Disk.origin, grows.current]

theorem leads (grows : Grows location old new) (leads : old.Leads path place) :
    new.Leads path place where
  follows := by
    rw [grows.origin]
    exact follow_mono grows.kept leads.follows
  directory := grows.kept leads.directory

theorem reaches (grows : Grows location old new) (reaches : old.Reaches path place) :
    new.Reaches path place := by
  obtain ⟨front, back, start, shape, noStep, first, inside, rfl⟩ := reaches
  refine ⟨front, back, start, shape, noStep, ?_, grows.kept inside, rfl⟩
  rw [grows.origin]
  exact follow_mono grows.kept first

end Grows

/-- A directory that is made above a path is on its way, so it is one of those that the path needs.
-/
theorem grows_of_makeDirectory {upper : String} {new : Disk} (reaches : disk.Reaches path location)
    (above : Path.IsAbove upper path) (made : disk.makeDirectory upper = .ok new) :
    Grows location disk new := by
  obtain ⟨front, name, parent, shape, notHere, notAbove, follows, inside, free, rfl⟩ :=
    makeDirectory_eq_ok made
  obtain ⟨known, back, start, whole, noStep, first, isDirectory, rfl⟩ := reaches
  have nonempty : parent ++ [name] ≠ [] := List.append_ne_nil_of_right_ne_nil _ (by simp)
  have origin : disk.origin upper = disk.origin path := by
    rw [Disk.origin, above.absolute, Disk.origin]
  have onTheWay : parent ++ [name] <+: start ++ back.filter (· != ".") := by
    obtain ⟨more, names⟩ := above.names
    rw [shape, whole, List.append_assoc] at names
    rw [origin] at follows
    rcases List.append_eq_append_iff.mp names with ⟨gap, rfl, rest⟩ | ⟨gap, rfl, rfl⟩
    · rw [follow_append, follows] at first
      cases gap with
      | nil =>
          obtain rfl : parent = start := Except.ok.inj first
          rw [← show [name] ++ more = back from rest, List.singleton_append,
            List.filter_cons_of_pos (by simp [notHere]), List.prefix_append_right_inj]
          exact List.prefix_append [name] _
      | cons next gap =>
          -- The name leads on to a directory, so something is there.
          obtain ⟨rfl, -⟩ := List.cons.inj rest
          have further : disk.follow (parent ++ [name]) gap = .ok start := by
            rw [← follow_cons_name notHere notAbove inside]
            exact first
          rw [directory_of_follow_directory further isDirectory] at free
          cases free
    · rw [follow_append, first] at follows
      rw [List.mem_append, not_or] at noStep
      rw [eq_append_of_follow noStep.1 follows, List.filter_append, List.append_assoc,
        List.prefix_append_right_inj, List.prefix_append_right_inj, List.filter_append,
        List.filter_cons_of_pos (by simp [notHere])]
      exact List.prefix_append _ _
  constructor
  · rfl
  · intro place entry found
    rw [entry?_put disk nonempty, if_neg]
    · exact found
    · rintro rfl
      rw [free] at found
      cases found
  · intro place entry found
    rw [entry?_put disk nonempty] at found
    split at found
    · next same =>
        subst same
        exact .inr onTheWay
    · exact .inl found
  · exact fun tree => tree.put inside (by simp [free]) _

/-- An action only makes directories, on the way of the path. -/
def Paves {α : Type} (path : String) (action : StateM Disk α) : Prop :=
  ∀ disk location, disk.Reaches path location → Grows location disk (action.run disk).2

namespace Paves

variable {α β : Type}

/-- An action that leaves the disk alone paves every way, as nothing is made that is not on it. -/
theorem of_keeps {action : StateM Disk α} (keeps : ∀ disk, (action.run disk).2 = disk) :
    Paves path action := by
  intro disk location reaches
  rw [keeps disk]
  exact .refl location disk

/-- One action after the other. The path still reaches its location after the first, since all that
it has made is on the way. -/
theorem bind {action : StateM Disk α} {next : α → StateM Disk β} (first : Paves path action)
    (second : ∀ value, Paves path (next value)) : Paves path (action >>= next) := by
  intro disk location reaches
  have grows := first disk location reaches
  exact grows.trans (second _ _ location (grows.reaches reaches))

theorem createDirectory {upper : String} (above : Path.IsAbove upper path) :
    Paves path (FileAccess.createDirectory upper : StateM Disk (Except FileError Unit)) := by
  intro disk location reaches
  show Grows location disk (update (·.makeDirectory upper) disk).2
  rw [update]
  cases made : disk.makeDirectory upper with
  | error error => exact .refl location disk
  | ok new => exact grows_of_makeDirectory reaches above made

theorem ensureDirectory {upper : String} (above : Path.IsAbove upper path) :
    Paves path (FileAccess.ensureDirectory upper : StateM Disk (Except FileError Unit)) := by
  apply bind (createDirectory above)
  intro result
  cases result with
  | ok done => exact of_keeps fun _ => rfl
  | error error =>
      apply bind (of_keeps fun _ => rfl)
      intro there
      cases there <;> exact of_keeps fun _ => rfl

theorem ensureDirectories {uppers : List String}
    (above : ∀ upper ∈ uppers, Path.IsAbove upper path) :
    Paves path (FileAccess.ensureDirectories uppers : StateM Disk (Except FileError Unit)) := by
  induction uppers with
  | nil => exact of_keeps fun _ => rfl
  | cons upper further ih =>
      obtain ⟨here, others⟩ := List.forall_mem_cons.mp above
      rw [FileAccess.ensureDirectories]
      split
      · exact of_keeps fun _ => rfl
      apply bind (ensureDirectory here)
      intro result
      split
      · exact of_keeps fun _ => rfl
      · apply bind (ih others)
        intro result
        cases result with
        | ok done => exact ensureDirectory here
        | error error => exact of_keeps fun _ => rfl
      · exact of_keeps fun _ => rfl

theorem createDirectories (path : String) :
    Paves path (FileAccess.createDirectories path : StateM Disk (Except FileError Unit)) :=
  ensureDirectories fun _ => Path.isAbove_of_mem_ancestors

end Paves

/-! ### Writing files -/

/-- One file in the directory of the path was written. A file that could be read still can, and one
that was missing still is. -/
structure Writes (path name content : String) (old new : Disk) : Prop where
  tree : new.IsTree
  reaches : ∃ location, new.Reaches path location
  written : new.readText (Path.join path name) = .ok content
  kept : ∀ {other text}, Path.IsName other → other ≠ name →
    old.readText (Path.join path other) = .ok text → new.readText (Path.join path other) = .ok text
  missing : ∀ {other}, Path.IsName other → other ≠ name →
    old.readText (Path.join path other) = .error .notFound →
    new.readText (Path.join path other) = .error .notFound

/-- Writing a file after its directories were made: the file is where the path leads, and apart from
it only directories on the way are new. -/
theorem writes_of_grows {old made new : Disk} {content : String} (tree : old.IsTree)
    (reaches : old.Reaches path location) (grows : Grows location old made)
    (isName : Path.IsName name)
    (written : made.writeText (Path.join path name) content = .ok new) :
    Writes path name content old new := by
  obtain ⟨place, leads, replaces, rfl⟩ := writeText_join_eq_ok isName written
  obtain rfl : place = location := (grows.reaches reaches).eq_of_leads leads
  have nonempty : place ++ [name] ≠ [] := List.append_ne_nil_of_right_ne_nil _ (by simp)
  have still := leads.put replaces (.file (.text content))
  have apart {other : String} (ne : other ≠ name) :
      entry? (made.put (place ++ [name]) (.file (.text content))) (place ++ [other]) =
        made.entry? (place ++ [other]) := by
    rw [made.entry?_put nonempty, if_neg]
    simpa using ne
  constructor
  · exact (grows.tree tree).put leads.directory replaces _
  · exact ⟨place, still.reaches⟩
  · exact readText_of_writeText isName written
  · intro other text isOther ne found
    obtain ⟨spot, before⟩ := exists_leads_of_readText isOther found
    obtain rfl : spot = place := reaches.eq_of_leads before
    rw [before.readText_join isOther] at found
    rw [still.readText_join isOther, apart ne, grows.kept (textOf_eq_ok found), textOf]
  · intro other isOther ne lost
    rw [still.readText_join isOther, apart ne]
    -- Neither was it there before, nor is it on the way to its own directory.
    cases there : made.entry? (place ++ [other]) with
    | none => rfl
    | some held =>
        rcases grows.added there with before | onTheWay
        · have inside := tree _ _ _ before
          rw [(reaches.leads tree inside).readText_join isOther, before] at lost
          cases textOf_eq_notFound lost
        · have short := onTheWay.length_le
          rw [List.length_append, List.length_singleton] at short
          omega

end Maxscript.Disk
