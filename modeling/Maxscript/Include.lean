import Maxscript.File.Access

/-!
# Included files

Before it is read, a script gets uniform line ends, and a directive such as `include "lib.ms"` is
replaced by the text of the file. Included text is not searched for directives.
-/

namespace Maxscript.Include

/-- What a script consists of: characters, and files to include. -/
inductive Part where
  | char (c : Char)
  | file (name : String)

/-- The file that a directive at the front of a text names, and the text after it. Only blanks may
stand between the word and the quote. -/
def directive? (cs : List Char) : Option (String × List Char) :=
  if ['i', 'n', 'c', 'l', 'u', 'd', 'e', ' '].isPrefixOf cs then
    match (cs.drop 8).dropWhile (· == ' ') with
    | '"' :: quoted =>
      match quoted.dropWhile (· != '"') with
      | _ :: rest => some (String.ofList (quoted.takeWhile (· != '"')), rest)
      | [] => none
    | _ => none
  else none

theorem length_lt_of_directive? {cs rest : List Char} {name : String}
    (h : directive? cs = some (name, rest)) : rest.length < cs.length := by
  rw [directive?] at h
  split at h
  · split at h
    · next quoted hq =>
      split at h
      · next last after hr =>
        obtain ⟨-, rfl⟩ := Prod.mk.inj (Option.some.inj h)
        have h1 := congrArg List.length hq
        have h2 := congrArg List.length hr
        have h3 := List.Sublist.length_le (List.dropWhile_sublist (· == ' ') (l := cs.drop 8))
        have h4 := List.Sublist.length_le (List.dropWhile_sublist (· != '"') (l := quoted))
        simp only [List.length_cons, List.length_drop] at h1 h2 h3
        omega
      · cases h
    · cases h
  · cases h

def parts : List Char → List Part
  | [] => []
  | c :: cs =>
    match h : directive? (c :: cs) with
    | some (name, rest) =>
      have := length_lt_of_directive? h
      .file name :: parts rest
    | none => .char c :: parts cs
termination_by cs => cs.length
decreasing_by
  · exact this
  · exact Nat.lt_succ_self _

structure Error where
  path : String
  cause : FileError
deriving DecidableEq, Repr

def Error.message (error : Error) : String :=
  "failed to include " ++ error.path ++ ": " ++ error.cause.message

/-- Writes each tab as four blanks. -/
def expandTabs (cs : List Char) : List Char :=
  cs.flatMap fun c => if c = '\t' then [' ', ' ', ' ', ' '] else [c]

/-- The text of a part, with files looked up in the directory `base`. -/
def expandPart [Monad m] [FileAccess m] (base : String) : Part → ExceptT Error m (List Char)
  | .char c => return [c]
  | .file name => do
    match ← FileAccess.readText (m := m) (Path.join base name) with
    | .ok text => return expandTabs (Text.unifyLineEnds text.toList)
    | .error cause => throw ⟨Path.join base name, cause⟩

def expandParts [Monad m] [FileAccess m] (base : String) : List Part → ExceptT Error m (List Char)
  | [] => return []
  | part :: rest => do
    let first ← expandPart base part
    return first ++ (← expandParts base rest)

/-- The script that is read: with uniform line ends and, if a directory for them is given, with
included files in place. -/
def preprocess [Monad m] [FileAccess m] (base : Option String) (source : String) :
    ExceptT Error m String := do
  let text := Text.unifyLineEnds source.toList
  match base with
  | none => return String.ofList text
  | some directory => return String.ofList (← expandParts directory (parts text))

end Maxscript.Include
