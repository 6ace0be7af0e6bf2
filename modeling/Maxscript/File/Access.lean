import Maxscript.File.Path

/-!
# Access to files

What the program asks of the file system, and how it can fail.
-/

namespace Maxscript

inductive FileError where
  | notFound
  | alreadyExists
  | notDirectory
  | isDirectory
  /-- The bytes of a file are not the UTF-8 form of a text. -/
  | notText
  | other (message : String)
deriving DecidableEq, Repr

def FileError.message : FileError → String
  | .notFound => "No such file or directory (os error 2)"
  | .alreadyExists => "File exists (os error 17)"
  | .notDirectory => "Not a directory (os error 20)"
  | .isDirectory => "Is a directory (os error 21)"
  | .notText => "stream did not contain valid UTF-8"
  | .other message => message

/-- The operations on files, as actions of a monad. -/
class FileAccess (m : Type → Type) where
  readText : (path : String) → m (Except FileError String)
  /-- Writes a file, in the place of one that may be there. -/
  writeText : (path content : String) → m (Except FileError Unit)
  /-- Makes one directory, where nothing is yet. -/
  createDirectory : (path : String) → m (Except FileError Unit)
  isDirectory : (path : String) → m Bool

namespace FileAccess

variable {m : Type → Type} [Monad m] [FileAccess m]

/-- Makes one directory, unless it is there. -/
def ensureDirectory (path : String) : m (Except FileError Unit) := do
  match ← createDirectory path with
  | .ok () => return .ok ()
  | .error error => if ← isDirectory path then return .ok () else return .error error

/-- Makes the first of several directories, each of which lies in the one after it, and those of
the others that it needs. The empty path is the working directory, which is there. -/
def ensureDirectories : List String → m (Except FileError Unit)
  | [] => return .ok ()
  | path :: above => do
    if path.isEmpty then return .ok ()
    else match ← ensureDirectory path with
      | .ok () => return .ok ()
      | .error .notFound => do
        match ← ensureDirectories above with
        | .ok () => ensureDirectory path
        | .error error => return .error error
      | .error error => return .error error

/-- Makes a directory and those above it that are missing. What was made before a failure
stays. -/
def createDirectories (path : String) : m (Except FileError Unit) :=
  ensureDirectories (Path.ancestors path)

end FileAccess

end Maxscript
