import Maxscript.File.Access

/-!
# File systems as values

A `Disk` holds the files and directories below the root, by the names that lead to them, and the
working directory. Paths are followed name by name, and every name before the last must be that of
a directory.
-/

namespace Maxscript

/-- What a file holds: a text, or bytes that are not the UTF-8 form of one. -/
inductive Content where
  | text (text : String)
  | bytes (data : List UInt8)
deriving DecidableEq, Repr

def Content.ofBytes (data : List UInt8) : Content :=
  match String.fromUTF8? (ByteArray.mk data.toArray) with
  | some decoded => .text decoded
  | none => .bytes data

inductive DiskEntry where
  | directory
  | file (content : Content)
deriving DecidableEq, Repr

/-- Files and directories, each under the names that lead to it from the root, and the names that
lead to the working directory. -/
structure Disk where
  entries : List (List String × DiskEntry) := []
  current : List String := []

namespace Disk

/-- What is found under names from the root on. The root is a directory. -/
def entry? (disk : Disk) (location : List String) : Option DiskEntry :=
  if location.isEmpty then some .directory else disk.entries.lookup location

def put (disk : Disk) (location : List String) (entry : DiskEntry) : Disk :=
  let others := disk.entries.filter fun other => other.1 != location
  { disk with entries := (location, entry) :: others }

def follow (disk : Disk) (location : List String) : List String → Except FileError (List String)
  | [] => .ok location
  | name :: rest =>
    match disk.entry? location with
    | none => .error .notFound
    | some (.file _) => .error .notDirectory
    | some .directory =>
      if name = "." then disk.follow location rest
      else if name = ".." then disk.follow location.dropLast rest
      else disk.follow (location ++ [name]) rest

/-- Where a path starts. -/
def origin (disk : Disk) (path : String) : List String :=
  if Path.isAbsolute path then [] else disk.current

/-- The location of a path. A separator at the end demands a directory, as the name `.` does. -/
def locate (disk : Disk) (path : String) : Except FileError (List String) :=
  let names := Path.names path
  disk.follow (disk.origin path) (if Path.hasTrailingSlash path then names ++ ["."] else names)

/-- The location of the directory that holds the last name of a path. -/
def locateParent (disk : Disk) (path : String) : Except FileError (List String) :=
  disk.follow (disk.origin path) ((Path.names path).dropLast ++ ["."])

def at? (disk : Disk) (path : String) : Except FileError DiskEntry :=
  if path.isEmpty then .error .notFound
  else do
    let location ← disk.locate path
    match disk.entry? location with
    | none => .error .notFound
    | some entry => .ok entry

def isDirectory (disk : Disk) (path : String) : Bool :=
  match disk.at? path with
  | .ok .directory => true
  | _ => false

def readText (disk : Disk) (path : String) : Except FileError String := do
  match ← disk.at? path with
  | .directory => .error .isDirectory
  | .file (.bytes _) => .error .notText
  | .file (.text text) => .ok text

/-- Writes a file, in the place of one that may be there. -/
def writeText (disk : Disk) (path content : String) : Except FileError Disk :=
  if path.isEmpty then .error .notFound
  else do
    let parent ← disk.locateParent path
    match (Path.names path).getLast? with
    | none => .error .isDirectory
    | some name =>
      if Path.hasTrailingSlash path ∨ name = "." ∨ name = ".." then .error .isDirectory
      else if disk.entry? (parent ++ [name]) = some .directory then .error .isDirectory
      else .ok (disk.put (parent ++ [name]) (.file (.text content)))

/-- Makes one directory, where nothing is yet. -/
def makeDirectory (disk : Disk) (path : String) : Except FileError Disk :=
  if path.isEmpty then .error .notFound
  else do
    let parent ← disk.locateParent path
    match (Path.names path).getLast? with
    | none => .error .alreadyExists
    | some name =>
      if name = "." ∨ name = ".." ∨ (disk.entry? (parent ++ [name])).isSome then
        .error .alreadyExists
      else .ok (disk.put (parent ++ [name]) .directory)

/-- The result of an operation, and the disk after it. One that fails leaves the disk alone. -/
def update (operation : Disk → Except FileError Disk) (disk : Disk) :
    Except FileError Unit × Disk :=
  match operation disk with
  | .ok changed => (.ok (), changed)
  | .error error => (.error error, disk)

end Disk

instance : FileAccess (StateM Disk) where
  readText path := fun disk => (disk.readText path, disk)
  writeText path content := Disk.update (·.writeText path content)
  createDirectory path := Disk.update (·.makeDirectory path)
  isDirectory path := fun disk => (disk.isDirectory path, disk)

end Maxscript
