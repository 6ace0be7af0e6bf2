import Maxscript.Text

/-!
# Paths

A path is a text in which `/` separates names. One that starts with `/` is absolute. Repeated
separators and the name `.` mean nothing, except for a `.` at the very start.
-/

namespace Maxscript.Path

def segments (path : String) : List String :=
  (Text.splitOn '/' path.toList).map String.ofList

def isAbsolute (path : String) : Bool := path.toList.head? == some '/'

def hasTrailingSlash (path : String) : Bool := path.toList.getLast? == some '/'

/-- The names that a path leads through. -/
def names (path : String) : List String := (segments path).filter (· != "")

/-- The path of `file` seen from `directory`. An absolute path stays as it is, and an empty one
leaves a separator behind the directory. -/
def join (directory file : String) : String :=
  if isAbsolute file then file
  else if directory.isEmpty || hasTrailingSlash directory then directory ++ file
  else directory ++ "/" ++ file

/-- Drops segments that mean nothing from the end, given in reverse. The last one left is the
first of the path, where a `.` does mean something. -/
def dropVoid (absolute : Bool) : List String → List String
  | [] => []
  | "" :: rest => dropVoid absolute rest
  | "." :: rest => if rest.isEmpty && !absolute then ["."] else dropVoid absolute rest
  | segment :: rest => segment :: rest

/-- The segments that matter, the last one first, without the one for the root. -/
def reversed (path : String) : List String :=
  let body := if isAbsolute path then (segments path).drop 1 else segments path
  dropVoid (isAbsolute path) body.reverse

/-- The path without its last name. The root and the empty path have no parent. -/
def parent? (path : String) : Option String :=
  match reversed path with
  | [] => none
  | _ :: rest =>
    let body := Text.joinWith "/" (dropVoid (isAbsolute path) rest).reverse
    some (if isAbsolute path then "/" ++ body else body)

def fileName? (path : String) : Option String :=
  match reversed path with
  | [] => none
  | name :: _ => if name = "." ∨ name = ".." then none else some name

/-- A path and the paths above it, nearest first. -/
def ancestors (path : String) : List String :=
  match parent? path with
  | none => [path]
  | some parent => if parent.length < path.length then path :: ancestors parent else [path]
termination_by path.length

end Maxscript.Path
