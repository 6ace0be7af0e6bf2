import Maxscript.Command.Run

/-!
# The program

Connects the commands to the file system, the environment and the standard streams.
-/

namespace Maxscript

/-- The number of a system error, whichever sign it is reported with. -/
def systemCode (code : UInt32) : Nat := min code.toNat (0 - code).toNat

/-- The cause of a failed operation on a file. -/
def FileError.ofSystem (error : IO.Error) : FileError :=
  match error with
  | .noFileOrDirectory _ _ _ => .notFound
  | .alreadyExists _ _ _ => .alreadyExists
  | .inappropriateType _ code _ =>
    if systemCode code = 20 then .notDirectory
    else if systemCode code = 21 then .isDirectory
    else .other (toString error)
  | _ => .other (toString error)

def guarded (action : IO α) : IO (Except FileError α) := do
  try return .ok (← action)
  catch error => return .error (.ofSystem error)

/-- The text that bytes are the UTF-8 form of. -/
def decoded (bytes : ByteArray) : Except FileError String :=
  match String.fromUTF8? bytes with
  | some text => .ok text
  | none => .error .notText

instance : FileAccess IO where
  readText path := do return (← guarded (IO.FS.readBinFile path)).bind decoded
  writeText path content := guarded (IO.FS.writeFile path content)
  createDirectory path := guarded (IO.FS.createDir path)
  isDirectory path := do
    let found ← guarded (do (← IO.FS.realPath path).isDir)
    return found.toOption.getD false

def standardInput : IO (Except FileError String) := do
  return (← guarded (do (← IO.getStdin).readBinToEnd)).bind decoded

end Maxscript

open Maxscript in
/-- Runs the program. Its outcome is printed, errors on the error stream. -/
def main (arguments : List String) : IO UInt32 := do
  let environment : Environment :=
    { configHome := ← IO.getEnv "XDG_CONFIG_HOME", home := ← IO.getEnv "HOME" }
  let root := toString (← IO.currentDir)
  let outcome ← Command.run environment root standardInput arguments
  IO.print outcome.output
  for error in outcome.errors do
    IO.eprintln ("error: " ++ error)
  return UInt32.ofNat outcome.code
