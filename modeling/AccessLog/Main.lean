import AccessLog.CommandLine.Run

/-!
# The program

The command line on the files and streams of a machine. Everything it does is decided in
`CommandLine.run`; here it is only connected.
-/

set_option autoImplicit false

namespace AccessLog.Main

/-- What a failure of the system is to a reader of files. -/
def failureOf : IO.Error → ReadFailure
  | .noFileOrDirectory .. => .noSuchFile
  | .inappropriateType _ 20 _ => .notADirectory
  | .inappropriateType _ 21 _ => .isADirectory
  | .invalidArgument _ 36 _ => .nameTooLong
  | .permissionDenied _ code reason =>
    .other (reason ++ " (os error " ++ Text.decimal code.toNat ++ ")")
  | e => .other (toString e)

def readFile : FileReader IO := fun path => do
  if path.toList.contains '\x00' then return .error .nullInPath
  try
    return textOfBytes (← IO.FS.readBinFile path)
  catch e => return .error (failureOf e)

partial def readAll (stream : IO.FS.Stream) (found : ByteArray) : IO ByteArray := do
  let bytes ← stream.read 65536
  if bytes.isEmpty then return found else readAll stream (found ++ bytes)

def readInput : IO (Except ReadFailure String) := do
  try
    return textOfBytes (← readAll (← IO.getStdin) .empty)
  catch e => return .error (failureOf e)

end AccessLog.Main

/-- Runs the program and ends with its status. -/
def main (arguments : List String) : IO UInt32 := do
  let outcome ← AccessLog.CommandLine.run
    ⟨AccessLog.Main.readFile, AccessLog.Main.readInput⟩ arguments
  (← IO.getStdout).putStr outcome.output
  (← IO.getStderr).putStr outcome.errors
  return outcome.status.toUInt32
