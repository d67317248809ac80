import MiniC.CommandLine.Run

/-!
# The program

`main` runs `MiniC.CommandLine.run` on real files.
-/

namespace MiniC
namespace CommandLine

/-- The file error behind a failed operation. -/
def FileError.ofIO : IO.Error -> FileError
  | .noFileOrDirectory _ _ _ => .notFound
  | .inappropriateType _ 20 _ => .notDirectory
  | .inappropriateType _ _ _ => .isDirectory
  | .invalidArgument _ 36 _ => .nameTooLong
  | .resourceExhausted _ 28 _ => .noSpace
  | error => .other (toString error)

/-- The result of an operation on files, or the reason why it failed. -/
def attempt {α : Type} (action : IO α) : IO (Except FileError α) := do
  try
    return .ok (← action)
  catch error =>
    return .error (.ofIO error)

/-- Read a stream to its end. -/
partial def readStream (stream : IO.FS.Stream) (seen : ByteArray) : IO ByteArray := do
  let chunk ← stream.read 65536
  if chunk.isEmpty then return seen
  readStream stream (seen ++ chunk)

/-- The real files and standard streams.  A text is on standard output once the stream is
flushed. -/
def realFiles : System IO where
  readFile path := attempt (IO.FS.readBinFile path)
  readInput := attempt do readStream (← IO.getStdin) ByteArray.empty
  writeFile path text := attempt (IO.FS.writeFile path text)
  writeOutput text := attempt do
    let output ← IO.getStdout
    output.putStr text
    output.flush

/-- Carry out a run on the real files and show its outcome. -/
def runReal (args : List String) : IO UInt32 := do
  let outcome ← run realFiles args
  IO.print outcome.shown
  IO.eprint outcome.complaint
  return UInt32.ofNat outcome.status

end CommandLine
end MiniC

/-- Compile a source file to assembly. -/
def main (args : List String) : IO UInt32 :=
  MiniC.CommandLine.runReal args
