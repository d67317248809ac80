import MiniC.CommandLine
import MiniC.Compile

/-!
# Running a request

A run reads the input, compiles it, and writes the assembly to the output, or to
standard output if none is given.  It is written against the operations it needs, so
that the same run can be carried out on real files and on a model of them.
-/

namespace MiniC
namespace CommandLine

/-- Why a file cannot be read or written. -/
inductive FileError
  | notFound
  | isDirectory
  | notDirectory
  | nameTooLong
  | noSpace
  | outOfMemory
  | invalidText
  | other (reason : String)
  deriving DecidableEq

namespace FileError

/-- The wording of a file error. -/
def message : FileError -> String
  | notFound => "No such file or directory (os error 2)"
  | isDirectory => "Is a directory (os error 21)"
  | notDirectory => "Not a directory (os error 20)"
  | nameTooLong => "File name too long (os error 36)"
  | noSpace => "No space left on device (os error 28)"
  | outOfMemory => "out of memory"
  | invalidText => "stream did not contain valid UTF-8"
  | other reason => reason

end FileError

/-- The operations on files and standard streams that a run needs. -/
structure System (m : Type -> Type) where
  /-- The bytes of a file. -/
  readFile : String -> m (Except FileError ByteArray)
  /-- All bytes of standard input. -/
  readInput : m (Except FileError ByteArray)
  /-- Make a text the contents of a file. -/
  writeFile : String -> String -> m (Except FileError Unit)
  /-- Write a text to standard output. -/
  writeOutput : String -> m (Except FileError Unit)

/-- How a run ends: with help or advice on usage, with an error message, or with
the assembly delivered. -/
inductive Outcome
  | help
  | misuse
  | failure (message : String)
  | success
  deriving DecidableEq

namespace Outcome

/-- The exit status. -/
def status : Outcome -> Nat
  | help => 0
  | misuse => 2
  | failure _ => 1
  | success => 0

/-- What the outcome adds to standard output. -/
def shown : Outcome -> String
  | help => usage
  | _ => ""

/-- What the outcome adds to standard error. -/
def complaint : Outcome -> String
  | misuse => usage
  | failure message => message ++ "\n"
  | _ => ""

end Outcome

/-- The text that bytes encode. -/
def decodeText (bytes : ByteArray) : Except FileError String :=
  match String.fromUTF8? bytes with
  | some text => .ok text
  | none => .error .invalidText

/-- The source file that an input names. -/
def readSource {m : Type -> Type} [Monad m] (system : System m) (path : String) :
    m (Except FileError SourceFile) := do
  let bytes ← if path = "-" then system.readInput else system.readFile path
  return bytes.bind fun bytes => (decodeText bytes).map fun text => ⟨path, text⟩

/-- The name of an output in messages. -/
def outputName (output : Option String) : String := output.getD "<stdout>"

/-- Deliver assembly to the output, or to standard output. -/
def deliver {m : Type -> Type} [Monad m] (system : System m)
    (output : Option String) (text : String) : m Outcome := do
  let written ← match output with
    | none => system.writeOutput text
    | some path => system.writeFile path text
  match written with
  | .ok _ => return .success
  | .error error =>
      return .failure ("cannot write " ++ outputName output ++ ": " ++ error.message)

/-- Compile an input. -/
def compileInput {m : Type -> Type} [Monad m] (system : System m)
    (input : String) (output : Option String) : m Outcome := do
  match ← readSource system input with
  | .error error =>
      return .failure ("cannot open " ++ input ++ ": " ++ error.message)
  | .ok file =>
      match compile file with
      | .error error => return .failure (error.render file)
      | .ok text => deliver system output text

/-- Run the program with the given arguments. -/
def run {m : Type -> Type} [Monad m] (system : System m) (args : List String) :
    m Outcome := do
  match Request.ofArgs args with
  | .help => return .help
  | .misuse => return .misuse
  | .compile input output => compileInput system input output

end CommandLine
end MiniC
