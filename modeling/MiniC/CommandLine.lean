/-!
# Command-line arguments

The program takes one input, where `-` means standard input, and optionally the
path of an output: `-o PATH`, `-oPATH`, `-o=PATH`, `--output PATH` or
`--output=PATH`.  Behind `--` every argument is an input.  Arguments are read from
left to right; `-h` and `--help` end the reading.
-/

namespace MiniC
namespace CommandLine

/-- What the arguments ask for. -/
inductive Request
  | help
  | misuse
  | compile (input : String) (output : Option String)
  deriving DecidableEq

/-- One argument by itself.  An output may have its path attached. -/
inductive Argument
  | help
  | output (path : Option String)
  | input (path : String)
  | unknown
  deriving DecidableEq

/-- The inputs and outputs read so far. -/
structure Options where
  input : Option String
  output : Option String
  deriving DecidableEq

namespace Argument

/-- A long option, from behind its two hyphens: the name and what an equals sign
attaches to it. -/
def ofLong (text : List Char) : Argument :=
  let name := String.ofList (text.takeWhile (· ≠ '='))
  let attached := text.dropWhile (· ≠ '=')
  if name = "output" then
    match attached with
    | [] => output none
    | _ :: path => output (some (String.ofList path))
  else if name = "help" && attached.isEmpty then
    help
  else
    unknown

/-- A short option, from behind its hyphen. -/
def ofShort : List Char -> Argument
  | [] => input "-"
  | 'h' :: _ => help
  | ['o'] => output none
  | 'o' :: '=' :: path => output (some (String.ofList path))
  | 'o' :: path => output (some (String.ofList path))
  | _ => unknown

/-- The meaning of an argument. -/
def ofText (text : String) : Argument :=
  match text.toList with
  | '-' :: '-' :: rest => ofLong rest
  | '-' :: rest => ofShort rest
  | _ => input text

end Argument

namespace Options

/-- No inputs and outputs. -/
def none : Options := ⟨Option.none, Option.none⟩

/-- Add an input.  There is only one, and its path is not empty. -/
def addInput? (options : Options) (path : String) : Option Options :=
  if path.isEmpty || options.input.isSome then Option.none
  else some { options with input := some path }

/-- Add an output.  There is at most one, and its path is not empty. -/
def addOutput? (options : Options) (path : String) : Option Options :=
  if path.isEmpty || options.output.isSome then Option.none
  else some { options with output := some path }

/-- What the options ask for.  There has to be an input. -/
def request (options : Options) : Request :=
  match options.input with
  | some input => .compile input options.output
  | Option.none => .misuse

end Options

/-- Whether an argument can be the path of an output that stands before it. -/
def isPath (text : String) : Bool := text = "-" || !text.startsWith "-"

/-- Read inputs, behind `--`. -/
def readInputs (options : Options) : List String -> Request
  | [] => options.request
  | path :: rest =>
      match options.addInput? path with
      | some extended => readInputs extended rest
      | none => .misuse

/-- Read arguments.  The path of an output may still be awaited. -/
def readArguments (options : Options) (awaiting : Bool) : List String -> Request
  | [] => if awaiting then .misuse else options.request
  | argument :: rest =>
      if awaiting then
        match if isPath argument then options.addOutput? argument else none with
        | some extended => readArguments extended false rest
        | none => .misuse
      else if argument = "--" then
        readInputs options rest
      else
        match Argument.ofText argument with
        | .help => .help
        | .unknown => .misuse
        | .input path =>
            match options.addInput? path with
            | some extended => readArguments extended false rest
            | none => .misuse
        | .output (some path) =>
            match options.addOutput? path with
            | some extended => readArguments extended false rest
            | none => .misuse
        | .output none => readArguments options true rest

/-- What a list of arguments asks for. -/
def Request.ofArgs (args : List String) : Request := readArguments .none false args

/-- Advice on the arguments. -/
def usage : String :=
  "Usage: minic [OPTIONS] <INPUT>\n\n"
    ++ "  -o, --output <OUTPUT>  Write the assembly to a file\n"
    ++ "  -h, --help             Print this text\n"

end CommandLine
end MiniC
