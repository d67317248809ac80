import MiniC.Asm.Render
import MiniC.Emit.Program
import MiniC.Grammar.Unit
import MiniC.Token.Lexer

/-!
# Compilation

A source file is cut into tokens, parsed into a program, and turned into assembly.
The first error ends the compilation.
-/

namespace MiniC

/-- The program in a source file. -/
def parseFile (file : SourceFile) : Except Error Program := do
  parse (← tokenize file)

/-- The assembly lines for a source file. -/
def compileLines (file : SourceFile) : Except Error Asm.Code := do
  Emit.program (← parseFile file) file.name

/-- The assembly text for a source file. -/
def compile (file : SourceFile) : Except Error String := do
  return Asm.Code.render (← compileLines file)

end MiniC
