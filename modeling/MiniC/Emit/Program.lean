import MiniC.Emit.Node

/-!
# Code of programs

The code of a program begins with a header.  Then come the data of its global
variables and then the text of its functions, both in the order of declaration.
-/

namespace MiniC
namespace Emit

open Asm

/-- The declaration of a symbol's visibility. -/
def visibility (symbol : Symbol) : Line :=
  .directive
    (if symbol.isStatic then .localSymbol symbol.name else .globalSymbol symbol.name)

/-- The initial bytes of a variable. -/
def initialBytes (ty : Ty) : Option (List UInt8) -> Code
  | some data => data.map fun value => .directive (.byte value)
  | none => [.directive (.zero ty.size)]

/-- The data of a file-scope symbol.  Only variables have data.  The arrays of
string literals are not visible outside. -/
def symbolData (program : Program) (id : SymbolId) : Except Error Code := do
  let symbol ← program.lookupSymbol id
  match symbol.kind with
  | .globalVar init =>
      let ty ← program.lookupTy symbol.ty
      let declared := if symbol.name.startsWith ".L" then [] else [visibility symbol]
      return [.directive .data] ++ declared
        ++ [.directive (.align ty.align), .label (.symbol symbol.name)]
        ++ initialBytes ty init
  | _ => return []

/-- Store register arguments, from the given one on, into their frame slots. -/
def spillFrom (program : Program) : Nat -> List SymbolId -> Except Error Code
  | _, [] => return []
  | index, param :: rest => do
      let offset ← frameOffset program param
      let ty ← program.lookupTy (← program.lookupSymbol param).ty
      let reg ← argumentRegister index
      return instrs [.storeFrame offset reg (.ofSize ty.size)]
        ++ (← spillFrom program (index + 1) rest)

/-- Reserve the frame below the saved base pointer. -/
def reserve (size : Int) : List Instr :=
  if size > 0 then [.subConst .rsp size] else []

/-- The start of a function up to its body. -/
def prologue (program : Program) (definition : Program.Definition) :
    Except Error Code := do
  let spills ← spillFrom program 0 definition.function.params
  return [visibility definition.symbol, .directive .text,
      .label (.symbol definition.symbol.name)]
    ++ instrs ([.push .rbp, .move .rbp .rsp] ++ reserve definition.function.stackSize)
    ++ spills

/-- The end of a function.  Falling off the end of `main` returns zero. -/
def epilogue (name : String) : Code :=
  instrs (if name = "main" then [.set .rax 0] else [])
    ++ [.label (.exit name)]
    ++ instrs [.move .rsp .rbp, .pop .rbp, .ret]

/-- Reject code that leaves values on the stack. -/
def checkBalance (name : String) : Generator Unit := do
  let depth := (← get).depth
  unless depth = 0 do
    throw (.internal (.unbalancedStack name depth))

/-- The text of a function. -/
def functionText (program : Program) (definition : Program.Definition) :
    Generator Code := do
  let name := definition.symbol.name
  let start ← prologue program definition
  modify fun state => { state with depth := 0 }
  let generators := routines ⟨program, name⟩ (program.nodes.size + 1)
  let body ← generators.statement definition.body
  checkBalance name
  return start ++ body ++ epilogue name

/-- The first lines of the code. -/
def header (name : String) : Code :=
  [.directive .intelSpelling, .directive (.file name)]

/-- The code of a program read from a file of the given name. -/
def program (program : Program) (name : String) : Except Error Code := do
  let data ← program.globals.toList.mapM (symbolData program)
  let (text, _) ← (program.definitions.mapM (functionText program)).run ⟨0, 0⟩
  return header name ++ data.flatten ++ text.flatten

end Emit
end MiniC
