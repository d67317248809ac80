import MiniC.Grammar.Parser
import MiniC.Ty.Layout

/-!
# Declared symbols

Variables are entered into the symbol table and bound in the innermost scope.
File-scope symbols are also listed in the order of their declaration, and so are
the anonymous arrays that hold string literals.
-/

namespace MiniC
namespace Grammar

/-- Enter a symbol. -/
def newSymbol (symbol : Symbol) : Parser SymbolId :=
  modifyGet fun state =>
    (⟨state.program.symbols.size⟩,
      { state with
        program :=
          { state.program with symbols := state.program.symbols.push symbol } })

/-- List a symbol among the file-scope symbols. -/
def addGlobal (id : SymbolId) : Parser Unit :=
  modify fun state =>
    { state with
      program := { state.program with globals := state.program.globals.push id } }

/-- Bind a name to a symbol in the innermost scope. -/
def bindSymbol (name : String) (id : SymbolId) : Parser Unit :=
  modifyScopes (·.declareVariable name (.object id))

/-- Change what is known of the function being parsed. -/
def modifyFunction (change : FunctionContext -> FunctionContext) : Parser Unit :=
  modify fun state => { state with function := state.function.map change }

/-- Declare a local variable. -/
def newLocal (name : String) (ty : TyId) : Parser SymbolId := do
  let id ← newSymbol ⟨name, ty, false, .localVar none⟩
  modifyFunction fun function => { function with locals := function.locals ++ [id] }
  bindSymbol name id
  return id

/-- Declare a global variable. -/
def newGlobal (name : String) (ty : TyId) (isStatic : Bool) : Parser SymbolId := do
  let id ← newSymbol ⟨name, ty, isStatic, .globalVar none⟩
  addGlobal id
  bindSymbol name id
  return id

/-- A name that no identifier has. -/
def newLiteralName : Parser String :=
  modifyGet fun state =>
    (".L.." ++ toString state.literals, { state with literals := state.literals + 1 })

/-- Enter an array type.  A size that is out of range is rejected at the given
token. -/
def arrayOf (element : TyId) (length : Int) (tok : Nat) (cause : TypingError) :
    Parser TyId := do
  match (← get).program.types.arrayOf element length with
  | .ok (id, types) =>
      modify fun state =>
        { state with program := { state.program with types := types } }
      return id
  | .error .sizeOverflow => failAt tok (.typing cause)
  | .error (.fault reason) => throw (.fault reason)

/-- Enter the array that holds a string literal. -/
def newStringLiteral (data : List UInt8) (tok : Nat) : Parser SymbolId := do
  let ty ← arrayOf .char data.length tok .stringTooLarge
  let name ← newLiteralName
  let id ← newSymbol ⟨name, ty, true, .globalVar (some data)⟩
  addGlobal id
  return id

/-- Reject types that no variable can have. -/
def checkVariableTy (id : TyId) (tok : Nat) : Parser Unit := do
  let ty ← lookupTy id
  if ty.isVoid then
    failAt tok (.typing .voidVariable)
  if ty.size < 0 then
    failAt tok (.typing .incompleteVariable)

end Grammar
end MiniC
