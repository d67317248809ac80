import MiniC.Grammar.Statement
import MiniC.Program.Frame

/-!
# Source files as programs

```text
unit = (specifiers (";" | declarators ";" | declarator block) | typedef)*
```

A file-scope declarator of function type declares a function, and a body behind it
defines the function.  Any other declares a global variable.
-/

namespace MiniC
namespace Grammar

/-- The productions that may recur to the given depth. -/
def productions : Nat -> Productions
  | 0 => .exhausted
  | depth + 1 =>
      let again := productions depth
      { specifiers := specifiers again
        declarator := declarator again
        suffix := suffix again
        expr := expr again
        assign := assign again
        cast := cast again
        unary := unary again
        stmt := stmt again
        block := block again }

/-- The result type and parameters of a function that may be declared. -/
def signature (ty : TyId) (tok : Nat) : Parser (TyId × List Param) := do
  match (← lookupTy ty).kind with
  | .func result params =>
      if (← lookupTy result).isAggregate then
        failAt tok (.typing .returnsAggregate)
      if params.length > maxArguments then
        failAt tok (.grammar .tooManyParameters)
      return (result, params)
  | _ => failAt tok (.grammar .expectedFunction)

/-- Enter a function without a body and bind its name. -/
def newFunction (name : String) (ty : TyId) (isStatic : Bool) : Parser SymbolId := do
  let id ← newSymbol ⟨name, ty, isStatic, .function ⟨[], [], none, 0⟩⟩
  addGlobal id
  bindSymbol name id
  return id

/-- Declare a parameter of the function being parsed. -/
def declareParameter (param : Param) : Parser SymbolId := do
  match param.name with
  | none => failHere (.grammar .parameterNameOmitted)
  | some tok =>
      if (← lookupTy param.ty).isAggregate then
        failAt tok (.typing .passesAggregate)
      newLocal ((← get).token tok).text param.ty

/-- The parameters and the body of a function definition. -/
def functionBody (again : Productions) (params : List Param) :
    Parser (List SymbolId × NodeId) :=
  withScope do
    let symbols ← params.mapM declareParameter
    expect openBrace
    let body ← block again
    return (symbols, body)

/-- Close the function being parsed: what is known of it. -/
def finishFunction : Parser FunctionContext := do
  match (← get).function with
  | none => throw (.internal .functionContextLost)
  | some function =>
      modify fun state => { state with function := none }
      return function

/-- Reject the first jump to a label that the function does not define. -/
def checkGotos (function : FunctionContext) : Parser Unit :=
  function.gotos.forM fun (label, tok) => do
    unless function.labels.contains label do
      failAt tok (.naming .undeclaredLabel)

/-- Lay out the frame of a function defined at a token. -/
def layoutFrame (id : SymbolId) (tok : Nat) : Parser Unit := do
  match Program.layoutFrame id (← get).program with
  | .ok _ program => modify fun state => { state with program := program }
  | .error .sizeOverflow _ => failAt tok (.typing .frameTooLarge)
  | .error (.fault reason) _ => throw (.fault reason)

/-- The body of a function whose name stands at a token. -/
def functionDefinition (again : Productions) (id : SymbolId) (result : TyId)
    (params : List Param) (tok : Nat) : Parser Unit := do
  modify fun state => { state with function := some ⟨result, [], [], []⟩ }
  let (symbols, body) ← functionBody again params
  let function ← finishFunction
  checkGotos function
  modify fun state =>
    { state with
      program :=
        state.program.setSymbolKind id
          (.function ⟨symbols, function.locals, some body, 0⟩) }
  layoutFrame id tok

/-- A function declared by a declarator: a prototype or a definition. -/
def function (again : Productions) (declared : Declarator) (storage : Storage) :
    Parser Unit := do
  let tok ← declared.requireName
  let (result, params) ← signature declared.ty tok
  let id ← newFunction ((← get).token tok).text declared.ty storage.isStatic
  unless ← accept ";" do
    functionDefinition again id result params tok

/-- Declare the global variable that a declarator names. -/
def declareGlobal (storage : Storage) (declared : Declarator) : Parser Unit := do
  let tok ← declared.requireName
  checkVariableTy declared.ty tok
  let _ ← newGlobal ((← get).token tok).text declared.ty storage.isStatic

/-- Global variables, from behind the first declarator on. -/
def globalVariables (again : Productions) (base : TyId) (first : Declarator)
    (storage : Storage) : Parser Unit :=
  iterate first fun declared => do
    declareGlobal storage declared
    if ← accept ";" then
      return .done ()
    else
      expect ","
      return .again (← declarator again base)

/-- A declaration at file scope. -/
def fileDeclaration (again : Productions) : Parser Unit := do
  let (base, storage) ← specifiers again true
  if storage.isTypedef then
    typedefNames again base
  else
    unless ← accept ";" do
      let declared ← declarator again base
      if (← lookupTy declared.ty).isFunction then
        function again declared storage
      else
        globalVariables again base declared storage

/-- All declarations of a source file. -/
def unit (again : Productions) : Parser Unit :=
  iterate () fun _ => do
    if (← get).current.isEof then
      return .done ()
    else
      fileDeclaration again
      return .again ()

end Grammar

/-- The program that tokens spell. -/
def parse (tokens : TokenStream) : Except Error Program :=
  match Grammar.unit (Grammar.productions (tokens.last + 1)) (.initial tokens) with
  | .ok _ state => .ok state.program
  | .error error _ => .error error

end MiniC
