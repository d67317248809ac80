import MiniC.Emit.Basic

/-!
# Code of syntax nodes

Each node has up to three meanings: the address of an object, a value, and an
effect.  The code of an address or a value leaves one word on the stack, and the
code of a statement leaves the stack as it was.

The code of a node is made of the code of its children.  The three generators are
written against a record of the generators for children, which is built up to a
depth that the number of nodes bounds.
-/

namespace MiniC
namespace Emit

open Asm

/-- The program and the name of the function that code is generated for. -/
structure Context where
  program : Program
  function : String

/-- The generators for children. -/
structure Routines where
  /-- Push the address of an object. -/
  address : NodeId -> Generator Code
  /-- Push the value of an expression. -/
  value : NodeId -> Generator Code
  /-- Run a statement. -/
  statement : NodeId -> Generator Code

namespace Routines

/-- Generators that may not be called: the nodes are nested deeper than their
number allows. -/
def exhausted : Routines where
  address _ := throw (.fault .endless)
  value _ := throw (.fault .endless)
  statement _ := throw (.fault .endless)

end Routines

/-- The code of several nodes one after the other. -/
def sequence (generate : NodeId -> Generator Code) : List NodeId -> Generator Code
  | [] => return []
  | id :: rest => return (← generate id) ++ (← sequence generate rest)

/-- The code of a node that may be missing. -/
def whenPresent (generate : NodeId -> Generator Code) : Option NodeId -> Generator Code
  | none => return []
  | some id => generate id

/-- Push the address of a variable. -/
def variableAddress (context : Context) (id : SymbolId) : Generator Code := do
  let symbol ← context.program.lookupSymbol id
  match symbol.kind with
  | .localVar _ =>
      let offset ← frameOffset context.program id
      return instrs [.frameAddress offset] ++ (← push)
  | _ => return instrs [.symbolAddress symbol.name] ++ (← push)

/-- Push the address of an object.  Only variables, dereferences and members of
objects have one. -/
def address (context : Context) (again : Routines) (id : NodeId) : Generator Code := do
  let node ← context.program.lookupNode id
  match node.kind with
  | .var symbol => variableAddress context symbol
  | .deref operand => again.value operand
  | .member base aggregate index =>
      let found ← context.program.lookupMember aggregate index
      let code ← again.address base
      if found.offset = 0 then
        return code
      else
        return code ++ (← onTop [.addConst .rax found.offset])
  | _ => throw (.rejected (.typing .notLvalue) node.loc)

/-- Push the truth of a conjunction or disjunction.  The right operand is
evaluated only if the left one leaves the result open. -/
def shortCircuit (again : Routines) (jump : Label -> Instr) (role : Role)
    (decided undecided : Int) (lhs rhs : NodeId) : Generator Code := do
  let number ← freshNumber
  let leave := instrs [jump (.numbered role number)]
  let left ← again.value lhs
  let leftTest ← testTop
  let right ← again.value rhs
  let rightTest ← testTop
  let result ← push
  return left ++ leftTest ++ leave ++ right ++ rightTest ++ leave
    ++ instrs [.set .rax undecided, .jump (.numbered .stop number)]
    ++ define role number
    ++ instrs [.set .rax decided]
    ++ define .stop number
    ++ result

/-- Pop arguments into their registers, the last one first. -/
def popArguments : Nat -> Generator Code
  | 0 => return []
  | count + 1 => do
      let reg ← argumentRegister count
      return (← pop reg) ++ (← popArguments count)

/-- Call a function with the stack aligned to sixteen bytes. -/
def alignedCall (name : String) : Generator Code := do
  if (← get).depth % 2 = 0 then
    return instrs [.set .rax 0, .call name]
  else
    return instrs
      [.subConst .rsp 8, .set .rax 0, .call name, .addConst .rsp 8]

/-- Push the result of a call.  Of a narrow result the callee defines only the low
part. -/
def call (context : Context) (again : Routines) (function : SymbolId)
    (args : List NodeId) (ty : Ty) : Generator Code := do
  let values ← sequence again.value args
  let pops ← popArguments args.length
  let symbol ← context.program.lookupSymbol function
  let called ← alignedCall symbol.name
  return values ++ pops ++ called ++ instrs (narrow ty) ++ (← push)

/-- Push the value of a statement expression: that of its last statement. -/
def statementExpression (context : Context) (again : Routines)
    (body : List NodeId) : Generator Code := do
  match body.getLast? with
  | none => throw (.internal .emptyStatementExpression)
  | some last =>
      let before ← sequence again.statement body.dropLast
      match (← context.program.lookupNode last).kind with
      | .exprStmt expr => return before ++ (← again.value expr)
      | _ => throw (.internal .valuelessStatementExpression)

/-- Push the value of an expression. -/
def value (context : Context) (again : Routines) (id : NodeId) : Generator Code := do
  let node ← context.program.lookupNode id
  let ty ← context.program.nodeTy id
  match node.kind with
  | .num number => return instrs [.set .rax number] ++ (← push)
  | .var _ | .member _ _ _ =>
      return (← address context again id) ++ (← load ty)
  | .deref operand => return (← again.value operand) ++ (← load ty)
  | .addr operand => again.address operand
  | .assign lhs rhs =>
      return (← again.address lhs) ++ (← again.value rhs) ++ (← store ty)
  | .comma lhs rhs =>
      return (← again.value lhs) ++ (← pop .rax) ++ (← again.value rhs)
  | .stmtExpr body => statementExpression context again body
  | .cast operand =>
      let code ← again.value operand
      let source ← context.program.nodeTy operand
      return code ++ (← convert source ty)
  | .unary op operand =>
      return (← again.value operand) ++ (← onTop (unaryOperation op ty))
  | .binary .logAnd lhs rhs =>
      shortCircuit again .jumpEq .onFalse 0 1 lhs rhs
  | .binary .logOr lhs rhs =>
      shortCircuit again .jumpNe .onTrue 1 0 lhs rhs
  | .binary op lhs rhs =>
      return (← again.value lhs) ++ (← again.value rhs) ++ (← pop .rdi)
        ++ (← onTop (operation op ty))
  | .call function args => call context again function args ty
  | .ret _ | .branch _ _ _ | .loop _ _ _ _ | .block _ | .exprStmt _ | .goto _
  | .label _ _ => throw (.internal (.statementAsExpression node.line))

/-- Run one of two statements. -/
def branch (again : Routines) (cond onTrue : NodeId) (onFalse : Option NodeId) :
    Generator Code := do
  let number ← freshNumber
  let test ← again.value cond
  let decision ← testTop
  let first ← again.statement onTrue
  let second ← whenPresent again.statement onFalse
  return test ++ decision ++ instrs [.jumpEq (.numbered .otherwise number)]
    ++ first ++ instrs [.jump (.numbered .stop number)]
    ++ define .otherwise number
    ++ second
    ++ define .stop number

/-- Leave a loop unless its condition holds.  A missing condition always holds. -/
def loopTest (again : Routines) (number : Nat) : Option NodeId -> Generator Code
  | none => return []
  | some cond =>
      return (← again.value cond) ++ (← testTop)
        ++ instrs [.jumpEq (.numbered .stop number)]

/-- Evaluate an expression and drop its value. -/
def discard (again : Routines) (id : NodeId) : Generator Code :=
  return (← again.value id) ++ (← pop .rax)

/-- Run a statement while a condition holds. -/
def loop (again : Routines) (init cond step : Option NodeId) (body : NodeId) :
    Generator Code := do
  let number ← freshNumber
  let first ← whenPresent again.statement init
  let test ← loopTest again number cond
  let round ← again.statement body
  let next ← whenPresent (discard again) step
  return first ++ define .start number ++ test ++ round ++ next
    ++ instrs [.jump (.numbered .start number)]
    ++ define .stop number

/-- Run a statement. -/
def statement (context : Context) (again : Routines) (id : NodeId) : Generator Code := do
  let node ← context.program.lookupNode id
  let here : Code := [.directive (.loc node.line)]
  match node.kind with
  | .branch cond onTrue onFalse =>
      return here ++ (← branch again cond onTrue onFalse)
  | .loop init cond step body =>
      return here ++ (← loop again init cond step body)
  | .block body => return here ++ (← sequence again.statement body)
  | .ret result =>
      return here ++ (← whenPresent (discard again) result)
        ++ instrs [.jump (.exit context.function)]
  | .exprStmt expr => return here ++ (← discard again expr)
  | .goto label => return here ++ instrs [.jump (.named context.function label)]
  | .label name body =>
      return here ++ [.label (.named context.function name)]
        ++ (← again.statement body)
  | .num _ | .var _ | .unary _ _ | .binary _ _ _ | .assign _ _ | .comma _ _
  | .member _ _ _ | .addr _ | .deref _ | .cast _ | .call _ _ | .stmtExpr _ =>
      throw (.internal (.expressionAsStatement node.line))

/-- The generators for nodes nested to the given depth. -/
def routines (context : Context) : Nat -> Routines
  | 0 => .exhausted
  | depth + 1 =>
      let again := routines context depth
      { address := address context again
        value := value context again
        statement := statement context again }

end Emit
end MiniC
