import MiniC.Error
import MiniC.Scope
import MiniC.Ty

/-!
# Programs

A program consists of the tables of its types, syntax nodes and symbols, and of
the file-scope symbols in the order of their declaration.  Nodes refer to their
children, and to symbols and types, by index.
-/

namespace MiniC

/-- The operators with two operands. -/
inductive BinaryOp
  | add
  | sub
  | mul
  | div
  | mod
  | eq
  | ne
  | lt
  | le
  | gt
  | ge
  | logAnd
  | logOr
  deriving DecidableEq

/-- The operators with one operand. -/
inductive UnaryOp
  | neg
  | not
  | bitNot
  deriving DecidableEq

namespace BinaryOp

/-- The operators whose result is a truth value. -/
def isTruth : BinaryOp -> Bool
  | eq | ne | lt | le | gt | ge | logAnd | logOr => true
  | add | sub | mul | div | mod => false

end BinaryOp

/-- The kinds of syntax node: expressions first, then statements.  A loop stands
for `for` and `while`. -/
inductive NodeKind
  | num (value : Int)
  | var (symbol : SymbolId)
  | unary (op : UnaryOp) (operand : NodeId)
  | binary (op : BinaryOp) (lhs rhs : NodeId)
  | assign (lhs rhs : NodeId)
  | comma (lhs rhs : NodeId)
  | member (base : NodeId) (aggregate : TyId) (index : Nat)
  | addr (operand : NodeId)
  | deref (operand : NodeId)
  | cast (operand : NodeId)
  | call (function : SymbolId) (args : List NodeId)
  | stmtExpr (body : List NodeId)
  | ret (value : Option NodeId)
  | branch (cond onTrue : NodeId) (onFalse : Option NodeId)
  | loop (init cond step : Option NodeId) (body : NodeId)
  | block (body : List NodeId)
  | exprStmt (expr : NodeId)
  | goto (label : String)
  | label (name : String) (body : NodeId)
  deriving DecidableEq

namespace NodeKind

/-- The children of a node in the order of evaluation. -/
def children : NodeKind -> List NodeId
  | num _ | var _ | goto _ => []
  | unary _ operand | addr operand | deref operand | cast operand => [operand]
  | binary _ lhs rhs | assign lhs rhs | comma lhs rhs => [lhs, rhs]
  | member base _ _ => [base]
  | call _ args => args
  | stmtExpr body | block body => body
  | ret value => value.toList
  | branch cond onTrue onFalse => cond :: onTrue :: onFalse.toList
  | loop init cond step body =>
      init.toList ++ cond.toList ++ step.toList ++ [body]
  | exprStmt expr => [expr]
  | label _ body => [body]

end NodeKind

/-- A syntax node with its type and its place.  Statements have type `void`. -/
structure Node where
  kind : NodeKind
  ty : Option TyId
  loc : Nat
  line : Nat
  deriving DecidableEq

/-- What is known of a function: its parameters, all its locals with the
parameters first, its body unless it is a prototype, and the size of its
frame. -/
structure Function where
  params : List SymbolId
  locals : List SymbolId
  body : Option NodeId
  stackSize : Int
  deriving DecidableEq

/-- The kinds of symbol.  The offset of a local counts down from the base of its
frame and is known once the frame is laid out. -/
inductive SymbolKind
  | localVar (offset : Option Int)
  | globalVar (init : Option (List UInt8))
  | function (function : Function)
  deriving DecidableEq

/-- A named variable or function. -/
structure Symbol where
  name : String
  ty : TyId
  isStatic : Bool
  kind : SymbolKind
  deriving DecidableEq

namespace Symbol

/-- The function that a symbol names. -/
def function? (symbol : Symbol) : Option Function :=
  match symbol.kind with
  | .function function => some function
  | _ => none

end Symbol

/-- The tables of a program and its file-scope symbols in order. -/
structure Program where
  types : TypeTable
  nodes : Array Node
  symbols : Array Symbol
  globals : Array SymbolId

namespace Program

/-- The program without declarations. -/
def empty : Program := ⟨.initial, #[], #[], #[]⟩

/-- The entry of a node. -/
def node? (program : Program) (id : NodeId) : Option Node :=
  program.nodes[id.index]?

/-- The entry of a symbol. -/
def symbol? (program : Program) (id : SymbolId) : Option Symbol :=
  program.symbols[id.index]?

/-- The entry of a type. -/
def lookupTy (program : Program) (id : TyId) : Except Error Ty :=
  match program.types.get? id with
  | some ty => .ok ty
  | none => .error (.fault (.missing .types id.index))

/-- The entry of a node. -/
def lookupNode (program : Program) (id : NodeId) : Except Error Node :=
  match program.node? id with
  | some node => .ok node
  | none => .error (.fault (.missing .nodes id.index))

/-- The entry of a symbol. -/
def lookupSymbol (program : Program) (id : SymbolId) : Except Error Symbol :=
  match program.symbol? id with
  | some symbol => .ok symbol
  | none => .error (.fault (.missing .symbols id.index))

/-- The type of a node. -/
def typeOf (program : Program) (id : NodeId) : Except Error TyId := do
  let node ← program.lookupNode id
  match node.ty with
  | some ty => return ty
  | none => throw (.internal (.untypedNode node.line))

/-- The type entry of a node. -/
def nodeTy (program : Program) (id : NodeId) : Except Error Ty := do
  program.lookupTy (← program.typeOf id)

/-- A member of a struct or union. -/
def lookupMember (program : Program) (aggregate : TyId) (index : Nat) :
    Except Error Member := do
  let ty ← program.lookupTy aggregate
  match ty.members[index]? with
  | some found => return found
  | none => throw (.fault (.missing .members index))

/-- Change the kind of a symbol. -/
def setSymbolKind (program : Program) (id : SymbolId) (kind : SymbolKind) :
    Program :=
  { program with
    symbols := program.symbols.modify id.index fun symbol =>
      { symbol with kind := kind } }

/-- A function that has a body. -/
structure Definition where
  symbol : Symbol
  function : Function
  body : NodeId

/-- The definition that a file-scope symbol stands for, if it is one. -/
def definition? (program : Program) (id : SymbolId) : Option Definition := do
  let symbol ← program.symbol? id
  let function ← symbol.function?
  let body ← function.body
  return ⟨symbol, function, body⟩

/-- The functions that have a body, in the order of their declaration. -/
def definitions (program : Program) : List Definition :=
  program.globals.toList.filterMap program.definition?

end Program
end MiniC
