import MiniC.Grammar.Parser

/-!
# Typed nodes

A node is given its type when it is built, from the types of its children.
Conversions are explicit: the right side of an assignment is cast to the type of
the left side.  Arithmetic on pointers counts in elements, so the integer operand
is multiplied by the size of the element.
-/

namespace MiniC
namespace Grammar

/-- The type of an integer literal. -/
def literalTy (value : Int) : TyId :=
  if Extent.FitsInt32 value then .int else .long

/-- The type of arithmetic: that of the left operand, at least `int`, and `long`
if either operand is a `long`.  For a left operand that is not an integer it is
the left operand's. -/
def arithmeticTy (lhs rhs : TyId) : Parser TyId := do
  let left ← lookupTy lhs
  let right ← lookupTy rhs
  if !left.isInteger then
    return lhs
  else if left.size = 8 || (right.isInteger && right.size = 8) then
    return .long
  else if left.size < 4 || left.isEnum then
    return .int
  else
    return lhs

/-- Arrays in arithmetic stand for a pointer to their first element. -/
def decayed (id : TyId) : Parser TyId := do
  match (← lookupTy id).kind with
  | .array base _ => pointerTo base
  | _ => return id

/-- The type of the value that a statement expression ends in. -/
def lastValueTy (body : List NodeId) (tok : Nat) : Parser TyId := do
  match body.getLast? with
  | none => failAt tok (.typing .voidStatementExpression)
  | some last =>
      match (← query (·.lookupNode last)).kind with
      | .exprStmt expr => typeOf expr
      | _ => failAt tok (.typing .voidStatementExpression)

/-- The type of a node of the given kind at a token. -/
def inferTy (kind : NodeKind) (tok : Nat) : Parser TyId := do
  match kind with
  | .num value => return literalTy value
  | .var symbol => return (← query (·.lookupSymbol symbol)).ty
  | .unary .not operand =>
      if (← nodeTy operand).isAggregate then
        failAt tok (.typing .invalidOperand)
      return .int
  | .unary _ operand =>
      let ty ← typeOf operand
      unless (← lookupTy ty).isInteger do
        failAt tok (.typing .invalidOperand)
      arithmeticTy ty ty
  | .binary op lhs rhs =>
      if op.isTruth then
        return .int
      else
        arithmeticTy (← typeOf lhs) (← typeOf rhs)
  | .assign lhs _ =>
      let ty ← typeOf lhs
      if (← lookupTy ty).isArray then
        failAt tok (.typing .notLvalue)
      return ty
  | .comma _ rhs => typeOf rhs
  | .member _ aggregate index =>
      return (← query (·.lookupMember aggregate index)).ty
  | .addr operand =>
      let ty ← typeOf operand
      match (← lookupTy ty).kind with
      | .array base _ => pointerTo base
      | _ => pointerTo ty
  | .deref operand =>
      match (← nodeTy operand).base? with
      | none => failAt tok (.typing .invalidDereference)
      | some base =>
          if (← lookupTy base).isVoid then
            failAt tok (.typing .voidDereference)
          return base
  | .cast operand => typeOf operand
  | .call function _ =>
      match (← lookupTy (← query (·.lookupSymbol function)).ty).kind with
      | .func result _ => return result
      | _ => return .int
  | .stmtExpr body => lastValueTy body tok
  | .ret _ | .branch _ _ _ | .loop _ _ _ _ | .block _ | .exprStmt _ | .goto _
  | .label _ _ => return .void

/-- Enter a node of a known type, placed at a token. -/
def newTyped (kind : NodeKind) (ty : TyId) (tok : Nat) : Parser NodeId :=
  modifyGet fun state =>
    let token := state.token tok
    (⟨state.program.nodes.size⟩,
      { state with
        program :=
          { state.program with
            nodes :=
              state.program.nodes.push ⟨kind, some ty, token.loc, token.line⟩ } })

/-- Enter a node, placed at a token, with the type that its kind gives it. -/
def newNode (kind : NodeKind) (tok : Nat) : Parser NodeId := do
  newTyped kind (← inferTy kind tok) tok

/-- Reject a struct or union where a scalar is required. -/
def checkScalar (node : NodeId) (tok : Nat) : Parser Unit := do
  if (← nodeTy node).isAggregate then
    failAt tok (.typing .invalidOperands)

/-- Reject an operand that is not an integer. -/
def checkInteger (node : NodeId) (tok : Nat) : Parser Unit := do
  unless (← nodeTy node).isInteger do
    failAt tok (.typing .invalidOperands)

/-- Reject an operand that is neither an integer, a pointer nor an array. -/
def checkArithmetic (ty : Ty) (tok : Nat) : Parser Unit := do
  unless ty.isInteger || ty.base?.isSome do
    failAt tok (.typing .invalidOperands)

/-- An operator applied to two scalars. -/
def newBinary (op : BinaryOp) (lhs rhs : NodeId) (tok : Nat) : Parser NodeId := do
  checkScalar lhs tok
  checkScalar rhs tok
  newNode (.binary op lhs rhs) tok

/-- An operator applied to two integers. -/
def newIntegerBinary (op : BinaryOp) (lhs rhs : NodeId) (tok : Nat) :
    Parser NodeId := do
  checkInteger lhs tok
  checkInteger rhs tok
  newBinary op lhs rhs tok

/-- A conversion.  Structs and unions convert to nothing but `void`. -/
def newCast (operand : NodeId) (ty : TyId) (tok : Nat) : Parser NodeId := do
  let target ← lookupTy ty
  if target.isAggregate then
    failAt tok (.typing .castToAggregate)
  if (← nodeTy operand).isAggregate && !target.isVoid then
    failAt tok (.typing .castFromAggregate)
  newTyped (.cast operand) ty tok

/-- An assignment.  Structs and unions are assigned only to their own type. -/
def newAssign (lhs rhs : NodeId) (tok : Nat) : Parser NodeId := do
  let lhsTy ← typeOf lhs
  let rhsTy ← typeOf rhs
  let target ← lookupTy lhsTy
  if target.isArray then
    failAt tok (.typing .notLvalue)
  if target.isAggregate then
    if lhsTy ≠ rhsTy then
      failAt tok (.typing .incompatibleAssignment)
    newNode (.assign lhs rhs) tok
  else
    let converted ← newCast rhs lhsTy tok
    newNode (.assign lhs converted) tok

/-- An integer operand multiplied by the size of an element. -/
def scale (operand : NodeId) (element : TyId) (tok : Nat) : Parser NodeId := do
  let size := (← lookupTy element).size
  if size < 0 then
    failAt tok (.typing .incompletePointee)
  let factor ← newTyped (.num size) .int tok
  newBinary .mul operand factor tok

/-- A pointer moved by a number of elements. -/
def movePointer (op : BinaryOp) (pointer operand : NodeId) (element : TyId)
    (tok : Nat) : Parser NodeId := do
  let scaled ← scale operand element tok
  let ty ← decayed (← typeOf pointer)
  newTyped (.binary op pointer scaled) ty tok

/-- The distance of two pointers in elements. -/
def pointerDistance (lhs rhs : NodeId) (element : TyId) (tok : Nat) :
    Parser NodeId := do
  let size := (← lookupTy element).size
  if size ≤ 0 then
    failAt tok (.typing .unsizedDifference)
  let ty ← decayed (← typeOf lhs)
  let bytes ← newTyped (.binary .sub lhs rhs) ty tok
  let divisor ← newTyped (.num size) .int tok
  newTyped (.binary .div bytes divisor) .int tok

/-- A sum.  A number plus a pointer is the pointer plus the number. -/
def newAdd (lhs rhs : NodeId) (tok : Nat) : Parser NodeId := do
  let left ← nodeTy lhs
  let right ← nodeTy rhs
  checkArithmetic left tok
  checkArithmetic right tok
  match left.base?, right.base? with
  | none, none => newBinary .add lhs rhs tok
  | some _, some _ => failAt tok (.typing .invalidOperands)
  | some element, none => movePointer .add lhs rhs element tok
  | none, some element => movePointer .add rhs lhs element tok

/-- A difference of numbers, of a pointer and a number, or of two pointers. -/
def newSub (lhs rhs : NodeId) (tok : Nat) : Parser NodeId := do
  let left ← nodeTy lhs
  let right ← nodeTy rhs
  checkArithmetic left tok
  checkArithmetic right tok
  match left.base?, right.base? with
  | none, none => newBinary .sub lhs rhs tok
  | some element, none => movePointer .sub lhs rhs element tok
  | some element, some _ => pointerDistance lhs rhs element tok
  | none, some _ => failAt tok (.typing .invalidOperands)

end Grammar
end MiniC
