import MiniC.Grammar.Node
import MiniC.Grammar.Specifier

/-!
# Expressions

```text
expr       = assign ("," expr)?
assign     = logOr ("=" assign)?
logOr      = logAnd ("||" logAnd)*
logAnd     = equality ("&&" equality)*
equality   = relational (("==" | "!=") relational)*
relational = sum (("<" | "<=" | ">" | ">=") sum)*
sum        = product (("+" | "-") product)*
product    = cast (("*" | "/" | "%") cast)*
cast       = "(" type-name ")" cast | unary
unary      = ("+" | "-" | "&" | "*" | "!" | "~") cast | trailer
trailer    = primary ("[" expr "]" | "." name | "->" name)*
primary    = "(" "{" block ")" | "(" expr ")"
           | "sizeof" "(" type-name ")" | "sizeof" unary
           | name ("(" (assign ("," assign)*)? ")")? | string | number
```
-/

namespace MiniC
namespace Grammar

/-- Number of arguments that are passed in registers, and so at all. -/
def maxArguments : Nat := 6

/-- One argument of a call.  A declared parameter gives it its type; arguments
beyond the declared parameters are passed as they are. -/
def argument (again : Productions) (param : Option Param) : Parser NodeId := do
  let tok ← position
  let value ← again.assign
  if (← nodeTy value).isAggregate then
    failAt tok (.typing .passesAggregate)
  match param with
  | some param => newCast value param.ty tok
  | none => return value

/-- The arguments of a call up to the closing parenthesis. -/
def arguments (again : Productions) (params : List Param) : Parser (List NodeId) :=
  iterate [] fun args => do
    if ← accept ")" then
      return .done args
    else
      unless args.isEmpty do
        expect ","
      return .again (args ++ [← argument again params[args.length]?])

/-- The symbol that a call names. -/
def callee (name : String) (tok : Nat) : Parser SymbolId := do
  match (← get).scopes.lookupVariable? name with
  | some (.object symbol) => return symbol
  | some _ => failAt tok (.typing .notFunction)
  | none => failAt tok (.naming .implicitFunction)

/-- A call of a named function. -/
def call (again : Productions) : Parser NodeId := do
  let (name, tok) ← identifier
  expect "("
  let function ← callee name tok
  match (← lookupTy (← query (·.lookupSymbol function)).ty).kind with
  | .func result params =>
      let args ← arguments again params
      if args.length > maxArguments then
        failAt tok (.grammar .tooManyArguments)
      newTyped (.call function args) result tok
  | _ => failAt tok (.typing .notFunction)

/-- A variable or enum constant. -/
def variableReference : Parser NodeId := do
  let (name, tok) ← identifier
  match (← get).scopes.lookupVariable? name with
  | some (.object symbol) => newNode (.var symbol) tok
  | some (.enumConstant ty value) => newTyped (.num value) ty tok
  | _ => failAt tok (.naming .undefinedVariable)

/-- Take the statements out of a block that has just been parsed. -/
def takeBlock (block : NodeId) (tok : Nat) : Parser (List NodeId) := do
  match (← query (·.lookupNode block)).kind with
  | .block body =>
      modify fun state =>
        { state with
          program :=
            { state.program with
              nodes := state.program.nodes.modify block.index fun node =>
                { node with kind := .block [] } } }
      return body
  | _ => failAt tok (.grammar .expectedBlock)

/-- A statement expression, from its opening parenthesis on. -/
def statementExpression (again : Productions) : Parser NodeId := do
  let tok ← position
  advance
  advance
  let block ← again.block
  expect ")"
  newNode (.stmtExpr (← takeBlock block tok)) tok

/-- The type that `sizeof` at the given token is applied to. -/
def sizeofOperand (again : Productions) (tok : Nat) : Parser TyId := do
  let state ← get
  if state.sees "(" && state.startsType (tok + 2) then
    advance
    let ty ← typeName again
    expect ")"
    return ty
  else
    typeOf (← again.unary)

/-- A `sizeof` expression behind its keyword. -/
def sizeof (again : Productions) (tok : Nat) : Parser NodeId := do
  let size := (← lookupTy (← sizeofOperand again tok)).size
  if size < 0 then
    failAt tok (.typing .incompleteSizeof)
  newTyped (.num size) (literalTy size) tok

/-- A name, a string or a number. -/
def atom (again : Productions) : Parser NodeId := do
  let state ← get
  let tok := state.pos
  match state.current.kind with
  | .identifier =>
      if state.seesAt (tok + 1) "(" then call again else variableReference
  | .str data =>
      advance
      newNode (.var (← newStringLiteral data tok)) tok
  | .num _ => newNode (.num (← number)) tok
  | _ => failHere (.grammar .expectedExpression)

/-- A primary expression. -/
def primary (again : Productions) : Parser NodeId := do
  let state ← get
  let tok := state.pos
  if state.sees "(" && state.seesAt (tok + 1) openBrace then
    statementExpression again
  else if ← accept "(" then
    let inner ← again.expr
    expect ")"
    return inner
  else if ← accept "sizeof" then
    sizeof again tok
  else
    atom again

/-- The index and type of a named member. -/
def findMember? (members : List Member) (name : String) : Option (Nat × TyId) :=
  (members.zipIdx.find? fun entry => entry.1.name == name).map fun entry =>
    (entry.2, entry.1.ty)

/-- Access to a member of a struct or union, at the member's name. -/
def memberAccess (base : NodeId) : Parser NodeId := do
  let aggregate ← typeOf base
  let (name, tok) ← identifier
  let ty ← lookupTy aggregate
  unless ty.isAggregate do
    failAt tok (.typing .notAggregate)
  match findMember? ty.members name with
  | none => failAt tok (.typing (.noSuchMember name))
  | some (index, memberTy) => newTyped (.member base aggregate index) memberTy tok

/-- A primary expression with subscripts and member accesses.  `x[y]` stands for
`*(x + y)` and `x->m` for `(*x).m`. -/
def trailer (again : Productions) : Parser NodeId := do
  iterate (← primary again) fun node => do
    let tok ← position
    if ← accept "[" then
      let index ← again.expr
      expect "]"
      let sum ← newAdd node index tok
      return .again (← newNode (.deref sum) tok)
    else if ← accept "." then
      return .again (← memberAccess node)
    else if ← accept "->" then
      return .again (← memberAccess (← newNode (.deref node) tok))
    else
      return .done node

/-- A unary expression. -/
def unary (again : Productions) : Parser NodeId := do
  let tok ← position
  if ← accept "+" then
    again.cast
  else if ← accept "-" then
    newNode (.unary .neg (← again.cast)) tok
  else if ← accept "&" then
    newNode (.addr (← again.cast)) tok
  else if ← accept "*" then
    newNode (.deref (← again.cast)) tok
  else if ← accept "!" then
    newNode (.unary .not (← again.cast)) tok
  else if ← accept "~" then
    newNode (.unary .bitNot (← again.cast)) tok
  else
    trailer again

/-- A cast expression. -/
def cast (again : Productions) : Parser NodeId := do
  let state ← get
  let tok := state.pos
  if state.sees "(" && state.startsType (tok + 1) then
    advance
    let ty ← typeName again
    expect ")"
    newCast (← again.cast) ty tok
  else
    unary again

/-- How an operator joins its operands at a token. -/
abbrev Join := NodeId -> NodeId -> Nat -> Parser NodeId

/-- Operands joined by the operators of one level, from left to right. -/
def leftChain (operators : List (String × Join)) (operand : Parser NodeId) :
    Parser NodeId := do
  iterate (← operand) fun lhs => do
    let state ← get
    match operators.find? fun operator => state.sees operator.1 with
    | none => return .done lhs
    | some (_, join) =>
        modify fun state => { state with pos := state.pos + 1 }
        let rhs ← operand
        return .again (← join lhs rhs state.pos)

/-- Products, quotients and remainders. -/
def product (again : Productions) : Parser NodeId :=
  leftChain
    [("*", newIntegerBinary .mul), ("/", newIntegerBinary .div),
      ("%", newIntegerBinary .mod)]
    (cast again)

/-- Sums and differences. -/
def sum (again : Productions) : Parser NodeId :=
  leftChain [("+", newAdd), ("-", newSub)] (product again)

/-- Comparisons by order. -/
def relational (again : Productions) : Parser NodeId :=
  leftChain
    [("<", newBinary .lt), ("<=", newBinary .le), (">", newBinary .gt),
      (">=", newBinary .ge)]
    (sum again)

/-- Comparisons for equality. -/
def equality (again : Productions) : Parser NodeId :=
  leftChain [("==", newBinary .eq), ("!=", newBinary .ne)] (relational again)

/-- Conjunctions. -/
def logAnd (again : Productions) : Parser NodeId :=
  leftChain [("&&", newBinary .logAnd)] (equality again)

/-- Disjunctions. -/
def logOr (again : Productions) : Parser NodeId :=
  leftChain [("||", newBinary .logOr)] (logAnd again)

/-- An assignment expression. -/
def assign (again : Productions) : Parser NodeId := do
  let lhs ← logOr again
  let tok ← position
  if ← accept "=" then
    newAssign lhs (← again.assign) tok
  else
    return lhs

/-- A comma expression. -/
def expr (again : Productions) : Parser NodeId := do
  let lhs ← assign again
  let tok ← position
  if ← accept "," then
    newNode (.comma lhs (← again.expr)) tok
  else
    return lhs

end Grammar
end MiniC
