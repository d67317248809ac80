import MiniC.Grammar.Expression

/-!
# Statements and local declarations

```text
stmt  = "return" expr? ";"
      | "if" "(" expr ")" stmt ("else" stmt)?
      | "for" "(" (declaration | expr? ";") expr? ";" expr? ")" stmt
      | "while" "(" expr ")" stmt
      | "goto" name ";"
      | name ":" stmt
      | "{" block
      | expr? ";"
block = (typedef | declaration | stmt)* "}"
```

An initialiser becomes an assignment; a declaration is the block of the
assignments it contains.  A `for` statement and a block have scopes of their own.
-/

namespace MiniC
namespace Grammar

/-- The statement that initialises a variable, if an initialiser stands at the
cursor. -/
def initialiser (again : Productions) (symbol : SymbolId) (tok : Nat) :
    Parser (List NodeId) := do
  let eq ← position
  if ← accept "=" then
    let lhs ← newNode (.var symbol) tok
    let rhs ← assign again
    let assignment ← newAssign lhs rhs eq
    return [← newNode (.exprStmt assignment) eq]
  else
    return []

/-- Declare the local variable that a declarator names, behind the statements of
the declarators before it. -/
def declareLocal (again : Productions) (body : List NodeId)
    (declared : Declarator) (tok : Nat) : Parser (List NodeId) := do
  checkVariableTy declared.ty tok
  let symbol ← newLocal ((← get).token tok).text declared.ty
  return body ++ (← initialiser again symbol tok)

/-- A declaration of local variables behind its specifiers. -/
def declaration (again : Productions) (base : TyId) : Parser NodeId := do
  let start ← position
  let body ← declaratorList again base [] (declareLocal again)
  newNode (.block body) start

/-- The names that a `typedef` declares, behind its specifiers. -/
def typedefNames (again : Productions) (base : TyId) : Parser Unit :=
  declaratorList again base () fun _ declared tok => do
    let name := ((← get).token tok).text
    modifyScopes (·.declareVariable name (.typedef declared.ty))

/-- An expression statement, which may be empty. -/
def exprStmt (again : Productions) : Parser NodeId := do
  let tok ← position
  if ← accept ";" then
    newNode (.block []) tok
  else
    let value ← expr again
    expect ";"
    newNode (.exprStmt value) tok

/-- A `return` statement behind its keyword.  The value is converted to the
result type of the function. -/
def returnStmt (again : Productions) (tok : Nat) : Parser NodeId := do
  if ← accept ";" then
    newNode (.ret none) tok
  else
    let value ← again.expr
    expect ";"
    match (← get).function with
    | none => newNode (.ret (some value)) tok
    | some function =>
        if (← lookupTy function.result).isVoid then
          newNode (.ret (some value)) tok
        else
          let converted ← newCast value function.result tok
          newNode (.ret (some converted)) tok

/-- A condition in parentheses. -/
def condition (again : Productions) (tok : Nat) : Parser NodeId := do
  expect "("
  let cond ← again.expr
  checkScalar cond tok
  expect ")"
  return cond

/-- An `if` statement behind its keyword. -/
def ifStmt (again : Productions) (tok : Nat) : Parser NodeId := do
  let cond ← condition again tok
  let onTrue ← again.stmt
  if ← accept "else" then
    let onFalse ← again.stmt
    newNode (.branch cond onTrue (some onFalse)) tok
  else
    newNode (.branch cond onTrue none) tok

/-- The first clause of a `for` statement. -/
def forInit (again : Productions) : Parser NodeId := do
  let state ← get
  if state.startsType state.pos then
    let (base, _) ← specifiers again false
    declaration again base
  else
    exprStmt again

/-- The second clause of a `for` statement. -/
def forCond (again : Productions) (tok : Nat) : Parser (Option NodeId) := do
  if ← accept ";" then
    return none
  else
    let cond ← again.expr
    checkScalar cond tok
    expect ";"
    return some cond

/-- The third clause of a `for` statement. -/
def forStep (again : Productions) : Parser (Option NodeId) := do
  if ← accept ")" then
    return none
  else
    let step ← again.expr
    expect ")"
    return some step

/-- A `for` statement behind its keyword.  Variables declared in its first clause
belong to the loop. -/
def forStmt (again : Productions) (tok : Nat) : Parser NodeId := do
  expect "("
  withScope do
    let init ← forInit again
    let cond ← forCond again tok
    let step ← forStep again
    let body ← again.stmt
    newNode (.loop (some init) cond step body) tok

/-- A `while` statement behind its keyword. -/
def whileStmt (again : Productions) (tok : Nat) : Parser NodeId := do
  let cond ← condition again tok
  let body ← again.stmt
  newNode (.loop none (some cond) none body) tok

/-- A `goto` statement behind its keyword. -/
def gotoStmt (tok : Nat) : Parser NodeId := do
  let (label, labelTok) ← identifier
  expect ";"
  modifyFunction fun function =>
    { function with gotos := function.gotos ++ [(label, labelTok)] }
  newNode (.goto label) tok

/-- Whether a label stands at the cursor. -/
def State.startsLabel (state : State) : Bool :=
  state.current.isIdentifier && state.seesAt (state.pos + 1) ":"

/-- Whether the function being parsed defines a label. -/
def State.definesLabel (state : State) (label : String) : Bool :=
  state.function.any fun function => function.labels.contains label

/-- A labelled statement.  A label is defined once in a function. -/
def labelStmt (again : Productions) (tok : Nat) : Parser NodeId := do
  let (label, _) ← identifier
  expect ":"
  if (← get).definesLabel label then
    failAt tok (.naming (.duplicateLabel label))
  modifyFunction fun function =>
    { function with labels := function.labels ++ [label] }
  let body ← again.stmt
  newNode (.label label body) tok

/-- A statement. -/
def stmt (again : Productions) : Parser NodeId := do
  let tok ← position
  if ← accept "return" then
    returnStmt again tok
  else if ← accept "if" then
    ifStmt again tok
  else if ← accept "for" then
    forStmt again tok
  else if ← accept "while" then
    whileStmt again tok
  else if ← accept "goto" then
    gotoStmt tok
  else if (← get).startsLabel then
    labelStmt again tok
  else if ← accept openBrace then
    again.block
  else
    exprStmt again

/-- A declaration in a block.  A `typedef` adds no statement. -/
def blockDeclaration (again : Productions) : Parser (List NodeId) := do
  let tok ← position
  let (base, storage) ← specifiers again true
  if storage.isTypedef then
    typedefNames again base
    return []
  else if storage.isStatic then
    failAt tok (.grammar .staticLocal)
  else
    return [← declaration again base]

/-- The statements that the next item of a block contributes. -/
def blockItem (again : Productions) : Parser (List NodeId) := do
  let state ← get
  if state.startsType state.pos && !state.startsLabel then
    blockDeclaration again
  else
    return [← stmt again]

/-- The rest of a block after its opening brace. -/
def block (again : Productions) : Parser NodeId := do
  let tok := (← position) - 1
  withScope do
    let body ← iterate [] fun body => do
      if ← accept closeBrace then
        return .done body
      else if (← get).current.isEof then
        failHere (.grammar (.expected closeBrace "EOF"))
      else
        return .again (body ++ (← blockItem again))
    newNode (.block body) tok

end Grammar
end MiniC
