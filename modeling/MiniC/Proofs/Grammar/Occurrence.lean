import MiniC.Proofs.Grammar.Twins.Files

/-!
# Where a production is called

`Comes` says that a production, run from a state, comes to call another one from another
state.  It has one rule for each place of the grammar at which a production of expressions
or statements is called: what the caller has read before, and what it has found at the
cursor.  Types contain no expressions, so nothing is called from there.

A function body begins where `Defines` says, behind the declarations before it.
-/

namespace MiniC
namespace Grammar

/-- Rounds of a loop, one behind another, each of which goes on with a further one. -/
inductive Rounds {σ α : Type} (round : σ -> Parser (Round σ α)) : σ -> State ->
    σ -> State -> Prop
  | none (current : σ) (state : State) : Rounds round current state current state
  | more {current next last : σ} {state middle after : State}
      (goes : round current state = .ok (.again next) middle)
      (others : Rounds round next middle last after) :
      Rounds round current state last after

/-- The state inside a scope of its own. -/
def State.entered (state : State) : State := { state with scopes := state.scopes.enter }

/-! ## What is read in front of an expression -/

/-- A call up to its opening parenthesis: the parameters of the function. -/
def callHead : Parser (List Param) := do
  let (name, tok) ← identifier
  expect "("
  let function ← callee name tok
  match (← lookupTy (← query (·.lookupSymbol function)).ty).kind with
  | .func _ params => return params
  | _ => failAt tok (.typing .notFunction)

/-- A label and its colon, behind the name. -/
def labelHead (tok : Nat) (label : String) : Parser Unit := do
  expect ":"
  if (← get).definesLabel label then
    failAt tok (.naming (.duplicateLabel label))
  modifyFunction fun function =>
    { function with labels := function.labels ++ [label] }

/-- A local variable up to its initialiser: the node that is assigned to. -/
def initialiserHead (again : Productions) (base : TyId) : Parser NodeId := do
  let declared ← declarator again base
  let tok ← declared.requireName
  checkVariableTy declared.ty tok
  let symbol ← newLocal ((← get).token tok).text declared.ty
  expect "="
  newNode (.var symbol) tok

/-- Whether an initialiser begins at the last state, in a declaration of local variables
that begins behind its specifiers at the first. -/
inductive Initialises (again : Productions) (base : TyId) (state last : State) : Prop
  | intro (first : Bool) (body : List NodeId) (middle behind : State) (lhs : NodeId)
      (rounds : Rounds (declaratorRound again base (declareLocal again)) (true, []) state
        (first, body) middle)
      (open_ : middle.sees ";" = false)
      (separated : (do unless first do expect "," : Parser Unit) middle = .ok () behind)
      (head : initialiserHead again base behind = .ok lhs last)

/-- A function behind its declarator: its result type and its parameters. -/
def functionHead (declared : Declarator) (storage : Storage) :
    Parser (TyId × List Param) := do
  let tok ← declared.requireName
  let (result, params) ← signature declared.ty tok
  let _ ← newFunction ((← get).token tok).text declared.ty storage.isStatic
  return (result, params)

/-- A definition up to its opening brace: the parameters are declared in the scope of the
body. -/
def bodyHead (result : TyId) (params : List Param) : Parser Unit := do
  modify fun state =>
    { state with function := some ⟨result, [], [], []⟩, scopes := state.scopes.enter }
  let _ ← params.mapM declareParameter
  expect openBrace

/-- Whether the body of a function begins at the last state, in a declaration of the file
scope that begins at the first. -/
inductive Defines (again : Productions) (state last : State) : Prop
  | intro (base : TyId) (storage : Storage) (declared : Declarator) (result : TyId)
      (params : List Param) (specified_ declared_ entered_ : State)
      (more : state.current.isEof = false)
      (specified : specifiers again true state = .ok (base, storage) specified_)
      (untyped : storage.isTypedef = false)
      (open_ : specified_.sees ";" = false)
      (declares : declarator again base specified_ = .ok declared declared_)
      (head : functionHead declared storage declared_ = .ok (result, params) entered_)
      (defined : entered_.sees ";" = false)
      (opens : bodyHead result params entered_ = .ok () last)

/-! ## Calls -/

/-- The symbols of unary operators. -/
def unaryOperators : List String := ["+", "-", "&", "*", "!", "~"]

/-- The symbols that begin a statement other than an expression or a label. -/
def statementWords : List String := ["return", "if", "for", "while", "goto", openBrace]

section

variable (target : Productions -> Parser NodeId) (deep : Nat) (there : State)

/-- Whether a production, with a depth that the recursion may have, comes from a state to
call the target from another state. -/
inductive Comes : (Productions -> Parser NodeId) -> Nat -> State -> Prop
  /-- The call itself. -/
  | here : Comes target deep there
  /-- The productions that are called again. -/
  | expr {depth state} (inner : Comes expr depth state) : Comes (·.expr) (depth + 1) state
  | assign {depth state} (inner : Comes assign depth state) :
      Comes (·.assign) (depth + 1) state
  | cast {depth state} (inner : Comes cast depth state) : Comes (·.cast) (depth + 1) state
  | unary {depth state} (inner : Comes unary depth state) :
      Comes (·.unary) (depth + 1) state
  | stmt {depth state} (inner : Comes stmt depth state) : Comes (·.stmt) (depth + 1) state
  | block {depth state} (inner : Comes block depth state) :
      Comes (·.block) (depth + 1) state
  /-- Sequences and assignments. -/
  | commaLeft {depth state} (inner : Comes Grammar.assign depth state) :
      Comes Grammar.expr depth state
  | commaRight {depth state lhs middle}
      (left : Grammar.assign (productions depth) state = .ok lhs middle)
      (comma : middle.sees "," = true) (inner : Comes (·.expr) depth middle.next) :
      Comes Grammar.expr depth state
  | assignLeft {depth state} (inner : Comes logOr depth state) :
      Comes Grammar.assign depth state
  | assignRight {depth state lhs middle}
      (left : logOr (productions depth) state = .ok lhs middle)
      (equals : middle.sees "=" = true) (inner : Comes (·.assign) depth middle.next) :
      Comes Grammar.assign depth state
  /-- Operands of the binary operators of a level. -/
  | firstOperand {depth state level} (low : 2 ≤ level) (high : level ≤ 7)
      (inner : Comes (parserAt · (level + 1)) depth state) :
      Comes (parserAt · level) depth state
  | laterOperand {depth state level lhs current middle after} {op : BinaryOp}
      (low : 2 ≤ level) (high : level ≤ 7)
      (first : parserAt (productions depth) (level + 1) state = .ok lhs middle)
      (rounds : Rounds (chainRound (joinsAt level)
        (parserAt (productions depth) (level + 1))) lhs middle current after)
      (known : op ∈ operatorsAt level) (operator : after.sees op.text = true)
      (inner : Comes (parserAt · (level + 1)) depth after.next) :
      Comes (parserAt · level) depth state
  /-- Casts and unary operators. -/
  | converted {depth state ty middle}
      (opens : state.sees "(" = true) (typed : state.startsType (state.pos + 1) = true)
      (read : typeName (productions depth) state.next = .ok ty middle)
      (closes : middle.sees ")" = true) (inner : Comes (·.cast) depth middle.next) :
      Comes Grammar.cast depth state
  | unconverted {depth state}
      (untyped : (state.sees "(" && state.startsType (state.pos + 1)) = false)
      (inner : Comes Grammar.unary depth state) : Comes Grammar.cast depth state
  | operated {depth state symbol} (known : symbol ∈ unaryOperators)
      (operator : state.sees symbol = true) (inner : Comes (·.cast) depth state.next) :
      Comes Grammar.unary depth state
  | unoperated {depth state}
      (other : ∀ symbol ∈ unaryOperators, state.sees symbol = false)
      (inner : Comes trailer depth state) : Comes Grammar.unary depth state
  /-- Postfix expressions. -/
  | trailed {depth state} (inner : Comes primary depth state) : Comes trailer depth state
  | index {depth state first current middle after}
      (head : primary (productions depth) state = .ok first middle)
      (rounds : Rounds (trailerRound (productions depth)) first middle current after)
      (bracket : after.sees "[" = true) (inner : Comes (·.expr) depth after.next) :
      Comes trailer depth state
  /-- Primary expressions. -/
  | body {depth state} (opens : state.sees "(" = true)
      (brace : state.seesAt (state.pos + 1) openBrace = true)
      (inner : Comes (·.block) depth state.next.next) : Comes primary depth state
  | parenthesised {depth state} (opens : state.sees "(" = true)
      (other : state.seesAt (state.pos + 1) openBrace = false)
      (inner : Comes (·.expr) depth state.next) : Comes primary depth state
  | sizeof {depth state} (word : state.sees "sizeof" = true)
      (untyped : (state.next.sees "(" && state.next.startsType (state.pos + 2)) = false)
      (inner : Comes (·.unary) depth state.next) : Comes primary depth state
  | argument {depth state params args middle after behind}
      (calls : state.seesAt (state.pos + 1) "(" = true)
      (head : callHead state = .ok params middle)
      (rounds : Rounds (argumentRound (productions depth) params) [] middle args after)
      (open_ : after.sees ")" = false)
      (separated : (do unless args.isEmpty do expect "," : Parser Unit) after =
        .ok () behind)
      (inner : Comes (·.assign) depth behind) : Comes primary depth state
  /-- Statements. -/
  | returned {depth state} (word : state.sees "return" = true)
      (open_ : state.next.sees ";" = false) (inner : Comes (·.expr) depth state.next) :
      Comes Grammar.stmt depth state
  | condition {depth state} (word : state.sees "if" = true ∨ state.sees "while" = true)
      (opens : state.next.sees "(" = true)
      (inner : Comes (·.expr) depth state.next.next) :
      Comes Grammar.stmt depth state
  | branch {depth state cond middle}
      (word : state.sees "if" = true ∨ state.sees "while" = true)
      (head : Grammar.condition (productions depth) state.pos state.next =
        .ok cond middle)
      (inner : Comes (·.stmt) depth middle) : Comes Grammar.stmt depth state
  | otherwise {depth state cond middle onTrue after} (word : state.sees "if" = true)
      (head : Grammar.condition (productions depth) state.pos state.next =
        .ok cond middle)
      (first : (productions depth).stmt middle = .ok onTrue after)
      (also : after.sees "else" = true) (inner : Comes (·.stmt) depth after.next) :
      Comes Grammar.stmt depth state
  | forInit {depth state} (word : state.sees "for" = true)
      (opens : state.next.sees "(" = true)
      (untyped : state.next.next.entered.startsType (state.pos + 2) = false)
      (inner : Comes exprStmt depth state.next.next.entered) :
      Comes Grammar.stmt depth state
  | forVariable {depth state base storage middle after} (word : state.sees "for" = true)
      (opens : state.next.sees "(" = true)
      (typed : state.next.next.entered.startsType (state.pos + 2) = true)
      (specified : specifiers (productions depth) false state.next.next.entered =
        .ok (base, storage) middle)
      (declares : Initialises (productions depth) base middle after)
      (inner : Comes Grammar.assign depth after) : Comes Grammar.stmt depth state
  | forCond {depth state init middle} (word : state.sees "for" = true)
      (opens : state.next.sees "(" = true)
      (first : Grammar.forInit (productions depth) state.next.next.entered =
        .ok init middle)
      (open_ : middle.sees ";" = false) (inner : Comes (·.expr) depth middle) :
      Comes Grammar.stmt depth state
  | forStep {depth state init cond middle after} (word : state.sees "for" = true)
      (opens : state.next.sees "(" = true)
      (first : Grammar.forInit (productions depth) state.next.next.entered =
        .ok init middle)
      (second : Grammar.forCond (productions depth) state.pos middle = .ok cond after)
      (open_ : after.sees ")" = false) (inner : Comes (·.expr) depth after) :
      Comes Grammar.stmt depth state
  | forBody {depth state init cond step middle after behind}
      (word : state.sees "for" = true) (opens : state.next.sees "(" = true)
      (first : Grammar.forInit (productions depth) state.next.next.entered =
        .ok init middle)
      (second : Grammar.forCond (productions depth) state.pos middle = .ok cond after)
      (third : Grammar.forStep (productions depth) after = .ok step behind)
      (inner : Comes (·.stmt) depth behind) : Comes Grammar.stmt depth state
  | labelled {depth state middle} (label : state.startsLabel = true)
      (head : labelHead state.pos state.current.text state.next = .ok () middle)
      (inner : Comes (·.stmt) depth middle) : Comes Grammar.stmt depth state
  | braced {depth state} (brace : state.sees openBrace = true)
      (inner : Comes (·.block) depth state.next) : Comes Grammar.stmt depth state
  | unworded {depth state} (other : ∀ word ∈ statementWords, state.sees word = false)
      (unlabelled : state.startsLabel = false) (inner : Comes exprStmt depth state) :
      Comes Grammar.stmt depth state
  | value {depth state} (open_ : state.sees ";" = false)
      (inner : Comes Grammar.expr depth state) : Comes exprStmt depth state
  /-- The items of a block. -/
  | item {depth state body middle}
      (rounds : Rounds (blockRound (productions depth)) [] state.entered body middle)
      (open_ : middle.sees closeBrace = false) (more : middle.current.isEof = false)
      (untyped : middle.startsType middle.pos = false)
      (inner : Comes Grammar.stmt depth middle) : Comes Grammar.block depth state
  | labelledItem {depth state body middle after}
      (rounds : Rounds (blockRound (productions depth)) [] state.entered body middle)
      (label : middle.startsLabel = true)
      (head : labelHead middle.pos middle.current.text middle.next = .ok () after)
      (inner : Comes (·.stmt) depth after) : Comes Grammar.block depth state
  | declared {depth state body base storage middle after behind}
      (rounds : Rounds (blockRound (productions depth)) [] state.entered body middle)
      (open_ : middle.sees closeBrace = false) (more : middle.current.isEof = false)
      (typed : (middle.startsType middle.pos && !middle.startsLabel) = true)
      (specified : specifiers (productions depth) true middle = .ok (base, storage) after)
      (automatic : storage = ⟨false, false⟩)
      (declares : Initialises (productions depth) base after behind)
      (inner : Comes Grammar.assign depth behind) : Comes Grammar.block depth state

end

/-- Whether the parser, on a stream of tokens, comes to call a production from a state. -/
inductive Calls (tokens : TokenStream)
    (target : Productions -> Parser NodeId) (deep : Nat) (there : State) : Prop
  | intro (middle body : State)
      (rounds : Rounds (unitRound (productions (tokens.last + 1))) ()
        (.initial tokens) () middle)
      (defines : Defines (productions (tokens.last + 1)) middle body)
      (comes : Comes target deep there block (tokens.last + 1) body)

end Grammar
end MiniC
