import MiniC.Program
import MiniC.Token

/-!
# The parser's state and cursor

Parsing is one pass over the tokens.  The state holds the tokens and a cursor
into them, the open scopes, the program built so far, and what is known of the
function being parsed.  An error keeps the state in which it arose.

Loops are run by `iterate` with a bound computed from the number of tokens.
-/

namespace MiniC
namespace Grammar

/-- What is known of the function being parsed: its result type, its locals in
the order of declaration, the labels it defines and the labels it jumps to. -/
structure FunctionContext where
  result : TyId
  locals : List SymbolId
  labels : List String
  gotos : List (String × Nat)

/-- The state of the parser. -/
structure State where
  tokens : TokenStream
  pos : Nat
  scopes : Scopes
  program : Program
  function : Option FunctionContext
  literals : Nat

/-- Parsers that either give a result or fail, with the state they reach. -/
abbrev Parser := EStateM Error State

namespace State

/-- The state before the first token. -/
def initial (tokens : TokenStream) : State :=
  ⟨tokens, 0, .initial, .empty, none, 0⟩

/-- The token at an index. -/
def token (state : State) (index : Nat) : Token := state.tokens.get index

/-- The token at the cursor. -/
def current (state : State) : Token := state.token state.pos

/-- Whether the given punctuator or keyword stands at an index. -/
def seesAt (state : State) (index : Nat) (symbol : String) : Bool :=
  (state.token index).isSymbol symbol

/-- Whether the given punctuator or keyword stands at the cursor. -/
def sees (state : State) (symbol : String) : Bool :=
  state.seesAt state.pos symbol

/-- The type named by the token at an index, if that is a typedef name. -/
def typedefAt? (state : State) (index : Nat) : Option TyId :=
  let token := state.token index
  if token.isIdentifier then state.scopes.typedef? token.text else none

/-- The keywords that may begin a type name. -/
def typeKeywords : List String :=
  ["void", "_Bool", "char", "short", "int", "long", "struct", "union", "enum",
    "typedef", "static"]

/-- Whether a type name begins at an index. -/
def startsType (state : State) (index : Nat) : Bool :=
  typeKeywords.any (state.seesAt index) || (state.typedefAt? index).isSome

/-- Bound on the rounds of a loop.  Each round of a loop but the first consumes a
token. -/
def rounds (state : State) : Nat := state.tokens.last + 2

end State

/-- The punctuator that opens a body. -/
def openBrace : String := "\x7b"

/-- The punctuator that closes a body. -/
def closeBrace : String := "\x7d"

/-- The index of the token at the cursor. -/
def position : Parser Nat := return (← get).pos

/-- Reject the source text at the token with the given index. -/
def failAt {α : Type} (index : Nat) (cause : Cause) : Parser α := do
  throw (.rejected cause ((← get).token index).loc)

/-- Reject the source text at the cursor. -/
def failHere {α : Type} (cause : Cause) : Parser α := do
  failAt (← get).pos cause

/-- A result that does not depend on the state. -/
def ofExcept {α : Type} : Except Error α -> Parser α
  | .ok value => return value
  | .error error => throw error

/-- Read the program built so far. -/
def query {α : Type} (read : Program -> Except Error α) : Parser α := do
  ofExcept (read (← get).program)

/-- Move the cursor to the next token, but not past the last. -/
def advance : Parser Unit :=
  modify fun state =>
    { state with
      pos := if state.pos < state.tokens.last then state.pos + 1 else state.pos }

/-- Move the cursor to a token. -/
def seek (index : Nat) : Parser Unit :=
  modify fun state => { state with pos := min index state.tokens.last }

/-- Consume a punctuator or keyword if it stands at the cursor. -/
def accept (symbol : String) : Parser Bool := do
  if (← get).sees symbol then
    modify fun state => { state with pos := state.pos + 1 }
    return true
  else
    return false

/-- Consume a punctuator or keyword that has to stand at the cursor. -/
def expect (symbol : String) : Parser Unit := do
  unless ← accept symbol do
    failHere (.grammar (.expected symbol (← get).current.describe))

/-- Consume an identifier: its text and the index of its token. -/
def identifier : Parser (String × Nat) := do
  let state ← get
  if state.current.isIdentifier then
    set { state with pos := state.pos + 1 }
    return (state.current.text, state.pos)
  else
    failHere (.grammar (.expectedIdentifier state.current.describe))

/-- Consume an identifier if one stands at the cursor. -/
def identifier? : Parser (Option (String × Nat)) := do
  if (← get).current.isIdentifier then
    return some (← identifier)
  else
    return none

/-- The negative of a number, which has to be in range. -/
def negated (value : Int) : Parser Int := do
  if Extent.InRange (-value) then return -value else throw (.fault .overflow)

/-- Consume an integer literal that may have a sign. -/
def number : Parser Int := do
  let negative ← accept "-"
  let state ← get
  match state.current.kind with
  | .num value =>
      set { state with pos := state.pos + 1 }
      if negative then negated value else return value
  | _ => failHere (.grammar (.expectedNumber state.current.describe))

/-- The end of one round of a loop: another round, or the result. -/
inductive Round (σ α : Type)
  | again (state : σ)
  | done (result : α)

/-- Run rounds until one is done.  The bound is not reached by a loop whose
rounds consume tokens. -/
def iterateFor {σ α : Type} (round : σ -> Parser (Round σ α)) :
    Nat -> σ -> Parser α
  | 0, _ => throw (.fault .endless)
  | bound + 1, state => do
      match ← round state with
      | .again next => iterateFor round bound next
      | .done result => return result

/-- Run rounds until one is done, at most as many as the tokens allow. -/
def iterate {σ α : Type} (start : σ) (round : σ -> Parser (Round σ α)) :
    Parser α := do
  iterateFor round (← get).rounds start

/-- Change the open scopes. -/
def modifyScopes (change : Scopes -> Scopes) : Parser Unit :=
  modify fun state => { state with scopes := change state.scopes }

/-- Parse inside a block scope of its own.  The scope is closed also when the
parser fails. -/
def withScope {α : Type} (parser : Parser α) : Parser α := fun state =>
  match parser { state with scopes := state.scopes.enter } with
  | .ok value after => .ok value { after with scopes := after.scopes.leave }
  | .error error after =>
      .error error { after with scopes := after.scopes.leave }

/-- The entry of a type. -/
def lookupTy (id : TyId) : Parser Ty := query (·.lookupTy id)

/-- The type of a node. -/
def typeOf (id : NodeId) : Parser TyId := query (·.typeOf id)

/-- The type entry of a node. -/
def nodeTy (id : NodeId) : Parser Ty := query (·.nodeTy id)

/-- Enter a type. -/
def enterTy (enter : TypeTable -> TyId × TypeTable) : Parser TyId :=
  modifyGet fun state =>
    let entered := enter state.program.types
    (entered.1, { state with program := { state.program with types := entered.2 } })

/-- Enter a pointer type. -/
def pointerTo (base : TyId) : Parser TyId := enterTy (·.pointerTo base)

end Grammar
end MiniC
