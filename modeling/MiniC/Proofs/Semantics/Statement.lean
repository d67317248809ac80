import MiniC.Proofs.Emit.Emission
import MiniC.Proofs.Semantics.Spelling

/-!
# The meaning of statements

Statements over integer expressions, as trees, and their execution.  Blocks and
declarations are sequences, and an initialiser is an assignment.  There is neither `break`
nor `continue`, so what a loop does behind its body belongs to the body, and what it does
first comes before the loop.

An execution runs to the end of the statement or returns from the function.
-/

namespace MiniC
namespace Semantics

/-- Statements over integer expressions. -/
inductive Stmt
  | skip
  | seq (first second : Stmt)
  | expr (value : Expr)
  | ret (value : Option Expr)
  | branch (cond : Expr) (onTrue onFalse : Stmt)
  /-- A loop runs while its condition holds, and forever if it has none. -/
  | loop (cond : Option Expr) (body : Stmt)
  deriving DecidableEq

namespace Stmt

/-- The variables of a statement. -/
def vars : Stmt -> List Variable
  | skip => []
  | seq first second => first.vars ++ second.vars
  | expr value => value.vars
  | ret value => (value.map Expr.vars).getD []
  | branch cond onTrue onFalse => cond.vars ++ (onTrue.vars ++ onFalse.vars)
  | loop cond body => (cond.map Expr.vars).getD [] ++ body.vars

/-- Number of words that the execution of a statement needs on a stack. -/
def words : Stmt -> Nat
  | skip => 0
  | seq first second => max first.words second.words
  | expr value => value.words
  | ret value => (value.map Expr.words).getD 0
  | branch cond onTrue onFalse => max cond.words (max onTrue.words onFalse.words)
  | loop cond body => max ((cond.map Expr.words).getD 0) body.words

end Stmt

/-! ## Execution -/

/-- How a statement ends: at its end, or by returning from the function. -/
inductive Outcome
  | finished
  | returned (value : Option Int)
  deriving DecidableEq

/-- The condition of a loop holds. -/
inductive Passes : Option Expr -> Store -> Store -> Prop
  | always {store} : Passes none store store
  | nonzero {cond store value after}
      (evaluated : cond.eval store = .ok (value, after))
      (nonzero : value ≠ 0) :
      Passes (some cond) store after

/-- The executions of a statement, from a store to an outcome and the store then. -/
inductive Executes : Stmt -> Store -> Outcome -> Store -> Prop
  | skip {store} : Executes .skip store .finished store
  | next {first second store middle outcome after}
      (head : Executes first store .finished middle)
      (tail : Executes second middle outcome after) :
      Executes (.seq first second) store outcome after
  | stop {first second store value after}
      (head : Executes first store (.returned value) after) :
      Executes (.seq first second) store (.returned value) after
  | expr {value store number after}
      (evaluated : value.eval store = .ok (number, after)) :
      Executes (.expr value) store .finished after
  | retNone {store} : Executes (.ret none) store (.returned none) store
  | ret {value store number after}
      (evaluated : value.eval store = .ok (number, after)) :
      Executes (.ret (some value)) store (.returned (some number)) after
  | onTrue {cond onTrue onFalse store number middle outcome after}
      (evaluated : cond.eval store = .ok (number, middle))
      (nonzero : number ≠ 0)
      (taken : Executes onTrue middle outcome after) :
      Executes (.branch cond onTrue onFalse) store outcome after
  | onFalse {cond onTrue onFalse store middle outcome after}
      (evaluated : cond.eval store = .ok (0, middle))
      (taken : Executes onFalse middle outcome after) :
      Executes (.branch cond onTrue onFalse) store outcome after
  | leave {cond body store after}
      (evaluated : cond.eval store = .ok (0, after)) :
      Executes (.loop (some cond) body) store .finished after
  | again {cond body store middle last outcome after}
      (passes : Passes cond store middle)
      (round : Executes body middle .finished last)
      (others : Executes (.loop cond body) last outcome after) :
      Executes (.loop cond body) store outcome after
  | quit {cond body store middle value after}
      (passes : Passes cond store middle)
      (round : Executes body middle (.returned value) after) :
      Executes (.loop cond body) store (.returned value) after

/-! ## Nodes as statements -/

/-- The condition that a node spells, if there is one. -/
inductive SpellsCond (program : Program) : Option NodeId -> Option Expr -> Prop
  | none : SpellsCond program none none
  | some {id cond} (spells : Spells program id cond) :
      SpellsCond program (some id) (some cond)

/-- The statement that nodes of a function spell, given the type that the function
returns.  The parser makes the conversion of a returned value explicit; in the statement
it is left to the function. -/
inductive SpellsStmt (program : Program) (result : TyId) : Emit.Task -> Stmt -> Prop
  | block {id node body stmt}
      (found : program.node? id = some node)
      (kind : node.kind = .block body)
      (inner : SpellsStmt program result (.statements body) stmt) :
      SpellsStmt program result (.statement id) stmt
  | expr {id node value expr}
      (found : program.node? id = some node)
      (kind : node.kind = .exprStmt value)
      (inner : Spells program value expr) :
      SpellsStmt program result (.statement id) (.expr expr)
  | retNone {id node}
      (found : program.node? id = some node)
      (kind : node.kind = .ret none) :
      SpellsStmt program result (.statement id) (.ret none)
  | retVoid {id node value expr ty}
      (found : program.node? id = some node)
      (kind : node.kind = .ret (some value))
      (returns : program.types.get? result = some ty)
      (empty : ty.isVoid = true)
      (inner : Spells program value expr) :
      SpellsStmt program result (.statement id) (.ret (some expr))
  | ret {id node value conversion operand expr}
      (found : program.node? id = some node)
      (kind : node.kind = .ret (some value))
      (converted : program.node? value = some conversion)
      (conversionKind : conversion.kind = .cast operand)
      (typed : conversion.ty = some result)
      (inner : Spells program operand expr) :
      SpellsStmt program result (.statement id) (.ret (some expr))
  | branch {id node cond onTrue onFalse test first second}
      (found : program.node? id = some node)
      (kind : node.kind = .branch cond onTrue onFalse)
      (decision : Spells program cond test)
      (taken : SpellsStmt program result (.statement onTrue) first)
      (other : SpellsStmt program result (.optional onFalse) second) :
      SpellsStmt program result (.statement id) (.branch test first second)
  | loop {id node init cond step body first test round next}
      (found : program.node? id = some node)
      (kind : node.kind = .loop init cond step body)
      (start : SpellsStmt program result (.optional init) first)
      (decision : SpellsCond program cond test)
      (inner : SpellsStmt program result (.statement body) round)
      (advance : SpellsStmt program result (.discard step) next) :
      SpellsStmt program result (.statement id)
        (.seq first (.loop test (.seq round next)))
  | discardNone : SpellsStmt program result (.discard none) .skip
  | discardSome {id expr}
      (inner : Spells program id expr) :
      SpellsStmt program result (.discard (some id)) (.expr expr)
  | optionalNone : SpellsStmt program result (.optional none) .skip
  | optionalSome {id stmt}
      (inner : SpellsStmt program result (.statement id) stmt) :
      SpellsStmt program result (.optional (some id)) stmt
  | noStatements : SpellsStmt program result (.statements []) .skip
  | moreStatements {id rest first following}
      (head : SpellsStmt program result (.statement id) first)
      (tail : SpellsStmt program result (.statements rest) following) :
      SpellsStmt program result (.statements (id :: rest)) (.seq first following)

end Semantics
end MiniC
