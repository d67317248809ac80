import MiniC.Grammar.Unit
import MiniC.Proofs.Precedence.Nodes

/-!
# The levels of the expression grammar

`parserAt` is the production for what binds at least as tightly as a level, and `Follower`
says which symbols end it.  A production that meets a follower behind its first operand
gives that operand; so what the tightest production reads, all others read.
-/

namespace MiniC
namespace Grammar

open Precedence

/-- The binary operators of a level. -/
def operatorsAt : Nat -> List BinaryOp
  | 2 => [.logOr]
  | 3 => [.logAnd]
  | 4 => [.eq, .ne]
  | 5 => [.lt, .le, .gt, .ge]
  | 6 => [.add, .sub]
  | 7 => [.mul, .div, .mod]
  | _ => []

theorem level_of_mem_operatorsAt {level : Nat} {op : BinaryOp}
    (member : op ∈ operatorsAt level) :
    op.level = level := by
  revert member
  unfold operatorsAt
  split <;> cases op <;> simp [BinaryOp.level]

/-- The production for what binds at least as tightly as a level. -/
def parserAt (again : Productions) : Nat -> Parser NodeId
  | 0 => expr again
  | 1 => assign again
  | 2 => logOr again
  | 3 => logAnd again
  | 4 => equality again
  | 5 => relational again
  | 6 => sum again
  | 7 => product again
  | _ => cast again

/-- The operators of a level with the ways they join operands. -/
def joinsAt (level : Nat) : List (String × Join) :=
  (operatorsAt level).map fun op => (op.text, joinOf op)

variable {again : Productions} {state after : State} {level : Nat} {next : String}
  {rest : List Lexeme} {id : NodeId}

/-- The binary levels are chains of the next level. -/
theorem parserAt_eq_leftChain (again : Productions) (low : 2 ≤ level) (high : level ≤ 7) :
    parserAt again level = leftChain (joinsAt level) (parserAt again (level + 1)) := by
  obtain rfl | rfl | rfl | rfl | rfl | rfl : level = 2 ∨ level = 3 ∨
    level = 4 ∨ level = 5 ∨ level = 6 ∨ level = 7 := by omega
  all_goals rfl

/-! ## Symbols behind an expression -/

/-- The symbols that may stand behind what binds at least as tightly as a level. -/
inductive Follower (least : Nat) : String -> Prop
  | parenthesis : Follower least ")"
  | semicolon : Follower least ";"
  | comma (above : 0 < least) : Follower least ","
  | assignment (above : 1 < least) : Follower least "="
  | operator (op : BinaryOp) (above : op.level < least) : Follower least op.text

namespace Follower

theorem mono {more : Nat} (follower : Follower level next) (le : level ≤ more) :
    Follower more next := by
  cases follower with
  | parenthesis => exact .parenthesis
  | semicolon => exact .semicolon
  | comma above => exact .comma (Nat.lt_of_lt_of_le above le)
  | assignment above => exact .assignment (Nat.lt_of_lt_of_le above le)
  | operator op above => exact .operator op (Nat.lt_of_lt_of_le above le)

/-- No symbol behind an expression goes on with an operand. -/
theorem not_mem (follower : Follower level next) : next ∉ ["(", "[", ".", "->", ":"] := by
  cases follower with
  | operator op above => cases op <;> decide
  | _ => decide

/-- An operator of the level would belong to the expression. -/
theorem ne_text (follower : Follower level next) {op : BinaryOp} (le : level ≤ op.level) :
    next ≠ op.text := by
  cases follower with
  | operator other above =>
      intro same
      rw [BinaryOp.text_injective same] at above
      omega
  | _ => cases op <;> decide

theorem ne_comma (follower : Follower 0 next) : next ≠ "," := by
  cases follower with
  | comma above => exact absurd above (Nat.lt_irrefl 0)
  | operator op above => cases op <;> decide
  | _ => decide

theorem ne_assignment (follower : Follower 1 next) : next ≠ "=" := by
  cases follower with
  | assignment above => exact absurd above (Nat.lt_irrefl 1)
  | operator op above => cases op <;> decide
  | _ => decide

end Follower

/-! ## Chains -/

/-- One round of a chain: an operator and an operand, or the end. -/
def chainRound (operators : List (String × Join)) (operand : Parser NodeId)
    (lhs : NodeId) :
    Parser (Round NodeId NodeId) := do
  let state ← get
  match operators.find? fun operator => state.sees operator.1 with
  | none => return .done lhs
  | some (_, join) =>
      modify fun state => { state with pos := state.pos + 1 }
      let rhs ← operand
      return .again (← join lhs rhs state.pos)

/-- A chain behind its first operand. -/
theorem leftChain_run {operators : List (String × Join)} {operand : Parser NodeId}
    (first : operand state = .ok id after) :
    leftChain operators operand state =
      iterateFor (chainRound operators operand) (after.tokens.last + 2) id after :=
  bind_run first

theorem State.Shows.sees_eq (shows : state.Shows (.symbol next :: rest)) :
    state.sees = fun symbol => next == symbol := by
  funext symbol
  unfold State.sees State.seesAt State.token
  rw [shows.2.1.isSymbol_eq]
  rfl

/-- A chain goes on at an operator of its level. -/
theorem chainRound_of_operator {op : BinaryOp} {operand : Parser NodeId}
    {lhs rhs result : NodeId}
    {middle : State} (shows : state.Shows (.symbol op.text :: rest))
    (operandRun : operand state.next = .ok rhs middle)
    (joinRun : joinOf op lhs rhs state.pos middle = .ok result after) :
    chainRound (joinsAt op.level) operand lhs state = .ok (.again result) after := by
  have found : (joinsAt op.level).find? (fun operator => state.sees operator.1) =
      some (op.text, joinOf op) := by
    rw [shows.sees_eq]
    cases op <;> rfl
  unfold chainRound
  rw [get_run, found]
  change (operand >>= _) state.next = _
  rw [bind_run operandRun, bind_run joinRun]
  rfl

/-- A chain ends before a follower. -/
theorem chainRound_of_follower {operand : Parser NodeId} {lhs : NodeId}
    (shows : state.Shows (.symbol next :: rest)) (follower : Follower level next) :
    chainRound (joinsAt level) operand lhs state = .ok (.done lhs) state := by
  have found : (joinsAt level).find? (fun operator => state.sees operator.1) = none := by
    rw [shows.sees_eq, List.find?_eq_none]
    intro operator member
    obtain ⟨op, inside, rfl⟩ := List.mem_map.mp member
    have other := follower.ne_text (Nat.le_of_eq (level_of_mem_operatorsAt inside).symm)
    simpa using other
  unfold chainRound
  rw [get_run, found]
  rfl

/-- An operand before a follower is all that the level reads. -/
theorem parserAt_of_follower (high : level ≤ 7)
    (operand : parserAt again (level + 1) state = .ok id after)
    (shows : after.Shows (.symbol next :: rest)) (follower : Follower level next) :
    parserAt again level state = .ok id after := by
  have absent {symbol : String} (other : next ≠ symbol) : after.sees symbol = false :=
    State.sees_eq_false shows.sees other
  obtain rfl | rfl | low : level = 0 ∨ level = 1 ∨ 2 ≤ level := by omega
  · refine (bind_run operand).trans ?_
    rw [position_run, accept_else (absent follower.ne_comma)]
    rfl
  · refine (bind_run operand).trans ?_
    rw [position_run, accept_else (absent follower.ne_assignment)]
    rfl
  · rw [parserAt_eq_leftChain again low high, leftChain_run operand]
    exact iterateFor_done (chainRound_of_follower shows follower) _

/-- What a level reads before a follower is all that the looser levels read. -/
theorem parserAt_of_le {low high : Nat} (le : low ≤ high) (bounded : high ≤ 8)
    (run : parserAt again high state = .ok id after)
    (shows : after.Shows (.symbol next :: rest)) (follower : Follower low next) :
    parserAt again low state = .ok id after := by
  induction le with
  | refl => exact run
  | step le hypothesis =>
      have step :=
        parserAt_of_follower (Nat.le_of_succ_le_succ bounded) run shows (follower.mono le)
      exact hypothesis (Nat.le_of_succ_le bounded) step

/-! ## The tightest level -/

/-- A unary operator is applied to the operand behind it. -/
theorem cast_of_operator {op : UnaryOp} (shows : state.Shows (.symbol op.text :: rest)) :
    cast again state =
      (again.cast >>= fun operand => newNode (.unary op operand) state.pos)
        state.next := by
  have absent {symbol : String} (other : op.text ≠ symbol) : state.sees symbol = false :=
    State.sees_eq_false shows.sees other
  have noParenthesis : op.text ≠ "(" := by cases op <;> decide
  have noPlus : op.text ≠ "+" := by cases op <;> decide
  have isUnary : cast again state = unary again state := by
    unfold cast
    rw [get_run, if_neg (by simp [absent noParenthesis])]
  rw [isUnary]
  unfold unary
  rw [position_run, accept_else (absent noPlus)]
  have here := shows.sees
  cases op with
  | neg => exact accept_then here
  | not =>
      rw [accept_else (absent (by decide)), accept_else (absent (by decide)),
        accept_else (absent (by decide))]
      exact accept_then here
  | bitNot =>
      rw [accept_else (absent (by decide)), accept_else (absent (by decide)),
        accept_else (absent (by decide)), accept_else (absent (by decide))]
      exact accept_then here

/-- Without a unary operator and a type in parentheses there is an operand. -/
theorem cast_of_operand {lexeme : Lexeme} (shows : state.Shows (lexeme :: rest))
    (noOperator : ∀ symbol ∈ ["+", "-", "&", "*", "!", "~"],
      lexeme.isSymbol symbol = false)
    (noType : lexeme.isSymbol "(" = true -> state.startsType (state.pos + 1) = false) :
    cast again state = trailer again state := by
  have isUnary : cast again state = unary again state := by
    unfold cast
    rw [get_run, if_neg]
    unfold State.sees State.seesAt State.token
    rw [shows.2.1.isSymbol_eq]
    grind
  rw [isUnary]
  have absent {symbol : String} (inside : symbol ∈ ["+", "-", "&", "*", "!", "~"]) :
      state.sees symbol = false :=
    shows.sees_eq_false (noOperator symbol inside)
  unfold unary
  rw [position_run, accept_else (absent (by decide)), accept_else (absent (by decide)),
    accept_else (absent (by decide)), accept_else (absent (by decide)),
    accept_else (absent (by decide)), accept_else (absent (by decide))]

/-- Nothing is applied to an operand before a follower. -/
theorem trailer_of_follower (operand : primary again state = .ok id after)
    (shows : after.Shows (.symbol next :: rest)) (follower : Follower level next) :
    trailer again state = .ok id after := by
  have absent {symbol : String} (inside : symbol ∈ ["(", "[", ".", "->", ":"]) :
      after.sees symbol = false := by
    apply State.sees_eq_false shows.sees
    rintro rfl
    exact follower.not_mem inside
  unfold trailer
  rw [bind_run operand]
  apply iterate_done
  rw [position_run, accept_else (absent (by decide)), accept_else (absent (by decide)),
    accept_else (absent (by decide))]
  rfl

end Grammar
end MiniC
