import MiniC.Cause
import MiniC.Source

/-!
# Errors

Compilation ends at its first error.  A rejected source text has a cause and
the byte offset where the cause was found.  The two other kinds of error say
that a program is not one the parser builds: `internal` when a node is used against
its kind, and `fault` when a reference leads nowhere, a traversal runs longer than
the program is deep, or a number leaves the range of a signed word unnoticed.
-/

namespace MiniC

/-- Ways in which a program contradicts itself. -/
inductive Inconsistency
  | functionContextLost
  | untypedNode (line : Nat)
  | unbalancedStack (function : String) (depth : Int)
  | noFrameSlot (name : String)
  | emptyStatementExpression
  | valuelessStatementExpression
  | statementAsExpression (line : Nat)
  | expressionAsStatement (line : Nat)
  deriving DecidableEq

/-- The tables and rows that a reference can point into. -/
inductive Table
  | types
  | nodes
  | symbols
  | members
  | argumentRegisters
  deriving DecidableEq

/-- References without a target, traversals without an end, and arithmetic without a
result. -/
inductive Fault
  | missing (table : Table) (index : Nat)
  | endless
  | overflow
  deriving DecidableEq

/-- Why compilation ended without a result. -/
inductive Error
  | rejected (cause : Cause) (loc : Nat)
  | internal (inconsistency : Inconsistency)
  | fault (reason : Fault)
  deriving DecidableEq

namespace Inconsistency

/-- The wording of an inconsistency. -/
def message : Inconsistency -> String
  | functionContextLost => "function context lost"
  | untypedNode line => "untyped node at line " ++ toString line
  | unbalancedStack function depth =>
      "unbalanced stack in " ++ function ++ ": depth " ++ toString depth
  | noFrameSlot name => "no frame slot for '" ++ name ++ "'"
  | emptyStatementExpression => "empty statement expression"
  | valuelessStatementExpression => "statement expression without a value"
  | statementAsExpression line =>
      "statement used as an expression at line " ++ toString line
  | expressionAsStatement line =>
      "expression used as a statement at line " ++ toString line

end Inconsistency

namespace Table

/-- What a row of the table is called. -/
def entry : Table -> String
  | types => "type"
  | nodes => "node"
  | symbols => "symbol"
  | members => "member"
  | argumentRegisters => "argument register"

end Table

namespace Fault

/-- The wording of a fault. -/
def message : Fault -> String
  | missing table index => "no " ++ table.entry ++ " " ++ toString index
  | endless => "endless traversal"
  | overflow => "arithmetic overflow"

end Fault

namespace Error

/-- The text shown for an error in the given file. -/
def render (file : SourceFile) : Error -> String
  | rejected cause loc => (file.position loc).render ++ " " ++ cause.message
  | internal inconsistency => "internal error: " ++ inconsistency.message
  | fault reason => "internal fault: " ++ reason.message

end Error
end MiniC
