import MiniC.CommandLine.Disk
import MiniC.Main
import MiniC.Proofs.Result
import MiniC.Proofs.Asm.Height
import MiniC.Proofs.Emit.Emission
import MiniC.Proofs.Emit.StackDiscipline
import MiniC.Proofs.Emit.Balance
import MiniC.Proofs.Grammar.Invariant
import MiniC.Proofs.Grammar.Moves
import MiniC.Proofs.Grammar.Signs
import MiniC.Proofs.Grammar.Nodes
import MiniC.Proofs.Grammar.Declarations
import MiniC.Proofs.Grammar.Expressions
import MiniC.Proofs.Grammar.Statements
import MiniC.Proofs.Program.Frame
import MiniC.Proofs.Grammar.Units
import MiniC.Proofs.Emit.Totality
import MiniC.Proofs.Compile
import MiniC.Proofs.WellTyped
import MiniC.Proofs.Emit.Text
import MiniC.Proofs.Emit.Signs
import MiniC.Proofs.Emit.Labels
import MiniC.Proofs.Goto.Target
import MiniC.Proofs.Goto.Height
import MiniC.Proofs.Machine.Memory
import MiniC.Proofs.Machine.Step
import MiniC.Proofs.Machine.Run
import MiniC.Proofs.Semantics.Expr
import MiniC.Proofs.Semantics.Reading
import MiniC.Proofs.Semantics.Spelling
import MiniC.Proofs.Semantics.Statement
import MiniC.Proofs.Simulation.Code
import MiniC.Proofs.Simulation.Operation
import MiniC.Proofs.Simulation.Layout
import MiniC.Proofs.Simulation.Expression
import MiniC.Proofs.Simulation.Statement
import MiniC.Proofs.Simulation.Frame
import MiniC.Proofs.Simulation.Function
import MiniC.Proofs.Simulation.Generated
import MiniC.Proofs.Simulation.ControlFlow
import MiniC.Proofs.Simulation.Pointer
import MiniC.Proofs.Frames
import MiniC.Proofs.Machine.Call
import MiniC.Proofs.Simulation.SignExtension
import MiniC.Proofs.Machine.Parts
import MiniC.Proofs.Simulation.Waiting
import MiniC.Proofs.Simulation.Member
import MiniC.Proofs.Simulation.Assignment
import MiniC.Proofs.Simulation.Argument
import MiniC.Proofs.Simulation.Parameter
import MiniC.Proofs.Program.Names
import MiniC.Proofs.Asm.Labels
import MiniC.Proofs.Emit.Origin
import MiniC.Proofs.Emit.Definitions
import MiniC.Proofs.Emit.Jumps
import MiniC.Proofs.Emit.Calls
import MiniC.Proofs.Emit.Immediates
import MiniC.Proofs.Grammar.Runs
import MiniC.Proofs.Grammar.Scoping
import MiniC.Proofs.Grammar.Arena
import MiniC.Proofs.Ty.Consistency
import MiniC.Proofs.Program.Forest
import MiniC.Proofs.Tables
import MiniC.Proofs.Precedence.Tree
import MiniC.Proofs.Precedence.Cursor
import MiniC.Proofs.Precedence.Nodes
import MiniC.Proofs.Precedence.Levels
import MiniC.Proofs.Precedence.Expression
import MiniC.Proofs.Precedence.Declarations
import MiniC.Proofs.Precedence.Function
import MiniC.Proofs.Precedence.Unit
import MiniC.Proofs.Precedence.Text
import MiniC.Proofs.Scope.History
import MiniC.Proofs.Grammar.Additions
import MiniC.Proofs.Grammar.Spans
import MiniC.Proofs.Program.Places
import MiniC.Proofs.Grammar.Beside
import MiniC.Proofs.Grammar.Beside.Tables
import MiniC.Proofs.Grammar.Beside.Types
import MiniC.Proofs.Grammar.Beside.Code
import MiniC.Proofs.Grammar.Beside.Files
import MiniC.Proofs.Emit.Beside
import MiniC.Proofs.Sources
import MiniC.Proofs.Literals
import MiniC.Proofs.Token.Partition
import MiniC.Proofs.Token.Locality
import MiniC.Proofs.CommandLine.Disk
import MiniC.Proofs.CommandLine.Delivery
import MiniC.Proofs.Grammar.Halting
import MiniC.Proofs.Grammar.Halting.Nodes
import MiniC.Proofs.Grammar.Halting.Productions
import MiniC.Proofs.Grammar.Termination
import MiniC.Proofs.Ty.Exactness
import MiniC.Proofs.Program.Lvalues
import MiniC.Proofs.Emit.Lvalues
import MiniC.Proofs.Declarator.Shape
import MiniC.Proofs.Declarator.Syntax
import MiniC.Proofs.Declarator.Settles
import MiniC.Proofs.Declarator.Specifiers
import MiniC.Proofs.Declarator.Parts
import MiniC.Proofs.Declarator.Parameters
import MiniC.Proofs.Declarator.Meaning
import MiniC.Proofs.Declarator.Parentheses
import MiniC.Proofs.Token.Numerals
import MiniC.Proofs.Token.Strings
import MiniC.Proofs.Token.Positions
import MiniC.Proofs.Declarator.Derivation
import MiniC.Proofs.Declarator.ParameterList
import MiniC.Proofs.Declarator.References
import MiniC.Proofs.Program.Renaming
import MiniC.Proofs.Program.Composition
import MiniC.Proofs.Program.Exchange
import MiniC.Proofs.Grammar.Twins
import MiniC.Proofs.Grammar.Twins.Tables
import MiniC.Proofs.Grammar.Twins.Types
import MiniC.Proofs.Grammar.Twins.Code
import MiniC.Proofs.Grammar.Twins.Statements
import MiniC.Proofs.Grammar.Twins.Files
import MiniC.Proofs.Grammar.Occurrence
import MiniC.Proofs.Grammar.Crossing
import MiniC.Proofs.Grammar.Crossing.Expressions
import MiniC.Proofs.Grammar.Crossing.Statements
import MiniC.Proofs.Grammar.Crossing.Files
import MiniC.Proofs.Emit.Renaming
import MiniC.Proofs.Grammar.Expansion.Sightless
import MiniC.Proofs.Grammar.Expansion.Layers
import MiniC.Proofs.Grammar.Expansion.Reading
import MiniC.Proofs.Grammar.Expansion.Operands
import MiniC.Proofs.Grammar.Expansion.Placement
import MiniC.Proofs.Grammar.Expansion.Pointers
import MiniC.Proofs.Grammar.Expansion.Exchange
import MiniC.Proofs.Grammar.Expansion.Sums
import MiniC.Proofs.Grammar.Expansion.Occurrences
import MiniC.Proofs.Expansion
