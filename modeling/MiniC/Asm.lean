import MiniC.Width

/-!
# Assembly lines

The generated text is a list of lines: directives, label definitions and
instructions.  Only the instruction shapes that the generator needs are present.
Values are kept in `rax`, sign-extended to a full word.
-/

namespace MiniC
namespace Asm

/-- The registers in use. -/
inductive Reg
  | rax
  | rdi
  | rsi
  | rdx
  | rcx
  | r8
  | r9
  | rsp
  | rbp
  deriving DecidableEq

/-- The conditions that a comparison can be asked for. -/
inductive Cond
  | eq
  | ne
  | lt
  | le
  | gt
  | ge
  deriving DecidableEq

/-- Arithmetic of `rax` with `rdi`. -/
inductive Alu
  | add
  | sub
  | mul
  deriving DecidableEq

/-- The roles of numbered labels. -/
inductive Role
  | otherwise
  | start
  | stop
  | onTrue
  | onFalse
  deriving DecidableEq

/-- Labels: the names of symbols, the exit of a function, the labels of the
source text, and numbered ones. -/
inductive Label
  | symbol (name : String)
  | exit (function : String)
  | named (function name : String)
  | numbered (role : Role) (number : Nat)
  deriving DecidableEq

/-- Instructions. -/
inductive Instr
  /-- Push a register. -/
  | push (reg : Reg)
  /-- Pop into a register. -/
  | pop (reg : Reg)
  /-- Copy a register. -/
  | move (target source : Reg)
  /-- Set a register to a constant. -/
  | set (target : Reg) (value : Int)
  /-- Add a constant to a register. -/
  | addConst (target : Reg) (value : Int)
  /-- Subtract a constant from a register. -/
  | subConst (target : Reg) (value : Int)
  /-- Set `rax` to the address of a frame slot. -/
  | frameAddress (offset : Int)
  /-- Set `rax` to the address of a symbol. -/
  | symbolAddress (name : String)
  /-- Store the low part of a register into a frame slot. -/
  | storeFrame (offset : Int) (source : Reg) (width : Width)
  /-- Load `rax`, sign-extended, from the address it holds. -/
  | load (width : Width)
  /-- Store the low part of `rdi` at the address in `rax`. -/
  | store (width : Width)
  /-- Load a byte into `r8` from an offset to the address in `rdi`. -/
  | loadByte (offset : Nat)
  /-- Store the byte in `r8` at an offset to the address in `rax`. -/
  | storeByte (offset : Nat)
  /-- Compare `rax` with zero. -/
  | compareZero
  /-- Compare `rax` with `rdi`. -/
  | compare
  /-- Set the low byte of `rax` to the truth of a condition. -/
  | setCond (cond : Cond)
  /-- Clear all but the low byte of `rax`. -/
  | zeroExtend
  /-- Sign-extend the low part of `rax` to a full word. -/
  | signExtend (width : Width)
  /-- Negate `rax`. -/
  | negate
  /-- Complement every bit of `rax`. -/
  | complement
  /-- Combine `rax` with `rdi`. -/
  | alu (op : Alu)
  /-- Sign-extend `rax` into `rdx`. -/
  | extendDividend
  /-- Divide by `rdi`: the quotient in `rax`, the remainder in `rdx`. -/
  | divide
  /-- Jump. -/
  | jump (target : Label)
  /-- Jump if the last comparison found equality. -/
  | jumpEq (target : Label)
  /-- Jump if the last comparison found no equality. -/
  | jumpNe (target : Label)
  /-- Call a function. -/
  | call (name : String)
  /-- Return. -/
  | ret
  deriving DecidableEq

/-- Directives to the assembler. -/
inductive Directive
  | intelSpelling
  | file (name : String)
  | data
  | text
  | localSymbol (name : String)
  | globalSymbol (name : String)
  | align (bytes : Int)
  | byte (value : UInt8)
  | zero (bytes : Int)
  | loc (line : Nat)
  deriving DecidableEq

/-- A line of assembly. -/
inductive Line
  | directive (order : Directive)
  | label (place : Label)
  | instr (step : Instr)
  deriving DecidableEq

/-- A sequence of lines. -/
abbrev Code := List Line

end Asm
end MiniC
