import MiniC.Asm
import MiniC.Program

/-!
# Building blocks of generated code

Generated code is a stack machine: the code of an expression leaves its value on
the stack.  The state counts the values on the stack, so that calls can be aligned,
and the numbered labels handed out.
-/

namespace MiniC
namespace Emit

open Asm

/-- The state of the generator. -/
structure State where
  depth : Int
  nextLabel : Nat
  deriving DecidableEq

/-- Computations that generate code. -/
abbrev Generator := StateT State (Except Error)

/-- A number that no label has yet. -/
def freshNumber : Generator Nat :=
  modifyGet fun state =>
    (state.nextLabel, { state with nextLabel := state.nextLabel + 1 })

/-- Instructions as code. -/
def instrs (list : List Instr) : Code := list.map .instr

/-- The definition of a numbered label. -/
def define (role : Role) (number : Nat) : Code := [.label (.numbered role number)]

/-- Push the value in `rax`. -/
def push : Generator Code := do
  modify fun state => { state with depth := state.depth + 1 }
  return instrs [.push .rax]

/-- Pop a value into a register. -/
def pop (reg : Reg) : Generator Code := do
  modify fun state => { state with depth := state.depth - 1 }
  return instrs [.pop reg]

/-- Replace the value on top of the stack by what instructions make of it in
`rax`. -/
def onTop (list : List Instr) : Generator Code := do
  return (← pop .rax) ++ instrs list ++ (← push)

/-- Pop a value and compare it with zero. -/
def testTop : Generator Code := do
  return (← pop .rax) ++ instrs [.compareZero]

/-- The integer argument registers in the order of arguments. -/
def argumentRegisters : List Reg := [.rdi, .rsi, .rdx, .rcx, .r8, .r9]

/-- The register of an argument. -/
def argumentRegister (index : Nat) : Except Error Reg :=
  match argumentRegisters[index]? with
  | some reg => .ok reg
  | none => .error (.fault (.missing .argumentRegisters index))

/-- Whether values of a type are represented by their address. -/
def isByAddress (ty : Ty) : Bool := ty.isArray || ty.isAggregate || ty.isFunction

/-- Replace the address on top of the stack by the value there. -/
def load (ty : Ty) : Generator Code :=
  if isByAddress ty then return []
  else onTop [.load (.ofSize ty.size)]

/-- Copy bytes from the address in `rdi` to the address in `rax`. -/
def copyBytes (size : Int) : List Instr :=
  (List.range size.toNat).flatMap fun offset =>
    [.loadByte offset, .storeByte offset]

/-- Store a value popped from the stack at the address below it, and push the
value again. -/
def store (ty : Ty) : Generator Code := do
  let value ← pop .rdi
  let address ← pop .rax
  let body : List Instr :=
    if ty.isAggregate then copyBytes ty.size else [.store (.ofSize ty.size)]
  return value ++ address ++ instrs (body ++ [.move .rax .rdi]) ++ (← push)

/-- Make `rax` one if a condition holds of the last comparison, else zero. -/
def truth (cond : Cond) : List Instr := [.setCond cond, .zeroExtend]

/-- Sign-extend the low part of `rax` that the width covers.  Nothing is needed
for a full word. -/
def extend (width : Width) : List Instr :=
  if width = .qword then [] else [.signExtend width]

/-- Bring an arithmetic result in `rax` to the width of its type. -/
def narrow (ty : Ty) : List Instr :=
  if ty.isInteger && ty.kind != .bool then extend ty.width else []

/-- Convert the value on top of the stack.  Widening needs nothing, because values
are sign-extended. -/
def convert (source target : Ty) : Generator Code :=
  if target.isVoid then return []
  else if target.kind = .bool then
    onTop (.compareZero :: truth .ne)
  else if target.width.rank < source.width.rank then
    onTop (extend target.width)
  else return []

/-- The instructions of an operator on `rax` and `rdi`. -/
def operation (op : BinaryOp) (ty : Ty) : List Instr :=
  match op with
  | .add => .alu .add :: narrow ty
  | .sub => .alu .sub :: narrow ty
  | .mul => .alu .mul :: narrow ty
  | .div => .extendDividend :: .divide :: narrow ty
  | .mod => .extendDividend :: .divide :: .move .rax .rdx :: narrow ty
  | .eq => .compare :: truth .eq
  | .ne => .compare :: truth .ne
  | .lt => .compare :: truth .lt
  | .le => .compare :: truth .le
  | .gt => .compare :: truth .gt
  | .ge => .compare :: truth .ge
  | .logAnd | .logOr => []

/-- The instructions of an operator on `rax` alone. -/
def unaryOperation (op : UnaryOp) (ty : Ty) : List Instr :=
  match op with
  | .neg => .negate :: narrow ty
  | .bitNot => .complement :: narrow ty
  | .not => .compareZero :: truth .eq

/-- The frame offset of a local. -/
def frameOffset (program : Program) (id : SymbolId) : Except Error Int := do
  let symbol ← program.lookupSymbol id
  match symbol.kind with
  | .localVar (some offset) => return offset
  | _ => throw (.internal (.noFrameSlot symbol.name))

end Emit
end MiniC
