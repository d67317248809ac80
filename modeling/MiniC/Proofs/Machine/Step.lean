import MiniC.Asm
import MiniC.Proofs.Machine.Memory
import Mathlib.Logic.Relation

/-!
# The machine

The machine has the registers in use, memory, and the flags of the last comparison.  It
runs a text line by line.  What is left to run is a suffix of the text, and a jump
continues behind the definition of its label.

A division by zero, or one whose quotient is too large for a register, stops the machine.
So does what the text of a function does not contain: a call, a return, data.
-/

namespace MiniC
namespace Asm

/-! ## States -/

/-- The flags that a comparison sets. -/
structure Flags where
  zero : Bool
  sign : Bool
  overflow : Bool
  deriving DecidableEq

namespace Flags

/-- The flags of a comparison: those of the difference of two words. -/
def compare (left right : Word) : Flags :=
  ⟨left == right, (left - right).msb, BitVec.ssubOverflow left right⟩

end Flags

namespace Cond

/-- Whether flags meet a condition. -/
def holds (flags : Flags) : Cond -> Bool
  | eq => flags.zero
  | ne => !flags.zero
  | lt => flags.sign != flags.overflow
  | le => flags.zero || flags.sign != flags.overflow
  | gt => !flags.zero && flags.sign == flags.overflow
  | ge => flags.sign == flags.overflow

end Cond

/-- The state of the machine.  The flags that arithmetic leaves behind count as unknown,
and an instruction that asks for them stops the machine. -/
structure Machine where
  regs : Reg -> Word
  memory : Memory
  flags : Option Flags

namespace Machine

/-- The machine with another word in a register. -/
def set (machine : Machine) (reg : Reg) (value : Word) : Machine :=
  { machine with regs := fun other => if other = reg then value else machine.regs other }

/-- The word on top of the stack. -/
def top (machine : Machine) : Word :=
  BitVec.ofNat 64 (machine.memory.read (machine.regs .rsp) 8)

/-- The machine with one more word on the stack. -/
def push (machine : Machine) (value : Word) : Machine :=
  { machine.set .rsp (machine.regs .rsp - 8) with
    memory := machine.memory.write (machine.regs .rsp - 8) 8 value }

/-- The machine with the top of the stack moved to a register. -/
def pop (machine : Machine) (reg : Reg) : Machine :=
  (machine.set .rsp (machine.regs .rsp + 8)).set reg machine.top

/-- The machine with a word compared with `rax`. -/
def compare (machine : Machine) (value : Word) : Machine :=
  { machine with flags := some (.compare (machine.regs .rax) value) }

/-- The machine after arithmetic into a register. -/
def setResult (machine : Machine) (reg : Reg) (value : Word) : Machine :=
  { machine.set reg value with flags := none }

/-- The machine with the low byte of `rax` replaced. -/
def setLow (machine : Machine) (byte : BitVec 8) : Machine :=
  machine.set .rax ((machine.regs .rax).extractLsb' 8 56 ++ byte)

/-- The machine after a signed division of `rdx` and `rax` together by `rdi`. -/
def divide (machine : Machine) : Option Machine :=
  let dividend := (machine.regs .rdx ++ machine.regs .rax).toInt
  let divisor := (machine.regs .rdi).toInt
  let quotient := dividend.tdiv divisor
  if divisor = 0 ∨ quotient < -2 ^ 63 ∨ 2 ^ 63 ≤ quotient then none
  else
    some ((machine.setResult .rax (.ofInt 64 quotient)).set .rdx
      (.ofInt 64 (dividend.tmod divisor)))

end Machine

/-! ## Instructions -/

/-- The addresses that symbols have. -/
abbrev Names := String -> Word

namespace Alu

/-- What arithmetic makes of two words. -/
def apply (left right : Word) : Alu -> Word
  | add => left + right
  | sub => left - right
  | mul => left * right

end Alu

namespace Instr

/-- The machine after an instruction that continues with the next line. -/
def run (names : Names) (machine : Machine) : Instr -> Option Machine
  | push reg => some (machine.push (machine.regs reg))
  | pop reg => some (machine.pop reg)
  | move target source => some (machine.set target (machine.regs source))
  | set target value => some (machine.set target (.ofInt 64 value))
  | addConst target value =>
      some (machine.setResult target (machine.regs target + .ofInt 64 value))
  | subConst target value =>
      some (machine.setResult target (machine.regs target - .ofInt 64 value))
  | frameAddress offset => some (machine.set .rax (machine.regs .rbp - .ofInt 64 offset))
  | symbolAddress name => some (machine.set .rax (names name))
  | storeFrame offset source width =>
      some { machine with
        memory := machine.memory.write (machine.regs .rbp - .ofInt 64 offset) width.bytes
          (machine.regs source) }
  | load width =>
      some (machine.set .rax
        (.ofInt 64 (machine.memory.signed (machine.regs .rax) width.bytes)))
  | store width =>
      some { machine with
        memory :=
          machine.memory.write (machine.regs .rax) width.bytes (machine.regs .rdi) }
  | loadByte offset =>
      some (machine.set .r8 ((machine.regs .r8).extractLsb' 8 56 ++
        machine.memory (machine.regs .rdi + .ofNat 64 offset)))
  | storeByte offset =>
      some { machine with
        memory := machine.memory.write (machine.regs .rax + .ofNat 64 offset) 1
          (machine.regs .r8) }
  | compareZero => some (machine.compare 0)
  | compare => some (machine.compare (machine.regs .rdi))
  | setCond cond =>
      machine.flags.map fun flags => machine.setLow (if cond.holds flags then 1 else 0)
  | zeroExtend => some (machine.set .rax (((machine.regs .rax).setWidth 8).setWidth 64))
  | signExtend width =>
      some (machine.set .rax
        (((machine.regs .rax).setWidth (8 * width.bytes)).signExtend 64))
  | negate => some (machine.setResult .rax (-machine.regs .rax))
  | complement => some (machine.set .rax (~~~machine.regs .rax))
  | alu op =>
      some (machine.setResult .rax (op.apply (machine.regs .rax) (machine.regs .rdi)))
  | extendDividend =>
      some (machine.set .rdx (if (machine.regs .rax).msb then -1 else 0))
  | divide => machine.divide
  | jump _ | jumpEq _ | jumpNe _ | call _ | ret => none

/-- The machine after several instructions. -/
def runAll (names : Names) (machine : Machine) : List Instr -> Option Machine
  | [] => some machine
  | instr :: rest => (instr.run names machine).bind fun next => runAll names next rest

end Instr

/-! ## Texts -/

/-- The part of a text behind the definition of a label. -/
def Code.after? (target : Label) : Code -> Option Code
  | [] => none
  | line :: rest => if line = .label target then some rest else after? target rest

/-- What is left to run, and the state of the machine. -/
structure Config where
  rest : Code
  machine : Machine

/-- Where a conditional jump continues. -/
def Machine.branch (machine : Machine) (text rest : Code) (cond : Cond) (target : Label) :
    Option Code := do
  if cond.holds (← machine.flags) then text.after? target else some rest

/-- One step of the machine in a text. -/
def step (names : Names) (text : Code) : Config -> Option Config
  | ⟨[], _⟩ => none
  | ⟨.directive (.loc _) :: rest, machine⟩ => some ⟨rest, machine⟩
  | ⟨.directive _ :: _, _⟩ => none
  | ⟨.label _ :: rest, machine⟩ => some ⟨rest, machine⟩
  | ⟨.instr (.jump target) :: _, machine⟩ => (text.after? target).map (⟨·, machine⟩)
  | ⟨.instr (.jumpEq target) :: rest, machine⟩ =>
      (machine.branch text rest .eq target).map (⟨·, machine⟩)
  | ⟨.instr (.jumpNe target) :: rest, machine⟩ =>
      (machine.branch text rest .ne target).map (⟨·, machine⟩)
  | ⟨.instr instr :: rest, machine⟩ => (instr.run names machine).map (⟨rest, ·⟩)

/-- One configuration follows from another by steps of the machine. -/
def Reaches (names : Names) (text : Code) : Config -> Config -> Prop :=
  Relation.ReflTransGen fun before after => step names text before = some after

end Asm
end MiniC
