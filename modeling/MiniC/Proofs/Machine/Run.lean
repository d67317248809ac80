import MiniC.Emit.Basic
import MiniC.Proofs.Machine.Step

/-!
# Runs of the machine

How the machine gets through the lines of a text: through instructions one after the
other, past labels, and along jumps.  A jump into a stretch of lines needs to know that
the text has no other definition of the label; `Resolves` says so for all numbered labels
that the stretch defines.
-/

namespace MiniC
namespace Asm

open Emit

/-! ## Registers and memory -/

namespace Machine

variable (machine : Machine) (reg other : Reg) (value : Word)

@[simp] theorem set_regs :
    (machine.set reg value).regs other = if other =
      reg then value else machine.regs other :=
  rfl

@[simp] theorem set_memory : (machine.set reg value).memory = machine.memory := rfl

@[simp] theorem set_flags : (machine.set reg value).flags = machine.flags := rfl

@[simp] theorem setResult_regs :
    (machine.setResult reg value).regs other =
      if other = reg then value else machine.regs other :=
  rfl

@[simp] theorem setResult_memory :
    (machine.setResult reg value).memory = machine.memory := rfl

@[simp] theorem push_regs :
    (machine.push value).regs other =
      if other = .rsp then machine.regs .rsp - 8 else machine.regs other :=
  rfl

@[simp] theorem push_memory :
    (machine.push value).memory = machine.memory.write (machine.regs .rsp - 8) 8 value :=
      rfl

@[simp] theorem pop_regs :
    (machine.pop reg).regs other =
      if other = reg then machine.top
      else if other = .rsp then machine.regs .rsp + 8
      else machine.regs other :=
  rfl

@[simp] theorem pop_memory : (machine.pop reg).memory = machine.memory := rfl

@[simp] theorem compare_regs : (machine.compare value).regs = machine.regs := rfl

@[simp] theorem compare_memory : (machine.compare value).memory = machine.memory := rfl

@[simp] theorem compare_flags :
    (machine.compare value).flags = some (.compare (machine.regs .rax) value) := rfl

/-- A word just pushed is on top. -/
@[simp] theorem push_top : (machine.push value).top = value := by
  unfold top
  rw [push_memory, push_regs, if_pos rfl, Memory.read_write_word]

end Machine

/-! ## Conditions -/

namespace Cond

/-- The comparison of numbers that a condition asks for. -/
def test (left right : Int) : Cond -> Bool
  | eq => left = right
  | ne => left ≠ right
  | lt => left < right
  | le => left ≤ right
  | gt => right < left
  | ge => right ≤ left

/-- The sign of a difference tells the order, unless the difference overflows. -/
theorem sign_ne_overflow (left right : Word) :
    ((Flags.compare left right).sign != (Flags.compare left right).overflow) =
      decide (left.toInt < right.toInt) := by
  have leftLow := BitVec.le_toInt left
  have leftHigh : left.toInt < 2 ^ 63 := BitVec.toInt_lt
  have rightLow := BitVec.le_toInt right
  have rightHigh : right.toInt < 2 ^ 63 := BitVec.toInt_lt
  have sign : (left - right).toInt < 0 ↔
      left.toInt < right.toInt ∧ -2 ^ 63 ≤ left.toInt - right.toInt ∨
        2 ^ 63 ≤ left.toInt - right.toInt := by
    rw [BitVec.toInt_sub, Int.bmod_def]
    omega
  have overflow : BitVec.ssubOverflow left right = true ↔
      2 ^ 63 ≤ left.toInt - right.toInt ∨ left.toInt - right.toInt < -2 ^ 63 := by
    simp [BitVec.ssubOverflow]
  rw [Bool.eq_iff_iff, bne_iff_ne, ne_eq, Bool.eq_iff_iff, Flags.compare, overflow,
    BitVec.msb_eq_toInt, decide_eq_true_iff, decide_eq_true_iff, sign]
  omega

/-- The flags of a comparison meet a condition when the signed numbers do. -/
theorem holds_compare (cond : Cond) (left right : Word) :
    cond.holds (.compare left right) = cond.test left.toInt right.toInt := by
  have order := sign_ne_overflow left right
  have zero : (Flags.compare left right).zero = decide (left.toInt = right.toInt) := by
    simp only [Flags.compare, BitVec.toInt_inj]
    rfl
  have same : ((Flags.compare left right).sign == (Flags.compare left right).overflow) =
      !decide (left.toInt < right.toInt) := by
    rw [← order, bne, Bool.not_not]
  cases cond with
  | eq => rw [holds, zero, test]
  | ne => simp [holds, zero, test]
  | lt => rw [holds, order, test]
  | le =>
    rw [holds, zero, order, test, ← Bool.decide_or, decide_eq_decide]
    omega
  | gt =>
    rw [holds, zero, same, test, ← decide_not, ← decide_not, ← Bool.decide_and,
      decide_eq_decide]
    omega
  | ge =>
    rw [holds, same, test, ← decide_not, decide_eq_decide]
    omega

end Cond

/-! ## Steps -/

section Reaches

variable {names : Names} {text rest : Code} {machine next : Machine}

/-- A machine is where it is. -/
theorem Reaches.refl (config : Config) : Reaches names text config config :=
  Relation.ReflTransGen.refl

/-- Runs are put one behind the other. -/
theorem Reaches.trans {first second third : Config}
    (left : Reaches names text first second)
    (right : Reaches names text second third) : Reaches names text first third :=
  Relation.ReflTransGen.trans left right

/-- A step is a run. -/
theorem Reaches.step {before after : Config}
    (taken : step names text before = some after) :
    Reaches names text before after :=
  Relation.ReflTransGen.single taken

/-- An instruction that is no jump goes on with the next line. -/
theorem step_instr {instr : Instr} (run : instr.run names machine = some next) :
    Asm.step names text ⟨.instr instr :: rest, machine⟩ = some ⟨rest, next⟩ := by
  cases instr with
  | jump target | jumpEq target | jumpNe target => cases run
  | _ => simp [Asm.step, run]

/-- Instructions one after the other. -/
theorem Reaches.instrs {list : List Instr}
    (run : Instr.runAll names machine list = some next) :
    Reaches names text ⟨instrs list ++ rest, machine⟩ ⟨rest, next⟩ := by
  induction list generalizing machine with
  | nil =>
      cases run
      exact .refl _
  | cons instr list hypothesis =>
      obtain ⟨middle, first, others⟩ := Option.bind_eq_some_iff.mp run
      exact Reaches.trans (.step (step_instr first)) (hypothesis others)

/-- A label is passed over. -/
theorem Reaches.label (place : Label) :
    Reaches names text ⟨[.label place] ++ rest, machine⟩ ⟨rest, machine⟩ :=
  .step rfl

/-- A line marker is passed over. -/
theorem Reaches.loc (line : Nat) :
    Reaches names text ⟨[.directive (.loc line)] ++ rest, machine⟩ ⟨rest, machine⟩ :=
  .step rfl

/-- A jump leads behind its label. -/
theorem Reaches.jump {target : Label} {goal : Code}
    (known : text.after? target = some goal) :
    Reaches names text ⟨Emit.instrs [.jump target] ++ rest, machine⟩ ⟨goal, machine⟩ := by
  apply Reaches.step
  change (text.after? target).map _ = _
  rw [known]
  rfl

/-- The conditional jumps and their conditions. -/
inductive Branches : (Label -> Instr) -> Cond -> Prop
  | eq : Branches .jumpEq .eq
  | ne : Branches .jumpNe .ne

/-- A conditional jump goes to its label or on to the next line. -/
theorem Reaches.branch
    {jump : Label -> Instr}
    {cond : Cond}
    {target : Label}
    {flags : Flags}
    {goal : Code}
    (branches : Branches jump cond)
    (known : machine.flags = some flags)
    (continues : if cond.holds flags then text.after? target =
      some goal else goal = rest) :
    Reaches names text ⟨Emit.instrs [jump target] ++ rest, machine⟩ ⟨goal, machine⟩ := by
  have decided : machine.branch text rest cond target = some goal := by
    simp only [Machine.branch, known, Option.bind_eq_bind, Option.bind_some]
    split at continues
    · rw [if_pos (by assumption), continues]
    · rw [if_neg (by assumption), continues]
  apply Reaches.step
  cases branches with
  | eq | ne =>
      change (machine.branch text rest _ target).map _ = _
      rw [decided]
      rfl

end Reaches

/-! ## Labels -/

namespace Code

/-- A label is found behind lines that do not define it. -/
theorem after?_of_not_mem {target : Label} {before : Code} (after : Code)
    (new : .label target ∉ before) :
    after? target (before ++ .label target :: after) = some after := by
  induction before with
  | nil => exact if_pos rfl
  | cons line before hypothesis =>
      have other : line ≠ .label target := by
        rintro rfl
        exact new List.mem_cons_self
      rw [List.cons_append, after?, if_neg other]
      exact hypothesis fun member => new (List.mem_cons_of_mem line member)

/-- A label that is defined once is found where it is defined. -/
theorem after?_of_count {target : Label} {before after : Code}
    (once : List.count (.label target) (before ++ .label target :: after) ≤ 1) :
    after? target (before ++ .label target :: after) = some after := by
  apply after?_of_not_mem
  intro member
  have more := List.count_pos_iff.mpr member
  rw [List.count_append, List.count_cons_self] at once
  omega

end Code

/-- Jumps to the numbered labels of a stretch of lines go into the stretch, and leaving it
leads to the rest of the text. -/
def Resolves (text code rest : Code) : Prop :=
  ∀ before role number after, code = before ++ define role number ++ after ->
    text.after? (.numbered role number) = some (after ++ rest)

namespace Resolves

variable {text first second rest : Code}

/-- Labels that resolve in a text resolve in its first part. -/
theorem left (resolves : Resolves text (first ++ second) rest) :
    Resolves text first (second ++ rest) := by
  intro before role number after equal
  rw [← List.append_assoc]
  apply resolves before
  rw [equal, List.append_assoc]

/-- Labels that resolve in a text resolve in its last part. -/
theorem right (resolves : Resolves text (first ++ second) rest) :
    Resolves text second rest := by
  intro before role number after equal
  apply resolves (first ++ before)
  rw [equal]
  simp only [List.append_assoc]

/-- The labels of a stretch are resolved if the text defines no numbered label twice. -/
theorem of_count
    (before : Code)
    (once : ∀ role number,
      List.count (.label (.numbered role number)) (before ++ first ++ rest) ≤ 1) :
    Resolves (before ++ first ++ rest) first rest := by
  intro start role number after equal
  have found := once role number
  have split : before ++ first ++ rest =
      (before ++ start) ++ .label (.numbered role number) :: (after ++ rest) := by
    rw [equal]
    simp [define]
  rw [split] at found ⊢
  exact Code.after?_of_count found

end Resolves

end Asm
end MiniC
