import MiniC.Proofs.Machine.Call
import MiniC.Proofs.Semantics.Reading

/-!
# What instructions compute

The operators of integer expressions are short lists of instructions on `rax` and `rdi`.
Each list leaves in `rax` the number that the operator has for its value, sign-extended to
a full word, and touches neither the stack nor memory.

Numbers stand in registers as words that are equal to them modulo the size of a word.  A
number that fits its type is the signed value of its word.
-/

namespace MiniC
namespace Semantics

open Asm Emit

/-! ## Numbers as words -/

/-- Bringing a word to a number of bytes and extending it again. -/
theorem signExtend_ofInt {count : Nat} (small : count ≤ 8) (value : Int) :
    ((BitVec.ofInt 64 value).setWidth (8 * count)).signExtend 64 =
      BitVec.ofInt 64 (value.bmod (2 ^ (8 * count))) := by
  have divides : 2 ^ (8 * count) ∣ 2 ^ 64 := Nat.pow_dvd_pow 2 (by omega)
  have signed : ((BitVec.ofInt 64 value).setWidth (8 * count)).toInt =
      value.bmod (2 ^ (8 * count)) := by
    rw [BitVec.toInt_setWidth, ← Int.bmod_bmod_of_dvd divides,
      ← BitVec.toInt_eq_toNat_bmod, BitVec.toInt_ofInt, Int.bmod_bmod_of_dvd divides]
  unfold BitVec.signExtend
  rw [signed]

/-- A word does not notice wrapping around at its own size. -/
theorem ofInt_bmod (value : Int) :
    BitVec.ofInt 64 (value.bmod (2 ^ 64)) = BitVec.ofInt 64 value := by
  apply BitVec.eq_of_toInt_eq
  rw [BitVec.toInt_ofInt, BitVec.toInt_ofInt, Int.bmod_bmod]

/-- A number that fits is the signed value of its word. -/
theorem IntTy.Fits.toInt_ofInt {ty : IntTy} {value : Int} (fits : ty.Fits value) :
    (BitVec.ofInt 64 value).toInt = value := by
  rw [BitVec.toInt_ofInt]
  exact fits.long

theorem ofInt_wrap_literal (value : Int) :
    BitVec.ofInt 64 ((IntTy.ofLiteral value).wrap value) = BitVec.ofInt 64 value := by
  unfold IntTy.ofLiteral
  split
  · rename_i small
    obtain ⟨low, high⟩ := small
    simp only [Extent.maxInt32] at high
    have same : IntTy.int.wrap value = value := by
      unfold IntTy.wrap
      rw [Int.bmod_def]
      simp only [IntTy.width, Width.bytes]
      omega
    rw [same]
  · exact ofInt_bmod value

theorem not_ofInt (value : Int) :
    ~~~BitVec.ofInt 64 value = BitVec.ofInt 64 (-value - 1) := by
  have negated := BitVec.neg_eq_not_add (BitVec.ofInt 64 value)
  rw [Int.sub_eq_add_neg, BitVec.ofInt_add, BitVec.ofInt_neg, negated, BitVec.add_assoc]
  exact (BitVec.add_zero _).symm

theorem ofInt_sub (left right : Int) :
    BitVec.ofInt 64 (left - right) = BitVec.ofInt 64 left - BitVec.ofInt 64 right := by
  rw [Int.sub_eq_add_neg, BitVec.ofInt_add, BitVec.ofInt_neg, BitVec.sub_eq_add_neg]

/-- A word extended to two words. -/
theorem toInt_extended (word : Word) :
    ((if word.msb then -1 else 0 : Word) ++ word).toInt = word.toInt := by
  have extended : word.signExtend 128 = (if word.msb then -1 else 0 : Word) ++ word := by
    rw [BitVec.signExtend_eq_append_of_le (by omega)]
    rfl
  rw [← extended, BitVec.toInt_signExtend_of_le (by omega)]

/-- The quotient of two words is a word, with one exception. -/
theorem tdiv_bounds {left right : Int} (low : -2 ^ 63 ≤ left) (high : left < 2 ^ 63)
    (nonzero : right ≠ 0) (inRange : ¬(left = -2 ^ 63 ∧ right = -1)) :
    -2 ^ 63 ≤ left.tdiv right ∧ left.tdiv right < 2 ^ 63 := by
  by_cases one : right = 1
  · rw [one, Int.tdiv_one]
    exact ⟨low, high⟩
  · by_cases minus : right = -1
    · rw [minus, Int.tdiv_neg, Int.tdiv_one]
      omega
    · have size : (left.tdiv right).natAbs ≤ left.natAbs / 2 := by
        rw [Int.natAbs_tdiv]
        exact Nat.div_le_div_left (by omega) (by omega)
      omega

/-! ## Lists of instructions -/

/-- Machines with the same stack and memory. -/
structure SameStack (before after : Machine) : Prop where
  rsp : after.regs .rsp = before.regs .rsp
  rbp : after.regs .rbp = before.regs .rbp
  memory : after.memory = before.memory

/-- Instructions that leave a number in `rax` and touch neither the stack nor memory. -/
def Computes (names : Names) (list : List Instr) (machine : Machine) (value : Int) :
    Prop :=
  ∃ next, Instr.runAll names machine list = some next ∧
    next.regs .rax = .ofInt 64 value ∧ SameStack machine next

section Computes

variable {names : Names} {machine : Machine} {left right value : Int}

theorem runAll_append (first second : List Instr) :
    Instr.runAll names machine (first ++ second) =
      (Instr.runAll names machine first).bind fun next =>
        Instr.runAll names next second := by
  induction first generalizing machine with
  | nil => rfl
  | cons instr first hypothesis =>
      rw [List.cons_append, Instr.runAll, Instr.runAll, Option.bind_assoc]
      congr 1
      funext next
      exact hypothesis

/-- One instruction, and then others. -/
theorem Computes.cons
    {instr : Instr}
    {list : List Instr}
    {next : Machine}
    (run : instr.run names machine = some next)
    (quiet : SameStack machine next)
    (rest : Computes names list next value) :
    Computes names (instr :: list) machine value := by
  obtain ⟨last, ran, result, kept⟩ := rest
  refine ⟨last, ?_, result, ?_⟩
  · rw [Instr.runAll, run, Option.bind_some, ran]
  · exact ⟨kept.rsp.trans quiet.rsp, kept.rbp.trans quiet.rbp,
      kept.memory.trans quiet.memory⟩

theorem Computes.nil (holds : machine.regs .rax = .ofInt 64 value) :
    Computes names [] machine value :=
  ⟨machine, rfl, holds, rfl, rfl, rfl⟩

/-- Sign extension of the low part of `rax` brings a number to the width of a type. -/
theorem computes_extend (ty : IntTy) (holds : machine.regs .rax = .ofInt 64 value) :
    Computes names (extend ty.width) machine (ty.wrap value) := by
  unfold extend
  split
  · rename_i full
    apply Computes.nil
    rw [holds, IntTy.wrap, full]
    exact (ofInt_bmod value).symm
  · refine .cons rfl ⟨rfl, rfl, rfl⟩ (.nil ?_)
    rw [Machine.set_regs, if_pos rfl, holds,
      signExtend_ofInt (by cases ty <;> decide), IntTy.wrap]

/-- A constant. -/
theorem computes_set (value : Int) : Computes names [.set .rax value] machine value := by
  refine .cons rfl ⟨rfl, rfl, rfl⟩ (.nil ?_)
  rw [Machine.set_regs, if_pos rfl]

/-- The signed number at the address in `rax`. -/
theorem computes_load {width : Width}
    (holds : machine.memory.signed (machine.regs .rax) width.bytes = value) :
    Computes names [.load width] machine value := by
  refine .cons rfl ⟨rfl, rfl, rfl⟩ (.nil ?_)
  rw [Machine.set_regs, if_pos rfl, holds]

/-- The result of arithmetic is brought to the width of its type. -/
theorem computes_narrow (ty : IntTy) (numeric : ty ≠ .bool)
    (holds : machine.regs .rax = .ofInt 64 value) :
    Computes names (narrow ty.entry) machine (ty.wrap value) := by
  have lines : narrow ty.entry = extend ty.width := by
    cases ty with
    | bool => exact absurd rfl numeric
    | _ => rfl
  rw [lines]
  exact computes_extend ty holds

/-- The truth of a condition after a comparison. -/
theorem computes_truth (cond : Cond)
    {first second : Word} (flags : machine.flags = some (.compare first second)) :
    Computes names (Emit.truth cond) machine
      (truth (cond.test first.toInt second.toInt)) := by
  have run : (Instr.setCond cond).run names machine = some
      (machine.setLow (if cond.test first.toInt second.toInt then 1 else 0)) := by
    rw [Instr.run, flags, Option.map_some, Cond.holds_compare]
  refine .cons run ⟨rfl, rfl, rfl⟩ (.cons rfl ⟨rfl, rfl, rfl⟩ (.nil ?_))
  rw [Machine.set_regs, if_pos rfl, Machine.setLow, Machine.set_regs, if_pos rfl,
    BitVec.setWidth_append, dif_pos (Nat.le_refl 8)]
  cases cond.test first.toInt second.toInt <;> rfl

/-- The comparison of two numbers. -/
theorem computes_comparison
    {leftTy rightTy : IntTy}
    (cond : Cond)
    (leftHolds : machine.regs .rax = .ofInt 64 left)
    (rightHolds : machine.regs .rdi = .ofInt 64 right)
    (leftFits : leftTy.Fits left)
    (rightFits : rightTy.Fits right) :
    Computes names (.compare :: Emit.truth cond) machine
      (truth (cond.test left right)) := by
  refine .cons rfl ⟨rfl, rfl, rfl⟩ ?_
  have flags : (machine.compare (machine.regs .rdi)).flags =
      some (.compare (.ofInt 64 left) (.ofInt 64 right)) := by
    rw [Machine.compare_flags, leftHolds, rightHolds]
  rw [← leftFits.toInt_ofInt, ← rightFits.toInt_ofInt]
  exact computes_truth cond flags

/-- The comparison of a number with zero. -/
theorem computes_zeroTest
    {ty : IntTy}
    (cond : Cond)
    (holds : machine.regs .rax = .ofInt 64 value)
    (fits : ty.Fits value) :
    Computes names (.compareZero :: Emit.truth cond) machine
      (truth (cond.test value 0)) := by
  refine .cons rfl ⟨rfl, rfl, rfl⟩ ?_
  have flags : (machine.compare 0).flags = some (.compare (.ofInt 64 value) 0) := by
    rw [Machine.compare_flags, holds]
  have zero : (0 : Word).toInt = 0 := by decide
  have computed : Computes names (Emit.truth cond) (machine.compare 0) _ :=
    computes_truth cond flags
  rw [fits.toInt_ofInt, zero] at computed
  exact computed

/-- The operators on one operand. -/
theorem computes_unaryOperation
    {operandTy ty : IntTy}
    (op : UnaryOp)
    (numeric : op ≠ .not -> ty ≠ .bool)
    (holds : machine.regs .rax = .ofInt 64 value)
    (fits : operandTy.Fits value) :
    Computes names (unaryOperation op ty.entry) machine (unaryValue ty value op) := by
  cases op with
  | neg =>
      refine .cons rfl ⟨rfl, rfl, rfl⟩ (computes_narrow ty (numeric (by decide)) ?_)
      rw [Machine.setResult_regs, if_pos rfl, holds, BitVec.ofInt_neg]
  | bitNot =>
      refine .cons rfl ⟨rfl, rfl, rfl⟩ (computes_narrow ty (numeric (by decide)) ?_)
      rw [Machine.set_regs, if_pos rfl, holds, not_ofInt]
  | not => exact computes_zeroTest .eq holds fits

/-- The machine divides two words by one if the quotient is a word. -/
theorem divide_eq_some
    (dividend : (machine.regs .rdx ++ machine.regs .rax).toInt = left)
    (divisor : (machine.regs .rdi).toInt = right)
    (nonzero : right ≠ 0)
    (bounds : -2 ^ 63 ≤ left.tdiv right ∧ left.tdiv right < 2 ^ 63) :
    machine.divide = some ((machine.setResult .rax (.ofInt 64 (left.tdiv right))).set .rdx
      (.ofInt 64 (left.tmod right))) := by
  unfold Machine.divide
  rw [dividend, divisor]
  exact if_neg (by omega)

/-- The machine divides numbers as long as there is a quotient. -/
theorem divide_run
    {leftTy rightTy : IntTy}
    {result : Int × Int}
    (leftHolds : machine.regs .rax = .ofInt 64 left)
    (rightHolds : machine.regs .rdi = .ofInt 64 right)
    (leftFits : leftTy.Fits left)
    (rightFits : rightTy.Fits right)
    (divided : divide left right = .ok result) :
    ∃ middle next, Instr.extendDividend.run names machine = some middle ∧
      Instr.divide.run names middle = some next ∧ SameStack machine middle ∧
      SameStack middle next ∧
      next.regs .rax = .ofInt 64 result.1 ∧ next.regs .rdx = .ofInt 64 result.2 := by
  unfold Semantics.divide at divided
  split at divided
  · cases divided
  · rename_i nonzero
    split at divided
    · cases divided
    · rename_i inRange
      cases divided
      have bounds := leftFits.bounds
      have quotient := tdiv_bounds bounds.1 bounds.2 nonzero inRange
      have dividend := toInt_extended (machine.regs .rax)
      have whole :
          (machine.regs .rax).toInt = left := by rw [leftHolds, leftFits.toInt_ofInt]
      have divisor : (machine.regs .rdi).toInt = right := by
        rw [rightHolds, rightFits.toInt_ofInt]
      exact ⟨_, _, rfl, divide_eq_some (dividend.trans whole) divisor nonzero quotient,
        ⟨rfl, rfl, rfl⟩, ⟨rfl, rfl, rfl⟩, rfl, rfl⟩

/-- The operators on two operands, but for those that may leave out the second. -/
theorem computes_operation
    {leftTy rightTy ty : IntTy}
    {op : BinaryOp}
    (notAnd : op ≠ .logAnd)
    (notOr : op ≠ .logOr)
    (numeric : op.isTruth = false -> ty ≠ .bool)
    (leftHolds : machine.regs .rax = .ofInt 64 left)
    (rightHolds : machine.regs .rdi = .ofInt 64 right)
    (leftFits : leftTy.Fits left)
    (rightFits : rightTy.Fits right)
    (result : binaryValue ty left right op = .ok value) :
    Computes names (operation op ty.entry) machine value := by
  cases op with
  | add | sub | mul =>
      cases result
      refine .cons rfl ⟨rfl, rfl, rfl⟩ (computes_narrow ty (numeric rfl) ?_)
      simp only [Machine.setResult_regs, if_true, leftHolds, rightHolds, Alu.apply,
        BitVec.ofInt_add, BitVec.ofInt_mul, ofInt_sub]
  | div =>
      unfold binaryValue at result
      cases divided : divide left right with
      | error trap => simp [divided, Except.map] at result
      | ok pair =>
          simp only [divided, Except.map, Except.ok.injEq] at result
          rw [← result]
          obtain ⟨middle, next, extended, ran, first, second, quotient, _⟩ :=
            divide_run leftHolds rightHolds leftFits rightFits divided
          exact .cons extended first
            (.cons ran second (computes_narrow ty (numeric rfl) quotient))
  | mod =>
      unfold binaryValue at result
      cases divided : divide left right with
      | error trap => simp [divided, Except.map] at result
      | ok pair =>
          simp only [divided, Except.map, Except.ok.injEq] at result
          rw [← result]
          obtain ⟨middle, next, extended, ran, first, second, _, remainder⟩ :=
            divide_run leftHolds rightHolds leftFits rightFits divided
          refine .cons extended first (.cons ran second (.cons rfl ⟨rfl, rfl, rfl⟩ ?_))
          apply computes_narrow ty (numeric rfl)
          rw [Machine.set_regs, if_pos rfl, remainder]
  | eq | ne | lt | le | gt | ge =>
      cases result
      exact computes_comparison _ leftHolds rightHolds leftFits rightFits
  | logAnd => exact absurd rfl notAnd
  | logOr => exact absurd rfl notOr

end Computes

/-! ## Operators neither jump nor call -/

theorem straight_narrow (ty : Ty) : ∀ instr ∈ narrow ty, instr.isStraight = true := by
  unfold narrow extend
  split
  · split <;> simp [Instr.isStraight]
  · simp

theorem straight_operation (op : BinaryOp) (ty : Ty) :
    ∀ instr ∈ operation op ty, instr.isStraight = true := by
  have narrowed := straight_narrow ty
  cases op <;> simp_all [operation, Emit.truth, Instr.isStraight]

theorem straight_unaryOperation (op : UnaryOp) (ty : Ty) :
    ∀ instr ∈ unaryOperation op ty, instr.isStraight = true := by
  have narrowed := straight_narrow ty
  cases op <;> simp_all [unaryOperation, Emit.truth, Instr.isStraight]

end Semantics
end MiniC
