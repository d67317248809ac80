import MiniC.Proofs.Compile
import MiniC.Proofs.Simulation.Code
import MiniC.Proofs.Simulation.Operation

/-!
# The code of pointer arithmetic

A pointer is moved by a product of its own: the number of elements times the size of an
element.  The product is an ordinary node, so it has the type of arithmetic on the number
and an `int`, and it is brought to the width of that type before it is added to the
pointer.  For a number that is no `long` the width is four bytes.
-/

namespace MiniC

namespace Asm

/-! ## Words on the stack -/

namespace Machine

/-- The word on the stack below as many others. -/
def word (machine : Machine) (index : Nat) : Word :=
  BitVec.ofNat 64 (machine.memory.read
    (machine.regs .rsp + BitVec.ofNat 64 (8 * index)) 8)

variable (machine : Machine)

theorem word_zero : machine.word 0 = machine.top := by
  rw [word, top, Nat.mul_zero, BitVec.add_zero]

/-- Pushing puts all words one place deeper. -/
theorem push_word (value : Word) {index : Nat} (small : index < 2 ^ 32) :
    (machine.push value).word (index + 1) = machine.word index := by
  have place : machine.regs .rsp - 8 + BitVec.ofNat 64 (8 * (index + 1)) =
      machine.regs .rsp + BitVec.ofNat 64 (8 * index) := by
    rw [Nat.mul_succ, BitVec.ofNat_add, BitVec.sub_eq_add_neg, BitVec.add_assoc]
    congr 1
    rw [BitVec.add_comm, BitVec.add_assoc]
    exact BitVec.add_zero _
  have apart : Apart (machine.regs .rsp + BitVec.ofNat 64 (8 * index)) 8
      (machine.regs .rsp - 8) 8 := by
    intro place above below
    unfold Covers at above below
    rw [BitVec.toNat_sub, BitVec.toNat_add, BitVec.toNat_ofNat] at above
    rw [BitVec.toNat_sub, BitVec.toNat_sub] at below
    have bound := place.isLt
    have pointerBound := (machine.regs .rsp).isLt
    change (2 ^ 64 - (2 ^ 64 - 8 + (machine.regs .rsp).toNat) % 2 ^ 64 + place.toNat) %
      2 ^ 64 < 8 at below
    omega
  unfold word
  rw [push_memory, push_regs, if_pos rfl, place,
    Memory.read_write_of_apart (by decide) apart]

/-- Popping brings all words one place up. -/
theorem pop_word {reg : Reg} (other : reg ≠ .rsp) (index : Nat) :
    (machine.pop reg).word index = machine.word (index + 1) := by
  unfold word
  rw [pop_memory, pop_regs, if_neg (Ne.symm other), if_pos rfl,
    BitVec.add_assoc, Nat.mul_succ, Nat.add_comm, BitVec.ofNat_add]
  rfl

end Machine

end Asm

namespace Semantics

open Asm Emit

/-- Words on the stack do not depend on other registers. -/
theorem SameStack.word_eq {before after : Machine} (same : SameStack before after)
    (index : Nat) : after.word index = before.word index := by
  unfold Machine.word
  rw [same.rsp, same.memory]

/-! ## An operator on the two upper words -/

/-- Instructions that leave a word in `rax`, given the words in `rax` and `rdi`. -/
def Applies (names : Names) (list : List Instr) (left right result : Word) : Prop :=
  ∀ machine : Machine, machine.regs .rax = left -> machine.regs .rdi = right ->
    ∃ next, Instr.runAll names machine list = some next ∧ next.regs .rax = result ∧
      SameStack machine next

/-- The lines of an operator replace the two upper words of the stack by the result. -/
theorem reaches_operation
    {names : Names}
    {list : List Instr}
    {machine : Machine}
    {result : Word}
    (applies : Applies names list (machine.word 1) (machine.word 0) result)
    (text rest : Code) :
    ∃ last, Reaches names text ⟨instrs [.pop .rdi] ++ topLines list ++ rest, machine⟩
        ⟨rest, last⟩ ∧
      last.regs .rsp = machine.regs .rsp + 8 ∧ last.word 0 = result ∧
      last.word 1 = machine.word 2 := by
  have right : ((machine.pop .rdi).pop .rax).regs .rdi = machine.word 0 := by
    rw [Machine.word_zero]
    simp
  have left : ((machine.pop .rdi).pop .rax).regs .rax = machine.word 1 := by
    rw [Machine.pop_regs, if_pos rfl, ← Machine.word_zero, Machine.pop_word _ (by decide)]
  obtain ⟨next, ran, result_eq, same⟩ := applies _ left right
  have whole : Instr.runAll names machine
      (.pop .rdi :: .pop .rax :: list ++ [.push .rax]) =
      some (next.push (next.regs .rax)) := by
    rw [List.cons_append, List.cons_append, Instr.runAll, Instr.run, Option.bind_some,
      Instr.runAll, Instr.run, Option.bind_some, runAll_append, ran, Option.bind_some]
    rfl
  refine ⟨next.push (next.regs .rax), ?_, ?_, ?_, ?_⟩
  · have lines : instrs [.pop .rdi] ++ topLines list ++ rest =
        instrs (.pop .rdi :: .pop .rax :: list ++ [.push .rax]) ++ rest := by
      simp [topLines, instrs]
    rw [lines]
    exact .instrs whole
  · rw [Machine.push_regs, if_pos rfl, same.rsp, Machine.pop_regs, if_neg (by decide),
      if_pos rfl, Machine.pop_regs, if_neg (by decide), if_pos rfl, BitVec.add_sub_cancel]
  · rw [Machine.word_zero, Machine.push_top, result_eq]
  · rw [Machine.push_word _ _ (by decide), same.word_eq, Machine.pop_word _ (by decide),
      Machine.pop_word _ (by decide)]

/-- A word brought to the width of arithmetic on a type. -/
def narrowWord (ty : Ty) (word : Word) : Word :=
  if ty.size = 8 then word else (word.setWidth 32).signExtend 64

/-- The product of two words is brought to the width of arithmetic on the type of the
first and `int`. -/
theorem applies_product
    {program : Program}
    {tokens : TokenStream}
    (sound : program.Sound tokens)
    {own : TyId}
    {entry joined : Ty}
    (found : program.types.get? own = some entry)
    (integer : entry.isInteger = true)
    (joinedFound : program.types.get?
      (Program.joinTy own entry ⟨.int, 4, 4, none⟩) = some joined)
    (names : Names)
    (left right : Word) :
    Applies names (operation .mul joined) left right
      (narrowWord entry (left * right)) := by
  have width := sound.types.widths own entry found integer
  -- The product is a `long` if the number is one, and an `int` otherwise.
  have lines : narrow joined = if entry.size = 8 then [] else [.signExtend .dword] := by
    unfold Program.joinTy at joinedFound
    rw [if_neg (by simp [integer])] at joinedFound
    by_cases wide : entry.size = 8
    · rw [if_pos (.inl wide),
        sound.types.primitives .long ⟨.long, 8, 8, none⟩ rfl] at joinedFound
      cases joinedFound
      rw [if_pos wide]
      rfl
    · rw [if_neg (by simp [wide])] at joinedFound
      rw [if_neg wide]
      split at joinedFound
      · rw [sound.types.primitives .int ⟨.int, 4, 4, none⟩ rfl] at joinedFound
        cases joinedFound
        rfl
      · rename_i big
        cases found.symm.trans joinedFound
        obtain ⟨kind, size, align, token⟩ := entry
        cases kind <;> simp_all [Ty.isInteger, Ty.isEnum, Ty.width, Width.bytes]
        rfl
  intro machine leftHolds rightHolds
  simp only [operation, lines, narrowWord]
  split
  · refine ⟨_, rfl, ?_, rfl, rfl, rfl⟩
    rw [Machine.setResult_regs, if_pos rfl, leftHolds, rightHolds]
    rfl
  · refine ⟨_, rfl, ?_, rfl, rfl, rfl⟩
    rw [Machine.set_regs, if_pos rfl, Machine.setResult_regs, if_pos rfl,
      leftHolds, rightHolds]
    rfl

/-- A pointer moved by a number of bytes. -/
def movedBy (op : BinaryOp) (pointer bytes : Word) : Word :=
  if op = .sub then pointer - bytes else pointer + bytes

/-- Pointers move over the whole range of addresses. -/
theorem applies_move
    {op : BinaryOp}
    (direction : op = .add ∨ op = .sub)
    {pointer : Ty}
    {element : TyId}
    (kind : pointer.kind = .ptr element)
    (names : Names)
    (left right : Word) :
    Applies names (operation op pointer) left right (movedBy op left right) := by
  have lines : narrow pointer = [] := by simp [narrow, Ty.isInteger, kind]
  intro machine leftHolds rightHolds
  rcases direction with rfl | rfl
  · refine ⟨machine.setResult .rax (left + right), ?_, rfl, rfl, rfl, rfl⟩
    simp [operation, lines, Instr.runAll, Instr.run, Alu.apply, leftHolds, rightHolds]
  · refine ⟨machine.setResult .rax (left - right), ?_, rfl, rfl, rfl, rfl⟩
    simp [operation, lines, Instr.runAll, Instr.run, Alu.apply, leftHolds, rightHolds]

theorem movedBy_inj {op : BinaryOp} {pointer first second : Word} :
    movedBy op pointer first = movedBy op pointer second ↔ first = second := by
  unfold movedBy
  split
  · constructor
    · intro equal
      have negated : -first = -second := by
        rw [BitVec.sub_eq_add_neg, BitVec.sub_eq_add_neg] at equal
        exact (BitVec.add_right_inj pointer).mp equal
      exact BitVec.neg_inj.mp negated
    · rintro rfl
      rfl
  · exact BitVec.add_right_inj pointer

/-! ## The lines of a step -/

/-- The lines that move the pointer below a number of elements by that number, given the
size of an element and the types of the product and of the pointer. -/
def stepLines (op : BinaryOp) (size : Int) (product pointer : Ty) : Code :=
  instrs [.set .rax size] ++ instrs [.push .rax]
    ++ (instrs [.pop .rdi] ++ topLines (operation .mul product))
    ++ (instrs [.pop .rdi] ++ topLines (operation op pointer))

/-- What the lines of a step compute is known once the lines of its two operators are. -/
theorem reaches_stepLines
    {names : Names}
    {op : BinaryOp}
    {size : Int}
    {product pointer : Ty}
    {machine : Machine}
    {bytes result : Word}
    (scaled : Applies names (operation .mul product) (machine.word 0)
      (.ofInt 64 size) bytes)
    (moved : Applies names (operation op pointer) (machine.word 1) bytes result)
    (text rest : Code) :
    ∃ last, Reaches names text ⟨stepLines op size product pointer ++ rest, machine⟩
        ⟨rest, last⟩ ∧
      last.regs .rsp = machine.regs .rsp + 8 ∧ last.top = result := by
  have pushed : Instr.runAll names machine [.set .rax size, .push .rax] =
      some ((machine.set .rax (.ofInt 64 size)).push (.ofInt 64 size)) := rfl
  have size_top : ((machine.set .rax (.ofInt 64 size)).push (.ofInt 64 size)).word 0 =
      .ofInt 64 size := by
    rw [Machine.word_zero, Machine.push_top]
  have under (index : Nat) (small : index < 2 ^ 32) :
      ((machine.set .rax (.ofInt 64 size)).push (.ofInt 64 size)).word (index + 1) =
        machine.word index :=
    Machine.push_word _ _ small
  rw [← size_top, ← under 0 (by decide)] at scaled
  obtain ⟨middle, toMiddle, middlePointer, middleTop, middleNext⟩ :=
    reaches_operation scaled text
      (instrs [.pop .rdi] ++ topLines (operation op pointer) ++ rest)
  rw [under 1 (by decide)] at middleNext
  rw [← middleTop, ← middleNext] at moved
  obtain ⟨last, toLast, lastPointer, lastTop, _⟩ :=
    reaches_operation moved text rest
  refine ⟨last, ?_, ?_, ?_⟩
  · have lines : stepLines op size product pointer ++ rest =
        instrs [.set .rax size, .push .rax] ++
          (instrs [.pop .rdi] ++ topLines (operation .mul product)
            ++ (instrs [.pop .rdi] ++ topLines (operation op pointer) ++ rest)) := by
      simp [stepLines, instrs]
    rw [lines]
    exact (Reaches.instrs pushed).trans (toMiddle.trans toLast)
  · rw [lastPointer, middlePointer, Machine.push_regs, if_pos rfl, Machine.set_regs,
      if_neg (by decide), BitVec.sub_add_cancel]
  · rw [← Machine.word_zero, lastTop]

/-! ## What is emitted -/

section Emitted

variable {context : Context} {tokens : TokenStream}

/-- The lines emitted for an operator that always evaluates both operands. -/
theorem binary_of_emits
    {id : NodeId}
    {node : Node}
    {op : BinaryOp}
    {lhs rhs : NodeId}
    {state after : State}
    {code : Code}
    (found : context.program.node? id = some node)
    (kind : node.kind = .binary op lhs rhs)
    (arithmetic : op.isTruth = false)
    (emits : Emits context (.value id) state code after) :
    ∃ ty left middle right last, context.program.nodeTy id = .ok ty ∧
      Emits context (.value lhs) state left middle ∧
      Emits context (.value rhs) middle right last ∧
      code = left ++ right ++ instrs [.pop .rdi] ++ topLines (operation op ty) := by
  obtain ⟨ty, typed, rule⟩ := valueRule_of_emits found emits
  rw [kind] at rule
  cases op with
  | add | sub | mul | div | mod =>
      obtain ⟨left, middle, right, last, leftEmits, rightEmits, equal⟩ := rule
      exact ⟨ty, left, middle, right, last, typed, leftEmits, rightEmits, equal⟩
  | _ => cases arithmetic

/-- The lines emitted for a number of elements in bytes: those of the number, a constant
and a product. -/
theorem scales_of_emits
    (sound : context.program.Sound tokens)
    {id count : NodeId}
    {element : TyId}
    (scales : context.program.Scales id count element)
    {state after : State}
    {code : Code}
    (emits : Emits context (.value id) state code after) :
    ∃ own entry target joined inner middle,
      context.program.HasTy count own entry ∧ entry.isInteger = true ∧
      context.program.types.get? element = some target ∧ 0 ≤ target.size ∧
      context.program.types.get? (Program.joinTy own entry ⟨.int, 4, 4, none⟩) =
        some joined ∧
      Emits context (.value count) state inner middle ∧
      code = inner ++ (instrs [.set .rax target.size] ++ instrs [.push .rax])
        ++ instrs [.pop .rdi] ++ topLines (operation .mul joined) := by
  obtain ⟨node, factor, number, target, found, kind, numberFound, numberKind, numberTyped,
    targetFound, sized⟩ := scales
  obtain ⟨ty, left, middle, right, last, typed, leftEmits, rightEmits, rfl⟩ :=
    binary_of_emits found kind rfl emits
  obtain ⟨_, _, rightRule⟩ := valueRule_of_emits numberFound rightEmits
  rw [numberKind] at rightRule
  subst rightRule
  have int := sound.types.primitives .int ⟨.int, 4, 4, none⟩ rfl
  have factorTyped : context.program.HasTy factor .int ⟨.int, 4, 4, none⟩ :=
    ⟨number, numberFound, numberTyped, int⟩
  -- The product is typed as arithmetic on the number and the constant.
  obtain ⟨own, ownTyped, has, rule⟩ := (sound.nodes id node found).typed
  rw [kind] at rule
  have operation : context.program.OperationRule own .mul count factor := rule
  obtain ⟨⟨countTy, entry, countTyped, integer⟩, _⟩ := operation.isInteger (.inl rfl)
  have joins := operation.eq_joinTy rfl countTyped factorTyped integer rfl
  obtain ⟨joined, joinedFound⟩ := TypeTable.has_iff.mp has
  have same : ty = joined := by
    rw [Grammar.nodeTy_eq_ok ⟨node, found, ownTyped, joinedFound⟩] at typed
    exact (Except.ok.inj typed).symm
  rw [joins] at joinedFound
  exact ⟨countTy, entry, target, joined, left, middle, countTyped, integer,
    targetFound, sized, joinedFound, leftEmits, by rw [same]⟩

end Emitted

/-- Pointer arithmetic moves by whole elements as long as the product is not cut.  The
code of a pointer or array plus or minus an integer is that of the pointer, that of the
number and some lines more.  From every machine these lines replace the two upper words of
the stack, the number and the pointer below it, by the pointer moved by the product of the
number and the size of an element.  The product is a full word for a `long` number, and is
cut to four bytes for any other: the address is right just if that does not change it. -/
theorem pointer_step_moves_by_narrowed_product
    {file : SourceFile}
    {program : Program}
    (accepted : parseFile file = .ok program)
    {id lhs rhs : NodeId}
    {node : Node}
    {op : BinaryOp}
    (found : program.node? id = some node)
    (kind : node.kind = .binary op lhs rhs)
    (direction : op = .add ∨ op = .sub)
    {element : TyId}
    (pointer : program.RefersTo lhs element)
    (integer : program.IsInteger rhs)
    {function : String}
    {depth : Nat}
    {state after : State}
    {code : Code}
    (generated : (routines ⟨program, function⟩ depth).value id state =
      .ok (code, after)) :
    ∃ count own entry target pointerCode middle countCode last tail,
      program.Scales rhs count element ∧ program.HasTy count own entry ∧
      entry.isInteger = true ∧ program.types.get? element = some target ∧
      0 ≤ target.size ∧ Emits ⟨program, function⟩ (.value lhs) state pointerCode middle ∧
      Emits ⟨program, function⟩ (.value count) middle countCode last ∧
      code = pointerCode ++ countCode ++ tail ∧
      ∀ names text rest (machine : Machine), ∃ final,
        Reaches names text ⟨tail ++ rest, machine⟩ ⟨rest, final⟩ ∧
        final.regs .rsp = machine.regs .rsp + 8 ∧
        final.top = movedBy op (machine.word 1)
          (narrowWord entry (machine.word 0 * .ofInt 64 target.size)) ∧
        (final.top = movedBy op (machine.word 1)
          (machine.word 0 * .ofInt 64 target.size) ↔
          entry.size = 8 ∨ (((machine.word 0 * .ofInt 64 target.size : Word).setWidth
            32).signExtend 64 = machine.word 0 * .ofInt 64 target.size)) := by
  obtain ⟨tokens, sound⟩ := sound_of_parseFile accepted
  have emits := (Emits.of_routines ⟨program, function⟩ depth).value generated
  obtain ⟨ty, typed, has, rule⟩ := (sound.nodes id node found).typed
  rw [kind] at rule
  have operationRule : program.OperationRule ty op lhs rhs := rule
  obtain ⟨count, scales, points, pointsFound, pointsKind⟩ :=
    operationRule.scales direction pointer integer
  have arithmetic : op.isTruth = false := by rcases direction with rfl | rfl <;> rfl
  obtain ⟨nodeTy, pointerCode, middle, right, last, nodeTyped, pointerEmits,
    rightEmits, rfl⟩ :=
    binary_of_emits found kind arithmetic emits
  obtain ⟨own, entry, target, joined, countCode, countAfter, countTyped, countInteger,
    targetFound, sized, joinedFound, countEmits, rfl⟩ :=
      scales_of_emits sound scales rightEmits
  have typedCount := countTyped
  obtain ⟨_, _, _, ownFound⟩ := typedCount
  have same : nodeTy = points := by
    rw [Grammar.nodeTy_eq_ok ⟨node, found, typed, pointsFound⟩] at nodeTyped
    exact (Except.ok.inj nodeTyped).symm
  refine ⟨count, own, entry, target, pointerCode, middle, countCode, countAfter,
    stepLines op target.size joined points, scales, countTyped, countInteger,
      targetFound, sized,
    pointerEmits, countEmits, ?_, ?_⟩
  · rw [same]
    simp [stepLines]
  · intro names text rest machine
    obtain ⟨final, reached, popped, result⟩ := reaches_stepLines
      (applies_product sound ownFound countInteger joinedFound names (machine.word 0)
        (.ofInt 64 target.size))
      (applies_move direction pointsKind names (machine.word 1) _) text rest
    refine ⟨final, reached, popped, result, ?_⟩
    rw [result, movedBy_inj]
    unfold narrowWord
    split
    · rename_i wide
      exact ⟨fun _ => .inl wide, fun _ => rfl⟩
    · rename_i narrow
      exact ⟨.inr, fun either => either.resolve_left narrow⟩

/-- A file that moves a pointer by a constant. -/
def strideFile : SourceFile :=
  ⟨"stride.c", "long *f(long *p) { return p + 536870912; }"⟩

/-- The program in that file. -/
def strideProgram : Program := (parseFile strideFile).toOption.getD .empty

/-- The nodes of that program and their types. -/
def strideNodes : List (NodeKind × Option TyId) :=
  [(.var ⟨1⟩, some ⟨7⟩), (.num 536870912, some .int), (.num 8, some .int),
    (.binary .mul ⟨1⟩ ⟨2⟩, some .int), (.binary .add ⟨0⟩ ⟨3⟩, some ⟨7⟩),
    (.cast ⟨4⟩, some ⟨6⟩), (.ret (some ⟨5⟩), some .void), (.block [⟨6⟩], some .void)]

theorem strideProgram_tables :
    (parseFile strideFile).isOk = true ∧
      strideProgram.nodes.toList.map (fun node => (node.kind, node.ty)) = strideNodes ∧
      strideProgram.types.get? ⟨7⟩ = some ⟨.ptr .long, 8, 8, none⟩ ∧
      strideProgram.types.get? .int = some ⟨.int, 4, 4, none⟩ ∧
      strideProgram.types.get? .long = some ⟨.long, 8, 8, none⟩ := by
  decide +kernel

theorem parseFile_strideFile : parseFile strideFile = .ok strideProgram :=
  eq_ok_of_isOk strideProgram_tables.1

/-- In that file the right operand of the sum is the product of the constant and eight. -/
theorem stride_nodes :
    ∃ sum, strideProgram.node? ⟨4⟩ = some sum ∧ sum.kind = .binary .add ⟨0⟩ ⟨3⟩ ∧
      strideProgram.RefersTo ⟨0⟩ .long ∧ strideProgram.IsInteger ⟨3⟩ := by
  obtain ⟨_, nodes, pointerTy, int, _⟩ := strideProgram_tables
  obtain ⟨sum, found, kind, _⟩ :=
    exists_node_of_listed nodes 4 (.binary .add ⟨0⟩ ⟨3⟩) ⟨7⟩ rfl
  obtain ⟨pointer, pointerFound, _, pointerTyped⟩ :=
    exists_node_of_listed nodes 0 (.var ⟨1⟩) ⟨7⟩ rfl
  obtain ⟨product, productFound, _, productTyped⟩ :=
    exists_node_of_listed nodes 3 (.binary .mul ⟨1⟩ ⟨2⟩) .int rfl
  exact ⟨sum, found, kind, ⟨_, _, ⟨pointer, pointerFound, pointerTyped, pointerTy⟩, rfl⟩,
    ⟨_, _, ⟨product, productFound, productTyped, int⟩, rfl⟩⟩

/-- The instructions for the sum in that file. -/
def strideInstrs : List Instr :=
  [.frameAddress 8, .push .rax, .pop .rax, .load .qword, .push .rax,
    .set .rax 536870912, .push .rax, .set .rax 8, .push .rax,
    .pop .rdi, .pop .rax, .alu .mul, .signExtend .dword, .push .rax,
    .pop .rdi, .pop .rax, .alu .add, .push .rax]

theorem stride_generated :
    ∃ after, (routines ⟨strideProgram, "f"⟩ 8).value ⟨4⟩ ⟨0, 0⟩ =
      .ok (instrs strideInstrs, after) := by
  have known : ((routines ⟨strideProgram, "f"⟩ 8).value ⟨4⟩ ⟨0, 0⟩).toOption.map
      Prod.fst = some (instrs strideInstrs) := by
    decide +kernel
  cases generated : (routines ⟨strideProgram, "f"⟩ 8).value ⟨4⟩ ⟨0, 0⟩ with
  | error error => simp [generated, Except.toOption] at known
  | ok pair =>
      obtain ⟨code, after⟩ := pair
      obtain rfl : code = instrs strideInstrs := by
        simpa [generated, Except.toOption] using known
      exact ⟨after, rfl⟩

/-- A number of three moves the pointer in that file by twenty-four bytes. -/
theorem stride_moves_by_small_number :
    ∃ after before tail,
      (routines ⟨strideProgram, "f"⟩ 8).value ⟨4⟩ ⟨0, 0⟩ = .ok (before ++ tail, after) ∧
      ∀ names text rest (machine : Machine), machine.word 0 = 3 -> ∃ final,
        Reaches names text ⟨tail ++ rest, machine⟩ ⟨rest, final⟩ ∧
        final.top = machine.word 1 + 24 := by
  obtain ⟨sum, found, kind, pointer, integer⟩ := stride_nodes
  obtain ⟨after, generated⟩ := stride_generated
  obtain ⟨count, own, entry, target, pointerCode, middle, countCode, last, tail, _, _, _,
    targetFound, _, _, _, lines, runs⟩ := pointer_step_moves_by_narrowed_product
      parseFile_strideFile found kind (.inl rfl) pointer integer generated
  refine ⟨after, pointerCode ++ countCode, tail, ?_, ?_⟩
  · rw [← lines]
    exact generated
  · intro names text rest machine three
    obtain ⟨final, reached, _, _, right⟩ := runs names text rest machine
    obtain ⟨_, _, _, _, long⟩ := strideProgram_tables
    obtain rfl := Option.some.inj (targetFound.symm.trans long)
    rw [three] at right
    exact ⟨final, reached, right.mpr (.inr (by decide))⟩

/-- A machine with empty memory, in the middle of its stack. -/
def emptyMachine : Machine where
  regs
    | .rsp => 4096
    | .rbp => 8192
    | _ => 0
  memory _ := 0
  flags := none

/-- The constant in that file does not move the pointer at all: its product with the size
of an element is cut to zero. -/
theorem stride_stays_in_place :
    parseFile strideFile = .ok strideProgram ∧
      (∃ sum, strideProgram.node? ⟨4⟩ = some sum ∧ sum.kind = .binary .add ⟨0⟩ ⟨3⟩ ∧
        strideProgram.RefersTo ⟨0⟩ .long ∧ strideProgram.IsInteger ⟨3⟩) ∧
      ∃ code after last,
        (routines ⟨strideProgram, "f"⟩ 8).value ⟨4⟩ ⟨0, 0⟩ = .ok (code, after) ∧
        Reaches (fun _ => 0) code ⟨code, emptyMachine⟩ ⟨[], last⟩ ∧
        last.top = 0 ∧ last.top ≠ 0 + 536870912 * 8 := by
  obtain ⟨after, generated⟩ := stride_generated
  have top :
      (Instr.runAll (fun _ => 0) emptyMachine strideInstrs).map (·.top) = some 0 := by
    decide +kernel
  obtain ⟨last, ran, zero⟩ := Option.map_eq_some_iff.mp top
  refine ⟨parseFile_strideFile, stride_nodes, instrs strideInstrs, after, last,
    generated, ?_, zero, ?_⟩
  · have reached : Reaches (fun _ => 0) (instrs strideInstrs)
        ⟨instrs strideInstrs ++ [], emptyMachine⟩ ⟨[], last⟩ := .instrs ran
    rwa [List.append_nil] at reached
  · rw [zero]
    decide

end Semantics
end MiniC
