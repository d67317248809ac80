import Mathlib.Data.BitVec
import MiniC.Proofs.Emit.Labels
import MiniC.Proofs.Machine.Call
import MiniC.Proofs.Simulation.Generated

/-!
# Values on the stack are sign-extended

The generator leaves out conversions to wider types, because the word that the code of an
integer expression pushes is meant to be the sign extension of its low part.  The code of
most expressions brings the word to the width of the type itself: by a load, by a sign
extension, or because it is a truth value.  The others hand on the word of an operand.

Two kinds of expression do neither.  A constant is pushed as it is, whether it fits its
type or not, and the result of a call of a `_Bool` function is pushed as the callee left
it.

The main statement is about every run of the text of a file from the entry of one of its
functions, whatever the called functions do.
-/

namespace MiniC
namespace Semantics

open Asm Emit

/-! ## Sign-extended words -/

/-- A word that is the sign extension of its lowest bytes. -/
def SignExtended (bytes : Nat) (word : Word) : Prop :=
  (word.setWidth (8 * bytes)).signExtend 64 = word

instance (bytes : Nat) (word : Word) : Decidable (SignExtended bytes word) :=
  inferInstanceAs (Decidable (_ = _))

namespace SignExtended

/-- A word is sign-extended if its signed value is that of its lowest bytes. -/
theorem iff_bmod {bytes : Nat} (small : bytes ≤ 8) (word : Word) :
    SignExtended bytes word ↔ word.toInt.bmod (2 ^ (8 * bytes)) = word.toInt := by
  have extended := signExtend_ofInt small word.toInt
  rw [BitVec.ofInt_toInt] at extended
  have divides : 2 ^ (8 * bytes) ∣ 2 ^ 64 := Nat.pow_dvd_pow 2 (by omega)
  have within : (word.toInt.bmod (2 ^ (8 * bytes))).bmod (2 ^ 64) =
      word.toInt.bmod (2 ^ (8 * bytes)) := by
    have positive : 0 < 2 ^ (8 * bytes) := Nat.two_pow_pos _
    have least : 2 ^ (8 * bytes) ≤ 2 ^ 64 := Nat.pow_le_pow_right (by decide) (by omega)
    have low := Int.le_bmod (x := word.toInt) positive
    have high := Int.bmod_lt (x := word.toInt) positive
    apply Int.bmod_eq_of_le <;> omega
  unfold SignExtended
  rw [extended, ← BitVec.toInt_inj, BitVec.toInt_ofInt, within]

/-- Every word is the sign extension of all its bytes. -/
theorem full (word : Word) : SignExtended Width.qword.bytes word := by
  rw [iff_bmod (by decide)]
  exact BitVec.toInt_bmod_cancel word

/-- What is sign-extended from some bytes is sign-extended from more. -/
theorem mono {narrow wide : Width} (wider : narrow.rank ≤ wide.rank) {word : Word}
    (extended : SignExtended narrow.bytes word) : SignExtended wide.bytes word := by
  have small (width : Width) : width.bytes ≤ 8 := by cases width <;> decide
  rw [iff_bmod (small _), Int.bmod_def] at extended
  rw [iff_bmod (small _), Int.bmod_def]
  cases narrow <;> cases wide <;> simp only [Width.rank, Width.bytes] at * <;> omega

theorem signExtend (width : Width) (word : Word) :
    SignExtended width.bytes ((word.setWidth (8 * width.bytes)).signExtend 64) := by
  have small : width.bytes ≤ 8 := by cases width <;> decide
  have extended := signExtend_ofInt small word.toInt
  rw [BitVec.ofInt_toInt] at extended
  rw [extended]
  unfold SignExtended
  rw [signExtend_ofInt small, Int.bmod_bmod]

theorem ofInt_signed (width : Width) (memory : Memory) (start : Word) :
    SignExtended width.bytes (.ofInt 64 (memory.signed start width.bytes)) := by
  have small : width.bytes ≤ 8 := by cases width <;> decide
  unfold SignExtended Memory.signed
  rw [signExtend_ofInt small, Int.bmod_bmod]

theorem truth (width : Width) (holds : Bool) :
    SignExtended width.bytes (if holds then 1 else 0) := by
  cases width <;> cases holds <;> decide

theorem zero (width : Width) : SignExtended width.bytes (.ofInt 64 0) := truth width false

theorem one (width : Width) : SignExtended width.bytes (.ofInt 64 1) := truth width true

end SignExtended

/-! ## What instructions leave in `rax` -/

section Leaves

variable {names : Names} {before after : Machine} {list : List Instr}

/-- Instructions before a last one. -/
theorem runAll_concat {instr : Instr}
    (ran : Instr.runAll names before (list ++ [instr]) = some after) :
    ∃ middle, Instr.runAll names before list = some middle ∧
      instr.run names middle = some after := by
  rw [runAll_append] at ran
  obtain ⟨middle, first, last⟩ := Option.bind_eq_some_iff.mp ran
  obtain ⟨reached, run, same⟩ := Option.bind_eq_some_iff.mp last
  obtain rfl := Option.some.inj same
  exact ⟨middle, first, run⟩

/-- Arithmetic is brought to the width of its type. -/
theorem signExtended_narrow {ty : Ty} (integer : ty.isInteger = true)
    (notBool : ty.kind ≠ .bool)
    (ran : Instr.runAll names before (list ++ narrow ty) = some after) :
    SignExtended ty.width.bytes (after.regs .rax) := by
  have narrows : narrow ty = extend ty.width := by simp [narrow, integer, notBool]
  rw [narrows] at ran
  unfold extend at ran
  split at ran
  · rename_i full
    rw [full]
    exact .full _
  · obtain ⟨middle, _, run⟩ := runAll_concat ran
    obtain rfl := Option.some.inj run
    exact .signExtend _ _

/-- Truth values are brought to any width. -/
theorem signExtended_truth {cond : Cond} (width : Width)
    (ran : Instr.runAll names before (list ++ Emit.truth cond) = some after) :
    SignExtended width.bytes (after.regs .rax) := by
  have split : list ++ Emit.truth cond = list ++ [.setCond cond] ++ [.zeroExtend] := by
    simp [Emit.truth]
  rw [split] at ran
  obtain ⟨middle, first, extended⟩ := runAll_concat ran
  obtain ⟨start, _, set⟩ := runAll_concat first
  obtain ⟨flags, _, rfl⟩ := Option.map_eq_some_iff.mp set
  obtain rfl := Option.some.inj extended
  have bit : ((start.setLow (if cond.holds flags then 1 else 0)).regs .rax).setWidth 8 =
      if cond.holds flags then 1 else 0 := by
    change (((start.regs .rax).extractLsb' 8 56 ++ _) : BitVec 64).setWidth 8 = _
    rw [BitVec.setWidth_append_eq_right]
  rw [Machine.set_regs, if_pos rfl, bit]
  cases cond.holds flags with
  | true => exact .truth width true
  | false => exact .truth width false

theorem signExtended_load {width : Width}
    (ran : Instr.runAll names before (list ++ [.load width]) = some after) :
    SignExtended width.bytes (after.regs .rax) := by
  obtain ⟨middle, _, run⟩ := runAll_concat ran
  obtain rfl := Option.some.inj run
  exact .ofInt_signed _ _ _

end Leaves

section Visits

variable {names : Names} {callees : Callees} {text above rest : Code} {last : Machine}
  {list : List Instr}

/-- The word on top of the stack behind a push is what the instructions before it have
left in `rax`. -/
theorem top_of_push
    (visits : Visits names callees text rest last)
    (divided : text = above ++ instrs list ++ instrs [.push .rax] ++ rest)
    (straight : ∀ instr ∈ list, instr.isStraight = true) :
    ∃ before after, Visits names callees text
      (instrs list ++ instrs [.push .rax] ++ rest) before ∧
      Instr.runAll names before list = some after ∧ last.top = after.regs .rax := by
  have together : instrs list ++ instrs [.push .rax] = instrs (list ++ [.push .rax]) := by
    simp [instrs]
  rw [List.append_assoc above, together] at divided
  have allStraight : ∀ instr ∈ list ++ [.push .rax], instr.isStraight = true := by
    intro instr member
    rcases List.mem_append.mp member with inList | isPush
    · exact straight instr inList
    · obtain rfl := List.mem_singleton.mp isPush
      rfl
  obtain ⟨before, there, ran⟩ := visits.back_instrs divided allStraight
  obtain ⟨after, first, pushed⟩ := runAll_concat ran
  obtain rfl := Option.some.inj pushed
  rw [← together] at there
  exact ⟨before, after, there, first, Machine.push_top _ _⟩

end Visits

end Semantics

/-! ## Types of arithmetic -/

namespace Program

variable {program : Program} {tokens : TokenStream}

/-- Numbers are joined to a type that is not `_Bool`. -/
theorem joinTy_ne_bool
    (sound : program.types.Sound)
    {own : TyId}
    {entry other joined : Ty}
    (found : program.types.get? own = some entry)
    (integer : entry.isInteger = true)
    (reached : program.types.get? (joinTy own entry other) = some joined) :
    joined.kind ≠ .bool := by
  have int := sound.primitives .int ⟨.int, 4, 4, none⟩ rfl
  have long := sound.primitives .long ⟨.long, 8, 8, none⟩ rfl
  unfold joinTy at reached
  rw [if_neg (by simp [integer])] at reached
  split at reached
  · obtain rfl := Option.some.inj (long.symm.trans reached)
    decide
  split at reached
  · obtain rfl := Option.some.inj (int.symm.trans reached)
    decide
  · rename_i wide
    obtain rfl := Option.some.inj (found.symm.trans reached)
    intro isBool
    have size := sound.widths own entry found integer
    simp only [Ty.width, isBool, Width.bytes] at size
    omega

/-- Arithmetic has no type `_Bool`. -/
theorem OperationRule.ne_bool
    (sound : program.types.Sound)
    {ty : TyId}
    {entry : Ty}
    {op : BinaryOp}
    {lhs rhs : NodeId}
    (rule : program.OperationRule ty op lhs rhs)
    (found : program.types.get? ty = some entry)
    (integer : entry.isInteger = true) :
    entry.kind ≠ .bool := by
  have int := sound.primitives .int ⟨.int, 4, 4, none⟩ rfl
  have pointer {element : TyId} (points : program.PointsTo ty element) :
      entry.kind ≠ .bool := by
    obtain ⟨other, there, kind⟩ := points
    obtain rfl := Option.some.inj (found.symm.trans there)
    simp [kind]
  cases rule with
  | truth | elements =>
      obtain rfl := Option.some.inj (int.symm.trans found)
      decide
  | numbers _ leftTyped _ leftInteger _ =>
      obtain ⟨_, _, _, there⟩ := leftTyped
      exact joinTy_ne_bool sound there leftInteger found
  | move _ _ _ _ points | distance _ _ points => exact pointer points

/-! ## Nodes that hand on a value -/

/-- The value of one node is, as a word, the value of another. -/
inductive HandsOn (program : Program) : NodeId -> NodeId -> Prop
  | self {id} : HandsOn program id id
  | assign {id node lhs rhs origin}
      (found : program.node? id = some node)
      (kind : node.kind = .assign lhs rhs)
      (inner : HandsOn program rhs origin) :
      HandsOn program id origin
  | comma {id node lhs rhs origin}
      (found : program.node? id = some node)
      (kind : node.kind = .comma lhs rhs)
      (inner : HandsOn program rhs origin) :
      HandsOn program id origin
  | stmtExpr {id node body last entry expr origin}
      (found : program.node? id = some node)
      (kind : node.kind = .stmtExpr body)
      (ending : body.getLast? = some last)
      (lastFound : program.node? last = some entry)
      (lastKind : entry.kind = .exprStmt expr)
      (inner : HandsOn program expr origin) :
      HandsOn program id origin
  /-- A conversion to a type that is not narrower. -/
  | cast {id node operand ty source origin}
      (found : program.node? id = some node)
      (kind : node.kind = .cast operand)
      (typed : program.nodeTy id = .ok ty)
      (operandTyped : program.nodeTy operand = .ok source)
      (notBool : ty.kind ≠ .bool)
      (wider : source.width.rank ≤ ty.width.rank)
      (inner : HandsOn program operand origin) :
      HandsOn program id origin

/-- A node is neither a constant that does not fit its type nor a call of a `_Bool`
function. -/
structure FillsType (program : Program) (id : NodeId) : Prop where
  constant : ∀ node ty value, program.node? id = some node ->
    program.nodeTy id = .ok ty ->
    node.kind = .num value -> Semantics.SignExtended ty.size.toNat (.ofInt 64 value)
  call : ∀ node ty function args, program.node? id = some node ->
    program.nodeTy id = .ok ty -> node.kind = .call function args -> ty.kind ≠ .bool

/-- Nodes of other kinds fill their type. -/
theorem FillsType.of_kind {program : Program} {id : NodeId} {node : Node}
    (found : program.node? id = some node)
    (noConstant : ∀ value, node.kind ≠ .num value)
    (noCall : ∀ function args, node.kind ≠ .call function args) :
    program.FillsType id where
  constant := fun _ _ value there _ kind => by
    cases found.symm.trans there
    exact absurd kind (noConstant value)
  call := fun _ _ function args there _ kind => by
    cases found.symm.trans there
    exact absurd kind (noCall function args)

end Program

namespace Semantics

open Asm Emit

variable {program : Program} {tokens : TokenStream}

/-- The size of an integer type is that of its width. -/
theorem toNat_size
    (sound : program.types.Sound)
    {ty : TyId}
    {entry : Ty}
    (found : program.types.get? ty = some entry)
    (integer : entry.isInteger = true) :
    entry.size.toNat = entry.width.bytes := by
  rw [sound.widths ty entry found integer]
  rfl

theorem width_of_not_isInteger {ty : Ty} (other : ty.isInteger = false) :
    ty.width = .qword := by
  unfold Ty.isInteger at other
  unfold Ty.width
  split at other <;> simp_all

section Code

variable {names : Names} {callees : Callees} {text above rest : Code} {last : Machine}

/-- A text in which a line of a kind stands once divides there in one way. -/
theorem split_unique
    {holds : Line -> Bool}
    {front back tail lower : Code}
    {first second : Line}
    (once : text.countP holds ≤ 1)
    (left : text = front ++ first :: tail)
    (right : text = back ++ second :: lower)
    (own : holds first = true)
    (other : holds second = true) :
    first = second ∧ tail = lower := by
  rw [left] at right
  rw [left, List.countP_append, List.countP_cons_of_pos own] at once
  rcases split_append right with ⟨between, rfl, _⟩ | ⟨upper, _, equal⟩
  · rw [List.countP_append, List.countP_cons_of_pos other] at once
    omega
  · cases upper with
    | nil =>
        obtain ⟨rfl, rfl⟩ := List.cons.inj equal
        exact ⟨rfl, rfl⟩
    | cons line upper =>
        rw [List.cons_append] at equal
        obtain ⟨rfl, rfl⟩ := List.cons.inj equal
        rw [List.countP_append, List.countP_cons_of_pos other] at once
        omega

/-- A conjunction or disjunction pushes one of its two constants, whichever way the run
takes. -/
theorem signExtended_shortCircuit
    {jump : Label -> Instr}
    {role : Role}
    {decided undecided : Int}
    {number : Nat}
    {left right : Code}
    {bytes : Nat}
    (decidedFits : SignExtended bytes (.ofInt 64 decided))
    (undecidedFits : SignExtended bytes (.ofInt 64 undecided))
    (single : text.countP (Code.isJumpTo .stop number) ≤ 1)
    (divided : text = above ++ shortCircuitLines jump role decided undecided
      number left right ++ rest)
    (visits : Visits names callees text rest last) :
    SignExtended bytes last.top := by
  let before : Code := above ++
    (left ++ testLines ++ instrs [jump (.numbered role number)]
    ++ right ++ testLines ++ instrs [jump (.numbered role number)])
  have fits_of_set {start machine : Machine} {value : Int}
      (fits : SignExtended bytes (.ofInt 64 value))
      (passes : (Line.instr (.set .rax value)).Passes names callees start machine) :
      SignExtended bytes (machine.regs .rax) := by
    rw [Line.passes_instr rfl] at passes
    obtain rfl := Option.some.inj passes
    rw [Machine.set_regs, if_pos rfl]
    exact fits
  -- The push, behind the label that both ways lead to.
  have atPush : text = (before ++ [.instr (.set .rax undecided),
      .instr (.jump (.numbered .stop number)), .label (.numbered role number),
      .instr (.set .rax decided), .label (.numbered .stop number)])
      ++ .instr (.push .rax) :: rest := by
    rw [divided]
    simp [before, shortCircuitLines, define, instrs]
  obtain ⟨machine, there, pushes⟩ := visits.back atPush rfl
  rw [Line.passes_instr rfl] at pushes
  obtain rfl := Option.some.inj pushes
  rw [Machine.push_top]
  have atLabel : text = (before ++ [.instr (.set .rax undecided),
      .instr (.jump (.numbered .stop number)), .label (.numbered role number),
      .instr (.set .rax decided)])
      ++ .label (.numbered .stop number) :: .instr (.push .rax) :: rest := by
    rw [atPush]
    simp
  rcases there.predecessor atLabel with
    ⟨_, equal⟩ | ⟨start, earlier, same⟩ | ⟨target, jumping, tail, equal, jumps, earlier⟩
  · cases equal
  · -- The operands have decided.
    obtain rfl : machine = start := same
    have atSet : text = (before ++ [.instr (.set .rax undecided),
        .instr (.jump (.numbered .stop number)), .label (.numbered role number)])
        ++ .instr (.set .rax decided) :: .label (.numbered .stop number)
          :: .instr (.push .rax) :: rest := by
      rw [atPush]
      simp
    obtain ⟨first, _, passes⟩ := earlier.back atSet rfl
    exact fits_of_set decidedFits passes
  · -- The operands have not decided, and the one jump to the label has been taken.
    cases equal
    obtain ⟨front, whole⟩ := earlier.exists_above
    have atJump : text = (before ++ [.instr (.set .rax undecided)])
        ++ .instr (.jump (.numbered .stop number)) :: .label (.numbered role number)
          :: .instr (.set .rax decided) :: .label (.numbered .stop number)
          :: .instr (.push .rax) :: rest := by
      rw [atPush]
      simp
    obtain ⟨rfl, rfl⟩ := split_unique single whole atJump (by simp [Code.isJumpTo, jumps])
      (by simp [Code.isJumpTo, Line.target?])
    have atSet : text = before ++ .instr (.set .rax undecided)
        :: .instr (.jump (.numbered .stop number)) :: .label (.numbered role number)
          :: .instr (.set .rax decided) :: .label (.numbered .stop number)
          :: .instr (.push .rax) :: rest := by
      rw [atPush]
      simp
    obtain ⟨first, _, passes⟩ := earlier.back atSet rfl
    exact fits_of_set undecidedFits passes

/-- A loaded value is sign-extended. -/
theorem signExtended_loadLines
    {ty : Ty}
    (integer : ty.isInteger = true)
    (moved : ((Width.ofSize ty.size).bytes : Int) = ty.size)
    (divided : text = above ++ loadLines ty ++ rest)
    (visits : Visits names callees text rest last) :
    SignExtended ty.size.toNat last.top := by
  have byValue : isByAddress ty = false := isByAddress_of_scalar (.inl integer)
  have lines : text = (above ++ instrs [.pop .rax]) ++ instrs [.load (.ofSize ty.size)]
      ++ instrs [.push .rax] ++ rest := by
    rw [divided]
    simp [loadLines, byValue, topLines]
  obtain ⟨before, after, _, ran, top⟩ :=
    top_of_push visits lines (by simp [Instr.isStraight])
  have size : (Width.ofSize ty.size).bytes = ty.size.toNat := by omega
  rw [top, ← size]
  exact @signExtended_load names before after [] _ ran

/-- What a straight list of instructions leaves of the top of the stack. -/
theorem top_of_topLines
    {list : List Instr}
    (straight : ∀ instr ∈ list, instr.isStraight = true)
    (divided : text = above ++ topLines list ++ rest)
    (visits : Visits names callees text rest last) :
    ∃ before after, Instr.runAll names before list = some after ∧
      last.top = after.regs .rax := by
  have lines : text = (above ++ instrs [.pop .rax]) ++ instrs list ++ instrs [.push .rax]
      ++ rest := by
    rw [divided]
    simp [topLines]
  obtain ⟨before, after, _, ran, top⟩ := top_of_push visits lines straight
  exact ⟨before, after, ran, top⟩

/-- A store pushes the value again. -/
theorem top_of_storeLines
    {ty : Ty}
    (scalar : ty.isAggregate = false)
    (divided : text = above ++ storeLines ty ++ rest)
    (visits : Visits names callees text rest last) :
    ∃ before, Visits names callees text (storeLines ty ++ rest) before ∧
      last.top = before.top := by
  have lines : storeLines ty = instrs [.pop .rdi, .pop .rax, .store (.ofSize ty.size),
      .move .rax .rdi, .push .rax] := by
    simp [storeLines, storeInstrs, scalar, instrs]
  rw [lines] at divided ⊢
  obtain ⟨before, there, ran⟩ := visits.back_instrs divided (by simp [Instr.isStraight])
  refine ⟨before, there, ?_⟩
  obtain rfl := Option.some.inj ran
  rw [Machine.push_top]
  rfl

end Code

/-! ## The code of expressions -/

section Operations

variable {names : Names} {before after : Machine} {ty : Ty}

/-- An operator brings its result to the width of its type. -/
theorem signExtended_operation
    {op : BinaryOp}
    (notAnd : op ≠ .logAnd)
    (notOr : op ≠ .logOr)
    (integer : ty.isInteger = true)
    (notBool : ty.kind ≠ .bool)
    (ran : Instr.runAll names before (operation op ty) = some after) :
    SignExtended ty.width.bytes (after.regs .rax) := by
  cases op with
  | add | sub | mul =>
      exact @signExtended_narrow names before after [.alu _] ty integer notBool ran
  | div =>
      exact @signExtended_narrow names before after [.extendDividend, .divide] ty
        integer notBool ran
  | mod =>
      exact @signExtended_narrow names before after
        [.extendDividend, .divide, .move .rax .rdx] ty integer notBool ran
  | eq | ne | lt | le | gt | ge =>
      exact @signExtended_truth names before after [.compare] _ ty.width ran
  | logAnd => exact absurd rfl notAnd
  | logOr => exact absurd rfl notOr

theorem signExtended_unaryOperation
    {op : UnaryOp}
    (integer : ty.isInteger = true)
    (notBool : ty.kind ≠ .bool)
    (ran : Instr.runAll names before (unaryOperation op ty) = some after) :
    SignExtended ty.width.bytes (after.regs .rax) := by
  cases op with
  | neg => exact @signExtended_narrow names before after [.negate] ty integer notBool ran
  | bitNot =>
      exact @signExtended_narrow names before after [.complement] ty integer notBool ran
  | not => exact @signExtended_truth names before after [.compareZero] _ ty.width ran

end Operations

/-- The operand of an operator with one operand gives it a type that is not `_Bool`. -/
theorem unary_ne_bool
    (sound : program.types.Sound)
    {ty : TyId}
    {entry : Ty}
    {op : UnaryOp}
    {operand : NodeId}
    (rule : program.TypingRule ty (.unary op operand))
    (found : program.types.get? ty = some entry) :
    entry.kind ≠ .bool := by
  have int := sound.primitives .int ⟨.int, 4, 4, none⟩ rfl
  have arithmetic (joined : ∃ own entry, program.HasTy operand own entry ∧
      entry.isInteger = true ∧ ty = Program.joinTy own entry entry) :
        entry.kind ≠ .bool := by
    obtain ⟨own, other, ⟨_, _, _, there⟩, integer, rfl⟩ := joined
    exact Program.joinTy_ne_bool sound there integer found
  cases op with
  | not =>
      obtain ⟨_, rfl⟩ := rule
      obtain rfl := Option.some.inj (int.symm.trans found)
      decide
  | neg => exact arithmetic rule
  | bitNot => exact arithmetic rule

theorem isArray_of_isInteger {ty : Ty} (integer : ty.isInteger = true) :
    ty.isArray = false := by
  unfold Ty.isInteger at integer
  split at integer <;> simp_all [Ty.isArray]

/-- What a conversion to an integer type emits: a comparison, a sign extension or
nothing. -/
theorem convertLines_cases (source : Ty) {ty : Ty} (integer : ty.isInteger = true) :
    (ty.kind = .bool ∧ convertLines source ty = topLines
      (.compareZero :: Emit.truth .ne)) ∨
      (ty.kind ≠ .bool ∧ ty.width.rank < source.width.rank ∧
        convertLines source ty = topLines (extend ty.width)) ∨
      (ty.kind ≠ .bool ∧ source.width.rank ≤ ty.width.rank ∧
        convertLines source ty = []) := by
  have notVoid : ty.isVoid = false := by
    unfold Ty.isInteger at integer
    split at integer <;> simp_all [Ty.isVoid]
  unfold convertLines
  rw [if_neg (by simp [notVoid])]
  split
  · exact .inl ⟨‹_›, rfl⟩
  split
  · exact .inr (.inl ⟨‹_›, ‹_›, rfl⟩)
  · exact .inr (.inr ⟨‹_›, by omega, rfl⟩)

/-- The code of an integer expression pushes a sign-extended word, if what it hands on
fills its type.  The induction is over the rules of emission: the code of an expression
brings its word to the width of the type, or is followed back to the code of the operand
whose word is handed on. -/
theorem signExtended_of_emits
    {context : Context}
    (sound : context.program.Sound tokens)
    {names : Names}
    {callees : Callees}
    {text : Code}
    (single : ∀ number, text.countP (Code.isJumpTo .stop number) ≤ 1)
    {task : Task}
    {state after : State}
    {code : Code}
    (emitted : Emits context task state code after)
    {id : NodeId}
    (isValue : task = .value id)
    {ty : Ty}
    (typed : context.program.nodeTy id = .ok ty)
    (integer : ty.isInteger = true)
    (fills : ∀ origin, context.program.HandsOn id origin ->
      context.program.FillsType origin)
    {above below : Code}
    {last : Machine}
    (divided : text = above ++ code ++ below)
    (visits : Visits names callees text below last) :
    SignExtended ty.size.toNat last.top := by
  induction emitted generalizing id ty above below last with
  | @num _ _ _ number _ found own kind =>
      cases isValue
      have lines :
          text = above ++ instrs [.set .rax number] ++ instrs [.push .rax] ++ below := by
        rw [divided]
        simp only [List.append_assoc]
      obtain ⟨before, after, _, ran, top⟩ :=
        top_of_push visits lines (by simp [Instr.isStraight])
      obtain rfl := Option.some.inj ran
      rw [top]
      exact (fills _ .self).constant _ _ _ found typed kind
  | object found own kind inner | deref found own kind inner =>
      cases isValue
      obtain rfl := Except.ok.inj (typed.symm.trans own)
      obtain ⟨tyId, _, there, _⟩ := exists_typing sound found typed
      have moved := (sound.types.entries tyId ty there).moved
        (Ty.isAggregate_of_isInteger integer) (isArray_of_isInteger integer)
      rw [← List.append_assoc] at divided
      exact signExtended_loadLines integer moved divided visits
  | addr found own kind inner =>
      cases isValue
      obtain ⟨tyId, _, there, rule⟩ := exists_typing sound found typed
      rw [kind] at rule
      obtain ⟨_, _, _, entry, pointsFound, pointsKind⟩ := rule
      obtain rfl := Option.some.inj (there.symm.trans pointsFound)
      simp [Ty.isInteger, pointsKind] at integer
  | @assign _ _ _ _ rhs _ place _ value _ found own kind left right _ rightHypothesis =>
      cases isValue
      obtain rfl := Except.ok.inj (typed.symm.trans own)
      obtain ⟨tyId, _, there, rule⟩ := exists_typing sound found typed
      rw [kind] at rule
      obtain ⟨_, entry, _, rightTyped, _⟩ := rule
      have same : context.program.nodeTy rhs = .ok entry :=
        Grammar.nodeTy_eq_ok rightTyped
      obtain ⟨_, _, _, entryFound⟩ := rightTyped
      obtain rfl := Option.some.inj (there.symm.trans entryFound)
      have store : text = (above ++ place ++ value) ++ storeLines ty ++ below := by
        rw [divided]
        simp only [List.append_assoc]
      obtain ⟨before, earlier, top⟩ :=
        top_of_storeLines (Ty.isAggregate_of_isInteger integer) store visits
      rw [top]
      rw [List.append_assoc] at store
      exact rightHypothesis rfl same integer
        (fun origin hands => fills origin (.assign found kind hands)) store earlier
  | @comma _ _ _ _ _ _ first _ second _ found own kind left right _ rightHypothesis =>
      cases isValue
      obtain ⟨tyId, _, there, rule⟩ := exists_typing sound found typed
      rw [kind] at rule
      obtain ⟨entry, rightTyped⟩ := rule
      have same := Grammar.nodeTy_eq_ok rightTyped
      obtain ⟨_, _, _, entryFound⟩ := rightTyped
      obtain rfl := Option.some.inj (there.symm.trans entryFound)
      have lines : text = (above ++ first ++ instrs [.pop .rax]) ++ second ++ below := by
        rw [divided]
        simp only [List.append_assoc]
      exact rightHypothesis rfl same integer
        (fun origin hands => fills origin (.comma found kind hands)) lines visits
  | stmtExpr found own kind ending lastFound lastKind init inner _ innerHypothesis =>
      cases isValue
      obtain ⟨tyId, _, there, rule⟩ := exists_typing sound found typed
      rw [kind] at rule
      obtain ⟨_, _, _, entry, ruleEnding, ruleFound, ruleKind, innerTyped⟩ := rule
      cases ending.symm.trans ruleEnding
      cases lastFound.symm.trans ruleFound
      cases lastKind.symm.trans ruleKind
      have same := Grammar.nodeTy_eq_ok innerTyped
      obtain ⟨_, _, _, entryFound⟩ := innerTyped
      obtain rfl := Option.some.inj (there.symm.trans entryFound)
      rw [← List.append_assoc] at divided
      exact innerHypothesis rfl same integer
        (fun origin hands => fills origin
          (.stmtExpr found kind ending lastFound lastKind hands))
        divided visits
  | @cast _ _ _ operand source _ code _ found own kind operandTyped inner hypothesis =>
      cases isValue
      obtain rfl := Except.ok.inj (typed.symm.trans own)
      obtain ⟨tyId, _, there, rule⟩ := exists_typing sound found typed
      rw [← List.append_assoc] at divided
      rw [toNat_size sound.types there integer]
      rcases convertLines_cases source integer with
        ⟨isBool, lines⟩ | ⟨notBool, narrower, lines⟩ | ⟨notBool, wider, lines⟩ <;>
        rw [lines] at divided
      · obtain ⟨before, after, ran, top⟩ := top_of_topLines
          (by simp [Emit.truth, Instr.isStraight]) divided visits
        rw [top]
        exact @signExtended_truth names before after [.compareZero] _ _ ran
      · have narrows : narrow ty = extend ty.width := by simp [narrow, integer, notBool]
        rw [← narrows] at divided
        obtain ⟨before, after, ran, top⟩ :=
          top_of_topLines (straight_narrow ty) divided visits
        rw [top]
        exact @signExtended_narrow names before after [] ty integer notBool ran
      · rw [List.append_nil] at divided
        by_cases number : source.isInteger = true
        · rw [kind] at rule
          obtain ⟨_, own, entry, _, _, operandHas, _⟩ := rule
          cases operandTyped.symm.trans (Grammar.nodeTy_eq_ok operandHas)
          obtain ⟨_, _, _, sourceFound⟩ := operandHas
          have extended := hypothesis rfl operandTyped number (fun origin hands =>
            fills origin (.cast found kind typed operandTyped notBool wider hands))
              divided visits
          rw [toNat_size sound.types sourceFound number] at extended
          exact extended.mono wider
        · -- An address is a full word, and so is the type.
          rw [width_of_not_isInteger (by simpa using number)] at wider
          have full : ty.width = .qword := by
            revert wider
            cases ty.width <;> decide
          rw [full]
          exact .full _
  | unary found own kind inner =>
      cases isValue
      obtain rfl := Except.ok.inj (typed.symm.trans own)
      obtain ⟨tyId, _, there, rule⟩ := exists_typing sound found typed
      rw [kind] at rule
      rw [← List.append_assoc] at divided
      obtain ⟨before, after, ran, top⟩ :=
        top_of_topLines (straight_unaryOperation _ _) divided visits
      rw [top, toNat_size sound.types there integer]
      exact signExtended_unaryOperation integer (unary_ne_bool sound.types rule there) ran
  | logAnd found own kind first second =>
      cases isValue
      obtain ⟨tyId, _, there, _⟩ := exists_typing sound found typed
      rw [toNat_size sound.types there integer]
      exact signExtended_shortCircuit (.zero _) (.one _) (single _)
        divided visits
  | logOr found own kind first second =>
      cases isValue
      obtain ⟨tyId, _, there, _⟩ := exists_typing sound found typed
      rw [toNat_size sound.types there integer]
      exact signExtended_shortCircuit (.one _) (.zero _) (single _)
        divided visits
  | binary found own kind notAnd notOr first second =>
      cases isValue
      obtain rfl := Except.ok.inj (typed.symm.trans own)
      obtain ⟨tyId, _, there, rule⟩ := exists_typing sound found typed
      rw [kind] at rule
      have operationRule : context.program.OperationRule _ _ _ _ := rule
      rw [← List.append_assoc] at divided
      obtain ⟨before, after, ran, top⟩ :=
        top_of_topLines (straight_operation _ _) divided visits
      rw [top, toNat_size sound.types there integer]
      exact signExtended_operation notAnd notOr integer
        (operationRule.ne_bool sound.types there integer) ran
  | call found own kind few declared inner =>
      cases isValue
      obtain rfl := Except.ok.inj (typed.symm.trans own)
      obtain ⟨tyId, _, there, _⟩ := exists_typing sound found typed
      have notBool := (fills _ .self).call _ _ _ _ found typed kind
      rw [← List.append_assoc, ← List.append_assoc] at divided
      obtain ⟨before, after, _, ran, top⟩ :=
        top_of_push visits divided (straight_narrow _)
      rw [top, toNat_size sound.types there integer]
      exact @signExtended_narrow names before after [] _ integer notBool ran
  | _ => cases isValue

/-- At most one jump of the text of a file leads to the end of a construct. -/
theorem countP_isJumpTo_stop_le
    {file : SourceFile}
    {lines : Code}
    (compiled : compileLines file = .ok lines)
    (number : Nat) :
    lines.countP (Code.isJumpTo .stop number) ≤ 1 := by
  obtain ⟨_, data, texts, after, _, known, given, rfl⟩ := compileLines_parts compiled
  have front :
      (header file.name ++ data.flatten).countP (Code.isJumpTo .stop number) = 0 := by
    rw [List.countP_eq_zero]
    intro line member
    have isData : isData line = true := by
      rcases List.mem_append.mp member with inHeader | inData
      · exact header_isData _ _ inHeader
      · exact data_isData known _ inData
    cases line with
    | instr step => cases isData
    | _ => simp [Code.isJumpTo, Line.target?]
  rw [List.countP_append, front, Nat.zero_add, ← Code.countP_isLeap _ _ 0]
  exact (given.labelled.landed number 0).2.2

/-- Values on the stack are sign-extended.  In every run of the text of a file from the
entry of a function, whatever the called functions do, the word that the code of an
integer expression has pushed is the sign extension of as many bytes as its type has,
unless the expression hands on a constant that does not fit its type or the result of a
`_Bool` function. -/
theorem values_are_sign_extended
    {file : SourceFile}
    {program : Program}
    {lines : Code}
    (parsed : parseFile file = .ok program)
    (compiled : compileLines file = .ok lines)
    {id : NodeId}
    {ty : Ty}
    (typed : program.nodeTy id = .ok ty)
    (integer : ty.isInteger = true)
    (fills : ∀ origin, program.HandsOn id origin -> program.FillsType origin)
    {function : String}
    {depth : Nat}
    {state after : State}
    {code above below : Code}
    (generated : (routines ⟨program, function⟩ depth).value id state = .ok (code, after))
    (placed : lines = above ++ code ++ below)
    {names : Names}
    {callees : Callees}
    {last : Machine}
    (visits : Visits names callees lines below last) :
    SignExtended ty.size.toNat last.top := by
  obtain ⟨tokens, sound⟩ := sound_of_parseFile parsed
  have emits := (Emits.of_routines ⟨program, function⟩ depth).value generated
  exact signExtended_of_emits sound (countP_isJumpTo_stop_le compiled)
    emits rfl typed integer fills placed visits

/-! ## An example -/

section Example

/-- A file with a call of a `_Bool` function as an operand. -/
def truthCallFile : SourceFile := ⟨"a.c", "_Bool f(); int main() { return f() + 1; }"⟩

/-- The program in that file. -/
def truthCallProgram : Program := (parseFile truthCallFile).toOption.getD .empty

/-- The lines for that file. -/
def truthCallLines : Code := (compileLines truthCallFile).toOption.getD []

/-- That file compiles, and the sixth line is the first of `main`. -/
theorem truthCallFile_compiles :
    (compileLines truthCallFile).isOk = true ∧
      truthCallLines.after? (.symbol "main") = some (truthCallLines.drop 5) := by
  decide +kernel

theorem compileLines_truthCallFile : compileLines truthCallFile = .ok truthCallLines :=
  eq_ok_of_isOk truthCallFile_compiles.1

theorem parseFile_truthCallFile : parseFile truthCallFile = .ok truthCallProgram :=
  parseFile_of_compileLines compileLines_truthCallFile

/-- A called function that returns false and leaves a bit above the byte of its result. -/
def falseWithHighBit (_ : String) (machine : Machine) :
    Machine := machine.set .rax (2 ^ 40)

/-- A run of `main` passes the positions of that file. -/
theorem truthCall_visits {count position : Nat} {top : Word}
    (moved : (moves? (fun _ => 65536) falseWithHighBit truthCallLines count
      ⟨truthCallLines.drop 5, restingMachine⟩).map
        (fun config => (config.rest, config.machine.top)) =
      some (truthCallLines.drop position, top)) :
    ∃ last, Visits (fun _ => 65536)
      (fun name machine next => next = falseWithHighBit name machine)
      truthCallLines (truthCallLines.drop position) last ∧ last.top = top := by
  obtain ⟨last, run, equal⟩ := Runs.exists_of_moves? moved
  exact ⟨last, ⟨"main", _, _, truthCallFile_compiles.2, run⟩, equal⟩

/-- The sum of the call and one is sign-extended, and so is its conversion, although the
called function leaves a bit above its result. -/
theorem truthCall_sum_is_sign_extended :
    ∃ code after last,
      (routines ⟨truthCallProgram, "main"⟩ 7).value ⟨3⟩ ⟨0, 0⟩ = .ok (code, after) ∧
      truthCallLines = truthCallLines.take 9 ++ code ++ truthCallLines.drop 19 ∧
      Visits (fun _ => 65536)
        (fun name machine next => next = falseWithHighBit name machine)
        truthCallLines (truthCallLines.drop 19) last ∧
      last.top = 1 ∧ SignExtended 4 last.top := by
  obtain ⟨sumKnown, castKnown, int, moved, generated, placed⟩ :
      (truthCallProgram.node? ⟨2⟩).map (fun node => (node.kind, node.ty)) =
        some (.binary .add ⟨0⟩ ⟨1⟩, some .int) ∧
      (truthCallProgram.node? ⟨3⟩).map (fun node => (node.kind, node.ty)) =
        some (.cast ⟨2⟩, some .int) ∧
      truthCallProgram.types.get? .int = some ⟨.int, 4, 4, none⟩ ∧
      (moves? (fun _ => 65536) falseWithHighBit truthCallLines 14
        ⟨truthCallLines.drop 5, restingMachine⟩).map
          (fun config => (config.rest, config.machine.top)) =
        some (truthCallLines.drop 19, 1) ∧
      (routines ⟨truthCallProgram, "main"⟩ 7).value ⟨3⟩ ⟨0, 0⟩ =
        .ok ((truthCallLines.drop 9).take 10, ⟨1, 0⟩) ∧
      truthCallLines = truthCallLines.take 9 ++ (truthCallLines.drop 9).take 10 ++
        truthCallLines.drop 19 := by
    decide +kernel
  obtain ⟨sum, sumFound, sumKind, _⟩ := exists_node _ _ _ _ sumKnown
  obtain ⟨cast, castFound, castKind, castTyped⟩ := exists_node _ _ _ _ castKnown
  have typed : truthCallProgram.nodeTy ⟨3⟩ = .ok ⟨.int, 4, 4, none⟩ :=
    Grammar.nodeTy_eq_ok ⟨cast, castFound, castTyped, int⟩
  have fills : ∀ origin, truthCallProgram.HandsOn ⟨3⟩ origin ->
      truthCallProgram.FillsType origin := by
    have hands_self {origin : NodeId} (hands : truthCallProgram.HandsOn ⟨2⟩ origin) :
        origin = ⟨2⟩ := by
      cases hands with
      | self => rfl
      | assign found kind | comma found kind | stmtExpr found kind | cast found kind =>
          cases sumFound.symm.trans found
          cases sumKind.symm.trans kind
    intro origin hands
    cases hands with
    | self => exact .of_kind castFound (by simp [castKind]) (by simp [castKind])
    | cast found kind _ _ _ _ inner =>
        cases castFound.symm.trans found
        cases castKind.symm.trans kind
        rw [hands_self inner]
        exact .of_kind sumFound (by simp [sumKind]) (by simp [sumKind])
    | assign found kind | comma found kind | stmtExpr found kind =>
        cases castFound.symm.trans found
        cases castKind.symm.trans kind
  obtain ⟨last, visits, top⟩ := truthCall_visits moved
  exact ⟨_, _, last, generated, placed, visits, top,
    values_are_sign_extended parseFile_truthCallFile compileLines_truthCallFile
      typed rfl fills generated placed visits⟩

/-- The word that the call itself pushes is not sign-extended. -/
theorem truthCall_result_is_not_sign_extended :
    parseFile truthCallFile = .ok truthCallProgram ∧
      compileLines truthCallFile = .ok truthCallLines ∧
      truthCallProgram.nodeTy ⟨0⟩ = .ok ⟨.bool, 1, 1, none⟩ ∧
      ∃ code after last,
        (routines ⟨truthCallProgram, "main"⟩ 7).value ⟨0⟩ ⟨0, 0⟩ = .ok (code, after) ∧
        truthCallLines = truthCallLines.take 9 ++ code ++ truthCallLines.drop 12 ∧
        Visits (fun _ => 65536)
          (fun name machine next => next = falseWithHighBit name machine)
          truthCallLines (truthCallLines.drop 12) last ∧
        ¬ SignExtended 1 last.top := by
  obtain ⟨typed, moved, generated, placed⟩ :
      truthCallProgram.nodeTy ⟨0⟩ = .ok ⟨.bool, 1, 1, none⟩ ∧
      (moves? (fun _ => 65536) falseWithHighBit truthCallLines 7
        ⟨truthCallLines.drop 5, restingMachine⟩).map
          (fun config => (config.rest, config.machine.top)) =
        some (truthCallLines.drop 12, 2 ^ 40) ∧
      (routines ⟨truthCallProgram, "main"⟩ 7).value ⟨0⟩ ⟨0, 0⟩ =
        .ok ((truthCallLines.drop 9).take 3, ⟨1, 0⟩) ∧
      truthCallLines = truthCallLines.take 9 ++ (truthCallLines.drop 9).take 3 ++
        truthCallLines.drop 12 := by
    decide +kernel
  obtain ⟨last, visits, top⟩ := truthCall_visits moved
  refine ⟨parseFile_truthCallFile, compileLines_truthCallFile, typed, _, _, last,
    generated, placed, visits, ?_⟩
  rw [top]
  decide

end Example

end Semantics
end MiniC
