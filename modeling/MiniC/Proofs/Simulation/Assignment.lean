import MiniC.Proofs.Simulation.Generated
import MiniC.Proofs.Simulation.Member
import MiniC.Proofs.Simulation.Waiting

/-!
# What an assignment writes

The code of an assignment pushes the address of its target, then the value, and stores the
value at the address that has waited on the stack.  For a target that is a variable or a
part of one, this writes as many bytes as the type has, at the place of the part, and no
others.

The value of a struct or union is its address, and its bytes are copied one after the
other.
-/

namespace MiniC
namespace Semantics

open Asm Emit

/-! ## The address of the target -/

section Place

variable {context : Context} {state after : State} {code : Code}

theorem lookupMember_of_some {program : Program} {aggregate : TyId}
    {owner : Ty} {index : Nat}
    {member : Member} (found : program.types.get? aggregate = some owner)
    (chosen : owner.members[index]? = some member) :
    program.lookupMember aggregate index = .ok member := by
  unfold Program.lookupMember
  rw [Grammar.lookupTy_eq_ok found]
  simp only [bind, Except.bind, chosen]
  rfl

/-- What the code of an address has done: the address is on top of the stack. -/
structure Addressed (address : Word) (before after : Machine) : Prop where
  rsp : after.regs .rsp = before.regs .rsp - 8
  rbp : after.regs .rbp = before.regs .rbp
  top : after.top = address
  kept : ∀ place, ¬Covers (before.regs .rsp - 8) 8 place ->
    after.memory place = before.memory place

/-- The code of the address of a part of a variable is straight, and pushes the address of
the variable plus the offsets of the members. -/
theorem addressed_of_emits
    (names : Names)
    {task : Task}
    (emitted : Emits context task state code after)
    {id : NodeId}
    (isAddress : task = .address id)
    {symbol : SymbolId}
    {path : List Selection}
    (selects : context.program.Selects id symbol path) :
    ∃ list, code = instrs list ∧ (∀ instr ∈ list, instr.isStraight = true) ∧
      ∀ machine, ∃ next, Instr.runAll names machine list = some next ∧
        Addressed (addressOf context.program names (machine.regs .rbp) symbol +
          .ofInt 64 (Selection.offset path)) machine next := by
  induction emitted generalizing id path with
  | @localAddress _ _ _ entry offset _ found kind declared place =>
      cases isAddress
      cases selects with
      | member otherFound otherKind =>
          cases found.symm.trans otherFound
          cases kind.symm.trans otherKind
      | var otherFound otherKind =>
          cases found.symm.trans otherFound
          cases kind.symm.trans otherKind
          refine ⟨[.frameAddress offset, .push .rax], rfl, by simp [Instr.isStraight], ?_⟩
          intro machine
          refine ⟨_, rfl, rfl, rfl, ?_,
            fun place outside => Memory.write_of_not_covers outside⟩
          rw [Machine.push_top, addressOf_local declared place]
          simp
  | @globalAddress _ _ _ entry _ found kind declared place =>
      cases isAddress
      cases selects with
      | member otherFound otherKind =>
          cases found.symm.trans otherFound
          cases kind.symm.trans otherKind
      | var otherFound otherKind =>
          cases found.symm.trans otherFound
          cases kind.symm.trans otherKind
          refine ⟨[.symbolAddress entry.name, .push .rax],
            rfl, by simp [Instr.isStraight], ?_⟩
          intro machine
          refine ⟨_, rfl, rfl, rfl, ?_,
            fun place outside => Memory.write_of_not_covers outside⟩
          rw [Machine.push_top, addressOf_name declared place]
          simp
  | derefAddress found kind =>
      cases isAddress
      cases selects with
      | var otherFound otherKind | member otherFound otherKind =>
          cases found.symm.trans otherFound
          cases kind.symm.trans otherKind
  | memberAddress found kind placed _ hypothesis =>
      cases isAddress
      cases selects with
      | var otherFound otherKind =>
          cases found.symm.trans otherFound
          cases kind.symm.trans otherKind
      | @member _ _ _ _ _ _ member _ inner otherFound otherKind ownerFound
        chosen selects =>
          cases found.symm.trans otherFound
          cases kind.symm.trans otherKind
          obtain rfl :=
            Except.ok.inj ((lookupMember_of_some ownerFound chosen).symm.trans placed)
          obtain ⟨list, rfl, straight, runs⟩ := hypothesis rfl selects
          simp only [Selection.offset_append, Selection.offset_singleton,
            BitVec.ofInt_add, ← BitVec.add_assoc]
          by_cases none : member.offset = 0
          · refine ⟨list, by simp [offsetLines, none], straight, fun machine => ?_⟩
            obtain ⟨next, ran, addressed⟩ := runs machine
            refine ⟨next, ran, ?_⟩
            simpa [none] using addressed
          · have lines : offsetLines member.offset =
                instrs [.pop .rax, .addConst .rax member.offset, .push .rax] := by
              simp [offsetLines, none, topLines, instrs]
            refine ⟨list ++ [.pop .rax, .addConst .rax member.offset, .push .rax], ?_, ?_,
              ?_⟩
            · rw [lines, instrs, instrs, instrs, List.map_append]
            · simpa [or_imp, forall_and, Instr.isStraight] using straight
            · intro machine
              obtain ⟨next, ran, rsp, rbp, top, kept⟩ := runs machine
              have added : next.regs .rsp + 8 - 8 = machine.regs .rsp - 8 := by
                rw [BitVec.add_sub_cancel, rsp]
              refine ⟨_, by rw [runAll_append, ran]; rfl, ?_, ?_, ?_, ?_⟩
              · simpa [Machine.setResult] using added
              · simpa using rbp
              · rw [Machine.push_top]
                simp [top]
              · intro place outside
                rw [← kept place outside]
                apply Memory.write_of_not_covers
                rw [← added] at outside
                simpa using outside
  | _ => cases isAddress

end Place

/-! ## The store -/

/-- Memory with a value of a type stored at an address.  The value of a struct or union is
the address of its bytes. -/
def stored (ty : Ty) (address value : Word) (memory : Memory) : Memory :=
  if ty.isAggregate then memory.copy address value ty.size.toNat
  else memory.write address ty.size.toNat value

section Stored

variable {ty : Ty} {address value place : Word} {memory : Memory}

/-- A store changes only its target. -/
theorem stored_of_not_covers (small : ty.size.toNat ≤ 2 ^ 64)
    (outside : ¬Covers address ty.size.toNat place) :
    stored ty address value memory place = memory place := by
  unfold stored
  split
  · exact Memory.copy_of_not_covers small outside
  · exact Memory.write_of_not_covers outside

/-- A store of a number leaves its low bytes in the target. -/
theorem read_stored (scalar : ty.isAggregate = false) (small : ty.size.toNat ≤ 8) :
    (stored ty address value memory).read address ty.size.toNat =
      value.toNat % 256 ^ ty.size.toNat := by
  rw [stored, if_neg (by simp [scalar])]
  exact Memory.read_write small value

/-- A store of a struct or union leaves in its target the bytes of the source, unless the
two overlap in part. -/
theorem stored_of_apart (aggregate : ty.isAggregate = true)
    (small : ty.size.toNat ≤ 2 ^ 64)
    (apart : value = address ∨ Apart value ty.size.toNat address ty.size.toNat)
    {index : Nat} (below : index < ty.size.toNat) :
    stored ty address value memory (address + .ofNat 64 index) =
      memory (value + .ofNat 64 index) := by
  rw [stored, if_pos aggregate]
  exact Memory.copy_of_apart small apart below

end Stored

section Store

variable {names : Names} {ty : Ty} {machine : Machine}

/-- Bytes are copied through `r8`, which no other register notices. -/
theorem exists_runAll_copyBytes (count : Nat) :
    ∃ next, Instr.runAll names machine ((List.range count).flatMap fun offset =>
        [.loadByte offset, .storeByte offset]) = some next ∧
      next.memory = machine.memory.copy (machine.regs .rax) (machine.regs .rdi) count ∧
      ∀ reg, reg ≠ .r8 -> next.regs reg = machine.regs reg := by
  induction count with
  | zero => exact ⟨machine, rfl, rfl, fun _ _ => rfl⟩
  | succ count hypothesis =>
      obtain ⟨middle, ran, memory, regs⟩ := hypothesis
      have target := regs .rax (by decide)
      have source := regs .rdi (by decide)
      refine ⟨_, by rw [List.range_succ, List.flatMap_append, runAll_append, ran]; rfl,
        ?_, ?_⟩
      · funext place
        have low (byte : BitVec 8) :
            ((middle.regs .r8).extractLsb' 8 56 ++ byte : BitVec 64).setWidth 8 = byte :=
          BitVec.setWidth_append_eq_right
        simp only [Machine.set_memory, Machine.set_regs, Memory.write_byte,
          Memory.copy, target, source, if_neg (show Reg.rax ≠ .r8 by decide),
            if_true, low, memory]
      · intro reg other
        simp only [Machine.set_regs, if_neg other]
        exact regs reg other

/-- The instructions of a store change the target and `r8`. -/
theorem exists_runAll_storeInstrs
    (moved : ty.isAggregate = false -> ((Width.ofSize ty.size).bytes : Int) = ty.size) :
    ∃ next, Instr.runAll names machine (storeInstrs ty) = some next ∧
      next.memory = stored ty (machine.regs .rax) (machine.regs .rdi) machine.memory ∧
      ∀ reg, reg ≠ .r8 -> next.regs reg = machine.regs reg := by
  unfold storeInstrs stored
  by_cases aggregate : ty.isAggregate = true
  · rw [if_pos aggregate, if_pos aggregate]
    exact exists_runAll_copyBytes ty.size.toNat
  · rw [if_neg aggregate, if_neg aggregate]
    have size : (Width.ofSize ty.size).bytes = ty.size.toNat := by
      have width := moved (by simpa using aggregate)
      omega
    exact ⟨_, rfl, by rw [← size], fun _ _ => rfl⟩

theorem straight_storeInstrs (ty : Ty) :
    ∀ instr ∈ storeInstrs ty, instr.isStraight = true := by
  unfold storeInstrs copyBytes
  split
  · intro instr member
    obtain ⟨offset, _, own⟩ := List.mem_flatMap.mp member
    simp only [List.mem_cons, List.not_mem_nil, or_false] at own
    rcases own with rfl | rfl <;> rfl
  · simp [Instr.isStraight]

/-- The lines of a store take the value and the address from the stack, store the value,
and push it again. -/
theorem runAll_storeLines
    (names : Names)
    (moved : ty.isAggregate = false -> ((Width.ofSize ty.size).bytes : Int) = ty.size) :
    ∃ list, storeLines ty = instrs list ∧ (∀ instr ∈ list, instr.isStraight = true) ∧
      ∀ machine, ∃ next, Instr.runAll names machine list = some next ∧
        next.regs .rsp = machine.regs .rsp + 8 ∧ next.regs .rbp = machine.regs .rbp ∧
        next.top = machine.top ∧
        next.memory = (stored ty
          (.ofNat 64 (machine.memory.read (machine.regs .rsp + 8) 8)) machine.top
          machine.memory).write (machine.regs .rsp + 8) 8 machine.top := by
  refine ⟨[.pop .rdi, .pop .rax] ++ storeInstrs ty ++ [.move .rax .rdi, .push .rax], ?_,
    ?_, ?_⟩
  · simp [storeLines, instrs]
  · have store := straight_storeInstrs ty
    simpa [or_imp, forall_and, Instr.isStraight] using store
  · intro machine
    obtain ⟨next, ran, memory, regs⟩ :=
      @exists_runAll_storeInstrs names ty ((machine.pop .rdi).pop .rax) moved
    have pops : Instr.runAll names machine [.pop .rdi, .pop .rax] =
        some ((machine.pop .rdi).pop .rax) := rfl
    have pointer : next.regs .rsp = machine.regs .rsp + 8 + 8 := regs .rsp (by decide)
    have value : next.regs .rdi = machine.top := regs .rdi (by decide)
    have level : next.regs .rsp - 8 = machine.regs .rsp + 8 := by
      rw [pointer, BitVec.add_sub_cancel]
    refine
      ⟨_, by rw [runAll_append, runAll_append, pops, Option.bind_some, ran]; rfl,
        ?_, ?_, ?_, ?_⟩
    · simpa using level
    · exact regs .rbp (by decide)
    · rw [Machine.push_top]
      exact value
    · rw [Machine.push_memory]
      change next.memory.write (next.regs .rsp - 8) 8 (next.regs .rdi) = _
      rw [level, value, memory]
      rfl

end Store

/-! ## Assignments -/

section Assignment

/-- The parts of the code of an assignment. -/
theorem exists_parts_of_assign
    {context : Context}
    {depth : Nat}
    {id lhs rhs : NodeId}
    {node : Node}
    {ty : Ty}
    {state after : State}
    {code : Code}
    (found : context.program.node? id = some node)
    (kind : node.kind = .assign lhs rhs)
    (typed : context.program.nodeTy id = .ok ty)
    (generated : (routines context depth).value id state = .ok (code, after)) :
    ∃ inner place middle value next,
      (routines context inner).address lhs state = .ok (place, middle) ∧
      (routines context inner).value rhs middle = .ok (value, next) ∧
      code = place ++ value ++ storeLines ty := by
  cases depth with
  | zero => cases generated
  | succ depth =>
      have given : Gives (value context (routines context depth) id) state code after :=
        generated
      simp only [value, gives_bind, gives_lift, lookupNode_eq_ok] at given
      obtain ⟨other, _, ⟨otherFound, rfl⟩, own, _, ⟨otherTyped, rfl⟩, given⟩ := given
      obtain rfl := Option.some.inj (found.symm.trans otherFound)
      obtain rfl := Except.ok.inj (typed.symm.trans otherTyped)
      rw [kind] at given
      simp only [gives_bind, gives_store, gives_pure] at given
      obtain ⟨place, middle, left, value, next, right, _, _, ⟨rfl, rfl⟩, rfl, rfl⟩ :=
        given
      exact ⟨depth, place, middle, value, next, left, right, rfl⟩

/-- The type of an assignment fits memory, and is moved as a whole. -/
theorem size_of_assign
    {program : Program}
    {tokens : TokenStream}
    (sound : program.Sound tokens)
    {id lhs rhs : NodeId}
    {node : Node}
    {ty : Ty}
    (found : program.node? id = some node)
    (kind : node.kind = .assign lhs rhs)
    (typed : program.nodeTy id = .ok ty) :
    program.nodeTy lhs = .ok ty ∧ ty.size < 2 ^ 63 ∧
      (ty.isAggregate = false -> ((Width.ofSize ty.size).bytes : Int) = ty.size) := by
  obtain ⟨own, _, there, rule⟩ := exists_typing sound found typed
  rw [kind] at rule
  obtain ⟨left, _, leftTyped, _, notArray, _⟩ := rule
  have same := Grammar.nodeTy_eq_ok leftTyped
  obtain ⟨_, _, _, leftFound⟩ := leftTyped
  obtain rfl := Option.some.inj (there.symm.trans leftFound)
  have entry := sound.types.entries own ty there
  have small := entry.small
  simp only [Extent.maxValue] at small
  exact ⟨same, by omega, fun scalar => entry.moved scalar notArray⟩

/-- What a run of an assignment does: it pushes the address of the target, goes through
the code of the right side, and stores the value on top of the stack in the target.  The
value is pushed again. -/
structure Assigns (names : Names) (callees : Callees) (ty : Ty)
    (target : Word) (value : Code) (start pushed before last : Machine) : Prop where
  addressed : Addressed target start pushed
  through : SparingRuns names callees (start.regs .rsp) value ⟨value, pushed⟩ ⟨[], before⟩
  top : last.top = before.top
  memory : last.memory =
    (stored ty target before.top before.memory).write (start.regs .rsp - 8) 8 before.top

/-- Assignments write only their target.  The target is a variable followed by member
accesses, and the run is one through the code of the assignment that leaves alone what
waits on the stack and in which no goto changes the height of the stack.  After the
address has been pushed, the run goes through the code of the right side, and then stores
its value at the place of the target: the bytes of the type at the address of the variable
plus the offsets of the members.  All other memory stays as the right side left it, but
for the word on top of the stack.

The target lies inside the variable, and apart from the other members of the structs on
the way.  The stored bytes are the low bytes of a number, or those of a struct or union
that does not overlap the target in part. -/
theorem assignment_writes_only_its_target
    {file : SourceFile}
    {program : Program}
    (parsed : parseFile file = .ok program)
    {id lhs rhs : NodeId}
    {node : Node}
    {ty : Ty}
    (found : program.node? id = some node)
    (kind : node.kind = .assign lhs rhs)
    (typed : program.nodeTy id = .ok ty)
    {symbol : SymbolId}
    {path : List Selection}
    {entry : Symbol}
    {whole : Ty}
    (selects : program.Selects lhs symbol path)
    (declared : program.symbol? symbol = some entry)
    (wholeFound : program.types.get? entry.ty = some whole)
    (level : program.GotosLevel [⟨0, rhs⟩])
    {function : String}
    {depth : Nat}
    {state after : State}
    {code : Code}
    (generated : (routines ⟨program, function⟩ depth).value id state = .ok (code, after))
    {names : Names}
    {callees : Callees}
    (restore : callees.Restore)
    {start last : Machine}
    (short : 8 * code.length + 16 < 2 ^ 64)
    (run : SparingRuns names callees (start.regs .rsp) code ⟨code, start⟩ ⟨[], last⟩) :
    let object := addressOf program names (start.regs .rbp) symbol
    let target := object + .ofInt 64 (Selection.offset path)
    let size := ty.size.toNat
    (∃ inner valueState valueAfter place value pushed before,
      (routines ⟨program, function⟩ inner).value rhs valueState =
        .ok (value, valueAfter) ∧
      code = place ++ value ++ storeLines ty ∧
      Assigns names callees ty target value start pushed before last) ∧
    (∀ value memory place, ¬Covers target size place ->
      stored ty target value memory place = memory place) ∧
    (ty.isAggregate = false -> ∀ value memory,
      (stored ty target value memory).read target size = value.toNat % 256 ^ size) ∧
    (ty.isAggregate = true -> ∀ value memory,
      value = target ∨ Apart value size target size ->
      ∀ index < size, stored ty target value memory (target + .ofNat 64 index) =
        memory (value + .ofNat 64 index)) ∧
    (∀ place, Covers target size place -> Covers object whole.size.toNat place) ∧
    ∀ above step below members index other otherTy, path = above ++ step :: below ->
      step.owner.kind = .aggregate .struct members -> members[index]? = some other ->
      index ≠ step.index -> program.types.get? other.ty = some otherTy ->
      Apart target size (object + .ofInt 64 (Selection.offset above + other.offset))
        otherTy.size.toNat := by
  intro object target size
  obtain ⟨tokens, sound⟩ := sound_of_parseFile parsed
  obtain ⟨lhsTyped, sizeBound, moved⟩ := size_of_assign sound found kind typed
  have wholeSmall : whole.size < 2 ^ 63 := by
    have bound := (sound.types.entries entry.ty whole wholeFound).small
    simp only [Extent.maxValue] at bound
    omega
  obtain ⟨nonneg, inside⟩ := selects.inside sound declared wholeFound lhsTyped
  refine ⟨?_, fun value memory place => stored_of_not_covers (by omega), ?_,
    fun aggregate value memory apart index => stored_of_apart aggregate (by omega) apart,
    fun place => covers_of_offset nonneg inside (by omega), ?_⟩
  · obtain ⟨inner, place, middle, value, next, left, right, rfl⟩ :=
      exists_parts_of_assign found kind typed generated
    have valueEmits := (Emits.of_routines ⟨program, function⟩ inner).value right
    obtain ⟨list, rfl, straight, pushes⟩ := addressed_of_emits names
      ((Emits.of_routines ⟨program, function⟩ inner).address left) rfl selects
    obtain ⟨stores, lines, storesStraight, runs⟩ := runAll_storeLines names moved
    -- The run goes through the address, the value and the store, one after the other.
    rw [lines, List.append_assoc] at run
    obtain ⟨forth, back⟩ := (Code.jointless_of_straight straight).separate
    obtain ⟨pushed, first, others⟩ := run.split forth back (List.append_nil _).symm
    obtain ⟨forth, back⟩ := (Code.jointless_of_straight storesStraight).separate
    obtain ⟨before, through, final⟩ := others.split back forth (List.append_nil _).symm
    obtain ⟨other, ran, addressed⟩ := pushes start
    obtain rfl := Option.some.inj ((first.runAll straight).symm.trans ran)
    obtain ⟨other, ran, rsp, rbp, top, memory⟩ := runs before
    obtain rfl := Option.some.inj ((final.runAll storesStraight).symm.trans ran)
    -- The address has waited for the value.
    have word : (start.regs .rsp - pushed.regs .rsp).toNat = 8 := by
      rw [addressed.rsp]
      bv_omega
    have waits := valueEmits.waits_through level restore (by
      rw [word]
      simp only [List.length_append] at short
      omega) through
    have pointer : before.regs .rsp + 8 = start.regs .rsp - 8 := by
      rw [waits.rsp, addressed.rsp]
      exact BitVec.sub_add_cancel _ _
    have address :
        BitVec.ofNat 64 (before.memory.read (start.regs .rsp - 8) 8) = target := by
      have same : before.memory.read (start.regs .rsp - 8) 8 =
          pushed.memory.read (start.regs .rsp - 8) 8 := by
        apply Memory.read_congr (by decide)
        intro place covered
        apply waits.spared
        rw [word, addressed.rsp]
        exact covered
      rw [same, ← addressed.rsp]
      exact addressed.top
    rw [pointer, address] at memory
    exact ⟨inner, middle, next, instrs list, value, pushed, before, right, by rw [lines],
      addressed, through, top, memory⟩
  · intro scalar value memory
    have width := moved scalar
    have bytes :
        (Width.ofSize ty.size).bytes ≤ 8 := by cases Width.ofSize ty.size <;> decide
    exact read_stored scalar (by omega)
  · intro above step below members index other otherTy passed isStruct listed
      different otherFound
    obtain ⟨otherNonneg, otherInside, disjoint⟩ :=
      selects.apart sound declared wholeFound lhsTyped passed isStruct listed
        different otherFound
    exact apart_of_offsets nonneg inside otherNonneg otherInside (by omega) disjoint

/-- A file that assigns to a member of a member. -/
def innerMemberFile : SourceFile :=
  ⟨"t.c", "struct S { char a; struct { int b; int c; } i; }; int main() { struct S s; s.i.c = 5; }"⟩

/-- The program in that file. -/
def innerMemberProgram : Program := (parseFile innerMemberFile).toOption.getD .empty

/-- The outer struct of that file. -/
def outerTy : Ty :=
  ⟨.aggregate .struct [⟨"a", .char, 0, 4⟩, ⟨"i", ⟨7⟩, 4, 15⟩], 12, 4, some 2⟩

/-- The inner struct of that file. -/
def innerTy : Ty :=
  ⟨.aggregate .struct [⟨"b", .int, 0, 9⟩, ⟨"c", .int, 4, 12⟩], 8, 4, some 7⟩

/-- The code of the assignment in that file. -/
def innerMemberCode : Code :=
  (((routines ⟨innerMemberProgram, "main"⟩ 10).value ⟨6⟩ ⟨0, 0⟩).toOption.map
    Prod.fst).getD []

/-- Of the twelve bytes of the variable, the last four are written. -/
theorem innerMember_assignment_writes_only_its_target :
    ∃ last,
      SparingRuns (fun _ => 65536) (fun _ machine next => next = machine)
        (restingMachine.regs .rsp) innerMemberCode
          ⟨innerMemberCode, restingMachine⟩ ⟨[], last⟩ ∧
      last.top = 5 ∧
      (∃ before : Machine, last.memory =
        (stored ⟨.int, 4, 4, none⟩ (8180 + .ofInt 64 8) before.top
        before.memory).write (restingMachine.regs .rsp - 8) 8 before.top) ∧
      Apart (8180 + .ofInt 64 8) 4 (8180 + .ofInt 64 (4 + 0)) 4 := by
  obtain ⟨isOk, varKnown, outerKnown, innerKnown, known, outer, inner, int, declared,
    noGoto, short,
      generated, moved⟩ :
      (parseFile innerMemberFile).isOk = true ∧
      (innerMemberProgram.node? ⟨1⟩).map (fun node => (node.kind, node.ty)) =
        some (.var ⟨1⟩, some ⟨6⟩) ∧
      (innerMemberProgram.node? ⟨2⟩).map (fun node => (node.kind, node.ty)) =
        some (.member ⟨1⟩ ⟨6⟩ 1, some ⟨7⟩) ∧
      (innerMemberProgram.node? ⟨3⟩).map (fun node => (node.kind, node.ty)) =
        some (.member ⟨2⟩ ⟨7⟩ 1, some .int) ∧
      (innerMemberProgram.node? ⟨6⟩).map (fun node => (node.kind, node.ty)) =
        some (.assign ⟨3⟩ ⟨5⟩, some .int) ∧
      innerMemberProgram.types.get? ⟨6⟩ = some outerTy ∧
      innerMemberProgram.types.get? ⟨7⟩ = some innerTy ∧
      innerMemberProgram.types.get? .int = some ⟨.int, 4, 4, none⟩ ∧
      innerMemberProgram.symbol? ⟨1⟩ = some ⟨"s", ⟨6⟩, false, .localVar (some 12)⟩ ∧
      innerMemberProgram.noGoto = true ∧
      8 * innerMemberCode.length + 16 < 2 ^ 64 ∧
      (routines ⟨innerMemberProgram, "main"⟩ 10).value ⟨6⟩ ⟨0, 0⟩ =
        .ok (innerMemberCode, ⟨1, 0⟩) ∧
      (sparingMoves? (fun _ => 65536) (fun _ machine => machine)
        (restingMachine.regs .rsp)
        innerMemberCode 15 ⟨innerMemberCode, restingMachine⟩).map
          (fun config => (config.rest, config.machine.top)) = some ([], 5) := by
    decide +kernel
  have parsed : parseFile innerMemberFile = .ok innerMemberProgram := eq_ok_of_isOk isOk
  obtain ⟨_, varFound, varKind, _⟩ := exists_node _ _ _ _ varKnown
  obtain ⟨_, outerFound, outerKind, _⟩ := exists_node _ _ _ _ outerKnown
  obtain ⟨_, innerFound, innerKind, _⟩ := exists_node _ _ _ _ innerKnown
  obtain ⟨node, found, kind, own⟩ := exists_node _ _ _ _ known
  have typed : innerMemberProgram.nodeTy ⟨6⟩ = .ok ⟨.int, 4, 4, none⟩ :=
    Grammar.nodeTy_eq_ok ⟨node, found, own, int⟩
  have selects : innerMemberProgram.Selects ⟨3⟩ ⟨1⟩
      [⟨outerTy, 1, ⟨"i", ⟨7⟩, 4, 15⟩⟩, ⟨innerTy, 1, ⟨"c", .int, 4, 12⟩⟩] :=
    .member innerFound innerKind inner rfl
      (.member outerFound outerKind outer rfl (.var varFound varKind))
  obtain ⟨last, run, top⟩ :=
    @SparingRuns.exists_of_sparingMoves? (fun _ => 65536) (restingMachine.regs .rsp)
      (fun _ machine => machine) innerMemberCode (fun _ _ => rfl) _ 15
      ⟨innerMemberCode, restingMachine⟩ [] Machine.top 5 moved
  have address : addressOf innerMemberProgram (fun _ => 65536)
      (restingMachine.regs .rbp) ⟨1⟩ = 8180 :=
    (addressOf_local declared rfl).trans (by decide)
  obtain ⟨⟨_, _, _, _, _, _, before, _, _, assigns⟩, _, _, _, _, apart⟩ :=
    assignment_writes_only_its_target parsed found kind typed selects declared outer
      (.of_noGoto noGoto _) generated
        (fun _ _ _ same => by rw [same]; exact ⟨rfl, rfl⟩) short run
  rw [address] at apart
  have memory := assigns.memory
  rw [address] at memory
  refine ⟨last, run, top, ⟨before, memory⟩, ?_⟩
  exact apart [⟨outerTy, 1, ⟨"i", ⟨7⟩, 4, 15⟩⟩] ⟨innerTy, 1, ⟨"c", .int, 4, 12⟩⟩ [] _ 0
    ⟨"b", .int, 0, 9⟩ ⟨.int, 4, 4, none⟩ rfl rfl rfl (by decide) int

/-- A file that assigns the value of a statement expression in which a goto leaves another
one that a value waits for. -/
def leavingGotoFile : SourceFile :=
  ⟨"t.c", "int main() { int x; x = ({ 1 + ({ goto l; 2; }); l: ; 3; }); return x; }"⟩

/-- The program in that file. -/
def leavingGotoProgram : Program := (parseFile leavingGotoFile).toOption.getD .empty

/-- The code of the assignment in that file. -/
def leavingGotoCode : Code :=
  (((routines ⟨leavingGotoProgram, "main"⟩ 24).value ⟨17⟩ ⟨0, 0⟩).toOption.map
    Prod.fst).getD []

/-- The goto leaves the one on the stack, and the store takes it for the address of the
variable.  Three is stored at address one, and the variable is as it was. -/
theorem leavingGoto_assignment_misses_its_target :
    parseFile leavingGotoFile = .ok leavingGotoProgram ∧
      (leavingGotoProgram.node? ⟨17⟩).map (·.kind) = some (.assign ⟨1⟩ ⟨16⟩) ∧
      leavingGotoProgram.Selects ⟨1⟩ ⟨1⟩ [] ∧
      addressOf leavingGotoProgram (fun _ => 65536)
        (restingMachine.regs .rbp) ⟨1⟩ = 8188 ∧
      (routines ⟨leavingGotoProgram, "main"⟩ 24).value ⟨17⟩ ⟨0, 0⟩ =
        .ok (leavingGotoCode, ⟨1, 0⟩) ∧
      ∃ last,
        SparingRuns (fun _ => 65536) (fun _ machine next => next = machine)
          (restingMachine.regs .rsp) leavingGotoCode ⟨leavingGotoCode, restingMachine⟩
          ⟨[], last⟩ ∧
        last.top = 3 ∧ last.memory.read 1 4 = 3 ∧ last.memory.read 8188 4 = 0 := by
  obtain ⟨isOk, varKnown, known, address, generated, moved⟩ :
      (parseFile leavingGotoFile).isOk = true ∧
      (leavingGotoProgram.node? ⟨1⟩).map (fun node => (node.kind, node.ty)) =
        some (.var ⟨1⟩, some .int) ∧
      (leavingGotoProgram.node? ⟨17⟩).map (·.kind) = some (.assign ⟨1⟩ ⟨16⟩) ∧
      addressOf leavingGotoProgram (fun _ => 65536)
        (restingMachine.regs .rbp) ⟨1⟩ = 8188 ∧
      (routines ⟨leavingGotoProgram, "main"⟩ 24).value ⟨17⟩ ⟨0, 0⟩ =
        .ok (leavingGotoCode, ⟨1, 0⟩) ∧
      (sparingMoves? (fun _ => 65536) (fun _ machine => machine)
        (restingMachine.regs .rsp)
        leavingGotoCode 15 ⟨leavingGotoCode, restingMachine⟩).map
          (fun config => (config.rest, config.machine.top, config.machine.memory.read 1 4,
            config.machine.memory.read 8188 4)) = some ([], 3, 3, 0) := by
    decide +kernel
  obtain ⟨_, varFound, varKind, _⟩ := exists_node _ _ _ _ varKnown
  obtain ⟨last, run, read⟩ :=
    @SparingRuns.exists_of_sparingMoves? (fun _ => 65536) (restingMachine.regs .rsp)
      (fun _ machine => machine) leavingGotoCode (fun _ _ => rfl) _ 15
      ⟨leavingGotoCode, restingMachine⟩ []
      (fun last => (last.top, last.memory.read 1 4, last.memory.read 8188 4))
      (3, 3, 0) moved
  simp only [Prod.mk.injEq] at read
  exact ⟨eq_ok_of_isOk isOk, known, .var varFound varKind, address, generated,
    last, run, read⟩

end Assignment

end Semantics
end MiniC
