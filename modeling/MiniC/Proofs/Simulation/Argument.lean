import MiniC.Proofs.Simulation.Operation
import MiniC.Proofs.Simulation.Waiting

/-!
# How arguments reach their registers

The code of a call pushes the values of the arguments one after the other, and then pops
them into the argument registers, the last one first.  The code of an argument may call
functions, which use the same registers, and it may branch and loop.  It still leaves
alone the values that wait for it, so every register receives the value of its own
argument.

This needs that a goto in an argument stays there and leads to a label below which as many
values wait, which the compiler does not check.
-/

namespace MiniC

/-! ## Gotos in arguments -/

namespace Program

/-- No goto in one tree leads to a label in another. -/
def GotosApart (program : Program) (first second : NodeId) : Prop :=
  ∀ goto label name, program.Contains first goto -> program.Contains second label ->
    program.sign? goto = some (.goto name) -> program.sign? label ≠ some (.label name)

/-- The gotos in arguments stay in their argument, and keep the number of values that
wait. -/
structure GotosStay (program : Program) (args : List NodeId) : Prop where
  level : ∀ arg ∈ args, program.GotosLevel [⟨0, arg⟩]
  apart : args.Pairwise fun first second =>
    program.GotosApart first second ∧ program.GotosApart second first

theorem GotosStay.of_noGoto {program : Program} (noGoto : program.noGoto = true)
    (args : List NodeId) : program.GotosStay args := by
  have apart (first second : NodeId) : program.GotosApart first second :=
    fun _ _ _ _ _ isGoto => absurd isGoto (program.sign?_ne_goto noGoto _ _)
  exact ⟨fun arg _ => .of_noGoto noGoto _,
    List.pairwise_of_forall fun first second => ⟨apart first second, apart second first⟩⟩

end Program

namespace Emit

open Asm

section Separate

variable {context : Context} {task other : Task} {state middle next after : State}
  {code first second : Code}

/-- The numbered labels of a text are those handed out for it. -/
theorem Labelled.bounds_of_mem
    (labelled : Labelled state code after)
    {line : Line}
    (member : line ∈ code)
    {role : Role}
    {number : Nat}
    (joint : line.defined? = some (.numbered role number) ∨
      line.target? = some (.numbered role number)) :
    state.nextLabel ≤ number ∧ number < after.nextLabel := by
  obtain ⟨before, rest, rfl⟩ := List.append_of_mem member
  apply labelled.own number 0
  have marked : Code.mark? number (0 + Code.height before) line ≠ none := by
    unfold Code.mark?
    rcases joint with defined | jumps
    · simp [defined]
    · cases line with
      | instr step => simp [jumps, Line.defined?]
      | _ => cases jumps
  obtain ⟨mark, marks⟩ := Option.ne_none_iff_exists'.mp marked
  rw [Code.marks_append, Code.marks, marks]
  simp

/-- The codes of tasks do not jump into each other if their labels were handed out apart
and no goto leads from one to the other. -/
theorem Emits.separate
    (left : Emits context task state first middle)
    (right : Emits context other next second after)
    (numbers : middle.nextLabel ≤ next.nextLabel ∨ after.nextLabel ≤ state.nextLabel)
    (apart : ∀ root ∈ task.spots, ∀ otherRoot ∈ other.spots,
      context.program.GotosApart root.id otherRoot.id) :
    first.Separate second := by
  intro line member target jumps defined
  rcases right.label_cases defined with ⟨role, number, rfl⟩ | ⟨name, rfl⟩
  · have there := left.disciplined.labelled.bounds_of_mem member (.inr jumps)
    have here := right.disciplined.labelled.bounds_of_mem defined (.inl rfl)
    omega
  · have named : line.isNamed = true := by
      unfold Line.target? at jumps
      split at jumps <;> simp_all [Line.isNamed]
    obtain ⟨nodes, lists, _⟩ := left.signs
    obtain ⟨others, othersLists, _⟩ := right.signs
    obtain ⟨before, rest, divided⟩ := List.append_of_mem member
    obtain ⟨above, below, equal⟩ := List.append_of_mem defined
    obtain ⟨goto, gotoListed, sign, gotoSign, equalLine, _⟩ :=
      left.exists_spot lists divided named
    obtain ⟨label, labelListed, otherSign, labelSign, equalLabel, _⟩ :=
      right.exists_spot othersLists equal rfl
    obtain rfl : sign = .goto name := by
      cases sign <;> simp_all [Sign.line, Line.target?]
    obtain rfl : otherSign = .label name := by
      cases otherSign <;> simp_all [Sign.line]
    obtain ⟨root, isRoot, contains⟩ := lists.mem_iff_contains.mp ⟨goto, gotoListed, rfl⟩
    obtain ⟨otherRoot, isOtherRoot, otherContains⟩ :=
      othersLists.mem_iff_contains.mp ⟨label, labelListed, rfl⟩
    exact apart root isRoot otherRoot isOtherRoot goto.id label.id name
      contains otherContains gotoSign labelSign

end Separate

end Emit

/-! ## Words on the stack -/

namespace Asm

open Emit

/-- Memory in which words were pushed one after the other from a stack pointer on. -/
def Memory.Stacks (memory : Memory) (pointer : Word) : List Word -> Prop
  | [] => True
  | word :: words =>
      BitVec.ofNat 64 (memory.read (pointer - 8) 8) = word ∧
        memory.Stacks (pointer - 8) words

/-- Pops, the last register first, bring words back in the order in which they were
pushed. -/
theorem exists_runAll_pops
    {names : Names}
    {regs : List Reg}
    {words : List Word}
    {machine : Machine}
    {pointer : Word}
    (nodup : regs.Nodup)
    (others : .rsp ∉ regs)
    (count : words.length = regs.length)
    (level : machine.regs .rsp = pointer - .ofInt 64 (8 * words.length))
    (holds : machine.memory.Stacks pointer words) :
    ∃ next, Instr.runAll names machine (regs.reverse.map .pop) = some next ∧
      next.regs .rsp = pointer ∧ next.memory = machine.memory ∧
      regs.map next.regs = words ∧
      ∀ reg, reg ∉ regs -> reg ≠ .rsp -> next.regs reg = machine.regs reg := by
  induction regs generalizing words pointer with
  | nil =>
      obtain rfl : words = [] := List.length_eq_zero_iff.mp count
      exact ⟨machine, rfl, by simpa using level, rfl, rfl, fun _ _ _ => rfl⟩
  | cons reg regs hypothesis =>
      obtain ⟨word, words, rfl⟩ := List.exists_cons_of_length_eq_add_one count
      obtain ⟨new, nodup⟩ := List.nodup_cons.mp nodup
      have notPointer := List.ne_of_not_mem_cons others
      replace others := List.not_mem_of_not_mem_cons others
      obtain ⟨top, holds⟩ := holds
      have lower : machine.regs .rsp = pointer - 8 - .ofInt 64 (8 * words.length) := by
        have sum : (8 : Int) * (word :: words).length = 8 + 8 * words.length := by
          rw [List.length_cons]
          omega
        rw [level, sum, BitVec.ofInt_add]
        simp only [BitVec.sub_eq_add_neg, BitVec.neg_add, BitVec.add_assoc]
        rfl
      obtain ⟨next, ran, rsp, memory, values, kept⟩ :=
        hypothesis nodup others (Nat.succ.inj count) lower holds
      have popped : next.top = word := by
        rw [Machine.top, rsp, memory]
        exact top
      refine ⟨next.pop reg, ?_, ?_, memory, ?_, ?_⟩
      · rw [List.reverse_cons, List.map_append, Semantics.runAll_append, ran]
        rfl
      · rw [Machine.pop_regs, if_neg notPointer, if_pos rfl, rsp, BitVec.sub_add_cancel]
      · rw [List.map_cons, Machine.pop_regs, if_pos rfl, popped]
        congr 1
        rw [← values]
        apply List.map_congr_left
        intro later member
        rw [Machine.pop_regs, if_neg (ne_of_mem_of_not_mem member new),
          if_neg (ne_of_mem_of_not_mem member others)]
      · intro later free notLater
        rw [Machine.pop_regs, if_neg (List.ne_of_not_mem_cons free), if_neg notLater]
        exact kept later (List.not_mem_of_not_mem_cons free) notLater

/-- A run through a text without jumps goes on from line to line. -/
theorem SparingRuns.exists_above
    {names : Names}
    {callees : Callees}
    {base : Word}
    {code rest : Code}
    {start last : Machine}
    (jointless : code.Jointless)
    (run : SparingRuns names callees base code ⟨code, start⟩ ⟨rest, last⟩) :
    ∃ above, code = above ++ rest ∧ (above = [] -> last = start) := by
  generalize reached : (⟨rest, last⟩ : Config) = config at run
  induction run generalizing rest last with
  | refl =>
      cases reached
      exact ⟨[], rfl, fun _ => rfl⟩
  | tail _ move hypothesis =>
      subst reached
      obtain ⟨above, divided, _⟩ := hypothesis rfl
      obtain ⟨line, tail, equal, ⟨rfl, _⟩ | ⟨target, jumps, _⟩⟩ := move.1.cases
      · rw [equal] at divided
        exact ⟨above ++ [line], by simp [divided], by simp⟩
      · rw [equal] at divided
        rw [(jointless line (by simp [divided])).2] at jumps
        cases jumps

/-- A run through straight instructions to a line behind which no line jumps runs them one
after the other. -/
theorem SparingRuns.runAll_of_jointless
    {names : Names}
    {callees : Callees}
    {base : Word}
    {list : List Instr}
    {rest : Code}
    {start last : Machine}
    (straight : ∀ instr ∈ list, instr.isStraight = true)
    (jointless : rest.Jointless)
    (run : SparingRuns names callees base (instrs list ++ rest)
      ⟨instrs list ++ rest, start⟩ ⟨rest, last⟩) :
    Instr.runAll names start list = some last := by
  obtain ⟨forth, back⟩ := (Code.jointless_of_straight straight).separate
  obtain ⟨middle, through, stays⟩ := run.split forth back (List.nil_append rest).symm
  obtain ⟨above, divided, same⟩ := stays.exists_above jointless
  obtain rfl : last = middle := same (List.self_eq_append_left.mp divided)
  exact through.runAll straight

/-- Runs through several texts one after the other, each from its beginning to its end.
The words are those that are then on top of the stack. -/
inductive RunsParts (names : Names) (callees : Callees) (base : Word) :
    List Code -> Machine -> List Word -> Machine -> Prop
  | nil {machine} : RunsParts names callees base [] machine [] machine
  | cons {part parts start middle words last}
      (first : SparingRuns names callees base part ⟨part, start⟩ ⟨[], middle⟩)
      (others : RunsParts names callees base parts middle words last) :
      RunsParts names callees base (part :: parts) start (middle.top :: words) last

theorem RunsParts.length_words
    {names : Names}
    {callees : Callees}
    {base : Word}
    {parts : List Code}
    {start last : Machine}
    {words : List Word}
    (ran : RunsParts names callees base parts start words last) :
    words.length = parts.length := by
  induction ran with
  | nil => rfl
  | cons _ _ hypothesis => simp [hypothesis]

end Asm

/-! ## Arguments one after the other -/

namespace Semantics

open Asm Emit

/-- A text that the generator gives for the value of a node. -/
def IsValueCode (context : Context) (id : NodeId) (code : Code) : Prop :=
  ∃ depth state after, (routines context depth).value id state = .ok (code, after)

section Arguments

variable {context : Context} {state after : State} {code : Code}

/-- The code of several values consists of the codes of the values.  A run through it goes
through all of these in order, and leaves the values on the stack. -/
theorem exists_parts_of_values
    {depth : Nat}
    {ids : List NodeId}
    (given : Gives (Emit.sequence (routines context depth).value ids) state code after)
    (stay : context.program.GotosStay ids) :
    ∃ parts, code = parts.flatten ∧ List.Forall₂ (IsValueCode context) ids parts ∧
      ∀ names callees base start last, Callees.Restore callees ->
        (base - start.regs .rsp).toNat + (8 * code.length + 8) < 2 ^ 64 ->
        SparingRuns names callees base code ⟨code, start⟩ ⟨[], last⟩ ->
        ∃ words, RunsParts names callees base parts start words last ∧
          Waits base (8 * words.length) start last ∧
          last.memory.Stacks (start.regs .rsp) words := by
  induction ids generalizing state code with
  | nil =>
      simp only [Emit.sequence, gives_pure] at given
      obtain ⟨rfl, rfl⟩ := given
      refine ⟨[], rfl, .nil, fun names callees base start last _ _ run => ?_⟩
      obtain ⟨above, divided, same⟩ := run.exists_above (by simp [Code.Jointless])
      obtain rfl : last = start := same (by simpa using divided.symm)
      exact ⟨[], .nil, .refl base last, trivial⟩
  | cons id rest hypothesis =>
      simp only [Emit.sequence, gives_bind, gives_pure] at given
      obtain ⟨first, middle, head, following, _, tail, rfl, rfl⟩ := given
      obtain ⟨apart, later⟩ := List.pairwise_cons.mp stay.apart
      obtain ⟨own, levels⟩ := List.forall_mem_cons.mp stay.level
      obtain ⟨parts, rfl, codes, runs⟩ := hypothesis tail ⟨levels, later⟩
      have headEmits := (Emits.of_routines context depth).value head
      have tailEmits := Emits.of_values (Emits.of_routines context depth) tail
      have beside (other : Spot) (isOther : other ∈ (Task.values rest).spots) :
          other.id ∈ rest := by
        rw [← Spot.map_id_stacked rest]
        exact List.mem_map_of_mem isOther
      have forth : first.Separate parts.flatten := by
        refine headEmits.separate tailEmits (.inl (Nat.le_refl _)) ?_
        rintro root isRoot other isOther
        obtain rfl := List.mem_singleton.mp isRoot
        exact (apart other.id (beside other isOther)).1
      have back : Code.Separate parts.flatten first := by
        refine tailEmits.separate headEmits (.inr (Nat.le_refl _)) ?_
        rintro other isOther root isRoot
        obtain rfl := List.mem_singleton.mp isRoot
        exact (apart other.id (beside other isOther)).2
      refine ⟨first :: parts, rfl, .cons ⟨depth, state, middle, head⟩ codes,
        fun names callees base start last restore room run => ?_⟩
      obtain ⟨between, through, others⟩ := run.split forth back (List.append_nil _).symm
      have long : 1 ≤ first.length := by
        have height := headEmits.disciplined.piece.height
        have most := Code.height_le_length first
        simp only [Task.rise] at height
        omega
      rw [List.length_append] at room
      have waits := headEmits.waits_through own restore (by omega) through
      have lowered := @toNat_sub_lowered base (start.regs .rsp) (8 * (Task.value id).rise)
        (by simp [Task.rise]) (by simp only [Task.rise]; omega)
      rw [← waits.rsp] at lowered
      simp only [Task.rise] at lowered
      obtain ⟨words, ran, further, holds⟩ :=
        runs names callees base between last restore (by omega) others
      have pointer : between.regs .rsp = start.regs .rsp - 8 := waits.rsp
      -- The value of the first argument has waited for the others.
      have kept : last.memory.read (start.regs .rsp - 8) 8 =
          between.memory.read (start.regs .rsp - 8) 8 := by
        apply Memory.read_congr (by decide)
        intro place covered
        apply further.spared
        rw [pointer] at lowered ⊢
        unfold Covers at covered ⊢
        omega
      refine ⟨between.top :: words, .cons through ran, ?_, ?_, ?_⟩
      · have both :=
          waits.trans further (by simp [Task.rise]) (by simp only [Task.rise]; omega)
        have sum : (8 : Int) * (between.top :: words).length =
            8 * (Task.value id).rise + 8 * words.length := by
          rw [List.length_cons, Task.rise]
          omega
        rw [sum]
        exact both
      · rw [kept, ← pointer]
        rfl
      · rw [← pointer]
        exact holds

/-- A call is aligned, its accumulator set to zero, and made. -/
theorem callLines_cases (depth : Int) (name : String) :
    ∃ align restore, callLines depth name =
        instrs (align ++ [.set .rax 0]) ++ .instr (.call name) :: instrs restore ∧
      (align = [] ∧ restore = [] ∨ align = [.subConst .rsp 8] ∧
        restore = [.addConst .rsp 8]) := by
  unfold callLines
  split
  · exact ⟨[], [], rfl, .inl ⟨rfl, rfl⟩⟩
  · exact ⟨[.subConst .rsp 8], [.addConst .rsp 8], rfl, .inr ⟨rfl, rfl⟩⟩

/-- The instructions before a call. -/
def passInstrs (count : Nat) (align : List Instr) : List Instr :=
  (argumentRegisters.take count).reverse.map .pop ++ (align ++ [.set .rax 0])

theorem straight_passInstrs {count : Nat} {align : List Instr}
    (aligns : align = [] ∨ align = [.subConst .rsp 8]) :
    ∀ instr ∈ passInstrs count align, instr.isStraight = true := by
  intro instr member
  rcases List.mem_append.mp member with pops | others
  · obtain ⟨reg, _, rfl⟩ := List.mem_map.mp pops
    rfl
  · rcases aligns with rfl | rfl
    · obtain rfl := List.mem_singleton.mp others
      rfl
    · obtain rfl | rfl := List.mem_pair.mp others <;> rfl

/-- The instructions before a call bring the values on the stack into the argument
registers. -/
theorem exists_runAll_passInstrs
    {names : Names}
    {align : List Instr}
    (aligns : align = [] ∨ align = [.subConst .rsp 8])
    {words : List Word}
    (few : words.length ≤ argumentRegisters.length)
    {machine : Machine}
    {pointer : Word}
    (level : machine.regs .rsp = pointer - .ofInt 64 (8 * words.length))
    (holds : machine.memory.Stacks pointer words) :
    ∃ next, Instr.runAll names machine (passInstrs words.length align) = some next ∧
      (argumentRegisters.take words.length).map next.regs = words ∧
      next.regs .rbp = machine.regs .rbp ∧ next.memory = machine.memory := by
  have apart :
      ∀ reg ∈ argumentRegisters, reg ≠ .rax ∧ reg ≠ .rsp ∧ reg ≠ .rbp := by decide
  have nodup : argumentRegisters.Nodup := by decide
  have away {reg : Reg} (member : reg ∈ argumentRegisters.take words.length) :
      reg ≠ .rax ∧ reg ≠ .rsp ∧ reg ≠ .rbp :=
    apart reg (List.mem_of_mem_take member)
  obtain ⟨popped, ran, _, memory, values, kept⟩ :=
    @exists_runAll_pops names (argumentRegisters.take words.length) words machine pointer
      (nodup.sublist (List.take_sublist _ _)) (fun member => (away member).2.1 rfl)
      (List.length_take_of_le few).symm level holds
  have base := kept .rbp (fun member => (away member).2.2 rfl) (by decide)
  -- Neither the alignment nor the zero in the accumulator touches an argument register.
  have same {next : Machine} (others : ∀ reg, reg ≠ .rax -> reg ≠ .rsp ->
      next.regs reg = popped.regs reg) :
      (argumentRegisters.take words.length).map next.regs = words ∧
        next.regs .rbp = machine.regs .rbp := by
    refine ⟨?_, (others .rbp (by decide) (by decide)).trans base⟩
    refine Eq.trans (List.map_congr_left fun reg member => ?_) values
    exact others reg (away member).1 (away member).2.1
  unfold passInstrs
  rcases aligns with rfl | rfl
  · obtain ⟨registers, base⟩ := @same (popped.set .rax 0)
      fun reg notRax _ => by rw [Machine.set_regs, if_neg notRax]
    exact ⟨_, by rw [runAll_append, ran]; rfl, registers, base, memory⟩
  · obtain ⟨registers, base⟩ :=
      @same ((popped.setResult .rsp (popped.regs .rsp - 8)).set .rax 0)
      fun reg notRax notPointer => by
        rw [Machine.set_regs, if_neg notRax, Machine.setResult_regs, if_neg notPointer]
    exact ⟨_, by rw [runAll_append, ran]; rfl, registers, base, memory⟩

/-- The code of a call: the codes of the arguments, the instructions that bring their
values into registers, and the call. -/
theorem exists_lines_of_call
    {depth : Nat}
    {id : NodeId}
    {node : Node}
    {function : SymbolId}
    {args : List NodeId}
    (found : context.program.node? id = some node)
    (kind : node.kind = .call function args)
    (generated : (routines context depth).value id state = .ok (code, after)) :
    ∃ inner middle values entry align tail,
      Gives (Emit.sequence (routines context inner).value args) state values middle ∧
      args.length ≤ argumentRegisters.length ∧
      context.program.symbol? function = some entry ∧
      (align = [] ∨ align = [.subConst .rsp 8]) ∧
      (∀ instr ∈ tail, instr.isStraight = true) ∧
      code = values ++ (instrs (passInstrs args.length align) ++
        .instr (.call entry.name) :: instrs tail) := by
  cases depth with
  | zero => cases generated
  | succ depth =>
      have given : Gives (value context (routines context depth) id) state code after :=
        generated
      simp only [value, gives_bind, gives_lift, lookupNode_eq_ok] at given
      obtain ⟨other, _, ⟨otherFound, rfl⟩, ty, _, ⟨_, rfl⟩, given⟩ := given
      obtain rfl := Option.some.inj (found.symm.trans otherFound)
      rw [kind] at given
      simp only [Emit.call, gives_bind, gives_lift, gives_push, gives_pure,
        lookupSymbol_eq_ok, Emits.gives_popArguments, Emits.gives_alignedCall] at given
      obtain ⟨values, middle, inner, _, _, ⟨few, rfl, rfl⟩, entry,
        _, ⟨declared, rfl⟩, _, _, ⟨rfl, rfl⟩, _, _, ⟨rfl, rfl⟩, rfl, rfl⟩ := given
      obtain ⟨align, restore, calls, aligns⟩ :=
        callLines_cases (middle.lift (-args.length)).depth entry.name
      refine ⟨depth, middle, values, entry, align, restore ++ narrow ty ++
        [.push .rax], inner, few, declared, aligns.imp And.left And.left, ?_, ?_⟩
      · have narrows := straight_narrow ty
        rcases aligns with ⟨_, rfl⟩ | ⟨_, rfl⟩ <;>
          simpa [or_imp, forall_and, Instr.isStraight] using narrows
      · rw [calls]
        simp [popLines, passInstrs, instrs]

/-- A run that comes to a call has gone through the codes of the arguments in order, and
every argument register holds the value of its argument. -/
theorem exists_parts_of_call
    {depth : Nat}
    {id : NodeId}
    {node : Node}
    {function : SymbolId}
    {args : List NodeId}
    (found : context.program.node? id = some node)
    (kind : node.kind = .call function args)
    (stay : context.program.GotosStay args)
    (generated : (routines context depth).value id state = .ok (code, after))
    (short : 8 * code.length + 8 < 2 ^ 64) :
    ∃ entry parts before rest, context.program.symbol? function = some entry ∧
      List.Forall₂ (IsValueCode context) args parts ∧
      code = parts.flatten ++ (before ++ .instr (.call entry.name) :: rest) ∧
      (∀ name, .instr (.call name) ∉ rest) ∧
      ∀ names callees start machine, Callees.Restore callees ->
        SparingRuns names callees (start.regs .rsp) code ⟨code, start⟩
          ⟨.instr (.call entry.name) :: rest, machine⟩ ->
        ∃ words last, RunsParts names callees (start.regs .rsp) parts start words last ∧
          (argumentRegisters.take args.length).map machine.regs = words ∧
          machine.regs .rbp = start.regs .rbp ∧ machine.memory = last.memory := by
  obtain ⟨inner, middle, values, entry, align, tail, given, few, declared,
    aligns, tailStraight, rfl⟩ := exists_lines_of_call found kind generated
  obtain ⟨parts, rfl, codes, runs⟩ := exists_parts_of_values given stay
  have lastCall : ∀ name, .instr (.call name) ∉ instrs tail := by
    intro name member
    obtain ⟨_, listed, same⟩ := List.mem_map.mp member
    cases same
    exact absurd (tailStraight _ listed) Bool.false_ne_true
  refine ⟨entry, parts, instrs (passInstrs args.length align), instrs tail,
    declared, codes, rfl, lastCall, fun names callees start machine restore run => ?_⟩
  have straight := @straight_passInstrs args.length align aligns
  have behind : Code.Jointless (.instr (.call entry.name) :: instrs tail) := by
    rintro line (_ | ⟨_, member⟩)
    · exact ⟨rfl, rfl⟩
    · exact Code.jointless_of_straight tailStraight line member
  have whole : Code.Jointless (instrs (passInstrs args.length align) ++
      .instr (.call entry.name) :: instrs tail) := by
    intro line member
    rcases List.mem_append.mp member with above | below
    · exact Code.jointless_of_straight straight line above
    · exact behind line below
  -- The run leaves the values on the stack, and then takes them from there.
  obtain ⟨back, forth⟩ := whole.separate
  obtain ⟨last, through, passes⟩ := run.split forth back rfl
  rw [List.length_append] at short
  obtain ⟨words, ran, waits, holds⟩ := runs names callees _ start last restore
    (by rw [BitVec.sub_self]; simp only [BitVec.toNat_ofNat]; omega) through
  have count : words.length = args.length := ran.length_words.trans codes.length_eq.symm
  obtain ⟨next, passed, registers, base, memory⟩ :=
    @exists_runAll_passInstrs names align aligns words
      (count ▸ few) last _ waits.rsp holds
  rw [count] at passed registers
  obtain rfl : machine = next :=
    Option.some.inj ((passes.runAll_of_jointless straight behind).symm.trans passed)
  exact ⟨words, last, ran, registers, base.trans waits.rbp, memory⟩

end Arguments

end Semantics
end MiniC
