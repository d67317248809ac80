import MiniC.Proofs.Emit.Labels
import MiniC.Proofs.Simulation.Argument
import MiniC.Proofs.Simulation.Assignment
import MiniC.Proofs.Simulation.Function

/-!
# How parameters receive arguments

A function begins by storing the argument registers in the slots of its parameters, each
at the width of its type.  The slots do not overlap, so each holds the low bytes of its
register, and loading a parameter gives the argument brought to the type of the parameter.

A `_Bool` is stored as one byte like a `char`.  It is the callers that bring an argument
to zero or one, so loading such a parameter gives the truth of the argument only if the
register held zero or one.
-/

namespace MiniC
namespace Semantics

open Asm Emit

/-! ## Loading a variable -/

/-- A word converted to a type: as many low bytes as the type has, sign-extended, or the
truth of the word. -/
def converted (ty : Ty) (word : Word) : Word :=
  if ty.kind = .bool then if word = 0 then 0 else 1
  else (word.setWidth (8 * ty.size.toNat)).signExtend 64

/-- The code of a variable pushes a word, on any machine in a frame with the given base
and size in which the variable lies as in the given memory. -/
def Loads (program : Program) (names : Names) (base : Word) (frame : Int)
    (memory : Memory)
    (symbol : SymbolId) (size : Nat) (word : Word) : Prop :=
  ∀ owner id node code, program.node? id = some node -> node.kind = .var symbol ->
    IsValueCode ⟨program, owner⟩ id code ->
    ∃ list, code = instrs list ∧ ∀ machine : Machine, machine.regs .rbp = base ->
      8 ≤ (machine.regs .rsp).toNat ->
      (machine.regs .rsp).toNat + frame ≤ base.toNat ->
      (∀ place, Covers (addressOf program names base symbol) size place ->
        machine.memory place = memory place) ->
      ∃ last, Instr.runAll names machine list = some last ∧ last.top = word

section Load

variable {program : Program} {tokens : TokenStream} {function : Function}

/-- The code of a variable of a type that is loaded pushes its address and replaces it by
the number there. -/
theorem exists_instrs_of_variable
    (names : Names)
    (sound : program.Sound tokens)
    {owner : String}
    {id : NodeId}
    {node : Node}
    {symbol : SymbolId}
    {entry : Symbol}
    {ty : Ty}
    {code : Code}
    (found : program.node? id = some node)
    (kind : node.kind = .var symbol)
    (declared : program.symbol? symbol = some entry)
    (typed : program.types.get? entry.ty = some ty)
    (byValue : isByAddress ty = false)
    (isCode : IsValueCode ⟨program, owner⟩ id code) :
    ∃ list, code = instrs list ∧ ∀ machine, ∃ last,
      Instr.runAll names machine list = some last ∧ ∃ memory : Memory,
        (∀ place, ¬Covers (machine.regs .rsp - 8) 8 place ->
          memory place = machine.memory place) ∧
        last.top = .ofInt 64 (memory.signed
          (addressOf program names (machine.regs .rbp) symbol)
          (Width.ofSize ty.size).bytes) := by
  obtain ⟨depth, state, after, generated⟩ := isCode
  cases depth with
  | zero => cases generated
  | succ depth =>
      have given : Gives (value ⟨program, owner⟩ (routines ⟨program, owner⟩ depth) id)
          state code
        after := generated
      simp only [value, gives_bind, gives_lift, lookupNode_eq_ok] at given
      obtain ⟨other, _, ⟨otherFound, rfl⟩, own, _, ⟨ownTyped, rfl⟩, given⟩ := given
      obtain rfl := Option.some.inj (found.symm.trans otherFound)
      -- The node has the type of the variable.
      obtain ⟨_, _, there, rule⟩ := exists_typing sound found ownTyped
      rw [kind] at rule given
      obtain ⟨otherEntry, otherDeclared, rfl⟩ := rule
      obtain rfl := Option.some.inj (declared.symm.trans otherDeclared)
      obtain rfl := Option.some.inj (typed.symm.trans there)
      simp only [gives_bind, gives_load, gives_pure] at given
      obtain ⟨place, _, inner, _, _, ⟨rfl, rfl⟩, rfl, rfl⟩ := given
      obtain ⟨list, rfl, _, pushes⟩ := addressed_of_emits names
        (Emits.of_address (Emits.of_routines ⟨program, owner⟩ depth) inner) rfl
        (.var found kind)
      refine ⟨list ++ [.pop .rax, .load (.ofSize ty.size), .push .rax], ?_,
        fun machine => ?_⟩
      · simp [loadLines, byValue, topLines, instrs]
      · obtain ⟨next, ran, addressed⟩ := pushes machine
        refine ⟨_, by rw [runAll_append, ran]; rfl, next.memory, addressed.kept, ?_⟩
        rw [Machine.push_top]
        simp [addressed.top, Selection.offset]

/-- A number brought to the type of a parameter is the argument converted to it, unless it
is a number other than zero and one for a `_Bool`. -/
theorem ofInt_bmod_eq_converted
    (sound : program.types.Sound)
    {id : TyId}
    {ty : Ty}
    (typed : program.types.get? id = some ty)
    (small : ty.size.toNat ≤ 8)
    {word : Word}
    (truth : ty.kind = .bool -> word.toNat < 2) :
    BitVec.ofInt 64 (word.toInt.bmod (2 ^ (8 * ty.size.toNat))) = converted ty word := by
  have extended := signExtend_ofInt small word.toInt
  rw [BitVec.ofInt_toInt] at extended
  unfold converted
  by_cases isBool : ty.kind = .bool
  · have size : ty.size.toNat = 1 := by
      rw [sound.widths id ty typed (by simp [Ty.isInteger, isBool])]
      simp [Ty.width, isBool, Width.bytes]
    have bit : word = 0 ∨ word = 1 := by
      have bound := truth isBool
      bv_omega
    rw [if_pos isBool, size]
    rcases bit with rfl | rfl <;> decide
  · rw [if_neg isBool, extended]

/-- Loading a local variable whose slot holds the low bytes of a word. -/
theorem loads_of_signed
    (names : Names)
    (sound : program.Sound tokens)
    (frame : program.FrameSound function.locals function.stackSize)
    {param : SymbolId}
    (member : param ∈ function.locals)
    {offset : Int}
    {ty : Ty}
    (placed : program.Placed param offset ty)
    (scalar : ty.isInteger = true ∨ ty.isPointer = true)
    {base word : Word}
    (fits : function.stackSize ≤ base.toNat)
    {memory : Memory}
    (width : (Width.ofSize ty.size).bytes = ty.size.toNat)
    (holds : memory.signed (addressOf program names base param) ty.size.toNat =
      word.toInt.bmod (2 ^ (8 * ty.size.toNat)))
    (truth : ty.kind = .bool -> word.toNat < 2) :
    Loads program names base function.stackSize memory param ty.size.toNat
      (converted ty word) := by
  have small : ty.size.toNat ≤ 8 := by
    rw [← width]
    cases Width.ofSize ty.size <;> decide
  have address := toNat_addressOf names frame fits member placed
  have bounds := slot_bounds frame member placed
  obtain ⟨symbol, declared, kind, typed⟩ := placed
  intro owner id node code found isVar isCode
  obtain ⟨list, lines, runs⟩ :=
    exists_instrs_of_variable names sound found isVar declared typed
      (isByAddress_of_scalar scalar) isCode
  refine ⟨list, lines, fun machine own room below same => ?_⟩
  obtain ⟨last, ran, other, kept, top⟩ := runs machine
  refine ⟨last, ran, ?_⟩
  rw [top, own, width, ← ofInt_bmod_eq_converted sound.types typed small truth, ← holds]
  congr 1
  apply Memory.signed_congr (by omega)
  intro place covered
  rw [← same place covered]
  apply kept
  -- The address is pushed below the frame.
  intro pushed
  have bound := base.isLt
  have pointer := (machine.regs .rsp).isLt
  have lowered : (machine.regs .rsp - 8).toNat = (machine.regs .rsp).toNat - 8 :=
    Layout.toNat_sub_word (machine.regs .rsp) room
  rw [covers_iff (by omega)] at pushed
  rw [covers_iff (by omega)] at covered
  omega

end Load

/-! ## The start of a function -/

/-- What the start of a function has done: the frame lies below the saved base pointer,
the slot of every parameter holds the low bytes of its register, and loading the parameter
gives the argument converted to its type.  The slots do not overlap, and all other memory
is as it was. -/
structure Receives (program : Program) (names : Names) (function : Function)
    (before after : Machine) : Prop where
  rsp : after.regs .rsp = before.regs .rsp - 8 - .ofInt 64 function.stackSize
  rbp : after.regs .rbp = before.regs .rsp - 8
  slots : ∀ (index : Nat) param, function.params[index]? = some param -> ∃ reg offset ty,
    argumentRegisters[index]? = some reg ∧ program.Placed param offset ty ∧
    after.memory.read (addressOf program names (after.regs .rbp) param) ty.size.toNat =
      (before.regs reg).toNat % 256 ^ ty.size.toNat ∧
    (ty.isInteger = true ∨ ty.isPointer = true ->
      (ty.kind = .bool -> (before.regs reg).toNat < 2) ->
      Loads program names (after.regs .rbp)
        function.stackSize after.memory param ty.size.toNat
        (converted ty (before.regs reg)))
  apart : ∀ first ∈ function.params, ∀ second ∈ function.params, first ≠ second ->
    ∀ offset ty otherOffset otherTy, program.Placed first offset ty ->
      program.Placed second otherOffset otherTy ->
      Apart (addressOf program names (after.regs .rbp) first) ty.size.toNat
        (addressOf program names (after.regs .rbp) second) otherTy.size.toNat
  kept : ∀ place, ¬Covers (after.regs .rbp) 8 place ->
    (∀ param ∈ function.params, ∀ offset ty, program.Placed param offset ty ->
      ¬Covers (addressOf program names (after.regs .rbp) param) ty.size.toNat place) ->
    after.memory place = before.memory place

section Start

variable {program : Program} {tokens : TokenStream} {names : Names} {function : Function}
  {before after : Machine} {base : Nat} {symbol : Symbol} {body : NodeId}

/-- The bytes that belong to a local variable are those from its address on. -/
theorem covers_of_inSlot
    (names : Names)
    (frame : program.FrameSound function.locals function.stackSize)
    {base place : Word}
    (fits : function.stackSize ≤ base.toNat)
    {id : SymbolId}
    (member : id ∈ function.locals)
    {offset : Int}
    {ty : Ty}
    (placed : program.Placed id offset ty)
    (slot : InSlot program base id place) :
    Covers (addressOf program names base id) ty.size.toNat place := by
  have address := toNat_addressOf names frame fits member placed
  have bounds := slot_bounds frame member placed
  have bound := base.isLt
  obtain ⟨_, _, other, low, high⟩ := slot
  obtain ⟨rfl, rfl⟩ := placed.unique other
  rw [covers_iff (by omega)]
  omega

/-- Behind the start of a function the parameters have received the arguments. -/
theorem Started.receives
    (sound : program.Sound tokens)
    (rule : program.DefinitionRule base symbol function body)
    (room : 8 + function.stackSize ≤ (before.regs .rsp).toNat)
    (started : Started program names function before after) :
    Receives program names function before after := by
  have nonneg := rule.frame.size_nonneg
  have inside : function.params ⊆ function.locals := rule.params_first.subset
  have base := Layout.toNat_sub_word (before.regs .rsp) (by omega)
  have fits : function.stackSize ≤ (before.regs .rsp - 8).toNat := by omega
  refine ⟨started.rsp, started.rbp, ?_, ?_, ?_⟩
  · intro index param listed
    have member : param ∈ function.params := List.mem_of_getElem? listed
    obtain ⟨offset, ty, placed, sized, _⟩ := rule.frame.placed param (inside member)
    have few : index < argumentRegisters.length :=
      Nat.lt_of_lt_of_le (List.getElem?_eq_some_iff.mp listed).1 rule.params_few
    have named : argumentRegisters[index]? = some argumentRegisters[index] :=
      List.getElem?_eq_getElem few
    -- The argument is as wide as its type.
    have width : (Width.ofSize ty.size).bytes = ty.size.toNat := by
      obtain ⟨entry, own, declared, known, notAggregate, notArray⟩ :=
        rule.params_fit param member
      obtain ⟨other, found, _, typed⟩ := placed
      obtain rfl := Option.some.inj (declared.symm.trans found)
      obtain rfl := Option.some.inj (known.symm.trans typed)
      have moved := (sound.types.entries _ _ typed).moved notAggregate notArray
      omega
    have small : ty.size.toNat ≤ 8 := by
      rw [← width]
      cases Width.ofSize ty.size <;> decide
    have delivered := started.delivered index param _ offset ty listed
      (by rwa [Nat.zero_add]) placed
    rw [width] at delivered
    rw [started.rbp]
    exact ⟨_, offset, ty, named, placed, Memory.read_of_signed small delivered,
      fun scalar truth =>
      loads_of_signed names sound rule.frame (inside member) placed scalar fits
        width delivered truth⟩
  · intro first firstMember second secondMember different offset ty otherOffset
      otherTy placed otherPlaced place covered otherCovered
    rw [started.rbp] at covered otherCovered
    have sized := (slot_bounds rule.frame (inside firstMember) placed).1
    have otherSized := (slot_bounds rule.frame (inside secondMember) otherPlaced).1
    exact different (InSlot.unique rule.frame (inside firstMember) (inside secondMember)
      (inSlot_of_covers rule.frame fits (inside firstMember) placed (by omega) covered)
      (inSlot_of_covers rule.frame fits (inside secondMember) otherPlaced
        (by omega) otherCovered))
  · intro place notSaved free
    rw [started.rbp] at notSaved free
    apply started.kept place notSaved
    intro param member slot
    obtain ⟨offset, ty, placed, _⟩ := rule.frame.placed param (inside member)
    exact free param member offset ty placed
      (covers_of_inSlot names rule.frame fits (inside member) placed slot)

end Start

/-! ## Calls and definitions -/

/-- Arguments arrive in their parameters.

Take a call whose arguments have no goto that leaves its argument or changes the number of
values that wait, and a run from the beginning of its code to the call itself, the last
one in the code.  Called functions give back the stack pointer and the base pointer, and
no move changes the values that wait on the stack.  Then the run has gone through the
codes of the arguments once each, from left to right, and every argument register holds
the value that the code of its argument has pushed.

The text of every function begins with lines that store these registers in the slots of
the parameters, if the stack has room for the frame.  They leave in each slot the low
bytes of its register and change no other slot, so that loading the parameter gives the
argument converted to its type. -/
theorem arguments_arrive_in_parameters
    {file : SourceFile}
    {program : Program}
    {lines : Code}
    (parsed : parseFile file = .ok program)
    (compiled : compileLines file = .ok lines) :
    (∀ id node function args owner depth state code after,
      program.node? id = some node -> node.kind = .call function args ->
      program.GotosStay args ->
      (routines ⟨program, owner⟩ depth).value id state = .ok (code, after) ->
      8 * code.length + 8 < 2 ^ 64 ->
      ∃ entry parts before rest, program.symbol? function = some entry ∧
        List.Forall₂ (IsValueCode ⟨program, owner⟩) args parts ∧
        code = parts.flatten ++ (before ++ .instr (.call entry.name) :: rest) ∧
        (∀ name, .instr (.call name) ∉ rest) ∧
        ∀ names callees start machine, Callees.Restore callees ->
          SparingRuns names callees (start.regs .rsp) code ⟨code, start⟩
            ⟨.instr (.call entry.name) :: rest, machine⟩ ->
          ∃ words last, RunsParts names callees (start.regs .rsp) parts start words last ∧
            (argumentRegisters.take args.length).map machine.regs = words ∧
            machine.regs .rbp = start.regs .rbp ∧ machine.memory = last.memory) ∧
    ∀ definition ∈ program.definitions, ∃ place : Placement program lines,
      place.definition = definition ∧ ∃ entry,
        place.start = [visibility definition.symbol, .directive .text,
          .label (.symbol definition.symbol.name)] ++ entry ∧
        ∀ names machine, 8 + definition.function.stackSize ≤ (machine.regs .rsp).toNat ->
          ∃ next, Reaches names lines
              ⟨entry ++ (place.body ++ epilogue place.name ++ place.later), machine⟩
              ⟨place.body ++ epilogue place.name ++ place.later, next⟩ ∧
            Receives program names definition.function machine next := by
  obtain ⟨tokens, sound⟩ := sound_of_parseFile parsed
  constructor
  · intro id node function args owner depth state code after found kind stay
      generated short
    exact exists_parts_of_call found kind stay generated short
  · intro definition defined
    obtain ⟨symbol, found, kind, bodied⟩ := definition_cases defined
    obtain ⟨base, rule⟩ := sound.definitions symbol _ _ _ found kind bodied
    obtain ⟨⟨place, rfl⟩, _, _⟩ := exists_placement parsed compiled defined
    obtain ⟨spills, spilled, start_eq⟩ := prologue_lines place.entry
    refine ⟨place, rfl, _, start_eq.trans (List.append_assoc _ _ _),
      fun names machine room => ?_⟩
    rw [List.append_assoc]
    obtain ⟨next, reached, started⟩ := leads_started sound.types rule spilled room
    exact ⟨next, reached, started.receives sound rule room⟩

/-- A text has one last call. -/
theorem rest_unique {front back rest other : Code} {name own : String}
    (same : front ++ .instr (.call name) :: rest = back ++ .instr (.call own) :: other)
    (lastCall : ∀ name, .instr (.call name) ∉ rest)
    (otherLast : ∀ name, .instr (.call name) ∉ other) :
    rest = other := by
  rcases split_append same with ⟨lower, _, rfl⟩ | ⟨upper, _, divided⟩
  · exact absurd (List.mem_append_right lower List.mem_cons_self) (otherLast name)
  · cases upper with
    | nil => exact (List.cons.inj divided).2
    | cons line upper =>
        obtain ⟨_, rfl⟩ := List.cons.inj divided
        exact absurd (List.mem_append_right upper List.mem_cons_self) (lastCall own)

/-- A file with a call in the second argument of a call. -/
def nestedCallFile : SourceFile :=
  ⟨"t.c", "int f(char a, int b) { return b; } int main() { return f(300, f(1, 2)); }"⟩

/-- The program in that file. -/
def nestedCallProgram : Program := (parseFile nestedCallFile).toOption.getD .empty

/-- The lines for that file. -/
def nestedCallLines : Code := (compileLines nestedCallFile).toOption.getD []

/-- The code of the outer call in that file. -/
def nestedCallCode : Code :=
  (((routines ⟨nestedCallProgram, "main"⟩ 14).value ⟨12⟩ ⟨0, 0⟩).toOption.map
    Prod.fst).getD []

/-- A function that uses the argument registers for other numbers and returns seven. -/
def clobbering (_ : String) (machine : Machine) : Machine :=
  ((machine.set .rdi 9).set .rsi 9).set .rax 7

/-- A machine that passes three hundred and seven. -/
def passingMachine : Machine := (restingMachine.set .rdi 300).set .rsi 7

/-- The inner call leaves other numbers in the argument registers, and at the outer call
they hold the two arguments.  The definition stores its arguments at the widths of their
types. -/
theorem nestedCall_arguments_arrive_in_parameters :
    (∃ parts last, ∃ machine : Machine,
      RunsParts (fun _ => 65536) (fun name before after => after = clobbering name before)
        (restingMachine.regs .rsp) parts restingMachine [44, 7] last ∧
      machine.regs .rdi = 44 ∧ machine.regs .rsi = 7 ∧ machine.memory = last.memory) ∧
    ∃ entry rest next,
      Reaches (fun _ => 65536) nestedCallLines ⟨entry ++ rest, passingMachine⟩
        ⟨rest, next⟩ ∧
      next.memory.read 4083 1 = 44 ∧
      Loads nestedCallProgram (fun _ => 65536) 4088 16 next.memory ⟨1⟩ 1 44 := by
  obtain ⟨isOk, compiledOk, known, declared, param, char, defined, noGoto,
    generated, last, room,
      moved⟩ :
      (parseFile nestedCallFile).isOk = true ∧
      (compileLines nestedCallFile).isOk = true ∧
      (nestedCallProgram.node? ⟨12⟩).map (·.kind) = some (.call ⟨0⟩ [⟨5⟩, ⟨11⟩]) ∧
      (nestedCallProgram.symbol? ⟨0⟩).map (·.name) = some "f" ∧
      nestedCallProgram.symbol? ⟨1⟩ = some ⟨"a", .char, false, .localVar (some 5)⟩ ∧
      nestedCallProgram.types.get? .char = some ⟨.char, 1, 1, none⟩ ∧
      nestedCallProgram.definitions.head?.map (fun definition => definition.function) =
        some ⟨[⟨1⟩, ⟨2⟩], [⟨1⟩, ⟨2⟩], some ⟨3⟩, 16⟩ ∧
      nestedCallProgram.noGoto = true ∧
      (routines ⟨nestedCallProgram, "main"⟩ 14).value ⟨12⟩ ⟨0, 0⟩ =
        .ok (nestedCallCode, ⟨1, 0⟩) ∧
      nestedCallCode = nestedCallCode.take 23 ++ .instr (.call "f") ::
        instrs [.signExtend .dword, .push .rax] ∧
      8 * nestedCallCode.length + 8 < 2 ^ 64 ∧
      (sparingMoves? (fun _ => 65536) clobbering (restingMachine.regs .rsp)
        nestedCallCode 23 ⟨nestedCallCode, restingMachine⟩).map
          (fun config => (config.rest,
            [config.machine.regs .rdi, config.machine.regs .rsi])) =
        some (.instr (.call "f") :: instrs [.signExtend .dword, .push .rax],
          [44, 7]) := by
    decide +kernel
  have parsed : parseFile nestedCallFile = .ok nestedCallProgram := eq_ok_of_isOk isOk
  have compiled : compileLines nestedCallFile = .ok nestedCallLines :=
    eq_ok_of_isOk compiledOk
  obtain ⟨node, found, kind⟩ := Option.map_eq_some_iff.mp known
  obtain ⟨symbol, isSymbol, named⟩ := Option.map_eq_some_iff.mp declared
  obtain ⟨definition, listed, function⟩ := Option.map_eq_some_iff.mp defined
  have placed : nestedCallProgram.Placed ⟨1⟩ 5 ⟨.char, 1, 1, none⟩ :=
    ⟨_, param, rfl, char⟩
  obtain ⟨calls, definitions⟩ := arguments_arrive_in_parameters parsed compiled
  constructor
  · obtain ⟨entry, parts, before, rest, isEntry, _, divided, lastCall, runs⟩ :=
      calls _ _ _ _ _ _ _ _ _ found kind (.of_noGoto noGoto _) generated room
    obtain rfl := Option.some.inj (isSymbol.symm.trans isEntry)
    rw [named, ← List.append_assoc] at divided
    rw [named] at runs
    obtain rfl := rest_unique (divided.symm.trans last) lastCall (by simp [instrs])
    obtain ⟨machine, run, regs⟩ :=
      @SparingRuns.exists_of_sparingMoves? (fun _ => 65536)
        (restingMachine.regs .rsp) clobbering
        nestedCallCode (fun _ _ => rfl) _ 23 ⟨nestedCallCode, restingMachine⟩
        (.instr (.call "f") :: instrs [.signExtend .dword, .push .rax])
        (fun machine => [machine.regs .rdi, machine.regs .rsi]) [44, 7] moved
    obtain ⟨words, last, ran, arrived, _, memory⟩ :=
      runs _ _ restingMachine machine
        (fun _ _ _ same => by rw [same]; exact ⟨rfl, rfl⟩) run
    obtain rfl : words = [44, 7] := arrived.symm.trans regs
    obtain ⟨first, second⟩ := List.cons.inj regs
    exact ⟨parts, last, machine, ran, first, (List.cons.inj second).1, memory⟩
  · obtain ⟨place, own, entry, _, receives⟩ :=
      definitions definition (List.mem_of_head? listed)
    rw [function] at receives
    obtain ⟨next, reached, received⟩ :=
      receives (fun _ => 65536) passingMachine (by decide)
    obtain ⟨reg, offset, ty, isReg, isPlaced, slot, loads⟩ := received.slots 0 ⟨1⟩ rfl
    obtain ⟨rfl, rfl⟩ := placed.unique isPlaced
    cases isReg
    have base : next.regs .rbp = 4088 := received.rbp.trans (by decide)
    have address : addressOf nestedCallProgram (fun _ => 65536) 4088 ⟨1⟩ = 4083 :=
      (addressOf_local param rfl).trans (by decide)
    rw [base] at slot loads
    rw [address] at slot
    exact ⟨entry, _, next, reached, slot, loads (.inl rfl) (by decide)⟩

/-- A file with a goto in an argument that leaves a statement expression for which a value
waits. -/
def leavingArgumentFile : SourceFile :=
  ⟨"t.c", "int f(int a, int b) { return a; } " ++
    "int main() { return f(7, ({ 1 + ({ goto l; 2; }); l: ; 3; })); }"⟩

/-- The program in that file. -/
def leavingArgumentProgram : Program :=
  (parseFile leavingArgumentFile).toOption.getD .empty

/-- The code of the call in that file. -/
def leavingArgumentCode : Code :=
  (((routines ⟨leavingArgumentProgram, "main"⟩ 23).value ⟨21⟩ ⟨0, 0⟩).toOption.map
    Prod.fst).getD []

/-- The goto leaves the one on the stack, and it is popped in place of the first argument.
The function is called with one, not with seven. -/
theorem leavingArgument_misses_its_register :
    parseFile leavingArgumentFile = .ok leavingArgumentProgram ∧
      (leavingArgumentProgram.node? ⟨21⟩).map (·.kind) = some (.call ⟨0⟩ [⟨5⟩, ⟨20⟩]) ∧
      (routines ⟨leavingArgumentProgram, "main"⟩ 23).value ⟨21⟩ ⟨0, 0⟩ =
        .ok (leavingArgumentCode, ⟨1, 0⟩) ∧
      (routines ⟨leavingArgumentProgram, "main"⟩ 23).value ⟨5⟩ ⟨0, 0⟩ =
        .ok (instrs [.set .rax 7, .push .rax], ⟨1, 0⟩) ∧
      ∃ rest machine,
        SparingRuns (fun _ => 65536) (fun _ before after => after = before)
          (restingMachine.regs .rsp) leavingArgumentCode
            ⟨leavingArgumentCode, restingMachine⟩
          ⟨.instr (.call "f") :: rest, machine⟩ ∧
        (∀ name, .instr (.call name) ∉ rest) ∧
        machine.regs .rdi = 1 ∧ machine.regs .rsi = 3 := by
  obtain ⟨isOk, known, generated, argument, moved⟩ :
      (parseFile leavingArgumentFile).isOk = true ∧
      (leavingArgumentProgram.node? ⟨21⟩).map (·.kind) = some (.call ⟨0⟩ [⟨5⟩, ⟨20⟩]) ∧
      (routines ⟨leavingArgumentProgram, "main"⟩ 23).value ⟨21⟩ ⟨0, 0⟩ =
        .ok (leavingArgumentCode, ⟨1, 0⟩) ∧
      (routines ⟨leavingArgumentProgram, "main"⟩ 23).value ⟨5⟩ ⟨0, 0⟩ =
        .ok (instrs [.set .rax 7, .push .rax], ⟨1, 0⟩) ∧
      (sparingMoves? (fun _ => 65536) (fun _ machine => machine)
        (restingMachine.regs .rsp)
        leavingArgumentCode 13 ⟨leavingArgumentCode, restingMachine⟩).map
          (fun config => (config.rest, config.machine.regs .rdi,
            config.machine.regs .rsi)) =
        some (.instr (.call "f") :: instrs [.signExtend .dword, .push .rax], 1, 3) := by
    decide +kernel
  obtain ⟨machine, run, regs⟩ :=
    @SparingRuns.exists_of_sparingMoves? (fun _ => 65536) (restingMachine.regs .rsp)
      (fun _ machine => machine) leavingArgumentCode (fun _ _ => rfl) _ 13
      ⟨leavingArgumentCode, restingMachine⟩
      (.instr (.call "f") :: instrs [.signExtend .dword, .push .rax])
      (fun machine => (machine.regs .rdi, machine.regs .rsi)) (1, 3) moved
  simp only [Prod.mk.injEq] at regs
  exact ⟨eq_ok_of_isOk isOk, known, generated, argument, _, machine,
    run, by simp [instrs], regs⟩

end Semantics
end MiniC
