import MiniC.Proofs.Emit.Text
import MiniC.Proofs.Simulation.Frame
import MiniC.Proofs.Simulation.Statement

/-!
# Entering and leaving a function

A function saves the base pointer, reserves its frame and stores its arguments there.
Then its body runs, and at its end the frame is given back.
-/

namespace MiniC
namespace Semantics

open Asm Emit

variable {program : Program} {tokens : TokenStream}

/-! ## The start of a function -/

section Start

variable {names : Names} {text rest : Code} {function : Function} {machine : Machine}

/-- What the first instructions have done: the base pointer is saved, and the frame lies
below it. -/
structure Framed (size : Int) (before after : Machine) : Prop where
  rsp : after.regs .rsp = before.regs .rsp - 8 - .ofInt 64 size
  rbp : after.regs .rbp = before.regs .rsp - 8
  others : ∀ reg, reg ≠ .rsp -> reg ≠ .rbp -> after.regs reg = before.regs reg
  memory : after.memory = before.memory.write (before.regs .rsp - 8) 8 (before.regs .rbp)

theorem leads_framed {size : Int} (nonneg : 0 ≤ size) :
    Leads names text
      ⟨instrs ([.push .rbp, .move .rbp .rsp] ++ reserve size) ++ rest, machine⟩ rest
      (Framed size machine) := by
  unfold reserve
  split
  · refine ⟨_, .instrs rfl, rfl, rfl, ?_, rfl⟩
    intro reg notPointer notBase
    simp [notPointer, notBase]
  · obtain rfl : size = 0 := by omega
    refine ⟨_, .instrs rfl, ?_, rfl, ?_, rfl⟩
    · simp
    · intro reg notPointer notBase
      simp [notPointer, notBase]

/-- Memory in which parameters, from one on, hold the arguments that registers bring. -/
def Delivered (program : Program) (names : Names) (base : Word) (index : Nat)
    (params : List SymbolId) (regs : Reg -> Word) (memory : Memory) : Prop :=
  ∀ (position : Nat) param reg offset ty, params[position]? = some param ->
    argumentRegisters[index + position]? = some reg -> program.Placed param offset ty ->
    memory.signed (addressOf program names base param) (Width.ofSize ty.size).bytes =
      (regs reg).toInt.bmod (2 ^ (8 * (Width.ofSize ty.size).bytes))

/-- What storing arguments, from one on, has done: each is at the place of its parameter,
and all other memory is as it was. -/
structure Spilled (program : Program) (names : Names) (index : Nat)
    (params : List SymbolId) (before after : Machine) : Prop where
  regs : after.regs = before.regs
  kept : ∀ place, (∀ param ∈ params, ¬InSlot program (before.regs .rbp) param place) ->
    after.memory place = before.memory place
  delivered : Delivered program names (before.regs .rbp) index params
    before.regs after.memory

/-- Arguments are stored one after the other, and none over another. -/
theorem leads_spilled
    (sound : program.types.Sound)
    (frame : program.FrameSound function.locals function.stackSize)
    {index : Nat}
    {params : List SymbolId}
    {spills : Code}
    (given : spillFrom program index params = .ok spills)
    (inside : params ⊆ function.locals)
    (nodup : params.Nodup)
    (fit : ∀ param ∈ params, program.FitsRegister param)
    (room : function.stackSize ≤ (machine.regs .rbp).toNat) :
    Leads names text ⟨spills ++ rest, machine⟩ rest
      (Spilled program names index params machine) := by
  induction params generalizing index spills machine with
  | nil =>
      cases given
      exact .here ⟨rfl, fun _ _ => rfl, by simp [Delivered]⟩
  | cons param params hypothesis =>
      obtain ⟨symbol, offset, ty, reg, others, found, kind, typed, named,
        following, rfl⟩ :=
        spillFrom_cons given
      have placed : program.Placed param offset ty := ⟨symbol, found, kind, typed⟩
      obtain ⟨new, nodup⟩ := List.nodup_cons.mp nodup
      obtain ⟨member, inside⟩ := List.cons_subset.mp inside
      obtain ⟨fits, fit⟩ := List.forall_mem_cons.mp fit
      -- The argument is as wide as its type, so it stays in its slot.
      have width : ((Width.ofSize ty.size).bytes : Int) = ty.size := by
        obtain ⟨other, entry, there, known, notAggregate, notArray⟩ := fits
        obtain rfl := Option.some.inj (found.symm.trans there)
        obtain rfl := Option.some.inj (typed.symm.trans known)
        exact (sound.entries _ _ typed).moved notAggregate notArray
      have slot {place : Word}
          (covered : Covers (addressOf program names (machine.regs .rbp) param)
            (Width.ofSize ty.size).bytes place) :
          InSlot program (machine.regs .rbp) param place :=
        inSlot_of_covers frame room member placed (Int.le_of_eq width) covered
      have small : (Width.ofSize ty.size).bytes ≤ 8 := by
        cases Width.ofSize ty.size <;> decide
      have address : machine.regs .rbp - .ofInt 64 offset =
          addressOf program names (machine.regs .rbp) param :=
        (addressOf_local found kind).symm
      rw [List.append_assoc]
      refine .after (.instrs rfl) ?_
      refine (hypothesis following inside nodup fit ?_).weaken fun next spilled => ?_
      · exact room
      simp only [address] at spilled
      refine ⟨spilled.regs, ?_, ?_⟩
      · intro place free
        obtain ⟨free, others⟩ := List.forall_mem_cons.mp free
        rw [spilled.kept place others]
        exact Memory.write_of_not_covers fun covered => free (slot covered)
      · intro position other otherReg otherOffset otherTy listed register otherPlaced
        cases position with
        | zero =>
            obtain rfl := Option.some.inj listed
            obtain rfl := Option.some.inj (named.symm.trans register)
            obtain ⟨rfl, rfl⟩ := placed.unique otherPlaced
            rw [← Memory.signed_write small]
            apply Memory.signed_congr (by omega)
            intro place covered
            apply spilled.kept
            intro later laterMember laterSlot
            have same :=
              InSlot.unique frame member (inside laterMember) (slot covered) laterSlot
            exact new (same ▸ laterMember)
        | succ position =>
            have shifted : argumentRegisters[index + 1 + position]? = some otherReg := by
              rw [← register, Nat.add_right_comm, Nat.add_assoc]
            exact spilled.delivered position other otherReg otherOffset otherTy
              listed shifted otherPlaced

/-- What the start of a function has done: the base pointer is saved, the frame lies below
it, and in the frame are the arguments. -/
structure Started (program : Program) (names : Names) (function : Function)
    (before after : Machine) : Prop where
  rsp : after.regs .rsp = before.regs .rsp - 8 - .ofInt 64 function.stackSize
  rbp : after.regs .rbp = before.regs .rsp - 8
  saved : BitVec.ofNat 64 (after.memory.read (before.regs .rsp - 8) 8) = before.regs .rbp
  kept : ∀ place, ¬Covers (before.regs .rsp - 8) 8 place ->
    (∀ param ∈ function.params, ¬InSlot program (before.regs .rsp - 8) param place) ->
    after.memory place = before.memory place
  delivered : Delivered program names (before.regs .rsp - 8) 0 function.params before.regs
    after.memory

/-- Arguments do not come in the registers that hold the stack. -/
theorem ne_of_argumentRegisters {index : Nat} {reg : Reg}
    (named : argumentRegisters[index]? = some reg) : reg ≠ .rsp ∧ reg ≠ .rbp := by
  have member := List.mem_of_getElem? named
  revert member
  cases reg <;> decide

theorem leads_started
    (sound : program.types.Sound)
    {base : Nat}
    {symbol : Symbol}
    {body : NodeId}
    (rule : program.DefinitionRule base symbol function body)
    {spills : Code}
    (given : spillFrom program 0 function.params = .ok spills)
    (room : 8 + function.stackSize ≤ (machine.regs .rsp).toNat) :
    Leads names text
      ⟨instrs ([.push .rbp, .move .rbp .rsp] ++ reserve function.stackSize) ++
        (spills ++ rest), machine⟩ rest (Started program names function machine) := by
  have nonneg := rule.frame.size_nonneg
  have inside : function.params ⊆ function.locals := rule.params_first.subset
  have nodup : function.params.Nodup :=
    rule.locals_nodup.sublist rule.params_first.sublist
  have base := Layout.toNat_sub_word (machine.regs .rsp) (by omega)
  have bound := (machine.regs .rsp).isLt
  refine (leads_framed nonneg).andThen fun middle framed => ?_
  have below : function.stackSize ≤ (middle.regs .rbp).toNat := by
    rw [framed.rbp]
    omega
  refine (leads_spilled sound rule.frame given inside nodup rule.params_fit below).weaken
    fun next spilled => ?_
  obtain ⟨regs, kept, delivered⟩ := spilled
  rw [framed.rbp] at kept delivered
  refine ⟨regs ▸ framed.rsp, regs ▸ framed.rbp, ?_, ?_, ?_⟩
  · have same : next.memory.read (machine.regs .rsp - 8) 8 =
        middle.memory.read (machine.regs .rsp - 8) 8 := by
      apply Memory.read_congr (by decide)
      intro place covered
      apply kept
      intro param member slot
      have under := (slot.bounds rule.frame (inside member)).2
      rw [covers_iff (by omega)] at covered
      omega
    rw [same, framed.memory, Memory.read_write_word]
  · intro place above free
    rw [kept place free, framed.memory]
    exact Memory.write_of_not_covers above
  · intro position param reg offset ty listed named placed
    obtain ⟨notPointer, notBase⟩ := ne_of_argumentRegisters named
    rw [← framed.others reg notPointer notBase]
    exact delivered position param reg offset ty listed named placed

end Start

/-! ## Entering a function -/

/-- A machine at the label of a function.  The stack has room for the saved base pointer,
the frame and some words, and global variables are placed off it.  The store says what
global variables hold, what arguments bring, and what the frame happens to hold for all
other local variables. -/
structure Entered (program : Program) (names : Names) (function : Function)
    (globals : Variable -> Prop) (store : Store) (machine : Machine) (words : Nat) :
    Prop where
  room : 8 + function.stackSize.toNat + 8 * words ≤ (machine.regs .rsp).toNat
  links : Links program names globals
    ((machine.regs .rsp).toNat - (8 + function.stackSize.toNat + 8 * words))
    (machine.regs .rsp).toNat
  holds : ∀ target symbol, globals target -> DeclaredAs program target symbol ->
    machine.memory.signed (names symbol.name) target.ty.width.bytes = store target.id
  params : ∀ (position : Nat) target symbol reg,
    function.params[position]? = some target.id ->
    DeclaredAs program target symbol -> argumentRegisters[position]? = some reg ->
    store target.id = target.ty.wrap (machine.regs reg).toInt
  others : ∀ target, IsLocalAs program function target -> target.id ∉ function.params ->
    store target.id = machine.memory.signed
      (addressOf program names (machine.regs .rsp - 8) target.id) target.ty.width.bytes

/-- The layout of the frame of a function that a machine enters. -/
def entryLayout (program : Program) (names : Names) (function : Function)
    (globals : Variable -> Prop) (machine : Machine) (words : Nat) : Layout :=
  functionLayout program names function globals (machine.regs .rsp - 8)
    ((machine.regs .rsp).toNat - (8 + function.stackSize.toNat + 8 * words))
    ((machine.regs .rsp).toNat - (8 + function.stackSize.toNat))

namespace Entered

variable {names : Names} {function : Function}
    {globals : Variable -> Prop} {store : Store}
  {machine next : Machine} {words base : Nat} {symbol : Symbol} {body : NodeId}

theorem toNat_base
    (entered : Entered program names function globals store machine words) :
    (machine.regs .rsp - 8).toNat = (machine.regs .rsp).toNat - 8 := by
  have room := entered.room
  exact Layout.toNat_sub_word (machine.regs .rsp) (by omega)

theorem layout_sound
    (sound : program.types.Sound)
    (frame : program.FrameSound function.locals function.stackSize)
    (entered : Entered program names function globals store machine words) :
    (entryLayout program names function globals machine words).Sound := by
  have room := entered.room
  have base := entered.toNat_base
  have nonneg := frame.size_nonneg
  exact functionLayout_sound sound frame entered.links (by omega) (by omega) (by omega)

/-- The word with the saved base pointer belongs to no variable. -/
theorem not_occupies_saved
    (sound : program.types.Sound)
    (frame : program.FrameSound function.locals function.stackSize)
    (entered : Entered program names function globals store machine words)
    {place : Word}
    (covered : Covers (machine.regs .rsp - 8) 8 place)
    {target : Variable}
    (tracked : globals target ∨ IsLocalAs program function target) :
    ¬Covers (addressOf program names (machine.regs .rsp - 8) target.id)
      target.ty.width.bytes place := by
  intro occupied
  have room := entered.room
  have base := entered.toNat_base
  have nonneg := frame.size_nonneg
  have bound := (machine.regs .rsp).isLt
  rw [covers_iff (by omega)] at covered
  rcases tracked with isGlobal | isLocal
  · have clear := entered.links.clear_of_covers isGlobal occupied
    omega
  · have fits : function.stackSize ≤ (machine.regs .rsp - 8).toNat := by omega
    have inside := (isLocal.inSlot sound frame fits occupied).bounds frame isLocal.1
    omega

/-- The start of a function leaves all variables as the store says. -/
theorem agrees
    (sound : program.types.Sound)
    (rule : program.DefinitionRule base symbol function body)
    (entered : Entered program names function globals store machine words)
    (started : Started program names function machine next) :
    (entryLayout program names function globals machine words).Agrees store
      next.memory := by
  have room := entered.room
  have base := entered.toNat_base
  have nonneg := rule.frame.size_nonneg
  have inside : function.params ⊆ function.locals := rule.params_first.subset
  have fits : function.stackSize ≤ (machine.regs .rsp - 8).toNat := by omega
  have small (ty : IntTy) : ty.width.bytes ≤ 2 ^ 64 := by cases ty <;> decide
  rintro target (isGlobal | isLocal)
  -- A global variable lies off the stack, where nothing has been written.
  · obtain ⟨declaration, declared, notLocal⟩ := entered.links.declared target isGlobal
    have address : addressOf program names (machine.regs .rsp - 8) target.id =
        names declaration.name :=
      addressOf_of_not_isLocal declared.1 notLocal
    rw [← entered.holds target declaration isGlobal declared, ← address]
    apply Memory.signed_congr (small target.ty)
    intro place occupied
    apply started.kept
    · exact fun covered =>
        entered.not_occupies_saved sound rule.frame covered (.inl isGlobal) occupied
    · intro param member slot
      have clear := entered.links.clear_of_covers isGlobal occupied
      have bounds := slot.bounds rule.frame (inside member)
      omega
  -- A parameter holds its argument, and any other local variable what was there before.
  · by_cases member : target.id ∈ function.params
    · obtain ⟨position, listed⟩ := List.mem_iff_getElem?.mp member
      obtain ⟨offset, ty, placed, size⟩ := isLocal.placed sound rule.frame
      obtain ⟨_, declaration, declared⟩ := isLocal
      have few : position < argumentRegisters.length :=
        Nat.lt_of_lt_of_le (List.getElem?_eq_some_iff.mp listed).1 rule.params_few
      obtain ⟨reg, named⟩ : ∃ reg, argumentRegisters[position]? = some reg :=
        ⟨_, List.getElem?_eq_getElem few⟩
      have width : Width.ofSize ty.size = target.ty.width := by
        rw [size, ← IntTy.entry_size, IntTy.ofSize_entry]
      have delivered := started.delivered position target.id reg offset ty listed
        (by rwa [Nat.zero_add]) placed
      rw [width] at delivered
      rw [entered.params position target declaration reg listed declared named]
      exact delivered
    · rw [entered.others target isLocal member]
      apply Memory.signed_congr (small target.ty)
      intro place occupied
      apply started.kept
      · exact fun covered =>
          entered.not_occupies_saved sound rule.frame covered (.inr isLocal) occupied
      · intro param listed slot
        have own := isLocal.inSlot sound rule.frame fits occupied
        have same := InSlot.unique rule.frame isLocal.1 (inside listed) own slot
        exact member (same ▸ listed)

/-- Behind the start of a function the machine is ready for its body. -/
theorem ready
    (sound : program.types.Sound)
    (rule : program.DefinitionRule base symbol function body)
    (entered : Entered program names function globals store machine words)
    (started : Started program names function machine next) :
    (entryLayout program names function globals machine words).Ready store
      next words := by
  have room := entered.room
  have base := entered.toNat_base
  have nonneg := rule.frame.size_nonneg
  have bound := (machine.regs .rsp).isLt
  have distance :
      (BitVec.ofInt 64 function.stackSize).toNat = function.stackSize.toNat := by
    rw [BitVec.toNat_ofInt]
    omega
  have pointer : (next.regs .rsp).toNat =
      (machine.regs .rsp).toNat - (8 + function.stackSize.toNat) := by
    rw [started.rsp, BitVec.toNat_sub_of_le, distance, base]
    · omega
    · rw [BitVec.le_def, distance]
      omega
  refine ⟨started.rbp, ?_, Nat.le_of_eq pointer, entered.agrees sound rule started⟩
  rw [pointer]
  change (machine.regs .rsp).toNat - _ + 8 * words ≤ _
  omega

end Entered

/-! ## The end of a function -/

/-- The machine with its frame given back and the saved base pointer restored. -/
def leaveFrame (machine : Machine) : Machine :=
  (machine.set .rsp (machine.regs .rbp)).pop .rbp

/-- What a function has done when it comes to its `ret`, given what it converts returned
values to: the stack is as it was, global variables hold what the store says, all other
memory of the caller is as it was, and in `rax` is the value. -/
structure Returned (program : Program) (names : Names) (globals : Variable -> Prop)
    (name : String) (goal : Option IntTy) (before : Machine) (outcome : Outcome)
    (store : Store) (after : Machine) : Prop where
  rsp : after.regs .rsp = before.regs .rsp
  rbp : after.regs .rbp = before.regs .rbp
  holds : ∀ target symbol, globals target -> DeclaredAs program target symbol ->
    after.memory.signed (names symbol.name) target.ty.width.bytes = store target.id
  kept : ∀ place : Word, (before.regs .rsp).toNat ≤ place.toNat ->
    (∀ target symbol, globals target -> DeclaredAs program target symbol ->
      ¬Covers (names symbol.name) target.ty.width.bytes place) ->
    after.memory place = before.memory place
  value : ∀ number ty, outcome = .returned (some number) -> goal = some ty ->
    after.regs .rax = .ofInt 64 (ty.convert number)
  zero : outcome = .finished -> name = "main" -> after.regs .rax = 0

section End

variable {names : Names} {text later : Code} {function : Function}
  {globals : Variable -> Prop} {goal : Option IntTy} {name : String}
  {machine first last : Machine} {words base : Nat} {symbol : Symbol} {body : NodeId}
  {store after : Store} {outcome : Outcome}

/-- Giving the frame back undoes the start of the function. -/
theorem Ran.returned
    (sound : program.types.Sound)
    (rule : program.DefinitionRule base symbol function body)
    (entered : Entered program names function globals store machine words)
    (started : Started program names function machine first)
    (ran : Ran (entryLayout program names function globals machine words)
      goal first outcome after last)
    (zero : outcome = .finished -> name = "main" -> last.regs .rax = 0) :
    Returned program names globals name goal machine outcome after (leaveFrame last) := by
  have room := entered.room
  have base := entered.toNat_base
  have nonneg := rule.frame.size_nonneg
  have bound := (machine.regs .rsp).isLt
  have fits : function.stackSize ≤ (machine.regs .rsp - 8).toNat := by omega
  have low := (entered.ready sound rule started).high
  change _ ≤ (machine.regs .rsp).toNat - _ at low
  have pointer : last.regs .rbp = machine.regs .rsp - 8 :=
    ran.steady.rbp.trans started.rbp
  have address {target : Variable} {declaration : Symbol} (isGlobal : globals target)
      (declared : DeclaredAs program target declaration) :
      addressOf program names (machine.regs .rsp - 8) target.id =
        names declaration.name := by
    obtain ⟨other, otherDeclared, notLocal⟩ := entered.links.declared target isGlobal
    obtain rfl := declared.unique otherDeclared
    exact addressOf_of_not_isLocal declared.1 notLocal
  refine ⟨?_, ?_, ?_, ?_, ran.delivers, zero⟩
  -- The base pointer is one word below where the stack pointer was, on the saved word.
  · change last.regs .rbp + 8 = _
    rw [pointer, BitVec.sub_add_cancel]
  · change BitVec.ofNat 64 (last.memory.read (last.regs .rbp) 8) = _
    have same : last.memory.read (machine.regs .rsp - 8) 8 =
        first.memory.read (machine.regs .rsp - 8) 8 := by
      apply Memory.read_congr (by decide)
      intro place covered
      apply ran.steady.kept
      · rw [covers_iff (by omega)] at covered
        omega
      · exact fun target tracked => entered.not_occupies_saved sound rule.frame
          covered tracked
    rw [pointer, same, started.saved]
  · intro target declaration isGlobal declared
    rw [← address isGlobal declared]
    exact ran.steady.agrees target (.inl isGlobal)
  · intro place above free
    have behind : last.memory place = first.memory place := by
      apply ran.steady.kept place (by omega)
      rintro target (isGlobal | isLocal) occupied
      · obtain ⟨declaration, declared, _⟩ := entered.links.declared target isGlobal
        refine free target declaration isGlobal declared ?_
        rw [← address isGlobal declared]
        exact occupied
      · have inside :=
          (isLocal.inSlot sound rule.frame fits occupied).bounds rule.frame isLocal.1
        omega
    change last.memory place = _
    rw [behind]
    apply started.kept
    · intro covered
      rw [covers_iff (by omega)] at covered
      omega
    · intro param member slot
      have inside := slot.bounds rule.frame (rule.params_first.subset member)
      omega

/-- The lines that give the frame back. -/
def restoreLines : Code := instrs [.move .rsp .rbp, .pop .rbp, .ret]

theorem reaches_ret (names : Names) (text later : Code) (machine : Machine) :
    Reaches names text ⟨restoreLines ++ later, machine⟩
      ⟨.instr .ret :: later, leaveFrame machine⟩ := by
  have run : Instr.runAll names machine [.move .rsp .rbp, .pop .rbp] =
      some (leaveFrame machine) := rfl
  exact .instrs run

/-- Behind the body of a function, `main` that has not returned anything returns zero. -/
theorem Ran.leads_restore
    {layout : Layout}
    (ran : Ran layout goal first outcome after machine) :
    Leads names text
      ⟨outcome.landing (epilogue name ++ later) (restoreLines ++ later), machine⟩
      (restoreLines ++ later) fun last => Ran layout goal first outcome after last ∧
        (outcome = .finished -> name = "main" -> last.regs .rax = 0) := by
  cases outcome with
  | returned value => exact .here ⟨ran, by simp⟩
  | finished =>
      change Leads names text ⟨epilogue name ++ later, machine⟩ _ _
      unfold epilogue
      simp only [List.append_assoc]
      split
      · refine .after (.instrs rfl) (.after (.label _) (.here ⟨?_, fun _ _ => rfl⟩))
        exact .finished (ran.steady.quiet ⟨rfl, rfl, rfl⟩)
      · rename_i other
        exact .after (.label _) (.here ⟨ran, fun _ isMain => absurd isMain other⟩)

end End

end Semantics
end MiniC
