import MiniC.Proofs.Simulation.Code
import MiniC.Proofs.Simulation.Operation

/-!
# Variables in memory

While a function runs, its local variables lie in its frame and global variables lie where
the linker has put them.  Below the frame the stack grows and shrinks, and code that is
generated for expressions keeps what it pushes apart from all variables.

`Steady` and `Pushed` say what a stretch of generated lines has done: it has changed
variables as a store says, left the stack as high as it was or one word higher, and left
all other memory from the stack pointer upwards alone.
-/

namespace MiniC
namespace Semantics

open Asm Emit

/-- Where the variables of a function lie, and where its stack may grow.  Tracked
variables are those that are followed in a store.  The stack may hold words from `bottom`
up to, but not including, `top`. -/
structure Layout where
  program : Program
  names : Names
  base : Word
  tracked : Variable -> Prop
  bottom : Nat
  top : Nat

/-- The address of a variable: local variables lie below the base of the frame, and all
others where their names are. -/
def addressOf (program : Program) (names : Names) (base : Word) (id : SymbolId) : Word :=
  match program.symbol? id with
  | none => 0
  | some symbol =>
      match symbol.kind with
      | .localVar (some offset) => base - .ofInt 64 offset
      | _ => names symbol.name

/-- A local variable lies below the base by its offset. -/
theorem addressOf_local {program : Program} {names : Names} {base : Word} {id : SymbolId}
    {symbol : Symbol} {offset : Int} (declared : program.symbol? id = some symbol)
    (kind : symbol.kind = .localVar (some offset)) :
    addressOf program names base id = base - .ofInt 64 offset := by
  unfold addressOf
  rw [declared]
  dsimp only
  rw [kind]

/-- A variable that does not lie in the frame is where its name is. -/
theorem addressOf_name {program : Program} {names : Names} {base : Word} {id : SymbolId}
    {symbol : Symbol} (declared : program.symbol? id = some symbol)
    (place : ∀ offset, symbol.kind ≠ .localVar offset) :
    addressOf program names base id = names symbol.name := by
  unfold addressOf
  rw [declared]
  dsimp only
  split
  · exact absurd ‹_› (place _)
  · rfl

namespace Layout

variable (layout : Layout)

/-- The address of a variable. -/
def address (id : SymbolId) : Word := addressOf layout.program layout.names layout.base id

/-- Whether a byte belongs to a variable. -/
def Occupies (target : Variable) (place : Word) : Prop :=
  Covers (layout.address target.id) target.ty.width.bytes place

/-- A layout in which variables have a single type, overlap neither each other nor the
stack. -/
structure Sound : Prop where
  single : ∀ first second, layout.tracked first -> layout.tracked second ->
    first.id = second.id -> first = second
  apart : ∀ first second, layout.tracked first -> layout.tracked second ->
    first.id ≠ second.id -> ∀ place, layout.Occupies first place ->
    ¬layout.Occupies second place
  clear : ∀ target, layout.tracked target -> ∀ place, layout.Occupies target place ->
    place.toNat < layout.bottom ∨ layout.top ≤ place.toNat

/-- Memory in which the tracked variables hold what the store says. -/
def Agrees (store : Store) (memory : Memory) : Prop :=
  ∀ target, layout.tracked target ->
    memory.signed (layout.address target.id) target.ty.width.bytes = store target.id

/-- Memory from an address upwards is as it was, except for tracked variables. -/
def Kept (low : Nat) (before after : Memory) : Prop :=
  ∀ place : Word, low ≤ place.toNat ->
    (∀ target, layout.tracked target -> ¬layout.Occupies target place) ->
    after place = before place

/-- A machine whose variables hold what the store says, with room for some words on the
stack. -/
structure Ready (store : Store) (machine : Machine) (words : Nat) : Prop where
  base : machine.regs .rbp = layout.base
  room : layout.bottom + 8 * words ≤ (machine.regs .rsp).toNat
  high : (machine.regs .rsp).toNat ≤ layout.top
  agrees : layout.Agrees store machine.memory

/-- What lines have done that leave the stack as high as it was. -/
structure Steady (before after : Machine) (store : Store) : Prop where
  rsp : after.regs .rsp = before.regs .rsp
  rbp : after.regs .rbp = before.regs .rbp
  agrees : layout.Agrees store after.memory
  kept : layout.Kept (before.regs .rsp).toNat before.memory after.memory

/-- What lines have done that leave one more word on the stack. -/
structure Pushed (before after : Machine) (store : Store) (word : Word) : Prop where
  rsp : after.regs .rsp = before.regs .rsp - 8
  rbp : after.regs .rbp = before.regs .rbp
  word : after.top = word
  agrees : layout.Agrees store after.memory
  kept : layout.Kept (before.regs .rsp).toNat before.memory after.memory

end Layout

/-- The instruction that finds a variable puts its address into `rax`. -/
theorem Addresses.run
    {program : Program}
    {id : SymbolId}
    {finder : Instr}
    (names : Names)
    (machine : Machine)
    (finds : Addresses program id finder) :
    finder.run names machine =
      some (machine.set .rax (addressOf program names (machine.regs .rbp) id)) := by
  cases finds with
  | onFrame declared place =>
      rw [addressOf_local declared place]
      rfl
  | byName declared place =>
      rw [addressOf_name declared place]
      rfl

namespace Layout

variable {layout : Layout} {store next : Store}
    {before machine after : Machine} {words : Nat}

/-! ## Memory -/

/-- Numbers read from memory fit the type they are read at. -/
theorem Agrees.fits {memory : Memory} (agrees : layout.Agrees store memory) :
    store.Fits layout.tracked := by
  intro target tracked
  rw [← agrees target tracked]
  unfold IntTy.Fits IntTy.wrap Memory.signed
  rw [Int.bmod_bmod]

/-- Memory that is the same where variables lie. -/
theorem Agrees.congr
    {memory other : Memory}
    (agrees : layout.Agrees store memory)
    (same : ∀ target, layout.tracked target -> ∀ place, layout.Occupies target place ->
      other place = memory place) :
    layout.Agrees store other := by
  intro target tracked
  rw [← agrees target tracked]
  apply Memory.signed_congr
  · cases target.ty <;> decide
  · exact same target tracked

theorem Kept.refl (low : Nat) (memory : Memory) : layout.Kept low memory memory :=
  fun _ _ _ => rfl

theorem Kept.trans
    {low : Nat}
    {first second third : Memory}
    (left : layout.Kept low first second)
    (right : layout.Kept low second third) :
    layout.Kept low first third :=
  fun place above free => (right place above free).trans (left place above free)

theorem Kept.mono
    {low high : Nat}
    {first second : Memory}
    (kept : layout.Kept low first second)
    (le : low ≤ high) :
    layout.Kept high first second :=
  fun place above free => kept place (Nat.le_trans le above) free

/-! ## The stack -/

/-- The address of a word that is pushed. -/
theorem toNat_sub_word (pointer : Word) (room : 8 ≤ pointer.toNat) :
    (pointer - 8).toNat = pointer.toNat - 8 := by
  have bound := pointer.isLt
  rw [BitVec.toNat_sub]
  change (2 ^ 64 - 8 + pointer.toNat) % 2 ^ 64 = _
  omega

/-- The word below the stack pointer lies on the stack. -/
theorem Ready.of_covers
    (ready : layout.Ready store machine 1)
    {place : Word}
    (covered : Covers (machine.regs .rsp - 8) 8 place) :
    layout.bottom ≤ place.toNat ∧ place.toNat < (machine.regs .rsp).toNat ∧
      place.toNat < layout.top := by
  have room := ready.room
  have high := ready.high
  have bound := (machine.regs .rsp).isLt
  have slot := toNat_sub_word (machine.regs .rsp) (by omega)
  rw [covers_iff (by omega), slot] at covered
  omega

/-- No variable lies on the stack. -/
theorem Sound.not_occupies
    (sound : layout.Sound)
    {place : Word}
    (low : layout.bottom ≤ place.toNat)
    (high : place.toNat < layout.top)
    {target : Variable}
    (tracked : layout.tracked target) :
    ¬layout.Occupies target place := by
  intro occupied
  have clear := sound.clear target tracked place occupied
  omega

/-- Writing below the stack pointer changes no variable and nothing above. -/
theorem Ready.write
    (sound : layout.Sound)
    (ready : layout.Ready store machine 1)
    (word : Word) :
    layout.Agrees store (machine.memory.write (machine.regs .rsp - 8) 8 word) ∧
      layout.Kept (machine.regs .rsp).toNat machine.memory
        (machine.memory.write (machine.regs .rsp - 8) 8 word) := by
  constructor
  · apply ready.agrees.congr
    intro target tracked place occupied
    apply Memory.write_of_not_covers
    intro covered
    have inside := ready.of_covers covered
    exact sound.not_occupies inside.1 inside.2.2 tracked occupied
  · intro place above _
    apply Memory.write_of_not_covers
    intro covered
    have inside := ready.of_covers covered
    omega

theorem Ready.push
    (sound : layout.Sound)
    (ready : layout.Ready store machine 1)
    (word : Word) :
    layout.Pushed machine (machine.push word) store word where
  rsp := rfl
  rbp := rfl
  word := Machine.push_top machine word
  agrees := (ready.write sound word).1
  kept := (ready.write sound word).2

theorem Ready.mono (ready : layout.Ready store machine words) {fewer : Nat}
    (le : fewer ≤ words) : layout.Ready store machine fewer :=
  { ready with
    room := by
      have room := ready.room
      omega }

/-- A machine with one more word on the stack has room for one less. -/
theorem Ready.pushed
    {word : Word}
    (ready : layout.Ready store machine (1 + words))
    (pushed : layout.Pushed machine after next word) :
    layout.Ready next after words where
  base := pushed.rbp.trans ready.base
  room := by
    have room := ready.room
    rw [pushed.rsp, toNat_sub_word _ (by omega)]
    omega
  high := by
    have room := ready.room
    have high := ready.high
    rw [pushed.rsp, toNat_sub_word _ (by omega)]
    omega
  agrees := pushed.agrees

theorem Ready.steady
    (ready : layout.Ready store machine words)
    (steady : layout.Steady machine after next) :
    layout.Ready next after words where
  base := steady.rbp.trans ready.base
  room := by rw [steady.rsp]; exact ready.room
  high := by rw [steady.rsp]; exact ready.high
  agrees := steady.agrees

theorem Steady.refl (agrees : layout.Agrees store machine.memory) :
    layout.Steady machine machine store :=
  ⟨rfl, rfl, agrees, .refl _ _⟩

theorem Steady.trans
    (first : layout.Steady before machine store)
    (second : layout.Steady machine after next) :
    layout.Steady before after next where
  rsp := second.rsp.trans first.rsp
  rbp := second.rbp.trans first.rbp
  agrees := second.agrees
  kept := first.kept.trans (first.rsp ▸ second.kept)

/-- Instructions that touch neither the stack nor memory. -/
theorem Steady.quiet
    (steady : layout.Steady before machine store)
    (quiet : SameStack machine after) :
    layout.Steady before after store where
  rsp := quiet.rsp.trans steady.rsp
  rbp := quiet.rbp.trans steady.rbp
  agrees := quiet.memory ▸ steady.agrees
  kept := quiet.memory ▸ steady.kept

theorem Steady.pushed
    {word : Word}
    (steady : layout.Steady before machine store)
    (pushed : layout.Pushed machine after next word) :
    layout.Pushed before after next word where
  rsp := by rw [pushed.rsp, steady.rsp]
  rbp := pushed.rbp.trans steady.rbp
  word := pushed.word
  agrees := pushed.agrees
  kept := steady.kept.trans (steady.rsp ▸ pushed.kept)

/-- Popping what was pushed. -/
theorem Pushed.pop
    {word : Word}
    {reg : Reg}
    (pushed : layout.Pushed before machine store word)
    (notPointer : reg ≠ .rsp)
    (notBase : reg ≠ .rbp) :
    layout.Steady before (machine.pop reg) store where
  rsp := by
    rw [Machine.pop_regs, if_neg (Ne.symm notPointer), if_pos rfl, pushed.rsp,
      BitVec.sub_add_cancel]
  rbp := by
    rw [Machine.pop_regs, if_neg (Ne.symm notBase), if_neg (by decide), pushed.rbp]
  agrees := pushed.agrees
  kept := pushed.kept

/-- Below a word that was pushed is the word that was there before. -/
theorem Pushed.under
    {below word : Word}
    {reg : Reg}
    {started : Machine}
    {middle : Store}
    (sound : layout.Sound)
    (ready : layout.Ready store started 1)
    (first : layout.Pushed started before middle below)
    (second : layout.Pushed before machine next word)
    (notPointer : reg ≠ .rsp)
    (notBase : reg ≠ .rbp) :
    layout.Pushed started (machine.pop reg) next below where
  rsp := by rw [(second.pop notPointer notBase).rsp, first.rsp]
  rbp := by rw [(second.pop notPointer notBase).rbp, first.rbp]
  word := by
    have pointer := (second.pop notPointer notBase).rsp
    have same : machine.memory.read (before.regs .rsp) 8 =
        before.memory.read (before.regs .rsp) 8 := by
      apply Memory.read_congr (by decide)
      intro place covered
      apply second.kept
      · rw [first.rsp] at covered ⊢
        have room := ready.room
        have slot := toNat_sub_word (started.regs .rsp) (by omega)
        have bound := (started.regs .rsp).isLt
        rw [covers_iff (by omega)] at covered
        exact covered.1
      · intro target tracked
        rw [first.rsp] at covered
        have inside := ready.of_covers covered
        exact sound.not_occupies inside.1 inside.2.2 tracked
    rw [← first.word]
    unfold Machine.top
    rw [pointer, Machine.pop_memory, same]
  agrees := second.agrees
  kept := by
    have room := ready.room
    have slot := toNat_sub_word (started.regs .rsp) (by omega)
    apply first.kept.trans
    apply second.kept.mono
    rw [first.rsp]
    omega

end Layout

end Semantics
end MiniC
