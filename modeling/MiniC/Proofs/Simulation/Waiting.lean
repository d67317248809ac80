import MiniC.Proofs.Emit.Labels
import MiniC.Proofs.Emit.Signs
import MiniC.Proofs.Machine.Parts

/-!
# What waits on the stack

The code of an operand runs while the values of the operands before it wait on the stack.
It may branch, loop and call functions, and still leaves them there: wherever a run of
generated code is, the stack pointer is lowered by the words and the padding of the lines
above.

This needs that a goto in the code leads to a label below which as many values wait, which
the compiler does not check.
-/

namespace MiniC

/-! ## Pointers -/

namespace Asm

/-- Called functions that give back the stack pointer and the base pointer. -/
def Callees.Restore (callees : Callees) : Prop :=
  ∀ name before after, callees name before after ->
    after.regs .rsp = before.regs .rsp ∧ after.regs .rbp = before.regs .rbp

section Pointers

variable {names : Names} {callees : Callees} {before after : Machine}

/-- A line moves the stack pointer by what it pushes and pads. -/
theorem Line.Passes.pointers {line : Line}
    (passes : line.Passes names callees before after)
    (keeps : line.keepsPointers = true)
    (restore : callees.Restore) :
    after.regs .rsp = before.regs .rsp - .ofInt 64 (8 * line.rise + line.padding) ∧
      after.regs .rbp = before.regs .rbp := by
  cases line with
  | label place =>
      obtain rfl : after = before := passes
      simp [rise, padding]
  | directive order =>
      cases order with
      | loc =>
          obtain rfl : after = before := passes
          simp [rise, padding]
      | _ => exact absurd passes id
  | instr step =>
      by_cases straight : step.isStraight = true
      · rw [passes_instr straight] at passes
        cases step with
        | divide =>
            simp only [Instr.run, Machine.divide, Option.ite_none_left_eq_some] at passes
            obtain ⟨_, passes⟩ := passes
            cases passes
            simp [rise, padding]
        | setCond =>
            obtain ⟨_, _, rfl⟩ := Option.map_eq_some_iff.mp passes
            simp [rise, padding, Machine.setLow]
        | jump | jumpEq | jumpNe | call | ret => cases passes
        | pop reg | move reg _ | set reg _ =>
            cases passes
            cases reg <;> simp_all [rise, padding, keepsPointers, BitVec.sub_eq_add_neg]
        | addConst reg bytes | subConst reg bytes =>
            cases passes
            cases reg <;>
              simp_all [rise, padding, keepsPointers, BitVec.sub_eq_add_neg,
                BitVec.ofInt_neg]
        | _ =>
            cases passes
            simp [rise, padding]
      · cases step with
        | jump => exact absurd passes id
        | jumpEq | jumpNe =>
            obtain rfl : after = before := passes
            simp [rise, padding]
        | call name =>
            obtain ⟨rsp, rbp⟩ := restore name before after passes
            simp [rise, padding, rsp, rbp]
        | _ => exact absurd rfl straight

end Pointers

/-! ## Bytes that wait -/

/-- The stretch up to a base grows by as much as its start is lowered. -/
theorem toNat_sub_lowered {base pointer : Word} {bytes : Int}
    (nonneg : 0 ≤ bytes)
    (room : ((base - pointer).toNat : Int) + bytes < 2 ^ 64) :
    ((base - (pointer - .ofInt 64 bytes)).toNat : Int) =
    (base - pointer).toNat + bytes := by
  have lowered :
      base - (pointer - .ofInt 64 bytes) = base - pointer + .ofInt 64 bytes := by
    simp only [BitVec.sub_eq_add_neg, BitVec.neg_add, BitVec.neg_neg, BitVec.add_assoc]
  have size : ((BitVec.ofInt 64 bytes).toNat : Int) = bytes := by
    rw [BitVec.toNat_ofInt]
    omega
  rw [lowered, BitVec.toNat_add, Nat.mod_eq_of_lt (by omega)]
  omega

/-- What a run leaves of the machine it begins with: the stack pointer is lowered by a
number of bytes, the base pointer is as it was, and so is all that waits on the stack. -/
structure Waits (base : Word) (bytes : Int) (before after : Machine) : Prop where
  rsp : after.regs .rsp = before.regs .rsp - .ofInt 64 bytes
  rbp : after.regs .rbp = before.regs .rbp
  spared : Spares base before after

namespace Waits

variable {base : Word} {bytes more : Int} {first second third : Machine}

theorem refl (base : Word) (machine : Machine) : Waits base 0 machine machine :=
  ⟨by simp, rfl, fun _ _ => rfl⟩

theorem trans
    (left : Waits base bytes first second)
    (right : Waits base more second third)
    (nonneg : 0 ≤ bytes)
    (room : ((base - first.regs .rsp).toNat : Int) + bytes < 2 ^ 64) :
    Waits base (bytes + more) first third where
  rsp := by
    rw [right.rsp, left.rsp, BitVec.ofInt_add]
    simp only [BitVec.sub_eq_add_neg, BitVec.neg_add, BitVec.add_assoc]
  rbp := right.rbp.trans left.rbp
  spared := by
    intro place covered
    have wider := toNat_sub_lowered nonneg room
    have lower : ((place - (first.regs .rsp - .ofInt 64 bytes)).toNat : Int) =
        (place - first.regs .rsp).toNat + bytes := by
      unfold Covers at covered
      exact toNat_sub_lowered nonneg (by omega)
    rw [← left.rsp] at wider lower
    rw [← left.spared place covered]
    apply right.spared
    unfold Covers at covered ⊢
    omega

end Waits

end Asm

/-! ## Gotos that keep the height -/

/-- A goto in trees of nodes leads to a label only if as many values wait there. -/
def Program.GotosLevel (program : Program) (spots : List Spot) : Prop :=
  ∀ nodes, program.Lists spots nodes -> ∀ goto ∈ nodes, ∀ label ∈ nodes, ∀ name,
    program.sign? goto.id = some (.goto name) ->
    program.sign? label.id = some (.label name) ->
    goto.waiting = label.waiting

/-- Whether a program is without gotos. -/
def Program.noGoto (program : Program) : Bool :=
  program.nodes.all fun node =>
    match node.kind with
    | .goto _ => false
    | _ => true

theorem Program.sign?_ne_goto {program : Program}
    (noGoto : program.noGoto = true) (id : NodeId)
    (name : String) : program.sign? id ≠ some (.goto name) := by
  intro isGoto
  obtain ⟨node, found, sign⟩ := Option.bind_eq_some_iff.mp isGoto
  have own := Array.all_eq_true'.mp noGoto node (Array.mem_of_getElem? found)
  unfold NodeKind.sign? at sign
  split at sign <;> simp_all

/-- Without gotos nothing is asked. -/
theorem Program.GotosLevel.of_noGoto {program : Program} (noGoto : program.noGoto = true)
    (spots : List Spot) : program.GotosLevel spots :=
  fun _ _ _ _ _ _ _ isGoto => absurd isGoto (program.sign?_ne_goto noGoto _ _)

namespace Emit

open Asm

section Emitted

variable {context : Context} {task : Task} {state after : State} {code before rest : Code}

/-- A position of generated code is not below its start, nor more words above it than
there are lines, and one word of padding. -/
theorem Emits.lowered_bounds
    (emitted : Emits context task state code after)
    (divided : code = before ++ rest) :
    0 ≤ 8 * before.height + before.padding ∧
      8 * before.height + before.padding ≤ 8 * code.length + 8 := by
  have piece := emitted.disciplined.piece
  have floor := piece.floor
  have least := Code.floor_le_height ⟨rest, divided.symm⟩
  have most := before.height_le_length
  have length : before.length ≤ code.length := by simp [divided]
  rcases piece.even.padding_cases divided with none | ⟨word, _⟩ <;> omega

/-- No padding at jumps and labels. -/
theorem Emits.padding_eq_zero
    (emitted : Emits context task state code after)
    {line : Line}
    (divided : code = before ++ line :: rest)
    (joint : line.defined? ≠ none ∨ line.target? ≠ none) :
    before.padding = 0 := by
  rcases emitted.disciplined.piece.even.padding_cases divided with
    zero | ⟨_, other, tail, equal, noLabel, noJump⟩
  · exact zero
  · obtain ⟨rfl, rfl⟩ := List.cons.inj equal
    rcases joint with isLabel | isJump
    · exact absurd noLabel isLabel
    · exact absurd noJump isJump

/-- A line with a label of the source text comes from a node, at its height. -/
theorem Emits.exists_spot
    (emitted : Emits context task state code after)
    {nodes : List Spot}
    (lists : context.program.Lists task.spots nodes)
    {line : Line}
    (divided : code = before ++ line :: rest)
    (named : line.isNamed = true) :
    ∃ spot ∈ nodes, ∃ sign, context.program.sign? spot.id = some sign ∧
      line = sign.line context.function ∧ before.height = spot.waiting := by
  obtain ⟨others, othersLists, signs⟩ := emitted.signs
  obtain rfl := lists.unique othersLists
  have listed : (before.height, line) ∈ code.signs 0 :=
    Code.mem_signs.mpr ⟨named, before, rest, divided, (Int.zero_add _).symm⟩
  rw [signs] at listed
  obtain ⟨spot, member, known⟩ := List.mem_filterMap.mp listed
  obtain ⟨sign, found, same⟩ := Option.map_eq_some_iff.mp known
  obtain ⟨height, rfl⟩ := Prod.mk.inj same
  exact ⟨spot, member, sign, found, rfl, by omega⟩

/-- A jump that finds its label in the code finds it at its own height. -/
theorem Emits.height_of_jump
    (emitted : Emits context task state code after)
    (level : context.program.GotosLevel task.spots)
    {line : Line}
    {target : Label}
    {goal : Code}
    (divided : code = before ++ line :: rest)
    (jumps : line.target? = some target)
    (found : code.after? target = some goal) :
    ∃ above, code = above ++ .label target :: goal ∧ above.height = before.height := by
  obtain ⟨upper, equal⟩ := Code.exists_of_after? found
  have defined : .label target ∈ code := by simp [equal]
  rcases emitted.label_cases defined with ⟨role, number, rfl⟩ | ⟨name, rfl⟩
  · obtain ⟨above, below, own, height, once⟩ :=
      emitted.disciplined.stackDiscipline.jumps before rest line role number divided jumps
    have only : code.after? (.numbered role number) = some below := by
      rw [own]
      exact Code.after?_of_not_mem below
        fun member => once (List.mem_append_left _ member)
    obtain rfl := Option.some.inj (found.symm.trans only)
    exact ⟨above, own, height⟩
  · obtain ⟨nodes, lists, _⟩ := emitted.signs
    have named : line.isNamed = true := by
      unfold Line.target? at jumps
      split at jumps <;> simp_all [Line.isNamed]
    obtain ⟨goto, gotoListed, sign, gotoSign, equalLine, gotoHeight⟩ :=
      emitted.exists_spot lists divided named
    obtain ⟨label, labelListed, other, labelSign, equalLabel, labelHeight⟩ :=
      emitted.exists_spot lists equal rfl
    obtain rfl : sign = .goto name := by
      cases sign <;> simp_all [Sign.line, Line.target?]
    obtain rfl : other = .label name := by
      cases other <;> simp_all [Sign.line]
    have waiting :=
      level nodes lists goto gotoListed label labelListed name gotoSign labelSign
    exact ⟨upper, equal, by omega⟩

/-- Wherever a run of generated code is, the stack pointer is lowered by the words and the
padding of the lines above, and what waited on the stack is still there.  The induction is
over the moves of the run: a line that is passed counts for itself, and a jump stays at
its height. -/
theorem Emits.waits
    (emitted : Emits context task state code after)
    (level : context.program.GotosLevel task.spots)
    {names : Names}
    {callees : Callees}
    (restore : callees.Restore)
    {base : Word}
    {start last : Machine}
    (room : (base - start.regs .rsp).toNat + (8 * code.length + 8) < 2 ^ 64)
    (run : SparingRuns names callees base code ⟨code, start⟩ ⟨rest, last⟩) :
    ∃ before, code = before ++ rest ∧
      Waits base (8 * before.height + before.padding) start last := by
  generalize reached : (⟨rest, last⟩ : Config) = config at run
  induction run generalizing rest last with
  | refl =>
      cases reached
      exact ⟨[], rfl, .refl base start⟩
  | @tail earlier _ _ move hypothesis =>
      subst reached
      obtain ⟨moves, spares⟩ := move
      obtain ⟨before, divided, waits⟩ := hypothesis rfl
      obtain ⟨line, tail, code_eq, ⟨rfl, passes⟩ | ⟨target, jumps, found, rfl⟩⟩ :=
        moves.cases
      · rw [code_eq] at divided
        have member : line ∈ code := by simp [divided]
        obtain ⟨rsp, rbp⟩ :=
          passes.pointers (emitted.disciplined.piece.pointers line member) restore
        have bounds := emitted.lowered_bounds divided
        refine ⟨before ++ [line], by simp [divided], ?_⟩
        have both := waits.trans ⟨rsp, rbp, spares⟩ bounds.1 (by omega)
        have sum : 8 * Code.height (before ++ [line]) + Code.padding (before ++ [line]) =
            8 * before.height + before.padding + (8 * line.rise + line.padding) := by
          simp only [Code.height_append, Code.padding_append, Code.height, Code.padding]
          omega
        rw [sum]
        exact both
      · rw [code_eq] at divided
        obtain ⟨above, equal, height⟩ := emitted.height_of_jump level divided jumps found
        have here := emitted.padding_eq_zero divided (.inr (by simp [jumps]))
        have there := emitted.padding_eq_zero equal (.inl (by simp [Line.defined?]))
        refine ⟨above ++ [.label target], by simp [equal], ?_⟩
        have same : 8 * Code.height (above ++ [.label target]) +
            Code.padding (above ++ [.label target]) =
              8 * before.height + before.padding := by
          simp only [Code.height_append, Code.padding_append, Code.height, Code.padding,
            Line.rise, Line.padding]
          omega
        rw [same]
        exact waits

/-- A run through generated code leaves what waited on the stack, below the words that the
code pushes. -/
theorem Emits.waits_through
    (emitted : Emits context task state code after)
    (level : context.program.GotosLevel task.spots)
    {names : Names}
    {callees : Callees}
    (restore : callees.Restore)
    {base : Word}
    {start last : Machine}
    (room : (base - start.regs .rsp).toNat + (8 * code.length + 8) < 2 ^ 64)
    (run : SparingRuns names callees base code ⟨code, start⟩ ⟨[], last⟩) :
    Waits base (8 * task.rise) start last := by
  obtain ⟨before, divided, waits⟩ := emitted.waits level restore room run
  obtain rfl : code = before := by simpa using divided
  have piece := emitted.disciplined.piece
  rwa [piece.height, piece.padding, Int.add_zero] at waits

end Emitted

end Emit
end MiniC
