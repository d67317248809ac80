import MiniC.Proofs.Emit.StackDiscipline

/-!
# Balanced functions

The generators for nodes keep the stack discipline whatever program they are run on, so
the check for an unbalanced stack at the end of a function always passes.
-/

namespace MiniC
namespace Emit

open Asm

variable (program : Program)

/-- Storing parameters reports no unbalanced stack. -/
theorem spillFrom_noImbalance (index : Nat) (params : List SymbolId) :
    FailsIn IsNoImbalance (spillFrom program index params) := by
  induction params generalizing index with
  | nil => exact .ok _
  | cons param rest hypothesis =>
      refine .bind (frameOffset_noImbalance program param) fun offset _ => ?_
      refine .bind (lookupSymbol_noImbalance program param) fun symbol _ => ?_
      refine .bind (lookupTy_noImbalance program symbol.ty) fun ty _ => ?_
      refine .bind (argumentRegister_noImbalance index) fun reg _ => ?_
      exact .bind (hypothesis (index + 1)) fun spills _ => .ok _

/-- The beginning of a function reports no unbalanced stack. -/
theorem prologue_noImbalance (definition : Program.Definition) :
    FailsIn IsNoImbalance (prologue program definition) :=
  .bind (spillFrom_noImbalance program 0 definition.function.params) fun _ _ => .ok _

theorem symbolData_noImbalance (id : SymbolId) :
    FailsIn IsNoImbalance (symbolData program id) := by
  refine .bind (lookupSymbol_noImbalance program id) fun symbol _ => ?_
  split
  · exact .bind (lookupTy_noImbalance program symbol.ty) fun _ _ => .ok _
  · exact .ok _

/-- The text of a function is balanced: its body is generated at depth zero and ends
there. -/
theorem functionText_noImbalance (definition : Program.Definition) :
    ErrorsIn IsNoImbalance (functionText program definition) := by
  refine .read (prologue_noImbalance program definition) fun start _ => ?_
  have children := Routines.Balanced.of_routines ⟨program, definition.symbol.name⟩
    (program.nodes.size + 1)
  have rules :=
    Emits.of_routines ⟨program, definition.symbol.name⟩ (program.nodes.size + 1)
  intro state error failed
  rcases ErrorsIn.cases_bind failed with early | ⟨_, entry, entered, failed⟩
  · cases early
  obtain rfl : entry = { state with depth := 0 } := by
    cases entered
    rfl
  rcases ErrorsIn.cases_bind failed with early | ⟨code, after, given, failed⟩
  · exact children.statement definition.body _ error early
  have level : after.depth = 0 := (rules.statement given).disciplined.piece.depth
  have checked : Gives (checkBalance definition.symbol.name) after () after := by
    rw [checkBalance, gives_bind]
    refine ⟨after, after, rfl, ?_⟩
    rw [if_pos level]
    rfl
  rcases ErrorsIn.cases_bind failed with early | ⟨_, _, _, failed⟩
  · rw [checked] at early
    cases early
  · cases failed

/-- No text of a program reports an unbalanced stack. -/
theorem program_noImbalance (name : String) :
    FailsIn IsNoImbalance (Emit.program program name) := by
  refine .bind (.mapM fun id _ => symbolData_noImbalance program id) fun data _ => ?_
  refine .bind ?_ fun text _ => .ok _
  exact ErrorsIn.mapM (fun definition _ => functionText_noImbalance program definition) _

/-- The stack discipline.  Whenever the code of a value or an address is generated, for
whatever node of whatever program, it raises the depth and the stack by one word; the code
of a statement leaves both as they were.  In between, pops never exceed pushes, jumps by
numbered labels keep the height, and calls are aligned.  So generation never ends in an
unbalanced stack. -/
theorem generated_code_keeps_stack_discipline (program : Program) :
    (∀ function depth id state code after,
      Gives ((routines ⟨program, function⟩ depth).value id) state code after ->
        StackDiscipline 1 state code after) ∧
    (∀ function depth id state code after,
      Gives ((routines ⟨program, function⟩ depth).address id) state code after ->
        StackDiscipline 1 state code after) ∧
    (∀ function depth id state code after,
      Gives ((routines ⟨program, function⟩ depth).statement id) state code after ->
        StackDiscipline 0 state code after) ∧
    ∀ name function depth,
      Emit.program program name ≠
        .error (.internal (.unbalancedStack function depth)) := by
  refine ⟨?_, ?_, ?_, ?_⟩
  · intro function depth id state code after given
    exact ((Emits.of_routines _ depth).value given).disciplined.stackDiscipline
  · intro function depth id state code after given
    exact ((Emits.of_routines _ depth).address given).disciplined.stackDiscipline
  · intro function depth id state code after given
    exact ((Emits.of_routines _ depth).statement given).disciplined.stackDiscipline
  · intro name function depth failed
    exact program_noImbalance program name _ failed function depth rfl

/-- The program of the conjunction `f(1) && 2`. -/
def conjoinedCall : Program where
  types := .initial
  nodes := #[⟨.num 1, some .int, 0, 1⟩, ⟨.call ⟨0⟩ [⟨0⟩], some .int, 0, 1⟩,
    ⟨.num 2, some .int, 0, 1⟩, ⟨.binary .logAnd ⟨1⟩ ⟨2⟩, some .int, 0, 1⟩]
  symbols := #[⟨"f", .int, false, .function ⟨[], [], none, 0⟩⟩]
  globals := #[⟨0⟩]

/-- The code of `f(1) && 2` pushes one word and keeps the discipline. -/
theorem conjoinedCall_keeps_stack_discipline :
    ∃ code after,
      Gives ((routines ⟨conjoinedCall, "main"⟩ 4).value ⟨3⟩) ⟨1, 0⟩ code after ∧
        StackDiscipline 1 ⟨1, 0⟩ code after :=
  have given := rfl
  ⟨_, _, given,
    (generated_code_keeps_stack_discipline conjoinedCall).1 _ _ _ _ _ _ given⟩

end Emit
end MiniC
