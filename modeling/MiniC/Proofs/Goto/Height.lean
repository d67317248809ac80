import MiniC.Proofs.Compile
import MiniC.Proofs.Emit.Signs

/-!
# Stack heights at gotos and labels

The stack at a goto holds the values that wait for the statement, and so does the stack at
a label.  Values wait for a statement only inside a statement expression.  So a goto keeps
the height of the stack unless it enters or leaves a statement expression that values wait
for, and nothing rejects a goto that does.
-/

namespace MiniC
namespace Emit

open Asm Code

variable {program : Program}

/-- A line with a label of the source text comes from a node. -/
theorem Context.sign?_eq
    {context : Context}
    {spot : Spot}
    {height : Int}
    {sign : Sign}
    {function : String}
    (known : context.sign? 0 spot = some (height, sign.line function)) :
    function = context.function ∧ context.program.sign? spot.id = some sign ∧
      height = spot.waiting := by
  obtain ⟨own, found, same⟩ := Option.map_eq_some_iff.mp known
  obtain ⟨heights, lines⟩ := Prod.mk.inj same
  obtain ⟨rfl, rfl⟩ : context.function = function ∧ own = sign := by
    cases own <;> cases sign <;> simp_all [Sign.line]
  exact ⟨rfl, found, by omega⟩

/-- A line with a label of the source text in the body of a function comes from a node. -/
theorem exists_spot
    {function owner : String}
    {nodes : List Spot}
    {body before rest : Code}
    {sign : Sign}
    (signs : ∀ start, body.signs start = nodes.filterMap
      (Context.sign? ⟨program, owner⟩ start))
    (divided : body = before ++ sign.line function :: rest) :
    function = owner ∧
      ∃ spot ∈ nodes, program.sign? spot.id = some sign ∧ before.height =
        spot.waiting := by
  have named : (sign.line function).isNamed = true := by cases sign <;> rfl
  have own : (before.height, sign.line function) ∈ body.signs 0 :=
    mem_signs.mpr ⟨named, before, rest, divided, (Int.zero_add _).symm⟩
  rw [signs] at own
  obtain ⟨spot, listed, known⟩ := List.mem_filterMap.mp own
  obtain ⟨same, found, height⟩ := Context.sign?_eq known
  exact ⟨same, spot, listed, found, height⟩

/-- A jump to a label of the source text stands in the body of a function of that name.
The height of the stack is the number of values that wait at the goto, and at the label it
is the number of those that wait there.  Both are zero if no value waits for a statement
expression of the function. -/
theorem goto_height_counts_waiting_values
    {file : SourceFile}
    {lines above below : Code}
    {function name : String}
    (parsed : parseFile file = .ok program)
    (compiled : compileLines file = .ok lines)
    (emitted : lines = above ++ .instr (.jump (.named function name)) :: below) :
    ∃ place : Placement program lines, ∃ before rest : Code, ∃ nodes,
      place.name = function ∧
      place.body = before ++ .instr (.jump (.named function name)) :: rest ∧
      above = place.earlier ++ place.start ++ before ∧
      program.Lists [⟨0, place.definition.body⟩] nodes ∧
      (∃ goto ∈ nodes, program.sign? goto.id = some (.goto name) ∧ before.height =
        goto.waiting) ∧
      (∀ upper lower : Code,
        place.body = upper ++ .label (.named function name) :: lower ->
        ∃ label ∈ nodes, program.sign? label.id = some (.label name) ∧
          upper.height = label.waiting) ∧
      ((∀ spot ∈ nodes, program.IsStmtExpr spot.id -> spot.waiting = 0) ->
        before.height = 0 ∧
          ∀ upper lower : Code,
            place.body = upper ++ .label (.named function name) :: lower ->
            upper.height = 0) := by
  obtain ⟨tokens, sound⟩ := sound_of_parseFile parsed
  obtain ⟨place, before, rest, body, above_eq⟩ :=
    Placement.exists_of_isNamed parsed compiled emitted rfl
  obtain ⟨nodes, lists, signs⟩ := place.signs
  obtain ⟨rfl, goto, gotoListed, gotoSign, gotoHeight⟩ :=
    @exists_spot _ function place.name nodes
    place.body before rest (.goto name) signs body
  have labels (upper lower : Code)
      (divided : place.body = upper ++ .label (.named place.name name) :: lower) :
      ∃ label ∈ nodes, program.sign? label.id = some (.label name) ∧
        upper.height = label.waiting :=
    (@exists_spot _ place.name place.name nodes place.body upper lower (.label name) signs
      divided).2
  refine ⟨place, before, rest, nodes, rfl, body, above_eq, lists,
    ⟨goto, gotoListed, gotoSign, gotoHeight⟩, labels, fun unawaited => ?_⟩
  have level {spot : Spot} (listed : spot ∈ nodes)
      (statement : program.IsStatement spot.id) :
      spot.waiting = 0 :=
    lists.waiting_of_isStatement
      (fun id node found => (sound.nodes id node found).operands)
      (by simp) unawaited listed statement
  constructor
  · rw [gotoHeight, level gotoListed (Program.isStatement_of_sign? gotoSign)]
    rfl
  · intro upper lower divided
    obtain ⟨label, listed, sign, height⟩ := labels upper lower divided
    rw [height, level listed (Program.isStatement_of_sign? sign)]
    rfl

/-- A file with a goto inside a statement expression that a value waits for. -/
def innerGotoFile : SourceFile :=
  ⟨"t.c", "int main() { return 1 + ({ goto l; l: 2; 3; }); }"⟩

/-- The program in that file. -/
def innerGotoProgram : Program := (parseFile innerGotoFile).toOption.getD .empty

/-- The lines for that file. -/
def innerGotoLines : Code := (compileLines innerGotoFile).toOption.getD []

/-- In that file the body of `main` holds the goto. -/
theorem innerGoto_height_counts_waiting_values :
    parseFile innerGotoFile = .ok innerGotoProgram ∧
      compileLines innerGotoFile = .ok innerGotoLines ∧
      ∃ place : Placement innerGotoProgram innerGotoLines, ∃ before rest : Code, ∃ nodes,
        place.name = "main" ∧
        place.body = before ++ .instr (.jump (.named "main" "l")) :: rest ∧
        innerGotoProgram.Lists [⟨0, place.definition.body⟩] nodes ∧
        ∃ goto ∈ nodes, innerGotoProgram.sign? goto.id = some (.goto "l") ∧
          before.height = goto.waiting := by
  obtain ⟨isOk, compiledOk, emitted⟩ : (parseFile innerGotoFile).isOk = true ∧
      (compileLines innerGotoFile).isOk = true ∧
      innerGotoLines = innerGotoLines.take 12 ++
        .instr (.jump (.named "main" "l")) :: innerGotoLines.drop 13 := by
    decide +kernel
  have parsed : parseFile innerGotoFile = .ok innerGotoProgram := eq_ok_of_isOk isOk
  have compiled : compileLines innerGotoFile = .ok innerGotoLines :=
    eq_ok_of_isOk compiledOk
  obtain ⟨place, before, rest, nodes, name, body, _, lists, goto, _⟩ :=
    goto_height_counts_waiting_values parsed compiled emitted
  exact ⟨parsed, compiled, place, before, rest, nodes, name, body, lists, goto⟩

/-- A file with a goto into a statement expression that a value waits for. -/
def enteringGotoFile : SourceFile :=
  ⟨"t.c", "int g() { return 0; } int main() { goto l; return 1 + ({ l: g(); 2; }); }"⟩

/-- The lines for that file. -/
def enteringGotoLines : Code := (compileLines enteringGotoFile).toOption.getD []

/-- In that file the goto is accepted, and the label is one word above it.  The call
behind the label is padded for the height of the label. -/
theorem entering_goto_changes_height :
    compileLines enteringGotoFile = .ok enteringGotoLines ∧
      ∃ above between below : Code,
        enteringGotoLines = above ++ .instr (.jump (.named "main" "l")) :: between
          ++ .label (.named "main" "l") :: below ∧
        between.height = 1 ∧
        below.take 4 = [.directive (.loc 1), .instr (.subConst .rsp 8),
          .instr (.set .rax 0), .instr (.call "g")] := by
  obtain ⟨isOk, placed⟩ : (compileLines enteringGotoFile).isOk = true ∧
      enteringGotoLines = enteringGotoLines.take 24 ++ .instr
        (.jump (.named "main" "l")) ::
        (enteringGotoLines.take 29).drop 25 ++
          .label (.named "main" "l") :: enteringGotoLines.drop 30 ∧
      Code.height ((enteringGotoLines.take 29).drop 25) = 1 ∧
      (enteringGotoLines.drop 30).take 4 =
        [.directive (.loc 1), .instr (.subConst .rsp 8),
        .instr (.set .rax 0), .instr (.call "g")] := by
    decide +kernel
  exact ⟨eq_ok_of_isOk isOk, _, _, _, placed⟩

end Emit
end MiniC
