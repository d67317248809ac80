import Mathlib.Data.List.Count
import MiniC.Proofs.Compile
import MiniC.Proofs.Emit.Signs

/-!
# Targets of gotos

A goto is accepted if its label was read somewhere in the function.  Code is generated for
the tree of the body, and the operand of `sizeof` is read without becoming a part of the
tree.  So the text of a function defines each label at most once, and a label that is
jumped to exactly once unless it was read inside such an operand.
-/

namespace MiniC
namespace Emit

open Asm Code

variable {program : Program}

namespace Placement

variable {lines : Code}

/-- The lines of a function with labels of the source text are those of its tree. -/
theorem filter_isNamed (place : Placement program lines) :
    ∃ nodes, program.Lists [⟨0, place.definition.body⟩] nodes ∧
      place.text.filter (·.isNamed) =
        (program.signs nodes).map (Sign.line place.name) := by
  obtain ⟨nodes, lists, signs⟩ := place.signs
  refine ⟨nodes, lists, ?_⟩
  calc place.text.filter (·.isNamed)
    _ = place.body.filter (·.isNamed) := by
        have entry := (nameless_prologue place.entry).signs_eq_nil 0
        have exit := (nameless_epilogue place.name).signs_eq_nil 0
        rw [text, List.filter_append, List.filter_append, ← map_signs place.start 0,
          ← map_signs (epilogue place.name) 0, entry, exit]
        simp
    _ = (nodes.filterMap (Context.sign? ⟨program, place.name⟩ 0)).map (·.2) := by
        rw [← map_signs place.body 0, signs]
    _ = (program.signs nodes).map (Sign.line place.name) := by
        rw [Program.signs, List.map_filterMap, List.map_filterMap]
        congr 1
        funext spot
        rw [Context.sign?, Option.map_map]
        rfl

/-- A sign stands in the text of a function as often as in its tree. -/
theorem count_line
    (place : Placement program lines)
    {signs : List Sign}
    (bears : program.Bears [place.definition.body] signs)
    (sign : Sign) :
    place.text.count (sign.line place.name) = signs.count sign := by
  obtain ⟨nodes, lists, order⟩ := bears
  obtain ⟨others, othersLists, filtered⟩ := place.filter_isNamed
  obtain rfl := lists.unique othersLists
  have named : (sign.line place.name).isNamed = true := by cases sign <;> rfl
  calc place.text.count (sign.line place.name)
    _ = (place.text.filter (·.isNamed)).count (sign.line place.name) :=
        (List.count_filter named).symm
    _ = (program.signs nodes).count sign := by
        rw [filtered, List.count_map_of_injective _ _ (Sign.line_injective place.name)]
    _ = signs.count sign := order.count_eq sign

end Placement

/-- A jump to a label of the source text stands in the body of a function of that name.
The text of the function defines the label at most once: once if the tree of the body
contains it, which it does unless the file has a `sizeof`. -/
theorem goto_label_is_defined_at_most_once
    {file : SourceFile}
    {tokens : TokenStream}
    {lines above below : Code}
    {function name : String}
    (cut : tokenize file = .ok tokens)
    (parsed : parseFile file = .ok program)
    (compiled : compileLines file = .ok lines)
    (emitted : lines = above ++ .instr (.jump (.named function name)) :: below) :
    ∃ place : Placement program lines, ∃ before rest : Code,
      place.name = function ∧
      place.body = before ++ .instr (.jump (.named function name)) :: rest ∧
      above = place.earlier ++ place.start ++ before ∧
      place.text.count (.label (.named function name)) ≤ 1 ∧
      (place.text.count (.label (.named function name)) = 1 ↔
        ∃ id, program.Contains place.definition.body id ∧
          program.sign? id = some (.label name)) ∧
      (tokens.Unsized -> place.text.count (.label (.named function name)) = 1) := by
  obtain ⟨others, otherCut, sound⟩ := exists_tokens_of_parseFile parsed
  obtain rfl := Except.ok.inj (cut.symm.trans otherCut)
  obtain ⟨place, before, rest, body, above_eq⟩ :=
    Placement.exists_of_isNamed parsed compiled emitted rfl
  obtain ⟨id, found, kind, bodied⟩ := definition_cases place.isDefinition
  obtain ⟨signs, bears, once, targets⟩ := sound.labels id _ _ _ found kind bodied
  obtain ⟨nodes, lists, filtered⟩ := place.filter_isNamed
  -- The jump is the line of a goto in the tree, and this gives the name of the function.
  obtain ⟨sign, jumps, line⟩ : ∃ sign ∈ program.signs nodes,
      sign.line place.name = .instr (.jump (.named function name)) := by
    rw [← List.mem_map, ← filtered, List.mem_filter]
    simp [Placement.text, body, Line.isNamed]
  obtain ⟨rfl, rfl⟩ : place.name = function ∧ sign = .goto name := by
    cases sign <;> simp_all [Sign.line]
  have count :
      place.text.count (.label (.named place.name name)) = signs.count (.label name) :=
    place.count_line bears (.label name)
  have positive : signs.count (.label name) = 1 ↔ .label name ∈ signs := by
    rw [← List.one_le_count_iff]
    have upper := once name
    omega
  refine ⟨place, before, rest, rfl, body, above_eq, ?_, ?_, ?_⟩
  · rw [count]
    exact once name
  · rw [count, positive, bears.mem_iff_contains]
  · intro unsized
    rw [count, positive]
    obtain ⟨same, sameLists, order⟩ := bears
    obtain rfl := lists.unique sameLists
    exact targets unsized name (order.mem_iff.mp jumps)

/-- A file with a goto and its label. -/
def skippingFile : SourceFile := ⟨"t.c", "int main() { goto l; return 1; l: return 0; }"⟩

/-- The tokens of that file. -/
def skippingTokens : TokenStream :=
  (tokenize skippingFile).toOption.getD ⟨#[], ⟨.eof, "", 0, 0⟩⟩

/-- The program in that file. -/
def skippingProgram : Program := (parseFile skippingFile).toOption.getD .empty

/-- The lines for that file. -/
def skippingLines : Code := (compileLines skippingFile).toOption.getD []

/-- In that file the label of the goto is defined once. -/
theorem skipping_goto_label_is_defined_once :
    parseFile skippingFile = .ok skippingProgram ∧
      compileLines skippingFile = .ok skippingLines ∧
      ∃ place : Placement skippingProgram skippingLines, ∃ before rest : Code,
        place.name = "main" ∧
        place.body = before ++ .instr (.jump (.named "main" "l")) :: rest ∧
        place.text.count (.label (.named "main" "l")) = 1 := by
  obtain ⟨cutOk, isOk, compiledOk, emitted, unsized⟩ : (tokenize skippingFile).isOk =
    true ∧
      (parseFile skippingFile).isOk = true ∧ (compileLines skippingFile).isOk = true ∧
      skippingLines = skippingLines.take 9 ++
        .instr (.jump (.named "main" "l")) :: skippingLines.drop 10 ∧
        skippingTokens.Unsized := by
    decide +kernel
  have cut : tokenize skippingFile = .ok skippingTokens := eq_ok_of_isOk cutOk
  have parsed : parseFile skippingFile = .ok skippingProgram := eq_ok_of_isOk isOk
  have compiled : compileLines skippingFile = .ok skippingLines :=
    eq_ok_of_isOk compiledOk
  obtain ⟨place, before, rest, name, body, _, _, _, once⟩ :=
    goto_label_is_defined_at_most_once cut parsed compiled emitted
  exact ⟨parsed, compiled, place, before, rest, name, body, once unsized⟩

/-- A file with a goto to a label inside the operand of a `sizeof`. -/
def droppedLabelFile : SourceFile :=
  ⟨"t.c", "int main() { goto l; return sizeof(({ l: ; 1; })); }"⟩

/-- The lines for that file. -/
def droppedLabelLines : Code := (compileLines droppedLabelFile).toOption.getD []

/-- In that file the goto is accepted, and no line defines its label. -/
theorem goto_into_sizeof_has_no_target :
    compileLines droppedLabelFile = .ok droppedLabelLines ∧
      .instr (.jump (.named "main" "l")) ∈ droppedLabelLines ∧
      .label (.named "main" "l") ∉ droppedLabelLines := by
  obtain ⟨isOk, jumps, missing⟩ : (compileLines droppedLabelFile).isOk = true ∧
      .instr (.jump (.named "main" "l")) ∈ droppedLabelLines ∧
      .label (.named "main" "l") ∉ droppedLabelLines := by
    decide +kernel
  exact ⟨eq_ok_of_isOk isOk, jumps, missing⟩

end Emit
end MiniC
