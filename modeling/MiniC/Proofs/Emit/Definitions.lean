import Mathlib.Data.List.Nodup
import MiniC.Proofs.Asm.Labels
import MiniC.Proofs.Emit.Labels
import MiniC.Proofs.Emit.Origin
import MiniC.Proofs.Goto.Target

/-!
# How often a file defines its labels

Variables and functions are not kept from sharing a name.  The text of a file defines a
name once for each variable and each function body of the name, and all other labels are
told apart by the names of functions and by numbers.  So no label is defined twice unless
two variables or functions of one name are.
-/

namespace MiniC
namespace Asm
namespace Code

/-- Regular labels are defined once each if and only if their spellings are. -/
theorem nodup_spelledLabels_iff
    {code : Code}
    (regular : ∀ label, .label label ∈ code -> label.Regular) :
    code.spelledLabels.Nodup ↔ ∀ label, code.count (.label label) ≤ 1 := by
  rw [List.nodup_iff_count_le_one]
  constructor
  · intro once label
    by_cases member : .label label ∈ code
    · rw [← count_spelledLabels regular (regular label member)]
      exact once label.render
    · rw [List.count_eq_zero_of_not_mem member]
      exact Nat.zero_le 1
  · intro once spelling
    by_cases member : spelling ∈ code.spelledLabels
    · obtain ⟨label, defined, rfl⟩ := exists_of_mem_spelledLabels member
      rw [count_spelledLabels regular (regular label defined)]
      exact once label
    · rw [List.count_eq_zero_of_not_mem member]
      exact Nat.zero_le 1

end Code
end Asm

namespace Emit

open Asm

variable {program : Program}

/-! ## Data -/

/-- The data of a symbol define its name if it is a variable. -/
theorem count_symbolData
    {id : SymbolId}
    {code : Code}
    (given : symbolData program id = .ok code)
    (name : String) :
    code.count (.label (.symbol name)) =
      (([id].filter program.isVariable).filterMap program.name?).count name := by
  obtain ⟨symbol, found, ⟨init, ty, kind, rfl⟩ | ⟨other, rfl⟩⟩ := symbolData_cases given
  · have bytes : .label (.symbol name) ∉ initialBytes ty init := by
      cases init <;> simp [initialBytes]
    have shown : .label (.symbol name) ∉
        (if symbol.name.startsWith ".L" then [] else [visibility symbol] : Code) := by
      split <;> simp [visibility]
    rw [List.count_append, List.count_append, List.count_append,
      List.count_eq_zero_of_not_mem shown, List.count_eq_zero_of_not_mem bytes]
    simp [Program.isVariable, Program.name?, found, kind, List.count_cons]
  · have plain : program.isVariable id = false := by simp [Program.isVariable, found]
    simp [plain]

/-- The data of symbols define the names of the variables among them. -/
theorem count_data
    {ids : List SymbolId}
    {data : List Code}
    (given : ids.mapM (symbolData program) = .ok data)
    (name : String) :
    data.flatten.count (.label (.symbol name)) =
      ((ids.filter program.isVariable).filterMap program.name?).count name := by
  induction ids generalizing data with
  | nil =>
      cases given
      rfl
  | cons id rest hypothesis =>
      obtain ⟨code, others, first, following, rfl⟩ := data_cons given
      rw [List.flatten_cons, List.count_append, count_symbolData first,
        hypothesis following, ← List.count_append, ← List.filterMap_append,
          ← List.filter_append, List.singleton_append]

/-! ## Labels of the source text -/

section Named

variable {tokens : TokenStream} {lines : Code}

/-- The text of a function defines no label of the source text twice, and none for another
function. -/
theorem Placement.count_named_le
    (sound : program.Sound tokens)
    (place : Placement program lines)
    (function name : String) :
    place.text.count (.label (.named function name)) ≤ if place.name =
      function then 1 else 0 := by
  split
  · rename_i own
    obtain ⟨id, found, kind, bodied⟩ := definition_cases place.isDefinition
    obtain ⟨signs, bears, once, _⟩ := sound.labels id _ _ _ found kind bodied
    rw [← own]
    exact (place.count_line bears (.label name)).trans_le (once name)
  · rename_i other
    rw [Nat.le_zero, List.count_eq_zero]
    intro member
    cases place.textOrigin member with
    | data data => cases data
    | body origin =>
        cases origin
        exact other rfl

/-- No text defines a label of the source text more often than there are functions of the
name. -/
theorem Texts.count_named_le
    (sound : program.Sound tokens)
    {definitions : List Program.Definition}
    {state after : State}
    {texts : List Code}
    (given : Texts program definitions state texts after)
    (present : definitions ⊆ program.definitions)
    (function name : String) :
    texts.flatten.count (.label (.named function name)) ≤
      (definitions.map (·.symbol.name)).count function := by
  induction given with
  | nil => exact Nat.le_refl 0
  | @cons definition rest state start body middle texts after entry inner _ hypothesis =>
      have own := Placement.count_named_le sound
        (⟨definition, [], start, body, [], present List.mem_cons_self, entry,
          ⟨_, _, inner⟩, by simp⟩ : Placement program
            (start ++ body ++ epilogue definition.symbol.name))
        function name
      have others := hypothesis fun _ member => present (List.mem_cons_of_mem _ member)
      rw [List.flatten_cons, List.count_append, List.map_cons,
        List.count_cons, Nat.add_comm]
      simp only [beq_iff_eq]
      exact Nat.add_le_add others own

end Named

/-! ## Files -/

section File

variable {file : SourceFile} {tokens : TokenStream} {lines : Code}

/-- The name of a symbol is defined once for each variable and each function body of the
name. -/
theorem count_symbol
    (parsed : parseFile file = .ok program)
    (compiled : compileLines file = .ok lines)
    (name : String) :
    lines.count (.label (.symbol name)) = program.definedNames.count name := by
  obtain ⟨other, data, texts, after, otherParsed, known, given, rfl⟩ :=
    compileLines_parts compiled
  obtain rfl := Except.ok.inj (parsed.symm.trans otherParsed)
  have head : (header file.name).count (.label (.symbol name)) = 0 := rfl
  rw [List.count_append, List.count_append, head, Nat.zero_add, count_data known,
    given.count_symbol, Program.definedNames, List.count_append]
  rfl

theorem count_named_le
    (sound : program.Sound tokens)
    (parsed : parseFile file = .ok program)
    (compiled : compileLines file = .ok lines)
    (function name : String) :
    lines.count (.label (.named function name)) ≤ program.definitionNames.count
      function := by
  obtain ⟨_, texts, _, given, _, count⟩ := exists_texts_count parsed compiled
  rw [count _ (by simp)]
  exact given.count_named_le sound (fun _ member => member) function name

theorem undotted_of_mem_definitionNames
    (sound : program.Sound tokens)
    {name : String}
    (defined : name ∈ program.definitionNames) :
    Undotted name := by
  obtain ⟨definition, isDefinition, rfl⟩ := List.mem_map.mp defined
  obtain ⟨id, found, kind, _⟩ := definition_cases isDefinition
  exact (sound.functions id _ _ found kind).1

/-- A name that is defined is one of the source text or that of a string literal. -/
theorem regular_of_mem_definedNames
    (sound : program.Sound tokens)
    {name : String}
    (defined : name ∈ program.definedNames) :
    (Label.symbol name).Regular := by
  rcases List.mem_append.mp defined with inData | inText
  · obtain ⟨_, listing⟩ := sound.listing
    exact listing.undotted_or_literal (program.variableNames_sublist.subset inData)
  · exact .inl (undotted_of_mem_definitionNames sound inText)

/-- The labels of a file are regular. -/
theorem regular_of_mem
    (sound : program.Sound tokens)
    (parsed : parseFile file = .ok program)
    (compiled : compileLines file = .ok lines) :
    ∀ label, .label label ∈ lines -> label.Regular := by
  intro label member
  have positive := List.count_pos_iff.mpr member
  cases label with
  | symbol name =>
      rw [count_symbol parsed compiled] at positive
      exact regular_of_mem_definedNames sound (List.count_pos_iff.mp positive)
  | named function name =>
      have few := count_named_le sound parsed compiled function name
      have defined : function ∈ program.definitionNames :=
        List.count_pos_iff.mp (Nat.lt_of_lt_of_le positive few)
      exact undotted_of_mem_definitionNames sound defined
  | exit | numbered => trivial

/-- No label is defined twice if and only if no two definitions share a name. -/
theorem count_label_le_one_iff
    (sound : program.Sound tokens)
    (parsed : parseFile file = .ok program)
    (compiled : compileLines file = .ok lines) :
    (∀ label, lines.count (.label label) ≤ 1) ↔ program.definedNames.Nodup := by
  rw [List.nodup_iff_count_le_one]
  constructor
  · intro once name
    rw [← count_symbol parsed compiled]
    exact once (.symbol name)
  · intro distinct label
    have function (name : String) : program.definitionNames.count name ≤ 1 :=
      ((List.sublist_append_right _ _).count_le name).trans (distinct name)
    cases label with
    | symbol name =>
        rw [count_symbol parsed compiled]
        exact distinct name
    | exit name =>
        rw [count_exit parsed compiled]
        exact function name
    | named name place =>
        exact (count_named_le sound parsed compiled name place).trans (function name)
    | numbered role number => exact count_numbered_le parsed compiled role number

/-- The label of a string literal is defined at most once. -/
theorem count_literalName_le
    (sound : program.Sound tokens)
    (parsed : parseFile file = .ok program)
    (compiled : compileLines file = .ok lines)
    (number : Nat) :
    lines.count (.label (.symbol (literalName number))) ≤ 1 := by
  obtain ⟨_, listing⟩ := sound.listing
  have notFunction : literalName number ∉ program.definitionNames := fun defined =>
    not_undotted_literalName number (undotted_of_mem_definitionNames sound defined)
  rw [count_symbol parsed compiled, Program.definedNames, List.count_append,
    List.count_eq_zero_of_not_mem notFunction, Nat.add_zero]
  exact (program.variableNames_sublist.count_le _).trans
    (listing.count_literalName_le number)

end File

/-- A name of the source text is defined once for each variable and each function body of
the name, and the label at the end of a function once for each body.  The label of a
string literal is defined at most once.  No label at all is defined twice if and only if
no name is given to two variables or function bodies. -/
theorem symbols_are_defined_once_for_each_definition
    {file : SourceFile}
    {lines : Code}
    (parsed : parseFile file = .ok program)
    (compiled : compileLines file = .ok lines) :
    (∀ name, Undotted name ->
      lines.spelledLabels.count name = program.definedNames.count name) ∧
    (∀ name, lines.spelledLabels.count (Label.exit name).render =
      program.definitionNames.count name) ∧
    (∀ number, lines.spelledLabels.count (literalName number) ≤ 1) ∧
    (lines.spelledLabels.Nodup ↔ program.definedNames.Nodup) := by
  obtain ⟨tokens, sound⟩ := sound_of_parseFile parsed
  have regular := regular_of_mem sound parsed compiled
  refine ⟨fun name undotted => ?_, fun name => ?_, fun number => ?_, ?_⟩
  · have spelled := Code.count_spelledLabels regular
      (show (Label.symbol name).Regular from .inl undotted)
    exact spelled.trans (count_symbol parsed compiled name)
  · have spelled := Code.count_spelledLabels regular (Label.regular_exit name)
    exact spelled.trans (count_exit parsed compiled name)
  · have spelled := Code.count_spelledLabels regular
      (show (Label.symbol (literalName number)).Regular from .inr ⟨number, rfl⟩)
    exact spelled.trans_le (count_literalName_le sound parsed compiled number)
  · rw [Code.nodup_spelledLabels_iff regular,
      count_label_le_one_iff sound parsed compiled]

/-- A file with a prototype, its function, a variable, and two string literals. -/
def variedFile : SourceFile :=
  ⟨"t.c", "char *f(); char *v; char *f() \x7b v = \"a\"; return \"b\"; \x7d"⟩

/-- The program in that file. -/
def variedProgram : Program := (parseFile variedFile).toOption.getD .empty

/-- The lines for that file. -/
def variedLines : Code := (compileLines variedFile).toOption.getD []

/-- In that file the function and the variable are defined once, and no label twice. -/
theorem varied_symbols_are_defined_once :
    parseFile variedFile = .ok variedProgram ∧ compileLines variedFile = .ok variedLines ∧
      variedProgram.definedNames = ["v", ".L..0", ".L..1", "f"] ∧
      variedLines.spelledLabels.count "f" = 1 ∧ variedLines.spelledLabels.count "v" = 1 ∧
      variedLines.spelledLabels.count ".L.return.f" = 1 ∧
      variedLines.spelledLabels.count ".L..0" ≤ 1 ∧ variedLines.spelledLabels.Nodup := by
  have facts : (parseFile variedFile).isOk = true ∧
      (compileLines variedFile).isOk = true ∧
      variedProgram.definedNames = ["v", ".L..0", ".L..1", "f"] ∧
      variedProgram.definitionNames = ["f"] := by decide +kernel
  obtain ⟨parses, compiles, names, functions⟩ := facts
  have parsed : parseFile variedFile = .ok variedProgram := eq_ok_of_isOk parses
  have compiled : compileLines variedFile = .ok variedLines := eq_ok_of_isOk compiles
  obtain ⟨symbols, exits, literals, distinct⟩ :=
    symbols_are_defined_once_for_each_definition parsed compiled
  rw [names] at symbols distinct
  rw [functions] at exits
  exact ⟨parsed, compiled, names, symbols "f" (by decide), symbols "v"
    (by decide), exits "f", literals 0, distinct.mpr (by decide)⟩

/-- A file that declares a variable twice. -/
def repeatedFile : SourceFile := ⟨"t.c", "int x; int x; int main() { return x; }"⟩

/-- The lines for that file. -/
def repeatedLines : Code := (compileLines repeatedFile).toOption.getD []

/-- That file is compiled, and its variable is defined twice. -/
theorem repeated_variable_is_defined_twice :
    compileLines repeatedFile = .ok repeatedLines ∧
      repeatedLines.spelledLabels.count "x" = 2 := by
  have facts : (compileLines repeatedFile).isOk = true ∧
      repeatedLines.spelledLabels.count "x" = 2 := by decide +kernel
  exact ⟨eq_ok_of_isOk facts.1, facts.2⟩

end Emit
end MiniC
