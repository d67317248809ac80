import MiniC.Proofs.Emit.StackDiscipline
import MiniC.Proofs.Emit.Text

/-!
# Labels in the text of a file

The code of all functions is one text, and jumps find their labels in it.  No numbered
label is defined twice, because the numbers go on from one function to the next.  The
label at the end of a function is defined once for each function of the name.
-/

namespace MiniC

/-- Whether a label is the name of a symbol or stands at the end of a function. -/
def Asm.Label.isFixed : Asm.Label -> Bool
  | symbol _ | exit _ => true
  | named _ _ | numbered _ _ => false

namespace Emit

open Asm

/-! ## Labels in bodies -/

section Bodies

variable {label : Label}

@[simp] theorem label_notMem_instrs (list : List Instr) : .label label ∉ instrs list := by
  simp [instrs]

@[simp] theorem label_notMem_topLines (list : List Instr) :
    .label label ∉ topLines list := by
  simp [topLines]

@[simp] theorem label_notMem_loadLines (ty : Ty) : .label label ∉ loadLines ty := by
  unfold loadLines
  split <;> simp

@[simp] theorem label_notMem_storeLines (ty : Ty) : .label label ∉ storeLines ty := by
  simp [storeLines]

@[simp] theorem label_notMem_convertLines (source target : Ty) :
    .label label ∉ convertLines source target := by
  unfold convertLines
  split
  · simp
  · split
    · simp
    · split <;> simp

@[simp] theorem label_notMem_offsetLines (offset : Int) :
    .label label ∉ offsetLines offset := by
  unfold offsetLines
  split <;> simp

@[simp] theorem label_notMem_popLines (regs : List Reg) :
    .label label ∉ popLines regs := by
  simp [popLines]

@[simp] theorem label_notMem_callLines (depth : Int) (name : String) :
    .label label ∉ callLines depth name := by
  unfold callLines
  split <;> simp

/-- Generated code defines numbered labels and labels of the source text. -/
theorem Emits.label_cases
    {context : Context}
    {task : Task}
    {state after : State}
    {code : Code}
    (emitted : Emits context task state code after)
    {place : Label}
    (defined : .label place ∈ code) :
    (∃ role number, place = .numbered role number) ∨
      ∃ name, place = .named context.function name := by
  induction emitted <;>
    simp_all [shortCircuitLines, branchLines, loopLines, leaveLines,
      testLines, define] <;>
    grind

/-- The body of a function defines neither the name of one nor the label at the end of
one. -/
theorem Emits.label_notMem
    {context : Context}
    {task : Task}
    {state after : State}
    {code : Code}
    (emitted : Emits context task state code after)
    {place : Label}
    (fixed : place.isFixed = true) :
    .label place ∉ code := by
  intro defined
  rcases emitted.label_cases defined with ⟨_, _, rfl⟩ | ⟨_, rfl⟩
  · cases fixed
  · cases fixed

end Bodies

/-! ## Texts of functions -/

section Texts

variable {program : Program} {definition : Program.Definition}
  {definitions : List Program.Definition} {state after : State} {texts : List Code}

theorem quiet_prologue
    {start : Code}
    (given : prologue program definition = .ok start) :
    Quiet start := by
  obtain ⟨spills, spilled, rfl⟩ := prologue_lines given
  have plain : spills.Plain := by
    intro line member
    obtain ⟨_, _, _, rfl⟩ := spillFrom_stores spilled line member
    rfl
  refine Quiet.append (fun number start => ?_) (.plain plain)
  unfold visibility reserve
  split <;> split <;> rfl

theorem quiet_epilogue (name : String) : Quiet (epilogue name) := by
  intro number start
  unfold epilogue
  split <;> rfl

/-- The numbered labels of a function are those of its body. -/
theorem labelled_text
    {start body : Code}
    {middle : State}
    (entry : prologue program definition = .ok start)
    (inner : Emits ⟨program, definition.symbol.name⟩ (.statement definition.body)
      ⟨0, state.nextLabel⟩ body middle) :
    Labelled state (start ++ body ++ epilogue definition.symbol.name) middle := by
  have first : Labelled state start ⟨0, state.nextLabel⟩ :=
    .silent (quiet_prologue entry) rfl
  exact (first.append inner.disciplined.labelled).append (.silent (quiet_epilogue _) rfl)

/-- The numbered labels of functions go on from one to the next. -/
theorem Texts.labelled (given : Texts program definitions state texts after) :
    Labelled state texts.flatten after := by
  induction given with
  | nil => exact .silent (fun _ _ => rfl) rfl
  | cons entry inner _ hypothesis =>
      rw [List.flatten_cons]
      exact (labelled_text entry inner).append hypothesis

/-- The text around the body of a function defines its name and the label at its end. -/
theorem count_text
    {start body : Code}
    {label : Label}
    (entry : prologue program definition = .ok start)
    (outside : .label label ∉ body) :
    (start ++ body ++ epilogue definition.symbol.name).count (.label label) =
      [Label.symbol definition.symbol.name, .exit definition.symbol.name].count
        label := by
  obtain ⟨spills, spilled, rfl⟩ := prologue_lines entry
  have noSpill : .label label ∉ spills := by
    intro member
    obtain ⟨_, _, _, equal⟩ := spillFrom_stores spilled _ member
    cases equal
  simp [epilogue, visibility, List.count_eq_zero_of_not_mem outside,
    List.count_eq_zero_of_not_mem noSpill,
    List.count_eq_zero_of_not_mem (label_notMem_instrs _), List.count_cons]

/-- A label that each function of a name defines once, and no other, is defined as often
as there are functions of the name. -/
theorem Texts.count_label
    (given : Texts program definitions state texts after)
    {label : Label}
    {name : String}
    (fixed : label.isFixed = true)
    (own : ∀ other, [Label.symbol other, .exit other].count label =
      if other = name then 1 else 0) :
    texts.flatten.count (.label label) =
      (definitions.map (·.symbol.name)).count name := by
  induction given with
  | nil => rfl
  | cons entry inner _ hypothesis =>
      rw [List.flatten_cons, List.count_append, count_text entry
        (inner.label_notMem fixed), hypothesis, own, List.map_cons,
          List.count_cons, Nat.add_comm]
      simp only [beq_iff_eq]

/-- The name of a function is defined once for each function of the name. -/
theorem Texts.count_symbol
    (given : Texts program definitions state texts after)
    (name : String) :
    texts.flatten.count (.label (.symbol name)) =
      (definitions.map (·.symbol.name)).count name :=
  given.count_label rfl (by simp [List.count_cons])

/-- The label at the end of a function is defined once for each function of the name. -/
theorem Texts.count_exit
    (given : Texts program definitions state texts after)
    (name : String) :
    texts.flatten.count (.label (.exit name)) =
      (definitions.map (·.symbol.name)).count name :=
  given.count_label rfl (by simp [List.count_cons])

/-- Every function has a place in the text. -/
theorem Texts.exists_placement
    (given : Texts program definitions state texts after)
    (present : definitions ⊆ program.definitions)
    (member : definition ∈ definitions)
    (before : Code) :
    ∃ place : Placement program (before ++ texts.flatten),
      place.definition = definition := by
  induction given generalizing before with
  | nil => cases member
  | @cons head rest state start body middle texts after entry inner _ hypothesis =>
      rcases List.mem_cons.mp member with rfl | later
      · refine ⟨⟨definition, before, start, body, texts.flatten,
          present List.mem_cons_self, entry, ⟨_, _, inner⟩, ?_⟩, rfl⟩
        rw [List.flatten_cons, List.append_assoc before]
      · have further := hypothesis
          (fun _ listed => present (List.mem_cons_of_mem _ listed)) later
          (before ++ (start ++ body ++ epilogue head.symbol.name))
        rw [List.append_assoc before] at further
        rw [List.flatten_cons]
        exact further

end Texts

/-! ## The text of a file -/

section File

variable {file : SourceFile} {program : Program} {lines : Code}

/-- Labels other than the names of symbols are those of the texts of functions. -/
theorem exists_texts_count
    (parsed : parseFile file = .ok program)
    (compiled : compileLines file = .ok lines) :
    ∃ front texts after, Texts program program.definitions ⟨0, 0⟩ texts after ∧
      lines = front ++ texts.flatten ∧
      ∀ label, (∀ name, label ≠ .symbol name) ->
        lines.count (.label label) = texts.flatten.count (.label label) := by
  obtain ⟨other, data, texts, after, otherParsed, known, given, rfl⟩ :=
    compileLines_parts compiled
  obtain rfl := Except.ok.inj (parsed.symm.trans otherParsed)
  refine ⟨_, texts, after, given, rfl, fun label code => ?_⟩
  have absent : .label label ∉ header file.name ++ data.flatten := by
    intro member
    have isData : isData (.label label) = true := by
      rcases List.mem_append.mp member with inHeader | inData
      · exact header_isData _ _ inHeader
      · exact data_isData known _ inData
    cases label with
    | symbol name => exact code name rfl
    | _ => cases isData
  rw [List.count_append, List.count_eq_zero_of_not_mem absent, Nat.zero_add]

/-- No numbered label is defined twice. -/
theorem count_numbered_le
    (parsed : parseFile file = .ok program)
    (compiled : compileLines file = .ok lines)
    (role : Role)
    (number : Nat) :
    lines.count (.label (.numbered role number)) ≤ 1 := by
  obtain ⟨_, texts, _, given, _, count⟩ := exists_texts_count parsed compiled
  rw [count _ (by simp), ← Code.countP_isLanding _ _ 0]
  exact (given.labelled.landed number 0).2.1 role

/-- The label at the end of a function is defined once for each function of the name. -/
theorem count_exit
    (parsed : parseFile file = .ok program)
    (compiled : compileLines file = .ok lines)
    (name : String) :
    lines.count (.label (.exit name)) =
      (program.definitions.map (·.symbol.name)).count name := by
  obtain ⟨_, texts, _, given, _, count⟩ := exists_texts_count parsed compiled
  rw [count _ (by simp), given.count_exit]

/-- A function of a file that is compiled has a place in the text.  No numbered label is
defined twice there, and the label at the end of a function once for each function of the
name. -/
theorem exists_placement
    {definition : Program.Definition}
    (parsed : parseFile file = .ok program)
    (compiled : compileLines file = .ok lines)
    (defined : definition ∈ program.definitions) :
    (∃ place : Placement program lines, place.definition = definition) ∧
      (∀ role number, lines.count (.label (.numbered role number)) ≤ 1) ∧
      ∀ name, lines.count (.label (.exit name)) =
        (program.definitions.map (·.symbol.name)).count name := by
  refine ⟨?_, count_numbered_le parsed compiled, count_exit parsed compiled⟩
  obtain ⟨front, texts, _, given, rfl, _⟩ := exists_texts_count parsed compiled
  exact given.exists_placement (fun _ member => member) defined front

end File

end Emit
end MiniC
