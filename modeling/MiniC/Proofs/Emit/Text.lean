import MiniC.Compile
import MiniC.Proofs.Emit.Emission

/-!
# The text of a compiled file

The code of a file is a header, the data of its variables and the texts of its functions.
`Texts` says what the texts are: each is a prologue, the code of the body from depth zero
on, and an epilogue, and the numbers of labels go on from one function to the next.
-/

namespace MiniC
namespace Emit

open Asm

/-! ## Texts of functions -/

/-- The texts of functions, with the states before the first and after the last. -/
inductive Texts (program : Program) :
    List Program.Definition -> State -> List Code -> State -> Prop
  | nil {state} : Texts program [] state [] state
  | cons {definition rest state start body middle texts after}
      (entry : prologue program definition = .ok start)
      (inner : Emits ⟨program, definition.symbol.name⟩ (.statement definition.body)
        ⟨0, state.nextLabel⟩ body middle)
      (others : Texts program rest middle texts after) :
      Texts program (definition :: rest) state
        ((start ++ body ++ epilogue definition.symbol.name) :: texts) after

variable {program : Program} {definition : Program.Definition}
  {definitions : List Program.Definition} {state after : State} {texts : List Code}

/-- The parts of the text of a function. -/
theorem functionText_parts
    {text : Code}
    (given : Gives (functionText program definition) state text after) :
    ∃ start body, prologue program definition = .ok start ∧
      Emits ⟨program, definition.symbol.name⟩ (.statement definition.body)
        ⟨0, state.nextLabel⟩ body after ∧
      text = start ++ body ++ epilogue definition.symbol.name := by
  simp only [functionText, gives_bind, gives_lift, gives_pure] at given
  obtain ⟨start, before, ⟨entry, rfl⟩, _, entered, modified, body, middle, inner,
    _, _, checked, rfl, rfl⟩ := given
  obtain rfl : entered = ⟨0, before.nextLabel⟩ := by
    cases modified
    rfl
  obtain rfl : after = middle := by
    simp only [checkBalance, gives_bind] at checked
    obtain ⟨_, _, read, checked⟩ := checked
    cases read
    split at checked
    · exact ((gives_pure _ _).mp checked).2
    · exact absurd checked (gives_throw _ _)
  exact ⟨start, body, entry, (Emits.of_routines _ _).statement inner, rfl⟩

theorem Texts.of_mapM
    (given : Gives (definitions.mapM (functionText program)) state texts after) :
    Texts program definitions state texts after := by
  induction definitions generalizing state texts with
  | nil =>
      rw [List.mapM_nil, gives_pure] at given
      obtain ⟨rfl, rfl⟩ := given
      exact .nil
  | cons definition rest hypothesis =>
      rw [List.mapM_cons] at given
      simp only [gives_bind, gives_pure] at given
      obtain ⟨text, middle, first, others, _, following, rfl, rfl⟩ := given
      obtain ⟨start, body, entry, inner, rfl⟩ := functionText_parts first
      exact .cons entry inner (hypothesis following)

/-- The code of a program is made of its data and the texts of its functions. -/
theorem program_runs
    {name : String}
    {lines : Code}
    (generated : Emit.program program name = .ok lines) :
    ∃ data texts after, program.globals.toList.mapM (symbolData program) = .ok data ∧
      Gives (program.definitions.mapM (functionText program)) ⟨0, 0⟩ texts after ∧
      lines = header name ++ data.flatten ++ texts.flatten := by
  unfold Emit.program at generated
  cases known : program.globals.toList.mapM (symbolData program) with
  | error error =>
      rw [known] at generated
      cases generated
  | ok data =>
      cases run : (program.definitions.mapM (functionText program)).run ⟨0, 0⟩ with
      | error error =>
          rw [known, run] at generated
          cases generated
      | ok pair =>
          rw [known, run] at generated
          cases generated
          exact ⟨data, pair.1, pair.2, rfl, run, rfl⟩

/-- The parts of the code of a program. -/
theorem program_parts
    {name : String}
    {lines : Code}
    (generated : Emit.program program name = .ok lines) :
    ∃ data texts after, program.globals.toList.mapM (symbolData program) = .ok data ∧
      Texts program program.definitions ⟨0, 0⟩ texts after ∧
      lines = header name ++ data.flatten ++ texts.flatten := by
  obtain ⟨data, texts, after, known, run, listed⟩ := program_runs generated
  exact ⟨data, texts, after, known, .of_mapM run, listed⟩

/-- The parts of the code of a file. -/
theorem compileLines_parts
    {file : SourceFile}
    {lines : Code}
    (compiled : compileLines file = .ok lines) :
    ∃ program data texts after, parseFile file = .ok program ∧
      program.globals.toList.mapM (symbolData program) = .ok data ∧
      Texts program program.definitions ⟨0, 0⟩ texts after ∧
      lines = header file.name ++ data.flatten ++ texts.flatten := by
  unfold compileLines at compiled
  cases parsed : parseFile file with
  | error error =>
      rw [parsed] at compiled
      cases compiled
  | ok program =>
      rw [parsed] at compiled
      obtain ⟨data, texts, after, known, given, equal⟩ := program_parts compiled
      exact ⟨program, data, texts, after, rfl, known, given, equal⟩

/-! ## Lines around the bodies -/

/-- Whether a line defines data: a directive or the name of a symbol. -/
def isData : Line -> Bool
  | .directive _ | .label (.symbol _) => true
  | _ => false

/-- The data of a symbol: none unless it is a variable. -/
theorem symbolData_cases
    {id : SymbolId}
    {code : Code}
    (given : symbolData program id = .ok code) :
    ∃ symbol, program.symbol? id = some symbol ∧
      ((∃ init ty, symbol.kind = .globalVar init ∧
          code = [.directive .data]
            ++ (if symbol.name.startsWith ".L" then [] else [visibility symbol])
            ++ [.directive (.align ty.align), .label (.symbol symbol.name)]
            ++ initialBytes ty init) ∨
        (∀ init, symbol.kind ≠ .globalVar init) ∧ code = []) := by
  simp only [symbolData, bind, Except.bind] at given
  split at given
  · cases given
  rename_i symbol known
  refine ⟨symbol, lookupSymbol_eq_ok.mp known, ?_⟩
  split at given
  · split at given
    · cases given
    · cases given
      exact .inl ⟨_, _, ‹_›, rfl⟩
  · cases given
    exact .inr ⟨‹_›, rfl⟩

theorem initialBytes_isData (ty : Ty) (init : Option (List UInt8)) :
    ∀ line ∈ initialBytes ty init, isData line = true := by
  intro line member
  cases init with
  | none =>
      obtain rfl := List.mem_singleton.mp member
      rfl
  | some bytes =>
      obtain ⟨_, _, rfl⟩ := List.mem_map.mp member
      rfl

theorem symbolData_isData
    {id : SymbolId}
    {code : Code}
    (given : symbolData program id = .ok code) :
    ∀ line ∈ code, isData line = true := by
  obtain ⟨symbol, _, ⟨init, ty, _, rfl⟩ | ⟨_, rfl⟩⟩ := symbolData_cases given
  · intro line member
    simp only [List.mem_append, List.mem_cons, List.not_mem_nil, or_false] at member
    rcases member with ((rfl | shown) | rfl | rfl) | bytes
    · rfl
    · split at shown
      · cases shown
      · obtain rfl := List.mem_singleton.mp shown
        rfl
    · rfl
    · rfl
    · exact initialBytes_isData ty init line bytes
  · intro line member
    cases member

/-- The data of symbols are those of the first and those of the others. -/
theorem data_cons
    {id : SymbolId}
    {rest : List SymbolId}
    {data : List Code}
    (given : (id :: rest).mapM (symbolData program) = .ok data) :
    ∃ code others, symbolData program id = .ok code ∧
      rest.mapM (symbolData program) = .ok others ∧ data = code :: others := by
  rw [List.mapM_cons] at given
  cases first : symbolData program id with
  | error error =>
      rw [first] at given
      cases given
  | ok code =>
      cases following : rest.mapM (symbolData program) with
      | error error =>
          rw [first, following] at given
          cases given
      | ok others =>
          rw [first, following] at given
          cases given
          exact ⟨code, others, rfl, rfl, rfl⟩

theorem data_isData
    {ids : List SymbolId}
    {data : List Code}
    (given : ids.mapM (symbolData program) = .ok data) :
    ∀ line ∈ data.flatten, isData line = true := by
  induction ids generalizing data with
  | nil =>
      cases given
      intro line member
      cases member
  | cons id rest hypothesis =>
      obtain ⟨code, others, first, following, rfl⟩ := data_cons given
      intro line member
      rcases List.mem_append.mp member with own | later
      · exact symbolData_isData first line own
      · exact hypothesis following line later

theorem header_isData (name : String) : ∀ line ∈ header name, isData line = true := by
  intro line member
  simp only [header, List.mem_cons, List.not_mem_nil, or_false] at member
  rcases member with rfl | rfl <;> rfl

/-- An argument is stored at the place of its parameter, at the width of its type. -/
theorem spillFrom_cons
    {index : Nat}
    {param : SymbolId}
    {rest : List SymbolId}
    {code : Code}
    (given : spillFrom program index (param :: rest) = .ok code) :
    ∃ symbol offset ty reg others, program.symbol? param = some symbol ∧
      symbol.kind = .localVar (some offset) ∧ program.types.get? symbol.ty = some ty ∧
      argumentRegisters[index]? = some reg ∧
      spillFrom program (index + 1) rest = .ok others ∧
      code = instrs [.storeFrame offset reg (.ofSize ty.size)] ++ others := by
  simp only [spillFrom, bind, Except.bind] at given
  split at given
  · cases given
  rename_i offset placed
  obtain ⟨symbol, found, kind⟩ := frameOffset_eq_ok.mp placed
  rw [lookupSymbol_eq_ok.mpr found] at given
  dsimp only at given
  split at given
  · cases given
  rename_i ty known
  split at given
  · cases given
  rename_i reg named
  split at given
  · cases given
  rename_i others spilled
  cases given
  refine ⟨symbol, offset, ty, reg, others, found, kind, ?_, ?_, spilled, rfl⟩
  · unfold Program.lookupTy at known
    split at known <;> cases known
    assumption
  · unfold argumentRegister at named
    split at named <;> cases named
    assumption

/-- Arguments are stored at the places of the parameters. -/
theorem spillFrom_places
    {index : Nat}
    {params : List SymbolId}
    {code : Code}
    (given : spillFrom program index params = .ok code) :
    ∀ line ∈ code, ∃ param ∈ params, ∃ symbol offset reg width,
      program.symbol? param = some symbol ∧ symbol.kind = .localVar (some offset) ∧
        line = .instr (.storeFrame offset reg width) := by
  induction params generalizing index code with
  | nil =>
      cases given
      intro line member
      cases member
  | cons param rest hypothesis =>
      obtain ⟨symbol, offset, _, reg, others, found, kind, _, _, spilled, rfl⟩ :=
        spillFrom_cons given
      intro line member
      rcases List.mem_append.mp member with own | later
      · exact ⟨param, List.mem_cons_self, symbol, offset, reg, _, found, kind,
          List.mem_singleton.mp own⟩
      · obtain ⟨other, listed, stored⟩ := hypothesis spilled line later
        exact ⟨other, List.mem_cons_of_mem _ listed, stored⟩

/-- Arguments are stored into the frame. -/
theorem spillFrom_stores
    {index : Nat}
    {params : List SymbolId}
    {code : Code}
    (given : spillFrom program index params = .ok code) :
    ∀ line ∈ code, ∃ offset reg width, line = .instr (.storeFrame offset reg width) := by
  intro line member
  obtain ⟨_, _, _, offset, reg, width, _, _, equal⟩ := spillFrom_places given line member
  exact ⟨offset, reg, width, equal⟩

/-- The lines of a prologue. -/
theorem prologue_lines
    {start : Code}
    (given : prologue program definition = .ok start) :
    ∃ spills, spillFrom program 0 definition.function.params = .ok spills ∧
      start = [visibility definition.symbol, .directive .text,
          .label (.symbol definition.symbol.name)]
        ++ instrs ([.push .rbp, .move .rbp .rsp] ++ reserve definition.function.stackSize)
        ++ spills := by
  unfold prologue at given
  cases spilled : spillFrom program 0 definition.function.params with
  | error error =>
      rw [spilled] at given
      cases given
  | ok spills =>
      rw [spilled] at given
      cases given
      exact ⟨spills, rfl, rfl⟩

/-! ## Lines and the functions they belong to -/

/-- A line of two texts stands in one of them. -/
theorem split_append
    {α : Type}
    {first second above below : List α}
    {line : α}
    (divided : first ++ second = above ++ line :: below) :
    (∃ lower, first = above ++ line :: lower ∧ below = lower ++ second) ∨
      ∃ upper, above = first ++ upper ∧ second = upper ++ line :: below := by
  rcases List.append_eq_append_iff.mp divided with
    ⟨upper, above_eq, second_eq⟩ | ⟨lower, first_eq, rest_eq⟩
  · exact .inr ⟨upper, above_eq, second_eq⟩
  · cases lower with
    | nil =>
        rw [List.append_nil] at first_eq
        exact .inr ⟨[], by rw [List.append_nil, first_eq], rest_eq.symm⟩
    | cons own lower =>
        obtain ⟨rfl, rfl⟩ := List.cons.inj rest_eq
        exact .inl ⟨lower, first_eq, rfl⟩

/-- The place of a function in the lines of a program. -/
structure Placement (program : Program) (lines : Code) where
  definition : Program.Definition
  earlier : Code
  start : Code
  body : Code
  later : Code
  isDefinition : definition ∈ program.definitions
  entry : prologue program definition = .ok start
  inner : ∃ number after,
    Emits ⟨program, definition.symbol.name⟩ (.statement definition.body)
    ⟨0, number⟩ body after
  lines_eq : lines = earlier ++ (start ++ body ++ epilogue definition.symbol.name) ++
    later

namespace Placement

/-- The name of the function. -/
def name {lines : Code} (place : Placement program lines) :
    String := place.definition.symbol.name

/-- The text of the function. -/
def text {lines : Code} (place : Placement program lines) : Code :=
  place.start ++ place.body ++ epilogue place.name

end Placement

/-- Every line of the texts stands in the text of a function. -/
theorem Texts.split
    (given : Texts program definitions state texts after)
    (present : definitions ⊆ program.definitions)
    {before above below : Code}
    {line : Line}
    (divided : texts.flatten = above ++ line :: below) :
    ∃ place : Placement program (before ++ texts.flatten), ∃ upper lower,
      place.text = upper ++ line :: lower ∧ before ++ above = place.earlier ++ upper := by
  induction given generalizing before above with
  | nil => simp at divided
  | @cons definition rest state start body middle texts after entry inner _ hypothesis =>
      rw [List.flatten_cons] at divided
      rcases split_append divided with ⟨lower, own, rfl⟩ | ⟨upper, rfl, later⟩
      · refine ⟨⟨definition, before, start, body, texts.flatten,
          present List.mem_cons_self, entry, ⟨_, _, inner⟩, ?_⟩, above, lower, own, rfl⟩
        rw [List.flatten_cons, List.append_assoc before]
      · have further := @hypothesis
          (fun _ member => present (List.mem_cons_of_mem _ member))
          (before ++ (start ++ body ++ epilogue definition.symbol.name)) upper later
        rw [List.append_assoc before] at further
        rw [List.flatten_cons]
        simpa only [List.append_assoc before] using further

/-- Every line of a file that is not data stands in the text of a function. -/
theorem Placement.exists_of_line
    {file : SourceFile}
    {lines above below : Code}
    {line : Line}
    (parsed : parseFile file = .ok program)
    (compiled : compileLines file = .ok lines)
    (divided : lines = above ++ line :: below)
    (code : isData line = false) :
    ∃ place : Placement program lines, ∃ upper lower,
      place.text = upper ++ line :: lower ∧
      above = place.earlier ++ upper := by
  obtain ⟨other, data, texts, after, otherParsed, known, given, rfl⟩ :=
    compileLines_parts compiled
  obtain rfl := Except.ok.inj (otherParsed.symm.trans parsed)
  rcases split_append divided with ⟨lower, own, _⟩ | ⟨upper, rfl, inTexts⟩
  · have member : line ∈ header file.name ++ data.flatten := by simp [own]
    have isData : isData line = true := by
      rcases List.mem_append.mp member with inHeader | inData
      · exact header_isData _ _ inHeader
      · exact data_isData known _ inData
    rw [code] at isData
    cases isData
  · exact given.split (fun _ member => member) inTexts

end Emit
end MiniC
