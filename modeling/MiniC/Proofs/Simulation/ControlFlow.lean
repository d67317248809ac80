import MiniC.Proofs.Emit.Labels
import MiniC.Proofs.Emit.Origin
import MiniC.Proofs.Simulation.Function
import MiniC.Proofs.Simulation.Generated

/-!
# Control flow of generated functions

In the text of a file jumps find their labels.  So the text of a function whose body is a
statement over integer expressions, run from its label, does what an execution of the body
does, and comes to its `ret`.
-/

namespace MiniC
namespace Semantics

open Asm Emit

variable {program : Program} {tokens : TokenStream}

/-! ## Labels -/

section Labels

variable {lines earlier start body later : Code} {name : String}

/-- Jumps in the body of a function find their labels. -/
theorem resolves_body
    (divided : lines = earlier ++ (start ++ body ++ epilogue name) ++ later)
    (once : ∀ role number, lines.count (.label (.numbered role number)) ≤ 1) :
    Resolves lines body (epilogue name ++ later) := by
  have split : lines = (earlier ++ start) ++ body ++ (epilogue name ++ later) := by
    simpa only [List.append_assoc] using divided
  rw [split] at once ⊢
  exact .of_count _ once

/-- A return jumps to the end of its function, if no other has the name. -/
theorem after?_exit
    (divided : lines = earlier ++ (start ++ body ++ epilogue name) ++ later)
    (once : lines.count (.label (.exit name)) ≤ 1) :
    lines.after? (.exit name) = some (restoreLines ++ later) := by
  have split : lines =
      (earlier ++ (start ++
        (body ++ instrs (if name = "main" then [.set .rax 0] else [])))) ++
        .label (.exit name) :: (restoreLines ++ later) := by
    rw [divided]
    simp only [epilogue, restoreLines, List.append_assoc, List.cons_append,
      List.nil_append]
  rw [split] at once ⊢
  exact Code.after?_of_count once

end Labels

/-! ## Variables -/

/-- The variables of a statement in a function are declared, and the local ones belong to
the function. -/
theorem SpellsStmt.vars
    {start : Nat}
    {function : Function}
    {result : TyId}
    {root : NodeId}
    (home : ∀ id node, program.Contains root id -> program.node? id = some node ->
      program.HomeRule start function.locals result node.kind)
    {goal : TyId}
    {task : Task}
    {stmt : Stmt}
    (spells : SpellsStmt program goal task stmt)
    (within : task.Within program root) :
    ∀ target ∈ stmt.vars, ∃ symbol, DeclaredAs program target symbol ∧
      (symbol.isLocal = true -> target.id ∈ function.locals) := by
  -- The expressions of a statement belong to the function as it does.
  have inside {id child : NodeId} {node : Node} {kind : NodeKind}
      (within : (Task.statement id).Within program root)
      (found : program.node? id = some node) (isKind : node.kind = kind)
      (member : child ∈ kind.children) : program.Contains root child :=
    (within id List.mem_cons_self).child found (isKind ▸ member)
  induction spells with
  | block found kind _ hypothesis => exact hypothesis (within.below found kind)
  | expr found kind inner =>
      exact inner.vars home (inside within found kind (by simp [NodeKind.children]))
  | retNone | discardNone | optionalNone | noStatements =>
      exact fun target member => absurd member List.not_mem_nil
  | retVoid found kind _ _ inner =>
      exact inner.vars home (inside within found kind (by simp [NodeKind.children]))
  | @ret _ _ value _ _ _ found kind converted conversionKind _ inner =>
      have outer : program.Contains root value :=
        inside within found kind (by simp [NodeKind.children])
      exact inner.vars home
        (outer.child converted (by simp [conversionKind, NodeKind.children]))
  | branch found kind decision _ _ first second =>
      refine List.forall_mem_append.mpr ⟨?_, List.forall_mem_append.mpr ⟨?_, ?_⟩⟩
      · exact decision.vars home (inside within found kind (by simp [NodeKind.children]))
      · exact first (within.below found kind)
      · exact second (within.below found kind)
  | loop found kind _ decision _ _ first round next =>
      refine List.forall_mem_append.mpr ⟨?_, List.forall_mem_append.mpr
        ⟨?_, List.forall_mem_append.mpr ⟨?_, ?_⟩⟩⟩
      · exact first (within.below found kind)
      · cases decision with
        | none => exact fun target member => absurd member List.not_mem_nil
        | some spells =>
            exact spells.vars home
              (inside within found kind (by simp [NodeKind.children]))
      · exact round (within.below found kind)
      · exact next (within.below found kind)
  | discardSome inner => exact inner.vars home (within _ List.mem_cons_self)
  | optionalSome _ hypothesis => exact hypothesis within
  | moreStatements _ _ head tail =>
      exact List.forall_mem_append.mpr ⟨head within.part, tail within.part⟩

/-! ## Whole functions -/

/-- The lines of a function between its label and its `ret`. -/
def functionLines (size : Int) (spills body : Code) (name : String) : Code :=
  instrs ([.push .rbp, .move .rbp .rsp] ++ reserve size) ++ (spills ++ (body ++
    (instrs (if name = "main" then [.set .rax 0] else []) ++ ([.label (.exit name)] ++
      instrs [.move .rsp .rbp, .pop .rbp]))))

/-- The lines of a function in front of its `ret`, divided at the body. -/
theorem functionLines_ret (size : Int) (spills body : Code) (name : String)
    (later : Code) :
    functionLines size spills body name ++ .instr .ret :: later =
      instrs ([.push .rbp, .move .rbp .rsp] ++ reserve size) ++
        (spills ++ (body ++ (epilogue name ++ later))) := by
  simp [functionLines, epilogue, instrs]

/-- A function does what an execution of its body does. -/
theorem leads_function
    {names : Names}
    {lines spills code later : Code}
    {function : Function}
    {globals : Variable -> Prop}
    {name : String}
    {goal : Option IntTy}
    {base : Nat}
    {symbol : Symbol}
    {body : NodeId}
    (sound : program.types.Sound)
    (rule : program.DefinitionRule base symbol function body)
    (given : spillFrom program 0 function.params = .ok spills)
    {stmt : Stmt}
    (compiled : CompiledStmt program name goal stmt code)
    (inside : ∀ target ∈ stmt.vars, globals target ∨ IsLocalAs program function target)
    (resolves : Resolves lines code (epilogue name ++ later))
    (exit : lines.after? (.exit name) = some (restoreLines ++ later))
    {store after : Store}
    {machine : Machine}
    {outcome : Outcome}
    (entered : Entered program names function globals store machine stmt.words)
    (executes : Executes stmt store outcome after) :
    Leads names lines
      ⟨functionLines function.stackSize spills code name ++ .instr .ret :: later, machine⟩
      (.instr .ret :: later)
      (Returned program names globals name goal machine outcome after) := by
  have nonneg := rule.frame.size_nonneg
  have room := entered.room
  rw [functionLines_ret]
  refine (leads_started sound rule given (by omega)).andThen fun first started => ?_
  have body := compiled.leads (entered.layout_sound sound rule.frame) exit inside resolves
    executes (entered.ready sound rule started)
  refine body.andThen fun middle ran => ran.leads_restore.andThen fun last done => ?_
  exact .after (reaches_ret _ _ _ _)
    (.here (done.1.returned sound rule entered started done.2))

/-- The type that a function returns. -/
def Returns (program : Program) (symbol : Symbol) (result : TyId) (ty : Ty) : Prop :=
  program.types.get? result = some ty ∧ ∃ declared params,
    program.types.get? symbol.ty = some declared ∧ declared.kind = .func result params

/-- Statement compilation preserves control flow.  Take a function of an accepted source
whose name is defined once and whose body is a statement over integer expressions.
Whenever an execution of the body ends, its text, run from the label of the function on
any machine that enters it, comes to its `ret`.  The stack is then as it was at the label,
all global variables hold what the execution leaves there, and in `rax` is the returned
value, converted to the type of the function, or zero if `main` has run to its end. -/
theorem function_text_preserves_control_flow
    {file : SourceFile}
    {program : Program}
    {lines : Code}
    (parsed : parseFile file = .ok program)
    (compiled : compileLines file = .ok lines)
    {definition : Program.Definition}
    (defined : definition ∈ program.definitions)
    (once : (program.definitions.map (·.symbol.name)).count definition.symbol.name = 1)
    {result : TyId}
    {ty : Ty}
    (returns : Returns program definition.symbol result ty)
    {stmt : Stmt}
    (spells : SpellsStmt program result (.statement definition.body) stmt) :
    ∃ place : Placement program lines, place.definition = definition ∧
      ∃ code, place.text = [visibility definition.symbol, .directive .text] ++
          .label (.symbol definition.symbol.name) :: (code ++ [.instr .ret]) ∧
        ∀ names globals store machine,
          Entered program names definition.function globals store machine stmt.words ->
          (∀ target ∈ stmt.vars, target.id ∈ definition.function.locals ∨
            globals target) ->
          ∀ outcome stored, Executes stmt store outcome stored ->
            ∃ last, Reaches names lines
                ⟨.label (.symbol definition.symbol.name) ::
                  (code ++ .instr .ret :: place.later), machine⟩
                ⟨.instr .ret :: place.later, last⟩ ∧
              Returned program names globals definition.symbol.name ty.returned?
                machine outcome stored last := by
  obtain ⟨tokens, sound⟩ := sound_of_parseFile parsed
  obtain ⟨symbolId, found, kind, bodied⟩ := definition_cases defined
  obtain ⟨base, rule⟩ := sound.definitions symbolId _ _ _ found kind bodied
  obtain ⟨start, own, _, declared, typed, isFunction, home⟩ := rule.homeRule sound
  -- The returns of the body are converted to the type that the function is declared with.
  obtain ⟨resultTyped, _, params, sameTyped, sameFunction⟩ := returns
  obtain rfl := Option.some.inj (typed.symm.trans sameTyped)
  rw [isFunction] at sameFunction
  cases sameFunction
  -- No label is defined twice in the text, so all jumps of the body stay in the function.
  obtain ⟨⟨place, rfl⟩, numbered, exits⟩ := exists_placement parsed compiled defined
  obtain ⟨spills, spilled, start_eq⟩ := prologue_lines place.entry
  obtain ⟨number, ended, emits⟩ := place.inner
  have code := CompiledStmt.of_emits sound resultTyped spells emits
  have vars := spells.vars home (List.forall_mem_singleton.mpr .refl)
  have resolves := resolves_body place.lines_eq numbered
  have exit := after?_exit place.lines_eq (Nat.le_of_eq ((exits _).trans once))
  refine ⟨place, rfl, functionLines place.definition.function.stackSize spills place.body
    place.definition.symbol.name, ?_, ?_⟩
  · rw [functionLines_ret, Placement.text, start_eq]
    simp [Placement.name]
  · intro names globals store machine entered mentioned outcome stored executes
    have inside : ∀ target ∈ stmt.vars,
        globals target ∨ IsLocalAs program place.definition.function target := by
      intro target member
      obtain ⟨symbol, declared, _⟩ := vars target member
      rcases mentioned target member with isLocal | isGlobal
      · exact .inr ⟨isLocal, symbol, declared⟩
      · exact .inl isGlobal
    exact Leads.after (.label _)
      (leads_function sound.types rule spilled code inside resolves exit entered executes)

/-! ## An example -/

section Example

/-- A file with a function that raises a global variable to its argument. -/
def raiseFile : SourceFile :=
  ⟨"a.c", "int g; int f(char n) { while (g < n) g = n; return g; }"⟩

/-- The program in that file. -/
def raiseProgram : Program := (parseFile raiseFile).toOption.getD .empty

/-- The code of that file. -/
def raiseCode : Code := (compileLines raiseFile).toOption.getD []

theorem compileLines_raiseFile : compileLines raiseFile = .ok raiseCode :=
  eq_ok_of_isOk (by decide +kernel)

/-- The program of the file is accepted. -/
theorem parseFile_raiseFile : parseFile raiseFile = .ok raiseProgram :=
  parseFile_of_compileLines compileLines_raiseFile

/-- The one function of that file. -/
def raiseDefinition : Program.Definition where
  symbol := ⟨"f", ⟨6⟩, false, .function ⟨[⟨2⟩], [⟨2⟩], some ⟨12⟩, 16⟩⟩
  function := ⟨[⟨2⟩], [⟨2⟩], some ⟨12⟩, 16⟩
  body := ⟨12⟩

/-- The nodes of that function and their types. -/
def raiseNodes : List (NodeKind × Option TyId) :=
  [(.var ⟨0⟩, some .int), (.var ⟨2⟩, some .char), (.binary .lt ⟨0⟩ ⟨1⟩, some .int),
    (.var ⟨0⟩, some .int), (.var ⟨2⟩, some .char), (.cast ⟨4⟩, some .int),
    (.assign ⟨3⟩ ⟨5⟩, some .int), (.exprStmt ⟨6⟩, some .void),
    (.loop none (some ⟨2⟩) none ⟨7⟩, some .void), (.var ⟨0⟩, some .int),
    (.cast ⟨9⟩, some .int), (.ret (some ⟨10⟩), some .void),
      (.block [⟨8⟩, ⟨11⟩], some .void)]

/-- The nodes and the symbols of the program. -/
theorem raiseProgram_tables :
    raiseProgram.nodes.toList.map (fun node => (node.kind, node.ty)) = raiseNodes ∧
      raiseProgram.symbols = #[⟨"g", .int, false, .globalVar none⟩,
        raiseDefinition.symbol, ⟨"n", .char, false, .localVar (some 1)⟩] ∧
      raiseProgram.globals = #[⟨0⟩, ⟨1⟩] ∧
      (raiseProgram.types.get? ⟨6⟩).map (·.kind) =
        some (.func .int [⟨.char, some 7⟩]) := by
  decide +kernel

/-- A node of the program by its place in the list. -/
theorem raiseProgram_node
    (index : Nat)
    (kind : NodeKind)
    (ty : TyId)
    (listed : raiseNodes[index]? = some (kind, some ty)) :
    ∃ node, raiseProgram.node? ⟨index⟩ = some node ∧ node.kind = kind ∧
    node.ty = some ty :=
  exists_node_of_listed raiseProgram_tables.1 index kind ty listed

theorem raiseProgram_declares :
    raiseProgram.symbol? ⟨0⟩ = some ⟨"g", .int, false, .globalVar none⟩ ∧
      raiseProgram.symbol? ⟨1⟩ = some raiseDefinition.symbol ∧
      raiseProgram.symbol? ⟨2⟩ = some ⟨"n", .char, false, .localVar (some 1)⟩ := by
  unfold Program.symbol?
  rw [raiseProgram_tables.2.1]
  exact ⟨rfl, rfl, rfl⟩

theorem raiseProgram_definitions : raiseProgram.definitions = [raiseDefinition] := by
  obtain ⟨gDeclared, fDeclared, _⟩ := raiseProgram_declares
  have global : raiseProgram.definition? ⟨0⟩ = none := by
    rw [Program.definition?, gDeclared]
    rfl
  have function : raiseProgram.definition? ⟨1⟩ = some raiseDefinition := by
    rw [Program.definition?, fDeclared]
    rfl
  rw [Program.definitions, raiseProgram_tables.2.2.1, List.filterMap_cons_none global,
    List.filterMap_cons_some function, List.filterMap_nil]

theorem raiseDefinition_returns :
    ∃ ty, Returns raiseProgram raiseDefinition.symbol .int ty ∧ ty.returned? =
      some .int := by
  obtain ⟨_, sound⟩ := sound_of_parseFile parseFile_raiseFile
  obtain ⟨declared, typed, kind⟩ := Option.map_eq_some_iff.mp raiseProgram_tables.2.2.2
  exact ⟨IntTy.int.entry, ⟨IntTy.int.get?_id sound.types, declared, _, typed, kind⟩, rfl⟩

/-- The condition `g < n`. -/
def raiseCond : Expr := .binary .lt (.var ⟨⟨0⟩, .int⟩) (.var ⟨⟨2⟩, .char⟩)

/-- The expression `g = n`. -/
def raiseStep : Expr := .assign ⟨⟨0⟩, .int⟩ (.var ⟨⟨2⟩, .char⟩)

/-- The body of the function. -/
def raiseBody : Stmt :=
  .seq (.seq .skip (.loop (some raiseCond) (.seq (.expr raiseStep) .skip)))
    (.seq (.ret (some (.var ⟨⟨0⟩, .int⟩))) .skip)

/-- The body of the function spells a loop and a `return` behind it. -/
theorem spells_raiseBody :
    SpellsStmt raiseProgram .int (.statement raiseDefinition.body) raiseBody := by
  obtain ⟨_, sound⟩ := sound_of_parseFile parseFile_raiseFile
  obtain ⟨gDeclared, _, nDeclared⟩ := raiseProgram_declares
  have g (index : Nat) (listed : raiseNodes[index]? = some (.var ⟨0⟩, some .int)) :
      Spells raiseProgram ⟨index⟩ (.var ⟨⟨0⟩, .int⟩) := by
    obtain ⟨_, found, kind, _⟩ := raiseProgram_node index _ _ listed
    exact .var found kind gDeclared (IntTy.int.intTy?_id sound.types)
  have n (index : Nat) (listed : raiseNodes[index]? = some (.var ⟨2⟩, some .char)) :
      Spells raiseProgram ⟨index⟩ (.var ⟨⟨2⟩, .char⟩) := by
    obtain ⟨_, found, kind, _⟩ := raiseProgram_node index _ _ listed
    exact .var found kind nDeclared (IntTy.char.intTy?_id sound.types)
  obtain ⟨_, lessFound, lessKind, _⟩ := raiseProgram_node 2 _ _ rfl
  obtain ⟨_, castFound, castKind, _⟩ := raiseProgram_node 5 _ _ rfl
  obtain ⟨_, assignFound, assignKind, _⟩ := raiseProgram_node 6 _ _ rfl
  obtain ⟨_, stepFound, stepKind, _⟩ := raiseProgram_node 7 _ _ rfl
  obtain ⟨_, loopFound, loopKind, _⟩ := raiseProgram_node 8 _ _ rfl
  obtain ⟨_, resultFound, resultKind, resultTyped⟩ := raiseProgram_node 10 _ _ rfl
  obtain ⟨_, retFound, retKind, _⟩ := raiseProgram_node 11 _ _ rfl
  obtain ⟨_, blockFound, blockKind, _⟩ := raiseProgram_node 12 _ _ rfl
  have cond : Spells raiseProgram ⟨2⟩ raiseCond :=
    .binary lessFound lessKind (g 0 rfl) (n 1 rfl)
  have step : Spells raiseProgram ⟨6⟩ raiseStep :=
    .assign assignFound assignKind (g 3 rfl) castFound castKind (n 4 rfl)
  have loop : SpellsStmt raiseProgram .int (.statement ⟨8⟩) _ :=
    .loop loopFound loopKind .optionalNone (.some cond)
      (.expr stepFound stepKind step) .discardNone
  have ret : SpellsStmt raiseProgram .int (.statement ⟨11⟩) _ :=
    .ret retFound retKind resultFound resultKind resultTyped (g 9 rfl)
  exact .block blockFound blockKind
    (.moreStatements loop (.moreStatements ret .noStatements))

/-- The function is called with one. -/
def raiseStore : Store := fun id => if id = ⟨2⟩ then 1 else 0

/-- The body goes through its loop once and returns. -/
theorem raiseBody_executes :
    Executes raiseBody raiseStore (.returned (some 1)) (raiseStore.set ⟨0⟩ 1) := by
  have less : raiseCond.eval raiseStore = .ok (1, raiseStore) := rfl
  have step : raiseStep.eval raiseStore = .ok (1, raiseStore.set ⟨0⟩ 1) := rfl
  have done : raiseCond.eval (raiseStore.set ⟨0⟩ 1) = .ok (0, raiseStore.set ⟨0⟩ 1) := rfl
  have round : Executes (.seq (.expr raiseStep) .skip) raiseStore .finished
      (raiseStore.set ⟨0⟩ 1) :=
    .next (.expr step) .skip
  exact .next (.next .skip (.again (.nonzero less (by decide)) round (.leave done)))
    (.stop (.ret rfl))

/-- A machine that calls the function with one. -/
def callingMachine : Machine where
  regs
    | .rsp => 4096
    | .rbp => 8192
    | .rdi => 1
    | _ => 0
  memory _ := 0
  flags := none

/-- The machine stands at the label of the function. -/
theorem callingMachine_entered :
    Entered raiseProgram (fun _ => 65536) raiseDefinition.function (· = ⟨⟨0⟩, .int⟩)
      raiseStore callingMachine raiseBody.words where
  room := by decide
  links :=
    { declared := by
        rintro target rfl
        obtain ⟨_, sound⟩ := sound_of_parseFile parseFile_raiseFile
        exact ⟨_, ⟨raiseProgram_declares.1, IntTy.int.intTy?_id sound.types⟩, rfl⟩
      apart := by
        rintro first second _ _ rfl rfl different
        exact absurd rfl different
      clear := by
        rintro target symbol rfl _ place covered
        rw [covers_iff (by decide)] at covered
        exact .inr (Nat.le_trans (by decide) covered.1) }
  holds := by
    rintro target symbol rfl _
    exact signed_zero _ _
  params := by
    intro position target symbol reg listed _ named
    cases position with
    | zero =>
        have own : target.id = ⟨2⟩ := (Option.some.inj listed).symm
        obtain rfl : reg = .rdi := (Option.some.inj named).symm
        rw [own]
        cases target.ty <;> rfl
    | succ position => cases listed
  others := by
    rintro target ⟨member, _⟩ new
    exact absurd member new

/-- The function of that file, called with one, raises the variable to one and returns
it. -/
theorem raise_text_preserves_control_flow :
    ∃ place : Placement raiseProgram raiseCode, ∃ code last,
      place.text = [.directive (.globalSymbol "f"), .directive .text] ++
        .label (.symbol "f") :: (code ++ [.instr .ret]) ∧
      Reaches (fun _ => 65536) raiseCode
        ⟨.label (.symbol "f") :: (code ++ .instr .ret :: place.later), callingMachine⟩
        ⟨.instr .ret :: place.later, last⟩ ∧
      last.regs .rsp = 4096 ∧ last.regs .rbp = 8192 ∧ last.regs .rax = 1 ∧
      last.memory.signed 65536 4 = 1 := by
  obtain ⟨ty, returns, goal⟩ := raiseDefinition_returns
  have defined : raiseDefinition ∈ raiseProgram.definitions := by
    rw [raiseProgram_definitions]
    exact List.mem_cons_self
  have once : (raiseProgram.definitions.map (·.symbol.name)).count "f" = 1 := by
    rw [raiseProgram_definitions]
    rfl
  obtain ⟨place, _, code, text, runs⟩ := function_text_preserves_control_flow
    parseFile_raiseFile compileLines_raiseFile defined once returns spells_raiseBody
  have mentioned : ∀ target ∈ raiseBody.vars,
      target.id ∈ raiseDefinition.function.locals ∨ target = ⟨⟨0⟩, .int⟩ := by
    decide
  obtain ⟨last, reached, returned⟩ := runs _ _ _ _ callingMachine_entered mentioned _ _
    raiseBody_executes
  have declared :
      DeclaredAs raiseProgram ⟨⟨0⟩, .int⟩ ⟨"g", .int, false, .globalVar none⟩ := by
    obtain ⟨_, sound⟩ := sound_of_parseFile parseFile_raiseFile
    exact ⟨raiseProgram_declares.1, IntTy.int.intTy?_id sound.types⟩
  exact ⟨place, code, last, text, reached, returned.rsp, returned.rbp,
    returned.value 1 .int rfl goal, returned.holds ⟨⟨0⟩, .int⟩ _ rfl declared⟩

end Example

end Semantics
end MiniC
