import MiniC.Proofs.Compile
import MiniC.Proofs.Simulation.Expression
import MiniC.Proofs.Simulation.Frame

/-!
# The meaning of generated expressions

For every integer expression of an accepted source the generator emits code, and the code,
run on its own, pushes the value of the expression.
-/

namespace MiniC
namespace Semantics

open Asm Emit

/-! ## Code is generated -/

section Generates

variable {program : Program} {tokens : TokenStream} {function : String} {depth : Nat}
variable {allowed : Error -> Prop}

/-- The address of a variable with a place is generated. -/
theorem errorsIn_address
    {again : Routines}
    {id : NodeId}
    {target : Variable}
    (reads : Reads program id (.var target))
    (placed : ∀ symbol, Declared program target symbol -> symbol.isLocal = true ->
      ∃ offset ty, program.Placed target.id offset ty) :
    ErrorsIn allowed (Emit.address ⟨program, function⟩ again id) := by
  cases reads with
  | @var _ node symbol entry ty found kind declared typed =>
      refine .read (.lookupNode found) fun same there => ?_
      obtain rfl := Except.ok.inj ((Grammar.lookupNode_of_some found).symm.trans there)
      simp only [kind]
      refine .variableAddress (.lookupSymbol ⟨entry, declared⟩) ?_
      intro other offset otherFound localKind
      obtain rfl := Option.some.inj (declared.symm.trans otherFound)
      obtain ⟨place, slotTy, slot⟩ := placed entry ⟨declared, typed⟩
        (by simp [Symbol.isLocal, localKind])
      exact .frameOffset slot

/-- The value of a node without statements is generated as its operands are. -/
theorem errorsIn_value_of_operands
    (sound : program.Sound tokens)
    {id : NodeId}
    {node : Node}
    (found : program.node? id = some node)
    (expression : node.kind.isExpression = true)
    (plain : node.kind.parts = [])
    (deep : id.index < depth)
    (own : ((∃ symbol, node.kind = .var symbol) ∨
      ∃ base aggregate index, node.kind = .member base aggregate index) ->
      ∀ again, ErrorsIn allowed (Emit.address ⟨program, function⟩ again id))
    (values : ∀ inner ∈ node.kind.operands, ∀ depth, inner.index < depth ->
      ErrorsIn allowed ((routines ⟨program, function⟩ depth).value inner))
    (places : ∀ inner ∈ node.kind.objects, ∀ again,
      ErrorsIn allowed (Emit.address ⟨program, function⟩ again inner)) :
    ErrorsIn allowed ((routines ⟨program, function⟩ depth).value id) := by
  obtain ⟨depth, rfl⟩ := Nat.exists_eq_add_one_of_ne_zero (Nat.ne_zero_of_lt deep)
  -- Operands come before the node, so there is depth left for them.
  have shallower : ∀ inner ∈ node.kind.operands, inner.index < depth := by
    intro inner member
    have earlier := (sound.nodes id node found).earlier inner
      (NodeKind.mem_children.mpr (.inl member))
    omega
  refine .value_of_children sound.nodes found expression
    (fun object => own object _) ?_ ?_ ?_ ?_
  · exact fun inner member => values inner member depth (shallower inner member)
  · intro inner member
    have below := shallower inner (NodeKind.objects_subset_operands _ member)
    obtain ⟨depth, rfl⟩ := Nat.exists_eq_add_one_of_ne_zero (Nat.ne_zero_of_lt below)
    exact places inner member _
  · rw [plain]
    exact fun inner member => nomatch member
  · intro body last entry expr kind ending
    rw [kind, NodeKind.parts] at plain
    rw [plain] at ending
    cases ending

/-- The code of an integer expression is generated. -/
theorem errorsIn_value
    (sound : program.Sound tokens)
    {id : NodeId}
    {expr : Expr}
    (reads : Reads program id expr)
    (placed : ∀ target ∈ expr.vars, ∀ symbol, Declared program target symbol ->
      symbol.isLocal = true -> ∃ offset ty, program.Placed target.id offset ty)
    (deep : id.index < depth) :
    ErrorsIn allowed ((routines ⟨program, function⟩ depth).value id) := by
  induction reads generalizing depth with
  | literal found kind typed =>
      refine errorsIn_value_of_operands sound found ?_ ?_ deep ?_ ?_ ?_ <;> rw [kind]
      · rfl
      · rfl
      · rintro (⟨symbol, ⟨⟩⟩ | ⟨base, aggregate, index, ⟨⟩⟩)
      · exact fun inner member => nomatch member
      · exact fun inner member => nomatch member
  | var found kind declared typed =>
      refine errorsIn_value_of_operands sound found ?_ ?_ deep ?_ ?_ ?_ <;> rw [kind]
      · rfl
      · rfl
      · intro _ again
        exact errorsIn_address (.var found kind declared typed)
          (placed _ List.mem_cons_self)
      · exact fun inner member => nomatch member
      · exact fun inner member => nomatch member
  | cast found kind _ _ hypothesis | unary found kind _ hypothesis =>
      refine errorsIn_value_of_operands sound found ?_ ?_ deep ?_ ?_ ?_ <;> rw [kind]
      · rfl
      · rfl
      · rintro (⟨symbol, ⟨⟩⟩ | ⟨base, aggregate, index, ⟨⟩⟩)
      · intro inner member depth deep
        obtain rfl := List.mem_singleton.mp member
        exact hypothesis placed deep
      · exact fun inner member => nomatch member
  | binary found kind _ _ left right | comma found kind _ _ left right =>
      obtain ⟨leftPlaced, rightPlaced⟩ := List.forall_mem_append.mp placed
      refine errorsIn_value_of_operands sound found ?_ ?_ deep ?_ ?_ ?_ <;> rw [kind]
      · rfl
      · rfl
      · rintro (⟨symbol, ⟨⟩⟩ | ⟨base, aggregate, index, ⟨⟩⟩)
      · intro inner member depth deep
        rcases List.mem_cons.mp member with rfl | last
        · exact left leftPlaced deep
        · obtain rfl := List.mem_singleton.mp last
          exact right rightPlaced deep
      · exact fun inner member => nomatch member
  | @assign _ _ lhs rhs _ conversion operand _ found kind place converted
    conversionKind _ left
      hypothesis =>
      obtain ⟨targetPlaced, othersPlaced⟩ := List.forall_mem_cons.mp placed
      refine errorsIn_value_of_operands sound found ?_ ?_ deep ?_ ?_ ?_ <;> rw [kind]
      · rfl
      · rfl
      · rintro (⟨symbol, ⟨⟩⟩ | ⟨base, aggregate, index, ⟨⟩⟩)
      · intro inner member depth deep
        rcases List.mem_cons.mp member with rfl | last
        · exact left (List.forall_mem_cons.mpr ⟨targetPlaced, fun _ none => nomatch none⟩)
            deep
        · obtain rfl := List.mem_singleton.mp last
          refine errorsIn_value_of_operands sound converted ?_ ?_ deep ?_ ?_ ?_ <;>
            rw [conversionKind]
          · rfl
          · rfl
          · rintro (⟨symbol, ⟨⟩⟩ | ⟨base, aggregate, index, ⟨⟩⟩)
          · intro inner member depth deep
            obtain rfl := List.mem_singleton.mp member
            exact hypothesis othersPlaced deep
          · exact fun inner member => nomatch member
      · intro inner member again
        obtain rfl := List.mem_singleton.mp member
        exact errorsIn_address place targetPlaced

end Generates

/-! ## Labels -/

/-- Generated code resolves its own numbered labels. -/
theorem resolves_self
    {context : Context}
    {task : Task}
    {state after : State}
    {code : Code}
    (emits : Emits context task state code after) :
    Resolves code code [] := by
  have labelled := emits.disciplined.labelled
  have resolves : Resolves ([] ++ code ++ []) code [] := by
    apply Resolves.of_count
    intro role number
    have once := (labelled.landed number 0).2.1 role
    rw [Code.countP_isLanding] at once
    simpa using once
  simpa using resolves

/-! ## Meaning -/

/-- Expression compilation preserves meaning.  For every integer expression in a function
of an accepted source, the generator emits code from every state.  On every machine that
is prepared for it, and whenever the expression has a value, the code runs to its end and
leaves one more word on the stack: the value of the expression, sign-extended.  All
variables then hold what the evaluation stores in them, and no other memory from the
initial stack pointer upwards has changed. -/
theorem expression_code_preserves_meaning
    {file : SourceFile}
    {program : Program}
    (accepted : parseFile file = .ok program)
    {definition : Program.Definition}
    (defined : definition ∈ program.definitions)
    {id : NodeId}
    {expr : Expr}
    (contained : program.Contains definition.body id)
    (reads : Reads program id expr)
    (state : State) :
    ∃ code after,
      (routines ⟨program, definition.symbol.name⟩ (program.nodes.size + 1)).value id
        state = .ok (code, after) ∧
      ∀ names globals store machine,
        Prepared program names definition.function globals store machine expr.words ->
        (∀ target ∈ expr.vars, target.id ∈ definition.function.locals ∨ globals target) ->
        ∀ value stored, expr.eval store = .ok (value, stored) ->
          ∃ last, Reaches names code ⟨code, machine⟩ ⟨[], last⟩ ∧
            (machineLayout program names definition.function globals machine
              expr.words).Pushed machine last stored (.ofInt 64 value) := by
  obtain ⟨tokens, sound⟩ := sound_of_parseFile accepted
  obtain ⟨symbolId, found, kind, bodied⟩ := definition_cases defined
  obtain ⟨base, rule⟩ := sound.definitions symbolId _ _ _ found kind bodied
  obtain ⟨start, result, params, declared, _, _, home⟩ := rule.homeRule sound
  have own := reads.vars home contained
  have placed : ∀ target ∈ expr.vars, ∀ symbol, Declared program target symbol ->
      symbol.isLocal = true -> ∃ offset ty, program.Placed target.id offset ty := by
    intro target member symbol declared isLocal
    obtain ⟨other, otherDeclared, inside⟩ := own target member
    obtain rfl := declared.unique otherDeclared
    obtain ⟨offset, ty, slot, _⟩ := rule.frame.placed target.id (inside isLocal)
    exact ⟨offset, ty, slot⟩
  have deep : id.index < program.nodes.size + 1 := by
    obtain ⟨node, there, _⟩ := reads.hasTy sound
    exact Nat.lt_succ_of_lt (Array.getElem?_eq_some_iff.mp there).1
  have total : ErrorsIn (fun _ => False)
      ((routines ⟨program, definition.symbol.name⟩ (program.nodes.size + 1)).value id) :=
    errorsIn_value sound reads placed deep
  cases generated : (routines ⟨program, definition.symbol.name⟩
      (program.nodes.size + 1)).value id state with
  | error error => exact absurd generated (total state error)
  | ok pair =>
      obtain ⟨code, after⟩ := pair
      refine ⟨code, after, rfl, ?_⟩
      intro names globals store machine prepared mentioned value stored evaluated
      have emits :=
        (Emits.of_routines ⟨program, definition.symbol.name⟩ _).value generated
      have compiled := Compiled.of_emits sound reads emits
      obtain ⟨layoutSound, ready⟩ := prepared.ready sound rule.frame
      have tracked : ∀ target ∈ expr.vars,
          globals target ∨ IsLocalOf program definition.function target := by
        intro target member
        obtain ⟨symbol, declared, _⟩ := own target member
        rcases mentioned target member with isLocal | isGlobal
        · exact .inr ⟨isLocal, symbol, declared⟩
        · exact .inl isGlobal
      obtain ⟨last, reached, pushed⟩ := compiled.leads layoutSound
        (.of_eval evaluated) tracked ready (resolves_self emits)
      rw [List.append_nil] at reached
      exact ⟨last, reached, pushed⟩

/-! ## An example -/

section Example

/-- A file with an expression that reads a parameter and assigns to a global variable. -/
def incrementFile : SourceFile := ⟨"a.c", "int g; int f(char c) { return g = c + 1; }"⟩

/-- The program in that file. -/
def incrementProgram : Program := (parseFile incrementFile).toOption.getD .empty

theorem parseFile_incrementFile : parseFile incrementFile = .ok incrementProgram :=
  eq_ok_of_isOk (by decide +kernel)

/-- The one function of that file. -/
def incrementDefinition : Program.Definition :=
  incrementProgram.definitions.head (by
    have some : incrementProgram.definitions.isEmpty = false := by decide +kernel
    exact fun none => by simp [none] at some)

/-- The expression `g = c + 1`. -/
def incrementExpr : Expr :=
  .assign ⟨⟨0⟩, .int⟩ (.binary .add (.var ⟨⟨2⟩, .char⟩) (.literal 1))

/-- The nodes of that program and their types. -/
def incrementNodes : List (NodeKind × Option TyId) :=
  [(.var ⟨0⟩, some .int), (.var ⟨2⟩, some .char), (.num 1, some .int),
    (.binary .add ⟨1⟩ ⟨2⟩, some .int), (.cast ⟨3⟩, some .int),
      (.assign ⟨0⟩ ⟨4⟩, some .int),
    (.cast ⟨5⟩, some .int), (.ret (some ⟨6⟩), some .void), (.block [⟨7⟩], some .void)]

theorem incrementProgram_tables :
    incrementProgram.nodes.toList.map (fun node => (node.kind, node.ty)) =
      incrementNodes ∧
      incrementProgram.symbol? ⟨0⟩ = some ⟨"g", .int, false, .globalVar none⟩ ∧
      incrementProgram.symbol? ⟨2⟩ = some ⟨"c", .char, false, .localVar (some 1)⟩ ∧
      incrementDefinition.body = ⟨8⟩ ∧ incrementDefinition.function.stackSize = 16 ∧
      incrementDefinition.function.locals = [⟨2⟩] := by
  decide +kernel

theorem incrementProgram_node
    (index : Nat)
    (kind : NodeKind)
    (ty : TyId)
    (listed : incrementNodes[index]? = some (kind, some ty)) :
    ∃ node, incrementProgram.node? ⟨index⟩ = some node ∧ node.kind = kind ∧
    node.ty = some ty :=
  exists_node_of_listed incrementProgram_tables.1 index kind ty listed

theorem reads_incrementExpr : Reads incrementProgram ⟨5⟩ incrementExpr := by
  obtain ⟨_, gDeclared, cDeclared, _⟩ := incrementProgram_tables
  obtain ⟨_, gFound, gKind, _⟩ := incrementProgram_node 0 (.var ⟨0⟩) .int rfl
  obtain ⟨_, cFound, cKind, _⟩ := incrementProgram_node 1 (.var ⟨2⟩) .char rfl
  obtain ⟨_, oneFound, oneKind, oneTyped⟩ := incrementProgram_node 2 (.num 1) .int rfl
  obtain ⟨_, sumFound, sumKind, _⟩ :=
    incrementProgram_node 3 (.binary .add ⟨1⟩ ⟨2⟩) .int rfl
  obtain ⟨_, castFound, castKind, _⟩ := incrementProgram_node 4 (.cast ⟨3⟩) .int rfl
  obtain ⟨_, assignFound, assignKind, _⟩ :=
    incrementProgram_node 5 (.assign ⟨0⟩ ⟨4⟩) .int rfl
  exact .assign assignFound assignKind (.var gFound gKind gDeclared rfl)
    castFound castKind (.binary sumFound sumKind (.var cFound cKind cDeclared rfl)
      (.literal oneFound oneKind oneTyped))

theorem incrementExpr_eval :
    incrementExpr.eval (fun _ => 0) = .ok (1, Store.set (fun _ => 0) ⟨0⟩ 1) := by
  have literal : IntTy.ofLiteral 1 = .int := by decide
  have one : IntTy.int.wrap 1 = 1 := by decide
  simp [incrementExpr, Expr.eval, Expr.ty, BinaryOp.isTruth, IntTy.join, binaryValue,
    IntTy.convert, bind, Except.bind, pure, Except.pure, literal, one]

/-- A machine with empty memory, in the middle of its stack. -/
def restingMachine : Machine where
  regs
    | .rsp => 4096
    | .rbp => 8192
    | _ => 0
  memory _ := 0
  flags := none

theorem signed_zero (start : Word) (count : Nat) :
    Memory.signed (fun _ => 0) start count = 0 := by
  have zero : Memory.read (fun _ => 0) start count = 0 := by
    induction count generalizing start with
    | zero => rfl
    | succ count hypothesis => rw [Memory.read, hypothesis]; rfl
  rw [Memory.signed, zero]
  exact Int.zero_bmod

/-- The machine is prepared for the expression, with all variables zero. -/
theorem restingMachine_prepared :
    Prepared incrementProgram (fun _ => 65536) incrementDefinition.function
      (· = ⟨⟨0⟩, .int⟩) (fun _ => 0) restingMachine incrementExpr.words where
  below := by
    rw [incrementProgram_tables.2.2.2.2.1]
    decide
  room := by decide
  linked :=
    { declared := by
        rintro target rfl
        exact ⟨⟨"g", .int, false, .globalVar none⟩,
          ⟨incrementProgram_tables.2.1, rfl⟩, rfl⟩
      apart := by
        rintro first second _ _ rfl rfl different
        exact absurd rfl different
      clear := by
        rintro target symbol rfl _ place covered
        rw [covers_iff (by decide)] at covered
        exact .inr (Nat.le_trans (by decide) covered.1) }
  agrees := fun target _ => signed_zero _ _

/-- The code of `g = c + 1` in that file assigns one and leaves it on the stack. -/
theorem increment_code_preserves_meaning :
    ∃ code after last,
      (routines ⟨incrementProgram, incrementDefinition.symbol.name⟩
        (incrementProgram.nodes.size + 1)).value ⟨5⟩ ⟨0, 0⟩ = .ok (code, after) ∧
      Reaches (fun _ => 65536) code ⟨code, restingMachine⟩ ⟨[], last⟩ ∧
      last.regs .rsp = 4088 ∧ last.top = 1 ∧ last.memory.signed 65536 4 = 1 := by
  obtain ⟨_, gDeclared, _, body, _, locals⟩ := incrementProgram_tables
  have contained : incrementProgram.Contains incrementDefinition.body ⟨5⟩ := by
    obtain ⟨_, blockFound, blockKind, _⟩ :=
      incrementProgram_node 8 (.block [⟨7⟩]) .void rfl
    obtain ⟨_, retFound, retKind, _⟩ :=
      incrementProgram_node 7 (.ret (some ⟨6⟩)) .void rfl
    obtain ⟨_, castFound, castKind, _⟩ := incrementProgram_node 6 (.cast ⟨5⟩) .int rfl
    rw [body]
    refine Program.Contains.child
      (.child (.child .refl blockFound ?_) retFound ?_) castFound ?_
    · rw [blockKind]; exact List.mem_cons_self
    · rw [retKind]; exact List.mem_cons_self
    · rw [castKind]; exact List.mem_cons_self
  obtain ⟨code, after, generated, runs⟩ :=
    expression_code_preserves_meaning parseFile_incrementFile (List.head_mem _) contained
      reads_incrementExpr ⟨0, 0⟩
  have mentioned : ∀ target ∈ incrementExpr.vars,
      target.id ∈ incrementDefinition.function.locals ∨ target = ⟨⟨0⟩, .int⟩ := by
    rw [locals]
    decide
  obtain ⟨last, reached, pushed⟩ := runs _ _ _ _ restingMachine_prepared mentioned _ _
    incrementExpr_eval
  refine ⟨code, after, last, generated, reached, pushed.rsp, pushed.word, ?_⟩
  have declared :
      Declared incrementProgram ⟨⟨0⟩, .int⟩ ⟨"g", .int, false, .globalVar none⟩ :=
    ⟨gDeclared, rfl⟩
  have address : addressOf incrementProgram (fun _ => 65536)
      (restingMachine.regs .rbp) ⟨0⟩ = 65536 :=
    addressOf_global declared rfl
  rw [← address]
  exact pushed.agrees ⟨⟨0⟩, .int⟩ (.inl rfl)

end Example

end Semantics
end MiniC
