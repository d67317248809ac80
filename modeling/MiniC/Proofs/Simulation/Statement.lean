import MiniC.Proofs.Semantics.Statement
import MiniC.Proofs.Simulation.Expression

/-!
# Running the code of statements

The code of a statement, run on the machine, leaves the stack as it was and in every
variable what the execution leaves there.  It runs to its end or to the end of the
function, as the execution does.

The proof is an induction over the code.  Only for loops there is another one inside it,
over the rounds of the execution.
-/

namespace MiniC
namespace Semantics

open Asm Emit

/-! ## What is emitted for a statement of a kind -/

/-- The lines that run a node of a kind, behind the line with its place, for the kinds
that statements over integer expressions have. -/
def StatementRule (context : Context) (state : State) (code : Code) (after : State) :
    NodeKind -> Prop
  | .block body => Emits context (.statements body) state code after
  | .exprStmt expr => Emits context (.discard (some expr)) state code after
  | .ret value => ∃ inner, Emits context (.discard value) state inner after ∧
      code = inner ++ instrs [.jump (.exit context.function)]
  | .branch cond onTrue onFalse => ∃ test middle first between second,
      Emits context (.value cond) state.numbered test middle ∧
      Emits context (.statement onTrue) (middle.lift (-1)) first between ∧
      Emits context (.optional onFalse) between second after ∧
      code = branchLines state.nextLabel test first second
  | .loop init none step body => ∃ first started round middle next,
      Emits context (.optional init) state.numbered first started ∧
      Emits context (.statement body) started round middle ∧
      Emits context (.discard step) middle next after ∧
      code = loopLines state.nextLabel first [] round next
  | .loop init (some cond) step body => ∃ first started test decided round middle next,
      Emits context (.optional init) state.numbered first started ∧
      Emits context (.value cond) started test decided ∧
      Emits context (.statement body) (decided.lift (-1)) round middle ∧
      Emits context (.discard step) middle next after ∧
      code = loopLines state.nextLabel first
        (test ++ leaveLines state.nextLabel) round next
  | _ => True

/-- What is emitted for a statement is given by its kind. -/
theorem statementRule_of_emits
    {context : Context}
    {state after : State}
    {code : Code}
    {id : NodeId}
    {node : Node}
    (found : context.program.node? id = some node)
    (emits : Emits context (.statement id) state code after) :
    ∃ inner, code = [.directive (.loc node.line)] ++ inner ∧
      StatementRule context state inner after node.kind := by
  have same {other : Node} (there : context.program.node? id = some other) :
      other = node := by
    simpa [found] using there.symm
  cases emits with
  | branch there kind decision taken other =>
      obtain rfl := same there
      refine ⟨_, rfl, ?_⟩
      rw [kind]
      exact ⟨_, _, _, _, _, decision, taken, other, rfl⟩
  | loop there kind start inner advance =>
      obtain rfl := same there
      refine ⟨_, rfl, ?_⟩
      rw [kind]
      exact ⟨_, _, _, _, _, start, inner, advance, rfl⟩
  | loopWhile there kind start decision inner advance =>
      obtain rfl := same there
      refine ⟨_, rfl, ?_⟩
      rw [kind]
      exact ⟨_, _, _, _, _, _, _, start, decision, inner, advance, rfl⟩
  | block there kind inner | exprStmt there kind inner =>
      obtain rfl := same there
      refine ⟨_, rfl, ?_⟩
      rw [kind]
      exact inner
  | ret there kind inner =>
      obtain rfl := same there
      refine ⟨_, List.append_assoc _ _ _, ?_⟩
      rw [kind]
      exact ⟨_, inner, rfl⟩
  | goto there kind =>
      obtain rfl := same there
      refine ⟨_, rfl, ?_⟩
      rw [kind]
      trivial
  | label there kind =>
      obtain rfl := same there
      refine ⟨_, List.append_assoc _ _ _, ?_⟩
      rw [kind]
      trivial

/-! ## Code by the form of statements -/

/-- The lines that convert what a function returns. -/
def returnLines (goal : Option IntTy) (source : IntTy) : Code :=
  match goal with
  | none => []
  | some ty => convertLines source.entry ty.entry

/-- The lines of a loop from its start on. -/
def cycleLines (number : Nat) (test round : Code) : Code :=
  define .start number ++ (test ++ (round ++ (instrs [.jump (.numbered .start number)]
    ++ define .stop number)))

theorem loopLines_eq (number : Nat) (first test round next : Code) :
    loopLines number first test round next =
      first ++ cycleLines number test (round ++ next) := by
  simp [loopLines, cycleLines]

/-- The code of the condition of a loop. -/
inductive CompiledCond (program : Program) (number : Nat) : Option Expr -> Code -> Prop
  | none : CompiledCond program number none []
  | some {cond code}
      (inner : Compiled program cond code) :
      CompiledCond program number (some cond) (code ++ leaveLines number)

/-- The code of a statement in a function, given what the function converts returned
values to. -/
inductive CompiledStmt (program : Program) (function : String) (goal : Option IntTy) :
    Stmt -> Code -> Prop
  | located {stmt code} (line : Nat)
      (inner : CompiledStmt program function goal stmt code) :
      CompiledStmt program function goal stmt ([.directive (.loc line)] ++ code)
  | skip : CompiledStmt program function goal .skip []
  | seq {first second head tail}
      (left : CompiledStmt program function goal first head)
      (right : CompiledStmt program function goal second tail) :
      CompiledStmt program function goal (.seq first second) (head ++ tail)
  | expr {value code}
      (inner : Compiled program value code) :
      CompiledStmt program function goal (.expr value) (code ++ instrs [.pop .rax])
  | retNone :
      CompiledStmt program function goal (.ret none) (instrs [.jump (.exit function)])
  | ret {value code}
      (inner : Compiled program value code) :
      CompiledStmt program function goal (.ret (some value))
        (code ++ returnLines goal value.ty ++ instrs [.pop .rax]
          ++ instrs [.jump (.exit function)])
  | branch {cond onTrue onFalse test first second} (number : Nat)
      (decision : Compiled program cond test)
      (taken : CompiledStmt program function goal onTrue first)
      (other : CompiledStmt program function goal onFalse second) :
      CompiledStmt program function goal (.branch cond onTrue onFalse)
        (branchLines number test first second)
  | loop {cond body number test round}
      (decision : CompiledCond program number cond test)
      (inner : CompiledStmt program function goal body round) :
      CompiledStmt program function goal (.loop cond body) (cycleLines number test round)

section Emitted

variable {tokens : TokenStream} {context : Context}

/-- What is emitted for a value that is dropped is the code of its expression. -/
theorem CompiledStmt.of_discard
    {function : String}
    {goal : Option IntTy}
    (sound : context.program.Sound tokens)
    {id : NodeId}
    {expr : Expr}
    {state after : State}
    {code : Code}
    (spells : Spells context.program id expr)
    (emits : Emits context (.discard (some id)) state code after) :
    CompiledStmt context.program function goal (.expr expr) code := by
  cases emits with
  | discardSome inner => exact .expr (.of_spells sound spells inner)

/-- What is emitted for a returned value is the code of its expression and its
conversion. -/
theorem CompiledStmt.of_return
    (sound : context.program.Sound tokens)
    {value operand : NodeId}
    {conversion : Node}
    {expr : Expr}
    {result : TyId}
    {ty : Ty}
    {state after : State}
    {code : Code}
    (returns : context.program.types.get? result = some ty)
    (converted : context.program.node? value = some conversion)
    (conversionKind : conversion.kind = .cast operand)
    (typed : conversion.ty = some result)
    (spells : Spells context.program operand expr)
    (emits : Emits context (.value value) state code after) :
    ∃ inner, Compiled context.program expr inner ∧
      code = inner ++ returnLines ty.returned? expr.ty := by
  obtain ⟨goal, goalTyped, rule⟩ := valueRule_of_emits converted emits
  rw [conversionKind] at rule
  obtain ⟨source, inner, operandTyped, operandEmits, rfl⟩ := rule
  rw [Grammar.nodeTy_eq_ok ⟨conversion, converted, typed, returns⟩] at goalTyped
  obtain rfl := Except.ok.inj goalTyped
  refine ⟨inner, .of_spells sound spells operandEmits, ?_⟩
  have holds := holds_of_spells sound spells operandTyped
  unfold Ty.returned?
  split
  · rename_i empty
    rw [returnLines, convertLines, if_pos empty]
  · rename_i valued
    rw [returnLines, convertLines_conversion holds (by simpa using valued)]

/-- What the generator emits is the code of the statement that is spelled. -/
theorem CompiledStmt.of_emits
    (sound : context.program.Sound tokens)
    {result : TyId}
    {ty : Ty}
    (returns : context.program.types.get? result = some ty)
    {task : Task}
    {stmt : Stmt}
    (spells : SpellsStmt context.program result task stmt)
    {state after : State}
    {code : Code}
    (emits : Emits context task state code after) :
    CompiledStmt context.program context.function ty.returned? stmt code := by
  induction spells generalizing state after code with
  | block found kind _ hypothesis =>
      obtain ⟨inner, rfl, rule⟩ := statementRule_of_emits found emits
      rw [kind] at rule
      exact .located _ (hypothesis rule)
  | expr found kind inner =>
      obtain ⟨code, rfl, rule⟩ := statementRule_of_emits found emits
      rw [kind] at rule
      exact .located _ (.of_discard sound inner rule)
  | retNone found kind =>
      obtain ⟨code, rfl, rule⟩ := statementRule_of_emits found emits
      rw [kind] at rule
      obtain ⟨inner, dropped, rfl⟩ := rule
      cases dropped
      exact .located _ .retNone
  | retVoid found kind there empty inner =>
      obtain ⟨code, rfl, rule⟩ := statementRule_of_emits found emits
      rw [kind] at rule
      obtain ⟨_, dropped, rfl⟩ := rule
      obtain rfl := Option.some.inj (there.symm.trans returns)
      cases dropped with
      | discardSome value =>
          rw [Ty.returned?, if_pos empty]
          have compiled := @CompiledStmt.ret _ context.function none _ _
            (.of_spells sound inner value)
          rw [returnLines, List.append_nil] at compiled
          exact .located _ compiled
  | ret found kind converted conversionKind typed inner =>
      obtain ⟨code, rfl, rule⟩ := statementRule_of_emits found emits
      rw [kind] at rule
      obtain ⟨_, dropped, rfl⟩ := rule
      cases dropped with
      | discardSome value =>
          obtain ⟨code, compiled, rfl⟩ :=
            of_return sound returns converted conversionKind typed inner value
          exact .located _ (.ret compiled)
  | branch found kind decision _ _ first second =>
      obtain ⟨code, rfl, rule⟩ := statementRule_of_emits found emits
      rw [kind] at rule
      obtain ⟨_, _, _, _, _, test, taken, other, rfl⟩ := rule
      exact .located _ (.branch _ (.of_spells sound decision test) (first taken)
        (second other))
  | loop found kind _ decision _ _ first round next =>
      obtain ⟨code, rfl, rule⟩ := statementRule_of_emits found emits
      rw [kind] at rule
      refine .located _ ?_
      cases decision with
      | none =>
          obtain ⟨_, _, _, _, _, start, inner, advance, rfl⟩ := rule
          rw [loopLines_eq]
          exact .seq (first start) (.loop .none (.seq (round inner) (next advance)))
      | some spells =>
          obtain ⟨_, _, _, _, _, _, _, start, test, inner, advance, rfl⟩ := rule
          rw [loopLines_eq]
          exact .seq (first start) (.loop (.some (.of_spells sound spells test))
            (.seq (round inner) (next advance)))
  | discardNone | optionalNone | noStatements =>
      cases emits
      exact .skip
  | discardSome inner => exact .of_discard sound inner emits
  | optionalSome _ hypothesis =>
      cases emits with
      | optionalSome emits => exact hypothesis emits
  | moreStatements _ _ head tail =>
      cases emits with
      | moreStatements first following => exact .seq (head first) (tail following)

end Emitted

/-! ## Running -/

/-- Where a statement leads: to the lines behind it, or to the end of the function. -/
def Outcome.landing (rest leave : Code) : Outcome -> Code
  | finished => rest
  | returned _ => leave

/-- What a statement has done: the stack is as it was, the variables hold what the store
says, and a returned value, converted, is in `rax`. -/
structure Ran (layout : Layout) (goal : Option IntTy) (before : Machine)
    (outcome : Outcome) (store : Store) (after : Machine) : Prop where
  steady : layout.Steady before after store
  delivers : ∀ value ty, outcome = .returned (some value) -> goal = some ty ->
    after.regs .rax = .ofInt 64 (ty.convert value)

namespace Ran

variable {layout : Layout} {goal : Option IntTy} {before middle after : Machine}
  {outcome : Outcome} {store between : Store}

/-- A statement that has run to its end has returned nothing. -/
theorem finished (steady : layout.Steady before after store) :
    Ran layout goal before .finished store after :=
  ⟨steady, by simp⟩

theorem behind (ran : Ran layout goal middle outcome store after)
    (steady : layout.Steady before middle between) :
    Ran layout goal before outcome store after :=
  ⟨steady.trans ran.steady, ran.delivers⟩

end Ran

/-- What leads on from the end of a statement need not be considered if it returns. -/
theorem Leads.onward
    {names : Names}
    {text middle goal leave : Code}
    {config : Config}
    {outcome : Outcome}
    {post : Machine -> Prop}
    (first : Leads names text config (outcome.landing middle leave) post)
    (further : ∀ next, Reaches names text ⟨middle, next⟩ ⟨goal, next⟩) :
    Leads names text config (outcome.landing goal leave) post := by
  cases outcome with
  | finished => exact first.andThen fun next holds => .after (further next) (.here holds)
  | returned => exact first

section Lines

variable {layout : Layout} {text rest leave : Code} {store middle after : Store}
  {machine : Machine} {value : Int} {goal : Option IntTy}

/-- The value of an expression, popped. -/
theorem leads_discard
    {code : Code}
    (pushes : Leads layout.names text ⟨code ++ (instrs [.pop .rax] ++ rest), machine⟩
      (instrs [.pop .rax] ++ rest) (layout.Pushed machine · after (.ofInt 64 value))) :
    Leads layout.names text ⟨code ++ (instrs [.pop .rax] ++ rest), machine⟩
      rest fun next =>
      layout.Steady machine next after ∧ next.regs .rax = .ofInt 64 value := by
  refine pushes.andThen fun next pushed => ⟨next.pop .rax, .instrs rfl, ?_, pushed.word⟩
  exact pushed.pop (by decide) (by decide)

/-- A returned value, converted and popped. -/
theorem leads_return
    {expr : Expr}
    {code : Code}
    (sound : layout.Sound)
    (compiled : Compiled layout.program expr code)
    (inside : ∀ target ∈ expr.vars, layout.tracked target)
    (ready : layout.Ready store machine expr.words)
    (evaluated : expr.eval store = .ok (value, after))
    (resolves : Resolves text code
      (returnLines goal expr.ty ++ (instrs [.pop .rax] ++ rest))) :
    Leads layout.names text
      ⟨code ++ (returnLines goal expr.ty ++ (instrs [.pop .rax] ++ rest)), machine⟩ rest
      (Ran layout goal machine (.returned (some value)) after) := by
  have evaluates := Evaluates.of_eval evaluated
  have pushes := compiled.leads sound evaluates inside ready resolves
  have fits := (evaluates.fits sound.single inside ready.agrees.fits).1
  cases goal with
  | none =>
      exact (leads_discard pushes).weaken fun next holds => ⟨holds.1, by simp⟩
  | some ty =>
      rw [← List.append_assoc] at pushes ⊢
      have converts : Leads layout.names text
          ⟨code ++ returnLines (some ty) expr.ty ++ (instrs [.pop .rax] ++ rest), machine⟩
          (instrs [.pop .rax] ++ rest)
          (layout.Pushed machine · after (.ofInt 64 (ty.convert value))) :=
        pushes.andThen fun next pushed =>
          leads_convert ty sound (ready.mono expr.words_pos) fits pushed
      refine (leads_discard converts).weaken fun next holds => ⟨holds.1, ?_⟩
      rintro _ _ ⟨⟩ ⟨⟩
      exact holds.2

/-- The test of a condition that is not zero goes on. -/
theorem leads_passed
    {cond : Expr}
    {code : Code}
    {target : Label}
    (sound : layout.Sound)
    (compiled : Compiled layout.program cond code)
    (inside : ∀ target ∈ cond.vars, layout.tracked target)
    (ready : layout.Ready store machine cond.words)
    (evaluated : cond.eval store = .ok (value, after))
    (nonzero : value ≠ 0)
    (resolves : Resolves text code (testLines ++ (instrs [.jumpEq target] ++ rest))) :
    Leads layout.names text
      ⟨code ++ (testLines ++ (instrs [.jumpEq target] ++ rest)), machine⟩ rest
      (layout.Steady machine · after) := by
  have evaluates := Evaluates.of_eval evaluated
  have fits := (evaluates.fits sound.single inside ready.agrees.fits).1
  refine (compiled.leads sound evaluates inside ready resolves).andThen
    fun next pushed => ?_
  exact leads_test_passed .eq fits pushed (by simpa [Cond.test] using nonzero)

/-- The test of a condition that is zero jumps. -/
theorem leads_failed
    {cond : Expr}
    {code landing : Code}
    {target : Label}
    (sound : layout.Sound)
    (compiled : Compiled layout.program cond code)
    (inside : ∀ target ∈ cond.vars, layout.tracked target)
    (ready : layout.Ready store machine cond.words)
    (evaluated : cond.eval store = .ok (0, after))
    (resolves : Resolves text code (testLines ++ (instrs [.jumpEq target] ++ rest)))
    (known : text.after? target = some landing) :
    Leads layout.names text
      ⟨code ++ (testLines ++ (instrs [.jumpEq target] ++ rest)), machine⟩ landing
      (layout.Steady machine · after) := by
  have evaluates := Evaluates.of_eval evaluated
  have fits := (evaluates.fits sound.single inside ready.agrees.fits).1
  refine (compiled.leads sound evaluates inside ready resolves).andThen
    fun next pushed => ?_
  exact leads_test_taken .eq fits pushed rfl known

end Lines

/-! ## Branches -/

section Branch

variable {layout : Layout} {text rest leave : Code} {store after : Store}
    {machine : Machine} {goal : Option IntTy} {number : Nat} {test first second : Code}

theorem branchLines_eq :
    branchLines number test first second =
      test ++ (testLines ++ (instrs [.jumpEq (.numbered .otherwise number)] ++
        (first ++ (instrs [.jump (.numbered .stop number)] ++ (define .otherwise number ++
          (second ++ define .stop number)))))) := by
  simp [branchLines]

/-- The labels of a branch. -/
theorem resolves_branch
    (resolves : Resolves text (branchLines number test first second) rest) :
    text.after? (.numbered .otherwise number) =
      some (second ++ (define .stop number ++ rest)) ∧
      text.after? (.numbered .stop number) = some rest := by
  rw [branchLines_eq] at resolves
  have closing := resolves.right.right.right.right.right
  constructor
  · have found := closing [] .otherwise number (second ++ define .stop number) rfl
    rwa [List.append_assoc] at found
  · exact closing.right.right [] .stop number [] rfl

end Branch

/-! ## Loops -/

section Loop

variable {layout : Layout} {text rest leave : Code} {goal : Option IntTy} {number : Nat}
  {cond : Option Expr} {body : Stmt} {test round : Code}

/-- The labels of a loop. -/
theorem resolves_cycle
    (resolves : Resolves text (cycleLines number test round) rest) :
    text.after? (.numbered .start number) = some (test ++ (round ++
        (instrs [.jump (.numbered .start number)] ++ (define .stop number ++ rest)))) ∧
      text.after? (.numbered .stop number) = some rest := by
  constructor
  · have found := resolves [] .start number _ rfl
    simpa only [List.append_assoc] using found
  · exact resolves.right.right.right.right [] .stop number [] rfl

/-- The lines that test the condition of a loop, if it holds. -/
theorem leads_passes
    {store middle : Store}
    {machine : Machine}
    (sound : layout.Sound)
    (compiled : CompiledCond layout.program number cond test)
    (inside : ∀ target ∈ (cond.map Expr.vars).getD [], layout.tracked target)
    (ready : layout.Ready store machine ((cond.map Expr.words).getD 0))
    (passes : Passes cond store middle)
    (resolves : Resolves text test rest) :
    Leads layout.names text ⟨test ++ rest, machine⟩ rest
      (layout.Steady machine · middle) := by
  cases passes with
  | always =>
      cases compiled
      exact .here (.refl ready.agrees)
  | nonzero evaluated nonzero =>
      cases compiled with
      | some compiled =>
          have inner := resolves.left
          simp only [leaveLines, List.append_assoc] at inner ⊢
          exact leads_passed sound compiled inside ready evaluated nonzero inner

/-- A loop from its test on.  The induction is over the rounds of the execution. -/
theorem leads_cycle
    (sound : layout.Sound)
    (compiled : CompiledCond layout.program number cond test)
    (inside : ∀ target ∈ (cond.map Expr.vars).getD [], layout.tracked target)
    (resolves : Resolves text (cycleLines number test round) rest)
    (leads : ∀ rest, Resolves text round rest -> ∀ store outcome after machine,
      Executes body store outcome after -> layout.Ready store machine body.words ->
      Leads layout.names text ⟨round ++ rest, machine⟩ (outcome.landing rest leave)
        (Ran layout goal machine outcome after))
    {store after : Store}
    {outcome : Outcome}
    {machine : Machine}
    (executes : Executes (.loop cond body) store outcome after)
    (ready : layout.Ready store machine (Stmt.loop cond body).words) :
    Leads layout.names text
      ⟨test ++ (round ++ (instrs [.jump (.numbered .start number)] ++
        (define .stop number ++ rest))), machine⟩ (outcome.landing rest leave)
      (Ran layout goal machine outcome after) := by
  obtain ⟨start, stop⟩ := resolves_cycle resolves
  have testResolves := resolves.right.left
  have roundResolves := resolves.right.right.left
  simp only [List.append_assoc] at testResolves roundResolves
  have condReady {store : Store} {machine : Machine}
      (ready : layout.Ready store machine (Stmt.loop cond body).words) :=
    ready.mono (Nat.le_max_left _ body.words)
  have bodyReady {store : Store} {machine : Machine}
      (ready : layout.Ready store machine (Stmt.loop cond body).words) :=
    ready.mono (Nat.le_max_right ((cond.map Expr.words).getD 0) _)
  generalize whole : Stmt.loop cond body = stmt at executes
  induction executes generalizing machine with
  | leave evaluated =>
      cases whole
      cases compiled with
      | some compiled =>
          have inner := testResolves.left
          simp only [leaveLines, List.append_assoc] at inner ⊢
          refine (leads_failed sound compiled inside (condReady ready) evaluated inner
            stop).weaken fun next steady => ?_
          exact .finished steady
  | again passes roundExecutes _ _ hypothesis =>
      cases whole
      refine (leads_passes sound compiled inside (condReady ready) passes
        testResolves).andThen fun tested steady => ?_
      refine (leads _ roundResolves _ _ _ tested roundExecutes
        ((bodyReady ready).steady steady)).andThen fun next ran => ?_
      have settled := steady.trans ran.steady
      refine .after (.jump start) ?_
      refine (hypothesis (ready.steady settled) rfl).weaken fun last others => ?_
      exact others.behind settled
  | quit passes roundExecutes =>
      cases whole
      refine (leads_passes sound compiled inside (condReady ready) passes
        testResolves).andThen fun tested steady => ?_
      refine (leads _ roundResolves _ _ _ tested roundExecutes
        ((bodyReady ready).steady steady)).weaken fun next ran => ?_
      exact ran.behind steady
  | _ => cases whole

end Loop

/-! ## All statements -/

/-- The code of a statement does what its execution does. -/
theorem CompiledStmt.leads
    {layout : Layout}
    {text leave : Code}
    {function : String}
    {goal : Option IntTy}
    (sound : layout.Sound)
    (exit : text.after? (.exit function) = some leave)
    {stmt : Stmt}
    {code : Code}
    (compiled : CompiledStmt layout.program function goal stmt code)
    (inside : ∀ target ∈ stmt.vars, layout.tracked target)
    {rest : Code}
    (resolves : Resolves text code rest)
    {store after : Store}
    {outcome : Outcome}
    {machine : Machine}
    (executes : Executes stmt store outcome after)
    (ready : layout.Ready store machine stmt.words) :
    Leads layout.names text ⟨code ++ rest, machine⟩ (outcome.landing rest leave)
      (Ran layout goal machine outcome after) := by
  induction compiled generalizing rest store after outcome machine with
  | located line _ hypothesis =>
      rw [List.append_assoc]
      exact .after (.loc line) (hypothesis inside resolves.right executes ready)
  | skip =>
      cases executes
      exact .here (.finished (.refl ready.agrees))
  | seq _ _ first second =>
      obtain ⟨left, right⟩ := List.forall_mem_append.mp inside
      have leftReady := ready.mono (Nat.le_max_left _ _)
      rw [List.append_assoc]
      cases executes with
      | next head tail =>
          refine (first left resolves.left head leftReady).andThen fun next ran => ?_
          have rightReady := (ready.mono (Nat.le_max_right _ _)).steady ran.steady
          refine (second right resolves.right tail rightReady).weaken
            fun last others => ?_
          exact others.behind ran.steady
      | stop head => exact first left resolves.left head leftReady
  | expr compiled =>
      cases executes with
      | expr evaluated =>
          rw [List.append_assoc]
          have pushes :=
            compiled.leads sound (.of_eval evaluated) inside ready resolves.left
          exact (leads_discard pushes).weaken fun next holds => .finished holds.1
  | retNone =>
      cases executes
      exact .after (.jump exit) (.here ⟨.refl ready.agrees, by simp⟩)
  | ret compiled =>
      cases executes with
      | ret evaluated =>
          have inner := resolves.left.left.left
          simp only [List.append_assoc] at inner ⊢
          refine (leads_return sound compiled inside ready evaluated inner).andThen ?_
          exact fun next ran => .after (.jump exit) (.here ran)
  | @branch cond onTrue onFalse test first second number compiled _ _ taken other =>
      obtain ⟨condInside, others⟩ := List.forall_mem_append.mp inside
      obtain ⟨trueInside, falseInside⟩ := List.forall_mem_append.mp others
      obtain ⟨otherwise, stop⟩ := resolves_branch resolves
      rw [branchLines_eq] at resolves ⊢
      have testResolves := resolves.left
      have trueResolves := resolves.right.right.right.left
      have falseResolves := resolves.right.right.right.right.right.right.left
      simp only [List.append_assoc] at testResolves trueResolves falseResolves ⊢
      have condReady := ready.mono (Nat.le_max_left cond.words _)
      have restReady := ready.mono (Nat.le_max_right cond.words _)
      cases executes with
      | onTrue evaluated nonzero executes =>
          refine (leads_passed sound compiled condInside condReady evaluated nonzero
            testResolves).andThen fun tested steady => ?_
          have trueReady := (restReady.mono (Nat.le_max_left _ _)).steady steady
          refine (Leads.onward (taken trueInside trueResolves executes trueReady)
            fun next => .jump stop).weaken ?_
          exact fun last ran => ran.behind steady
      | onFalse evaluated executes =>
          refine (leads_failed sound compiled condInside condReady evaluated testResolves
            otherwise).andThen fun tested steady => ?_
          have falseReady := (restReady.mono (Nat.le_max_right _ _)).steady steady
          refine (Leads.onward (other falseInside falseResolves executes falseReady)
            fun next => .label _).weaken ?_
          exact fun last ran => ran.behind steady
  | @loop cond body number test round compiled _ hypothesis =>
      obtain ⟨condInside, bodyInside⟩ := List.forall_mem_append.mp inside
      have leads := leads_cycle sound compiled condInside resolves
        (fun _ resolves _ _ _ _ executes ready =>
          hypothesis bodyInside resolves executes ready)
        executes ready
      simp only [cycleLines, List.append_assoc]
      exact .after (.label _) leads

end Semantics
end MiniC
