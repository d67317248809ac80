import MiniC.Emit.Program

/-!
# What the generator emits

`Emits` says, for every kind of node, which lines the generator emits for it and how
its counters move.  There is one rule for each way in which a generator can succeed,
so a fact about all generated code is an induction with one case a rule and does not
look into the generators again.

The main statement is `Emits.of_routines`: whatever the generators for nodes nested to
any depth return, they return by these rules.
-/

namespace MiniC
namespace Emit

open Asm

namespace State

/-- The state with a number of values more on the stack. -/
def lift (state : State) (values : Int) : State :=
  { state with depth := state.depth + values }

/-- The state after one more label number has been handed out. -/
def numbered (state : State) : State :=
  { state with nextLabel := state.nextLabel + 1 }

@[simp] theorem lift_depth (state : State) (values : Int) :
    (state.lift values).depth = state.depth + values := rfl

@[simp] theorem lift_nextLabel (state : State) (values : Int) :
    (state.lift values).nextLabel = state.nextLabel := rfl

@[simp] theorem numbered_depth (state : State) :
    state.numbered.depth = state.depth := rfl

@[simp] theorem numbered_nextLabel (state : State) :
    state.numbered.nextLabel = state.nextLabel + 1 := rfl

@[simp] theorem lift_lift (state : State) (first second : Int) :
    (state.lift first).lift second = state.lift (first + second) := by
  simp [lift, Int.add_assoc]

@[simp] theorem lift_zero (state : State) : state.lift 0 = state := by
  simp [lift]

end State

/-! ## The code of the building blocks -/

/-- Lines that replace the value on top of the stack by what instructions make of
it in `rax`. -/
def topLines (list : List Instr) : Code :=
  instrs [.pop .rax] ++ instrs list ++ instrs [.push .rax]

/-- Lines that pop a value and compare it with zero. -/
def testLines : Code := instrs [.pop .rax] ++ instrs [.compareZero]

/-- Lines that replace an address on top of the stack by the value there. -/
def loadLines (ty : Ty) : Code :=
  if isByAddress ty then [] else topLines [.load (.ofSize ty.size)]

/-- Numbers and pointers are values themselves, not the address of one. -/
theorem isByAddress_of_scalar {ty : Ty}
    (scalar : ty.isInteger = true ∨ ty.isPointer = true) :
    isByAddress ty = false := by
  rcases scalar with integer | pointer
  · unfold Ty.isInteger at integer
    split at integer <;> simp_all [isByAddress, Ty.isArray, Ty.isAggregate, Ty.isFunction]
  · unfold Ty.isPointer at pointer
    split at pointer <;> simp_all [isByAddress, Ty.isArray, Ty.isAggregate, Ty.isFunction]

/-- The instructions that store `rdi` at the address in `rax`. -/
def storeInstrs (ty : Ty) : List Instr :=
  if ty.isAggregate then copyBytes ty.size else [.store (.ofSize ty.size)]

/-- Lines that store a value at the address below it and push the value again. -/
def storeLines (ty : Ty) : Code :=
  instrs [.pop .rdi] ++ instrs [.pop .rax]
    ++ instrs (storeInstrs ty ++ [.move .rax .rdi]) ++ instrs [.push .rax]

/-- Lines that convert the value on top of the stack. -/
def convertLines (source target : Ty) : Code :=
  if target.isVoid then []
  else if target.kind = .bool then topLines (.compareZero :: truth .ne)
  else if target.width.rank < source.width.rank then topLines (extend target.width)
  else []

/-- Lines that add a member's offset to the address on top of the stack. -/
def offsetLines (offset : Int) : Code :=
  if offset = 0 then [] else topLines [.addConst .rax offset]

/-- Lines that pop arguments into registers, the last register first. -/
def popLines (regs : List Reg) : Code := instrs (regs.reverse.map .pop)

/-- Lines that call a function at a stack of the given depth. -/
def callLines (depth : Int) (name : String) : Code :=
  if depth % 2 = 0 then instrs [.set .rax 0, .call name]
  else instrs [.subConst .rsp 8, .set .rax 0, .call name, .addConst .rsp 8]

/-- Lines that evaluate a conjunction or disjunction from the lines of its
operands. -/
def shortCircuitLines (jump : Label -> Instr) (role : Role) (decided undecided : Int)
    (number : Nat) (left right : Code) : Code :=
  left ++ testLines ++ instrs [jump (.numbered role number)]
    ++ right ++ testLines ++ instrs [jump (.numbered role number)]
    ++ instrs [.set .rax undecided, .jump (.numbered .stop number)]
    ++ define role number ++ instrs [.set .rax decided]
    ++ define .stop number ++ instrs [.push .rax]

/-- Lines that run one of two statements. -/
def branchLines (number : Nat) (test first second : Code) : Code :=
  test ++ testLines ++ instrs [.jumpEq (.numbered .otherwise number)]
    ++ first ++ instrs [.jump (.numbered .stop number)]
    ++ define .otherwise number ++ second ++ define .stop number

/-- Lines that leave a loop if the value on top of the stack is zero. -/
def leaveLines (number : Nat) : Code :=
  testLines ++ instrs [.jumpEq (.numbered .stop number)]

/-- Lines that run a loop from the lines of its parts. -/
def loopLines (number : Nat) (first test round next : Code) : Code :=
  first ++ define .start number ++ test ++ round ++ next
    ++ instrs [.jump (.numbered .start number)] ++ define .stop number

/-! ## Runs of generators -/

/-- A generator succeeds in a state with a result and a state after it. -/
def Gives {α : Type} (generator : Generator α) (state : State) (result : α)
    (after : State) : Prop :=
  generator state = .ok (result, after)

section Gives

variable {α β : Type} {state after : State}

/-- A generator whose run is known gives nothing else. -/
theorem gives_iff
    {generator : Generator α}
    {value result : α}
    {reached : State}
    (run : generator state = .ok (value, reached)) :
    Gives generator state result after ↔ result = value ∧ after = reached := by
  unfold Gives
  rw [run]
  simp [eq_comm]

@[simp] theorem gives_pure (value result : α) :
    Gives (pure value) state result after ↔ result = value ∧ after = state :=
  gives_iff rfl

@[simp] theorem gives_throw (error : Error) (result : α) :
    ¬ Gives (throw error) state result after := by
  intro given
  cases given

/-- A generator made of two succeeds when both do, one after the other. -/
@[simp] theorem gives_bind (first : Generator α) (next : α -> Generator β) (result : β) :
    Gives (first >>= next) state result after ↔
      ∃ value middle, Gives first state value middle ∧
        Gives (next value) middle result after := by
  unfold Gives
  change (StateT.bind first next state = _) ↔ _
  unfold StateT.bind
  cases first state with
  | error error => simp [bind, Except.bind]
  | ok pair =>
      obtain ⟨value, middle⟩ := pair
      simp [bind, Except.bind, and_assoc]

@[simp] theorem gives_lift (read : Except Error α) (result : α) :
    Gives (liftM read) state result after ↔ read = .ok result ∧ after = state := by
  cases read with
  | error error =>
      constructor
      · intro given
        cases given
      · rintro ⟨given, _⟩
        cases given
  | ok value =>
      have run : (liftM (Except.ok value : Except Error α) : Generator α) state =
          .ok (value, state) := rfl
      rw [gives_iff run]
      simp [eq_comm]

@[simp] theorem gives_push (result : Code) :
    Gives push state result after ↔
      result = instrs [.push .rax] ∧ after = state.lift 1 :=
  gives_iff rfl

@[simp] theorem gives_pop (reg : Reg) (result : Code) :
    Gives (pop reg) state result after ↔
      result = instrs [.pop reg] ∧ after = state.lift (-1) :=
  gives_iff rfl

@[simp] theorem gives_freshNumber (result : Nat) :
    Gives freshNumber state result after ↔
      result = state.nextLabel ∧ after = state.numbered :=
  gives_iff rfl

theorem onTop_run (list : List Instr) (state : State) :
    onTop list state = .ok (topLines list, state) := by
  change Except.ok (topLines list, (state.lift (-1)).lift 1) = _
  simp

@[simp] theorem gives_onTop (list : List Instr) (result : Code) :
    Gives (onTop list) state result after ↔ result = topLines list ∧ after = state :=
  gives_iff (onTop_run list state)

@[simp] theorem gives_testTop (result : Code) :
    Gives testTop state result after ↔
      result = testLines ∧ after = state.lift (-1) :=
  gives_iff rfl

@[simp] theorem gives_load (ty : Ty) (result : Code) :
    Gives (load ty) state result after ↔ result = loadLines ty ∧ after = state := by
  unfold load loadLines
  split <;> simp

@[simp] theorem gives_store (ty : Ty) (result : Code) :
    Gives (store ty) state result after ↔
      result = storeLines ty ∧ after = state.lift (-1) := by
  have run : store ty state = .ok (storeLines ty, state.lift (-1)) := by
    change Except.ok (storeLines ty, ((state.lift (-1)).lift (-1)).lift 1) = _
    simp
  exact gives_iff run

@[simp] theorem gives_convert (source target : Ty) (result : Code) :
    Gives (convert source target) state result after ↔
      result = convertLines source target ∧ after = state := by
  unfold convert convertLines
  split
  · simp
  · split
    · simp
    · split <;> simp

end Gives

/-! ## The rules -/

/-- What a generator is asked for. -/
inductive Task
  /-- Push the address of an object. -/
  | address (id : NodeId)
  /-- Push the value of an expression. -/
  | value (id : NodeId)
  /-- Push the values of several expressions. -/
  | values (ids : List NodeId)
  /-- Evaluate an expression, if there is one, and drop its value. -/
  | discard (id : Option NodeId)
  /-- Run a statement. -/
  | statement (id : NodeId)
  /-- Run a statement, if there is one. -/
  | optional (id : Option NodeId)
  /-- Run several statements. -/
  | statements (ids : List NodeId)

/-- The lines emitted for a task, with the states before and after. -/
inductive Emits (context : Context) : Task -> State -> Code -> State -> Prop
  | localAddress {id node symbol entry offset state}
      (found : context.program.node? id = some node)
      (kind : node.kind = .var symbol)
      (declared : context.program.symbol? symbol = some entry)
      (place : entry.kind = .localVar (some offset)) :
      Emits context (.address id) state
        (instrs [.frameAddress offset] ++ instrs [.push .rax]) (state.lift 1)
  | globalAddress {id node symbol entry state}
      (found : context.program.node? id = some node)
      (kind : node.kind = .var symbol)
      (declared : context.program.symbol? symbol = some entry)
      (place : ∀ offset, entry.kind ≠ .localVar offset) :
      Emits context (.address id) state
        (instrs [.symbolAddress entry.name] ++ instrs [.push .rax]) (state.lift 1)
  | derefAddress {id node operand state code after}
      (found : context.program.node? id = some node)
      (kind : node.kind = .deref operand)
      (inner : Emits context (.value operand) state code after) :
      Emits context (.address id) state code after
  | memberAddress {id node base aggregate index place state code after}
      (found : context.program.node? id = some node)
      (kind : node.kind = .member base aggregate index)
      (placed : context.program.lookupMember aggregate index = .ok place)
      (inner : Emits context (.address base) state code after) :
      Emits context (.address id) state (code ++ offsetLines place.offset) after
  | num {id node ty number state}
      (found : context.program.node? id = some node)
      (typed : context.program.nodeTy id = .ok ty)
      (kind : node.kind = .num number) :
      Emits context (.value id) state
        (instrs [.set .rax number] ++ instrs [.push .rax]) (state.lift 1)
  | object {id node ty state code after}
      (found : context.program.node? id = some node)
      (typed : context.program.nodeTy id = .ok ty)
      (kind : (∃ symbol, node.kind = .var symbol) ∨
        ∃ base aggregate index, node.kind = .member base aggregate index)
      (inner : Emits context (.address id) state code after) :
      Emits context (.value id) state (code ++ loadLines ty) after
  | deref {id node ty operand state code after}
      (found : context.program.node? id = some node)
      (typed : context.program.nodeTy id = .ok ty)
      (kind : node.kind = .deref operand)
      (inner : Emits context (.value operand) state code after) :
      Emits context (.value id) state (code ++ loadLines ty) after
  | addr {id node ty operand state code after}
      (found : context.program.node? id = some node)
      (typed : context.program.nodeTy id = .ok ty)
      (kind : node.kind = .addr operand)
      (inner : Emits context (.address operand) state code after) :
      Emits context (.value id) state code after
  | assign {id node ty lhs rhs state place middle value after}
      (found : context.program.node? id = some node)
      (typed : context.program.nodeTy id = .ok ty)
      (kind : node.kind = .assign lhs rhs)
      (left : Emits context (.address lhs) state place middle)
      (right : Emits context (.value rhs) middle value after) :
      Emits context (.value id) state (place ++ value ++ storeLines ty)
        (after.lift (-1))
  | comma {id node ty lhs rhs state first middle second after}
      (found : context.program.node? id = some node)
      (typed : context.program.nodeTy id = .ok ty)
      (kind : node.kind = .comma lhs rhs)
      (left : Emits context (.value lhs) state first middle)
      (right : Emits context (.value rhs) (middle.lift (-1)) second after) :
      Emits context (.value id) state (first ++ instrs [.pop .rax] ++ second) after
  | stmtExpr {id node ty body last entry expr state before middle code after}
      (found : context.program.node? id = some node)
      (typed : context.program.nodeTy id = .ok ty)
      (kind : node.kind = .stmtExpr body)
      (ending : body.getLast? = some last)
      (lastFound : context.program.node? last = some entry)
      (lastKind : entry.kind = .exprStmt expr)
      (init : Emits context (.statements body.dropLast) state before middle)
      (inner : Emits context (.value expr) middle code after) :
      Emits context (.value id) state (before ++ code) after
  | cast {id node ty operand source state code after}
      (found : context.program.node? id = some node)
      (typed : context.program.nodeTy id = .ok ty)
      (kind : node.kind = .cast operand)
      (operandTyped : context.program.nodeTy operand = .ok source)
      (inner : Emits context (.value operand) state code after) :
      Emits context (.value id) state (code ++ convertLines source ty) after
  | unary {id node ty op operand state code after}
      (found : context.program.node? id = some node)
      (typed : context.program.nodeTy id = .ok ty)
      (kind : node.kind = .unary op operand)
      (inner : Emits context (.value operand) state code after) :
      Emits context (.value id) state (code ++ topLines (unaryOperation op ty)) after
  | logAnd {id node ty lhs rhs state left middle right after}
      (found : context.program.node? id = some node)
      (typed : context.program.nodeTy id = .ok ty)
      (kind : node.kind = .binary .logAnd lhs rhs)
      (first : Emits context (.value lhs) state.numbered left middle)
      (second : Emits context (.value rhs) (middle.lift (-1)) right after) :
      Emits context (.value id) state
        (shortCircuitLines .jumpEq .onFalse 0 1 state.nextLabel left right) after
  | logOr {id node ty lhs rhs state left middle right after}
      (found : context.program.node? id = some node)
      (typed : context.program.nodeTy id = .ok ty)
      (kind : node.kind = .binary .logOr lhs rhs)
      (first : Emits context (.value lhs) state.numbered left middle)
      (second : Emits context (.value rhs) (middle.lift (-1)) right after) :
      Emits context (.value id) state
        (shortCircuitLines .jumpNe .onTrue 1 0 state.nextLabel left right) after
  | binary {id node ty op lhs rhs state left middle right after}
      (found : context.program.node? id = some node)
      (typed : context.program.nodeTy id = .ok ty)
      (kind : node.kind = .binary op lhs rhs)
      (notAnd : op ≠ .logAnd)
      (notOr : op ≠ .logOr)
      (first : Emits context (.value lhs) state left middle)
      (second : Emits context (.value rhs) middle right after) :
      Emits context (.value id) state
        (left ++ right ++ instrs [.pop .rdi] ++ topLines (operation op ty))
        (after.lift (-1))
  | call {id node ty function args entry state values after}
      (found : context.program.node? id = some node)
      (typed : context.program.nodeTy id = .ok ty)
      (kind : node.kind = .call function args)
      (few : args.length ≤ argumentRegisters.length)
      (declared : context.program.symbol? function = some entry)
      (inner : Emits context (.values args) state values after) :
      Emits context (.value id) state
        (values ++ popLines (argumentRegisters.take args.length)
          ++ callLines (after.depth - args.length) entry.name
          ++ instrs (narrow ty) ++ instrs [.push .rax])
        (after.lift (1 - args.length))
  | noValues {state} : Emits context (.values []) state [] state
  | moreValues {id rest state first middle following after}
      (head : Emits context (.value id) state first middle)
      (tail : Emits context (.values rest) middle following after) :
      Emits context (.values (id :: rest)) state (first ++ following) after
  | discardNone {state} : Emits context (.discard none) state [] state
  | discardSome {id state code after}
      (inner : Emits context (.value id) state code after) :
      Emits context (.discard (some id)) state (code ++ instrs [.pop .rax])
        (after.lift (-1))
  | branch {id node cond onTrue onFalse state test middle first between second after}
      (found : context.program.node? id = some node)
      (kind : node.kind = .branch cond onTrue onFalse)
      (decision : Emits context (.value cond) state.numbered test middle)
      (taken : Emits context (.statement onTrue) (middle.lift (-1)) first between)
      (other : Emits context (.optional onFalse) between second after) :
      Emits context (.statement id) state
        ([.directive (.loc node.line)]
          ++ branchLines state.nextLabel test first second) after
  | loop {id node init step body state first started round middle next after}
      (found : context.program.node? id = some node)
      (kind : node.kind = .loop init none step body)
      (start : Emits context (.optional init) state.numbered first started)
      (inner : Emits context (.statement body) started round middle)
      (advance : Emits context (.discard step) middle next after) :
      Emits context (.statement id) state
        ([.directive (.loc node.line)]
          ++ loopLines state.nextLabel first [] round next) after
  | loopWhile {id node init cond step body state first started test decided round
        middle next after}
      (found : context.program.node? id = some node)
      (kind : node.kind = .loop init (some cond) step body)
      (start : Emits context (.optional init) state.numbered first started)
      (decision : Emits context (.value cond) started test decided)
      (inner : Emits context (.statement body) (decided.lift (-1)) round middle)
      (advance : Emits context (.discard step) middle next after) :
      Emits context (.statement id) state
        ([.directive (.loc node.line)]
          ++ loopLines state.nextLabel first (test ++ leaveLines state.nextLabel)
            round next) after
  | block {id node body state code after}
      (found : context.program.node? id = some node)
      (kind : node.kind = .block body)
      (inner : Emits context (.statements body) state code after) :
      Emits context (.statement id) state
        ([.directive (.loc node.line)] ++ code) after
  | ret {id node result state code after}
      (found : context.program.node? id = some node)
      (kind : node.kind = .ret result)
      (inner : Emits context (.discard result) state code after) :
      Emits context (.statement id) state
        ([.directive (.loc node.line)] ++ code
          ++ instrs [.jump (.exit context.function)]) after
  | exprStmt {id node expr state code after}
      (found : context.program.node? id = some node)
      (kind : node.kind = .exprStmt expr)
      (inner : Emits context (.discard (some expr)) state code after) :
      Emits context (.statement id) state
        ([.directive (.loc node.line)] ++ code) after
  | goto {id node label state}
      (found : context.program.node? id = some node)
      (kind : node.kind = .goto label) :
      Emits context (.statement id) state
        ([.directive (.loc node.line)]
          ++ instrs [.jump (.named context.function label)]) state
  | label {id node name body state code after}
      (found : context.program.node? id = some node)
      (kind : node.kind = .label name body)
      (inner : Emits context (.statement body) state code after) :
      Emits context (.statement id) state
        ([.directive (.loc node.line)]
          ++ [.label (.named context.function name)] ++ code) after
  | optionalNone {state} : Emits context (.optional none) state [] state
  | optionalSome {id state code after}
      (inner : Emits context (.statement id) state code after) :
      Emits context (.optional (some id)) state code after
  | noStatements {state} : Emits context (.statements []) state [] state
  | moreStatements {id rest state first middle following after}
      (head : Emits context (.statement id) state first middle)
      (tail : Emits context (.statements rest) middle following after) :
      Emits context (.statements (id :: rest)) state (first ++ following) after

/-! ## Generators follow the rules -/

section Lookup

variable {program : Program}

@[simp] theorem lookupNode_eq_ok {id : NodeId} {node : Node} :
    program.lookupNode id = .ok node ↔ program.node? id = some node := by
  unfold Program.lookupNode
  split <;> simp_all

@[simp] theorem lookupSymbol_eq_ok {id : SymbolId} {symbol : Symbol} :
    program.lookupSymbol id = .ok symbol ↔ program.symbol? id = some symbol := by
  unfold Program.lookupSymbol
  split <;> simp_all

/-- A frame offset is that of a local variable with a place. -/
theorem frameOffset_eq_ok {id : SymbolId} {offset : Int} :
    frameOffset program id = .ok offset ↔
      ∃ symbol, program.symbol? id = some symbol ∧
        symbol.kind = .localVar (some offset) := by
  unfold frameOffset
  cases found : program.lookupSymbol id with
  | error error =>
      have missing (symbol : Symbol) : program.symbol? id ≠ some symbol := by
        intro present
        rw [← lookupSymbol_eq_ok, found] at present
        cases present
      simp [missing, bind, Except.bind]
  | ok symbol =>
      rw [lookupSymbol_eq_ok] at found
      simp only [bind, Except.bind, found, Option.some.injEq, exists_eq_left']
      split <;> simp_all [pure, Except.pure, throw, throwThe, MonadExceptOf.throw]

end Lookup

/-- Generators for children that follow the rules. -/
structure Routines.Follow (context : Context) (again : Routines) : Prop where
  address : ∀ {id state code after},
    Gives (again.address id) state code after ->
    Emits context (.address id) state code after
  value : ∀ {id state code after},
    Gives (again.value id) state code after -> Emits context (.value id) state code after
  statement : ∀ {id state code after},
    Gives (again.statement id) state code after ->
      Emits context (.statement id) state code after

namespace Emits

variable {context : Context} {again : Routines} {state after : State} {code : Code}

/-- The address of a variable. -/
theorem of_variableAddress
    {id : NodeId}
    {node : Node}
    {symbol : SymbolId}
    (found : context.program.node? id = some node)
    (kind : node.kind = .var symbol)
    (given : Gives (variableAddress context symbol) state code after) :
    Emits context (.address id) state code after := by
  simp only [variableAddress, gives_bind, gives_lift, lookupSymbol_eq_ok] at given
  obtain ⟨entry, _, ⟨declared, rfl⟩, given⟩ := given
  split at given
  · rename_i place
    simp only [gives_bind, gives_lift, gives_push, gives_pure, frameOffset_eq_ok] at given
    obtain ⟨offset, _, ⟨⟨other, otherDeclared, placed⟩, rfl⟩,
      _, _, ⟨rfl, rfl⟩, rfl, rfl⟩ :=
      given
    obtain rfl : entry = other := by simpa [declared] using otherDeclared
    exact .localAddress found kind declared placed
  · rename_i notLocal
    simp only [gives_bind, gives_push, gives_pure] at given
    obtain ⟨_, _, ⟨rfl, rfl⟩, rfl, rfl⟩ := given
    exact .globalAddress found kind declared notLocal

/-- The generator of addresses follows the rules if those of children do. -/
theorem of_address
    (follow : again.Follow context)
    {id : NodeId}
    (given : Gives (address context again id) state code after) :
    Emits context (.address id) state code after := by
  simp only [address, gives_bind, gives_lift, lookupNode_eq_ok] at given
  obtain ⟨node, _, ⟨found, rfl⟩, given⟩ := given
  split at given
  · rename_i symbol kind
    exact of_variableAddress found kind given
  · rename_i operand kind
    exact .derefAddress found kind (follow.value given)
  · rename_i base aggregate index kind
    simp only [gives_bind, gives_lift] at given
    obtain ⟨place, _, ⟨placed, rfl⟩, inner, middle, innerGiven, given⟩ := given
    have rule := memberAddress found kind placed (follow.address innerGiven)
    unfold offsetLines at rule
    split at given
    · rename_i zero
      simp only [gives_pure] at given
      obtain ⟨rfl, rfl⟩ := given
      simpa [zero] using rule
    · rename_i nonzero
      simp only [gives_bind, gives_onTop, gives_pure] at given
      obtain ⟨_, _, ⟨rfl, rfl⟩, rfl, rfl⟩ := given
      simpa [nonzero] using rule
  · simp at given

/-- The generator of several values follows the rules. -/
theorem of_values
    (follow : again.Follow context)
    {ids : List NodeId}
    (given : Gives (sequence again.value ids) state code after) :
    Emits context (.values ids) state code after := by
  induction ids generalizing state code with
  | nil =>
      simp only [sequence, gives_pure] at given
      obtain ⟨rfl, rfl⟩ := given
      exact .noValues
  | cons id rest hypothesis =>
      simp only [sequence, gives_bind, gives_pure] at given
      obtain ⟨first, middle, head, following, _, tail, rfl, rfl⟩ := given
      exact .moreValues (follow.value head) (hypothesis tail)

/-- The generator of several statements follows the rules. -/
theorem of_statements
    (follow : again.Follow context)
    {ids : List NodeId}
    (given : Gives (sequence again.statement ids) state code after) :
    Emits context (.statements ids) state code after := by
  induction ids generalizing state code with
  | nil =>
      simp only [sequence, gives_pure] at given
      obtain ⟨rfl, rfl⟩ := given
      exact .noStatements
  | cons id rest hypothesis =>
      simp only [sequence, gives_bind, gives_pure] at given
      obtain ⟨first, middle, head, following, _, tail, rfl, rfl⟩ := given
      exact .moreStatements (follow.statement head) (hypothesis tail)

/-- Pops fill the first registers, one a value. -/
theorem gives_popArguments (count : Nat) :
    Gives (popArguments count) state code after ↔
      count ≤ argumentRegisters.length ∧
        code = popLines (argumentRegisters.take count) ∧ after = state.lift (-count) := by
  induction count generalizing state code after with
  | zero =>
      simp [popArguments, popLines, instrs]
  | succ count hypothesis =>
      simp only [popArguments, gives_bind, gives_lift, gives_pop, gives_pure, hypothesis]
      unfold argumentRegister
      by_cases few : count < argumentRegisters.length
      · have reg : argumentRegisters[count]? = some argumentRegisters[count] :=
          List.getElem?_eq_getElem few
        have lines : popLines (argumentRegisters.take (count + 1)) =
            instrs [.pop argumentRegisters[count]]
              ++ popLines (argumentRegisters.take count) := by
          rw [List.take_add_one, reg]
          unfold popLines instrs
          rw [List.reverse_append, List.map_append, List.map_append]
          rfl
        have depths : ((-1 : Int) + -(count : Int)) = -((count + 1 : Nat) : Int) := by
          omega
        rw [reg]
        constructor
        · rintro ⟨_, _, ⟨given, rfl⟩, _, _, ⟨rfl, rfl⟩, _, _, ⟨_, rfl, rfl⟩, rfl, rfl⟩
          obtain rfl : argumentRegisters[count] = _ := by simpa using given
          exact ⟨few, lines.symm, by rw [State.lift_lift, depths]⟩
        · rintro ⟨_, rfl, rfl⟩
          refine ⟨_, _, ⟨rfl, rfl⟩, _, _, ⟨rfl, rfl⟩, _, _,
            ⟨by omega, rfl, rfl⟩, lines, ?_⟩
          rw [State.lift_lift, depths]
      · have missing : argumentRegisters[count]? = none :=
          List.getElem?_eq_none (by omega)
        rw [missing]
        constructor
        · rintro ⟨_, _, ⟨given, _⟩, _⟩
          cases given
        · rintro ⟨enough, _⟩
          omega

/-- Calls are aligned by the depth they are made at. -/
theorem gives_alignedCall (name : String) :
    Gives (alignedCall name) state code after ↔
      code = callLines state.depth name ∧ after = state := by
  have run : alignedCall name state = .ok (callLines state.depth name, state) := by
    unfold alignedCall callLines
    change (if state.depth % 2 = 0 then _ else _ : Generator Code) state = _
    split <;> rfl
  exact gives_iff run

/-- The generator of calls follows the rules. -/
theorem of_call
    (follow : again.Follow context)
    {id : NodeId}
    {node : Node}
    {ty : Ty}
    {function : SymbolId}
    {args : List NodeId}
    (found : context.program.node? id = some node)
    (typed : context.program.nodeTy id = .ok ty)
    (kind : node.kind = .call function args)
    (given : Gives (Emit.call context again function args ty) state code after) :
    Emits context (.value id) state code after := by
  simp only [Emit.call, gives_bind, gives_lift, gives_push, gives_pure,
    lookupSymbol_eq_ok, gives_popArguments, gives_alignedCall] at given
  obtain ⟨values, middle, inner, _, _, ⟨few, rfl, rfl⟩, entry, _, ⟨declared, rfl⟩, _, _,
    ⟨rfl, rfl⟩, _, _, ⟨rfl, rfl⟩, rfl, rfl⟩ := given
  have rule := Emits.call found typed kind few declared (of_values follow inner)
  have depths : -(args.length : Int) + 1 = 1 - args.length := by omega
  simpa only [State.lift_lift, State.lift_depth, depths, ← Int.sub_eq_add_neg] using rule

/-- The generator of statement expressions follows the rules. -/
theorem of_statementExpression
    (follow : again.Follow context)
    {id : NodeId}
    {node : Node}
    {ty : Ty}
    {body : List NodeId}
    (found : context.program.node? id = some node)
    (typed : context.program.nodeTy id = .ok ty)
    (kind : node.kind = .stmtExpr body)
    (given : Gives (statementExpression context again body) state code after) :
    Emits context (.value id) state code after := by
  unfold statementExpression at given
  split at given
  · simp at given
  · rename_i last ending
    simp only [gives_bind, gives_lift, lookupNode_eq_ok] at given
    obtain ⟨before, middle, init, entry, _, ⟨lastFound, rfl⟩, given⟩ := given
    split at given
    · rename_i expr lastKind
      simp only [gives_bind, gives_pure] at given
      obtain ⟨inner, _, innerGiven, rfl, rfl⟩ := given
      exact .stmtExpr found typed kind ending lastFound lastKind
        (of_statements follow init) (follow.value innerGiven)
    · simp at given

/-- The two operands of a conjunction or disjunction follow the rules. -/
theorem of_shortCircuit
    (follow : again.Follow context)
    {jump : Label -> Instr}
    {role : Role}
    {decided undecided : Int}
    {lhs rhs : NodeId}
    (given : Gives (shortCircuit again jump role decided undecided lhs rhs)
      state code after) :
    ∃ left middle right,
      Emits context (.value lhs) state.numbered left middle ∧
      Emits context (.value rhs) (middle.lift (-1)) right after ∧
      code = shortCircuitLines jump role decided undecided state.nextLabel
        left right := by
  simp only [shortCircuit, gives_bind, gives_freshNumber, gives_testTop, gives_push,
    gives_pure] at given
  obtain ⟨_, _, ⟨rfl, rfl⟩, left, middle, first, _, _, ⟨rfl, rfl⟩, right,
    last, second, _, _, ⟨rfl, rfl⟩, _, _, ⟨rfl, rfl⟩, rfl, rfl⟩ := given
  refine ⟨left, middle, right, follow.value first, ?_, ?_⟩
  · simpa using follow.value second
  · simp [shortCircuitLines]

/-- The generator of values follows the rules if those of children do. -/
theorem of_value
    (follow : again.Follow context)
    {id : NodeId}
    (given : Gives (value context again id) state code after) :
    Emits context (.value id) state code after := by
  simp only [value, gives_bind, gives_lift, lookupNode_eq_ok] at given
  obtain ⟨node, _, ⟨found, rfl⟩, ty, _, ⟨typed, rfl⟩, given⟩ := given
  split at given
  case h_1 number kind =>
    simp only [gives_bind, gives_push, gives_pure] at given
    obtain ⟨_, _, ⟨rfl, rfl⟩, rfl, rfl⟩ := given
    exact .num found typed kind
  case h_2 symbol kind =>
    simp only [gives_bind, gives_load, gives_pure] at given
    obtain ⟨_, _, inner, _, _, ⟨rfl, rfl⟩, rfl, rfl⟩ := given
    exact .object found typed (.inl ⟨symbol, kind⟩) (of_address follow inner)
  case h_3 base aggregate index kind =>
    simp only [gives_bind, gives_load, gives_pure] at given
    obtain ⟨_, _, inner, _, _, ⟨rfl, rfl⟩, rfl, rfl⟩ := given
    exact .object found typed (.inr ⟨base, aggregate, index, kind⟩)
      (of_address follow inner)
  case h_4 operand kind =>
    simp only [gives_bind, gives_load, gives_pure] at given
    obtain ⟨_, _, inner, _, _, ⟨rfl, rfl⟩, rfl, rfl⟩ := given
    exact .deref found typed kind (follow.value inner)
  case h_5 operand kind =>
    exact .addr found typed kind (follow.address given)
  case h_6 lhs rhs kind =>
    simp only [gives_bind, gives_store, gives_pure] at given
    obtain ⟨_, _, left, _, _, right, _, _, ⟨rfl, rfl⟩, rfl, rfl⟩ := given
    exact .assign found typed kind (follow.address left) (follow.value right)
  case h_7 lhs rhs kind =>
    simp only [gives_bind, gives_pop, gives_pure] at given
    obtain ⟨_, _, left, _, _, ⟨rfl, rfl⟩, _, _, right, rfl, rfl⟩ := given
    exact .comma found typed kind (follow.value left) (follow.value right)
  case h_8 body kind =>
    exact of_statementExpression follow found typed kind given
  case h_9 operand kind =>
    simp only [gives_bind, gives_lift, gives_convert, gives_pure] at given
    obtain ⟨_, _, inner, source, _, ⟨operandTyped, rfl⟩, _, _, ⟨rfl, rfl⟩, rfl, rfl⟩ :=
      given
    exact .cast found typed kind operandTyped (follow.value inner)
  case h_10 op operand kind =>
    simp only [gives_bind, gives_onTop, gives_pure] at given
    obtain ⟨_, _, inner, _, _, ⟨rfl, rfl⟩, rfl, rfl⟩ := given
    exact .unary found typed kind (follow.value inner)
  case h_11 lhs rhs kind =>
    obtain ⟨left, middle, right, first, second, rfl⟩ := of_shortCircuit follow given
    exact .logAnd found typed kind first second
  case h_12 lhs rhs kind =>
    obtain ⟨left, middle, right, first, second, rfl⟩ := of_shortCircuit follow given
    exact .logOr found typed kind first second
  case h_13 op lhs rhs notAnd notOr kind =>
    simp only [gives_bind, gives_pop, gives_onTop, gives_pure] at given
    obtain ⟨_, _, first, _, _, second, _, _, ⟨rfl, rfl⟩, _, _, ⟨rfl, rfl⟩, rfl, rfl⟩ :=
      given
    exact .binary found typed kind (by rintro rfl; exact notAnd rfl)
      (by rintro rfl; exact notOr rfl) (follow.value first) (follow.value second)
  case h_14 function args kind =>
    exact of_call follow found typed kind given
  all_goals simp at given

/-- The generator of dropped values follows the rules. -/
theorem of_discard
    (follow : again.Follow context)
    {id : Option NodeId}
    (given : Gives (whenPresent (Emit.discard again) id) state code after) :
    Emits context (.discard id) state code after := by
  cases id with
  | none =>
      simp only [whenPresent, gives_pure] at given
      obtain ⟨rfl, rfl⟩ := given
      exact .discardNone
  | some id =>
      simp only [whenPresent, Emit.discard, gives_bind, gives_pop, gives_pure] at given
      obtain ⟨_, _, inner, _, _, ⟨rfl, rfl⟩, rfl, rfl⟩ := given
      exact .discardSome (follow.value inner)

/-- The generator of a statement that may be missing follows the rules. -/
theorem of_optional
    (follow : again.Follow context)
    {id : Option NodeId}
    (given : Gives (whenPresent again.statement id) state code after) :
    Emits context (.optional id) state code after := by
  cases id with
  | none =>
      simp only [whenPresent, gives_pure] at given
      obtain ⟨rfl, rfl⟩ := given
      exact .optionalNone
  | some id => exact .optionalSome (follow.statement given)

/-- The generator of branches follows the rules. -/
theorem of_branch
    (follow : again.Follow context)
    {id : NodeId}
    {node : Node}
    {cond onTrue : NodeId}
    {onFalse : Option NodeId}
    (found : context.program.node? id = some node)
    (kind : node.kind = .branch cond onTrue onFalse)
    (given : Gives (Emit.branch again cond onTrue onFalse) state code after) :
    Emits context (.statement id) state
      ([.directive (.loc node.line)] ++ code) after := by
  simp only [Emit.branch, gives_bind, gives_freshNumber, gives_testTop,
    gives_pure] at given
  obtain ⟨_, _, ⟨rfl, rfl⟩, test, _, decision, _, _, ⟨rfl, rfl⟩, first,
    _, taken, second, _, other, rfl, rfl⟩ := given
  exact .branch found kind (follow.value decision) (follow.statement taken)
    (of_optional follow other)

/-- The generator of loops follows the rules. -/
theorem of_loop
    (follow : again.Follow context)
    {id : NodeId}
    {node : Node}
    {init cond step : Option NodeId}
    {body : NodeId}
    (found : context.program.node? id = some node)
    (kind : node.kind = .loop init cond step body)
    (given : Gives (Emit.loop again init cond step body) state code after) :
    Emits context (.statement id) state
      ([.directive (.loc node.line)] ++ code) after := by
  simp only [Emit.loop, gives_bind, gives_freshNumber, gives_pure] at given
  obtain ⟨_, _, ⟨rfl, rfl⟩, first, _, start, test, _, decision, round, _, inner, next, _,
    advance, rfl, rfl⟩ := given
  cases cond with
  | none =>
      simp only [loopTest, gives_pure] at decision
      obtain ⟨rfl, rfl⟩ := decision
      exact .loop found kind (of_optional follow start) (follow.statement inner)
        (of_discard follow advance)
  | some cond =>
      simp only [loopTest, gives_bind, gives_testTop, gives_pure] at decision
      obtain ⟨test, _, decision, _, _, ⟨rfl, rfl⟩, rfl, rfl⟩ := decision
      have rule := loopWhile found kind (of_optional follow start) (follow.value decision)
        (follow.statement inner) (of_discard follow advance)
      simpa only [leaveLines, loopLines, List.append_assoc] using rule

/-- The generator of statements follows the rules if those of children do. -/
theorem of_statement
    (follow : again.Follow context)
    {id : NodeId}
    (given : Gives (Emit.statement context again id) state code after) :
    Emits context (.statement id) state code after := by
  simp only [Emit.statement, gives_bind, gives_lift, lookupNode_eq_ok] at given
  obtain ⟨node, _, ⟨found, rfl⟩, given⟩ := given
  split at given
  case h_1 cond onTrue onFalse kind =>
    simp only [gives_bind, gives_pure] at given
    obtain ⟨_, _, inner, rfl, rfl⟩ := given
    exact of_branch follow found kind inner
  case h_2 init cond step body kind =>
    simp only [gives_bind, gives_pure] at given
    obtain ⟨_, _, inner, rfl, rfl⟩ := given
    exact of_loop follow found kind inner
  case h_3 body kind =>
    simp only [gives_bind, gives_pure] at given
    obtain ⟨_, _, inner, rfl, rfl⟩ := given
    exact .block found kind (of_statements follow inner)
  case h_4 result kind =>
    simp only [gives_bind, gives_pure] at given
    obtain ⟨_, _, inner, rfl, rfl⟩ := given
    exact .ret found kind (of_discard follow inner)
  case h_5 expr kind =>
    simp only [gives_bind, gives_pure] at given
    obtain ⟨_, _, inner, rfl, rfl⟩ := given
    exact .exprStmt found kind (of_discard follow inner)
  case h_6 label kind =>
    simp only [gives_pure] at given
    obtain ⟨rfl, rfl⟩ := given
    exact .goto found kind
  case h_7 name body kind =>
    simp only [gives_bind, gives_pure] at given
    obtain ⟨_, _, inner, rfl, rfl⟩ := given
    exact .label found kind (follow.statement inner)
  all_goals simp at given

/-- Generators for nodes nested to any depth follow the rules. -/
theorem of_routines (context : Context) (depth : Nat) :
    (routines context depth).Follow context := by
  induction depth with
  | zero =>
      constructor <;> (intro _ _ _ _ given; cases given)
  | succ depth hypothesis =>
      exact ⟨of_address hypothesis, of_value hypothesis, of_statement hypothesis⟩

end Emits

end Emit
end MiniC
