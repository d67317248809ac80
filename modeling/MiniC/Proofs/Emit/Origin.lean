import MiniC.Proofs.Emit.Signs

/-!
# Where lines of generated code come from

`Origin` says what a line of the code of a tree can be, and which node of the tree gave it
its operand: jumps are to numbered labels or to labels of the function itself, a call
names the symbol of a call node, and a displacement is the place of a variable, the offset
of a member or that of a byte to be copied.

The induction over the rules of `Emits` is done here once.  What is said of all lines of a
file afterwards is a case analysis.
-/

namespace MiniC
namespace Emit

open Asm

/-- What a line of the code for a tree comes from. -/
inductive Origin (context : Context) (root : NodeId) : Line -> Prop
  | place (line : Nat) : Origin context root (.directive (.loc line))
  | landing (role : Role) (number : Nat) :
      Origin context root (.label (.numbered role number))
  | mark (name : String) : Origin context root (.label (.named context.function name))
  | simple {step}
      (simple : step.isSimple = true) :
      Origin context root (.instr step)
  | branch {step role number}
      (target : (Line.instr step).target? = some (.numbered role number)) :
      Origin context root (.instr step)
  | goto (name : String) :
      Origin context root (.instr (.jump (.named context.function name)))
  | leave : Origin context root (.instr (.jump (.exit context.function)))
  | slot {id node symbol entry offset}
      (inside : context.program.Contains root id)
      (found : context.program.node? id = some node)
      (kind : node.kind = .var symbol)
      (declared : context.program.symbol? symbol = some entry)
      (place : entry.kind = .localVar (some offset)) :
      Origin context root (.instr (.frameAddress offset))
  | member {id node base aggregate index place}
      (inside : context.program.Contains root id)
      (found : context.program.node? id = some node)
      (kind : node.kind = .member base aggregate index)
      (placed : context.program.lookupMember aggregate index = .ok place) :
      Origin context root (.instr (.addConst .rax place.offset))
  | copy {id node lhs rhs ty offset step}
      (inside : context.program.Contains root id)
      (found : context.program.node? id = some node)
      (kind : node.kind = .assign lhs rhs)
      (typed : context.program.nodeTy id = .ok ty)
      (whole : ty.isAggregate = true)
      (below : offset < ty.size.toNat)
      (copies : step = .loadByte offset ∨ step = .storeByte offset) :
      Origin context root (.instr step)
  | call {id node function args entry}
      (inside : context.program.Contains root id)
      (found : context.program.node? id = some node)
      (kind : node.kind = .call function args)
      (declared : context.program.symbol? function = some entry) :
      Origin context root (.instr (.call entry.name))
  | pad {step}
      (pads : step = .subConst .rsp 8 ∨ step = .addConst .rsp 8) :
      Origin context root (.instr step)

/-- Code all of whose lines come from a tree. -/
def Traced (context : Context) (root : NodeId) (code : Code) : Prop :=
  ∀ line ∈ code, Origin context root line

/-! ## The building blocks -/

namespace Traced

variable {context : Context} {root : NodeId} {first second : Code}

theorem nil : Traced context root [] := by
  intro line member
  cases member

/-- Two texts that come from a tree. -/
theorem append (left : Traced context root first) (right : Traced context root second) :
    Traced context root (first ++ second) := by
  intro line member
  rcases List.mem_append.mp member with inFirst | inSecond
  · exact left line inFirst
  · exact right line inSecond

theorem line {line : Line} (origin : Origin context root line) :
    Traced context root [line] := by
  intro other member
  rw [List.mem_singleton.mp member]
  exact origin

/-- Instructions without an operand from the tree come from any tree. -/
theorem instrs {list : List Instr} (simple : ∀ step ∈ list, step.isSimple = true) :
    Traced context root (instrs list) := by
  intro line member
  obtain ⟨step, listed, rfl⟩ := List.mem_map.mp member
  exact .simple (simple step listed)

theorem push : Traced context root (Emit.instrs [.push .rax]) := line (.simple rfl)

theorem pop (reg : Reg) : Traced context root (Emit.instrs [.pop reg]) :=
  line (.simple rfl)

theorem set (value : Int) : Traced context root (Emit.instrs [.set .rax value]) :=
  line (.simple rfl)

/-- Instructions on the topmost word come from the tree if they do. -/
theorem top {list : List Instr} (inner : Traced context root (Emit.instrs list)) :
    Traced context root (topLines list) :=
  ((pop .rax).append inner).append push

/-- The test of the topmost word comes from any tree. -/
theorem test : Traced context root testLines :=
  (pop .rax).append (line (.simple rfl))

/-- A numbered label comes from any tree. -/
theorem define (role : Role) (number : Nat) : Traced context root (define role number) :=
  line (.landing role number)

/-- Loading an object takes no operand from the tree. -/
theorem load (ty : Ty) : Traced context root (loadLines ty) := by
  unfold loadLines
  split
  · exact nil
  · exact top (line (.simple rfl))

/-- Converting a value takes no operand from the tree. -/
theorem convert (source target : Ty) :
    Traced context root (convertLines source target) := by
  unfold convertLines
  split
  · exact nil
  · split
    · exact top (instrs (by simp [truth, Instr.isSimple]))
    · split
      · exact top (instrs (isSimple_extend _))
      · exact nil

/-- Arguments are popped into registers. -/
theorem pops (regs : List Reg) : Traced context root (popLines regs) :=
  instrs (by simp [Instr.isSimple])

/-- A member is reached by adding its offset. -/
theorem offset
    {id base : NodeId}
    {node : Node}
    {aggregate : TyId}
    {index : Nat}
    {place : Member}
    (inside : context.program.Contains root id)
    (found : context.program.node? id = some node)
    (kind : node.kind = .member base aggregate index)
    (placed : context.program.lookupMember aggregate index = .ok place) :
    Traced context root (offsetLines place.offset) := by
  unfold offsetLines
  split
  · exact nil
  · exact top (line (.member inside found kind placed))

/-- What is assigned is stored at once, or byte by byte if it is an aggregate. -/
theorem store
    {id lhs rhs : NodeId}
    {node : Node}
    {ty : Ty}
    (inside : context.program.Contains root id)
    (found : context.program.node? id = some node)
    (kind : node.kind = .assign lhs rhs)
    (typed : context.program.nodeTy id = .ok ty) :
    Traced context root (storeLines ty) := by
  refine (((pop .rdi).append (pop .rax)).append ?_).append push
  intro line member
  obtain ⟨step, listed, rfl⟩ := List.mem_map.mp member
  rcases List.mem_append.mp listed with stores | moves
  · unfold storeInstrs at stores
    split at stores
    · rename_i whole
      obtain ⟨offset, inRange, copies⟩ := List.mem_flatMap.mp stores
      exact .copy inside found kind typed whole (List.mem_range.mp inRange)
        (by simpa using copies)
    · rw [List.mem_singleton.mp stores]
      exact .simple rfl
  · rw [List.mem_singleton.mp moves]
    exact .simple rfl

/-- A call names the symbol of its node and may be padded. -/
theorem call
    {id : NodeId}
    {node : Node}
    {function : SymbolId}
    {args : List NodeId}
    {entry : Symbol}
    (inside : context.program.Contains root id)
    (found : context.program.node? id = some node)
    (kind : node.kind = .call function args)
    (declared : context.program.symbol? function = some entry)
    (depth : Int) :
    Traced context root (callLines depth entry.name) := by
  have called : Traced context root (Emit.instrs [.set .rax 0, .call entry.name]) :=
    (set 0).append (line (.call inside found kind declared))
  unfold callLines
  split
  · exact called
  · exact ((line (.pad (.inl rfl))).append called).append (line (.pad (.inr rfl)))

/-- A conditional jump is to a numbered label. -/
theorem branch {step : Instr} {role : Role} {number : Nat}
    (target : (Line.instr step).target? = some (.numbered role number)) :
    Traced context root (Emit.instrs [step]) :=
  line (.branch target)

/-- The end of a loop is a jump to a numbered label. -/
theorem leave (number : Nat) : Traced context root (leaveLines number) :=
  test.append (branch rfl)

/-- An operator that may skip its right operand comes from a tree if its operands do. -/
theorem shortCircuit
    {jump : Label -> Instr}
    {role : Role}
    (decided undecided : Int)
    (number : Nat)
    (target : (Line.instr (jump (.numbered role number))).target? =
      some (.numbered role number))
    (left : Traced context root first)
    (right : Traced context root second) :
    Traced context root
      (shortCircuitLines jump role decided undecided number first second) := by
  have stops : Traced context root (Emit.instrs [.jump (.numbered .stop number)]) :=
    branch rfl
  have firstTested := (left.append test).append (branch target)
  have bothTested := ((firstTested.append right).append test).append (branch target)
  have unsettled := bothTested.append ((set undecided).append stops)
  exact (((unsettled.append (define _ _)).append (set decided)).append
    (define _ _)).append push

/-- A branch comes from a tree if its parts do. -/
theorem branches
    {test : Code}
    (number : Nat)
    (decision : Traced context root test)
    (taken : Traced context root first)
    (other : Traced context root second) :
    Traced context root (branchLines number test first second) := by
  have fails :
      Traced context root (Emit.instrs [.jumpEq (.numbered .otherwise number)]) :=
    branch rfl
  have stops : Traced context root (Emit.instrs [.jump (.numbered .stop number)]) :=
    branch rfl
  have passed := (((decision.append .test).append fails).append taken).append stops
  exact ((passed.append (define _ _)).append other).append (define _ _)

/-- A loop comes from a tree if its parts do. -/
theorem loop
    {test round : Code}
    (number : Nat)
    (start : Traced context root first)
    (decision : Traced context root test)
    (inner : Traced context root round)
    (advance : Traced context root second) :
    Traced context root (loopLines number first test round second) := by
  have again : Traced context root (Emit.instrs [.jump (.numbered .start number)]) :=
    branch rfl
  have rounds :=
    (((start.append (define .start number)).append decision).append inner).append advance
  exact (rounds.append again).append (define _ _)

end Traced

/-! ## Generated code -/

/-- The nodes that a task asks for belong to a tree. -/
def Task.Within (program : Program) (root : NodeId) (task : Task) : Prop :=
  ∀ id ∈ task.spots.map (·.id), program.Contains root id

/-- The children of a node that belongs to a tree belong to it too. -/
theorem Task.Within.below
    {program : Program}
    {root id : NodeId}
    {node : Node}
    {kind : NodeKind}
    {task inner : Task}
    (within : task.Within program root)
    (found : program.node? id = some node)
    (isKind : node.kind = kind)
    (asked : id ∈ task.spots.map (·.id) := by simp [Task.spots])
    (children : ∀ child ∈ inner.spots.map (·.id), child ∈ kind.children := by
      simp +contextual [Task.spots, NodeKind.children]) :
    inner.Within program root :=
  fun child member => (within id asked).child found (isKind ▸ children child member)

/-- A part of what a task asks for belongs to the tree too. -/
theorem Task.Within.part
    {program : Program}
    {root : NodeId}
    {task inner : Task}
    (within : task.Within program root)
    (asked : ∀ id ∈ inner.spots.map (·.id), id ∈ task.spots.map (·.id) := by
      simp +contextual [Task.spots]) :
    inner.Within program root :=
  fun id member => within id (asked id member)

/-- All lines of generated code come from the tree it is generated for. -/
theorem Emits.traced
    {context : Context}
    {task : Task}
    {state after : State}
    {code : Code}
    {root : NodeId}
    (emitted : Emits context task state code after)
    (within : task.Within context.program root) :
    Traced context root code := by
  induction emitted with
  | localAddress found kind declared place =>
      have inside := within _ List.mem_cons_self
      exact (Traced.line (.slot inside found kind declared place)).append .push
  | globalAddress => exact (Traced.line (.simple rfl)).append .push
  | derefAddress found kind _ hypothesis | addr found _ kind _ hypothesis =>
      exact hypothesis (within.below found kind)
  | memberAddress found kind placed _ hypothesis =>
      have inside := within _ List.mem_cons_self
      exact (hypothesis (within.below found kind)).append
        (.offset inside found kind placed)
  | num => exact (Traced.set _).append .push
  | object _ _ _ _ hypothesis => exact (hypothesis within).append (.load _)
  | deref found _ kind _ hypothesis =>
      exact (hypothesis (within.below found kind)).append (.load _)
  | assign found typed kind _ _ left right =>
      have inside := within _ List.mem_cons_self
      have place := left (within.below found kind)
      have value := right (within.below found kind)
      exact (place.append value).append (.store inside found kind typed)
  | comma found _ kind _ _ left right =>
      have first := left (within.below found kind)
      have second := right (within.below found kind)
      exact (first.append (.pop .rax)).append second
  | stmtExpr found _ kind ending lastFound lastKind _ _ before value =>
      -- The value is that of the expression in the last statement.
      have statement : Task.Within context.program root (.statement _) :=
        within.below found kind (by simp [Task.spots])
          (by simpa [Task.spots, NodeKind.children] using List.mem_of_getLast? ending)
      have init := before (within.below found kind (by simp [Task.spots]) (by
        simpa [Task.spots, NodeKind.children] using
          fun _ member => List.dropLast_subset _ member))
      exact init.append (value (statement.below lastFound lastKind))
  | cast found _ kind _ _ hypothesis =>
      exact (hypothesis (within.below found kind)).append (.convert _ _)
  | unary found _ kind _ hypothesis =>
      exact (hypothesis (within.below found kind)).append
        (.top (.instrs (isSimple_unaryOperation _ _)))
  | logAnd found _ kind _ _ left right | logOr found _ kind _ _ left right =>
      exact .shortCircuit _ _ _ rfl (left (within.below found kind))
        (right (within.below found kind))
  | binary found _ kind _ _ _ _ left right =>
      have first := left (within.below found kind)
      have second := right (within.below found kind)
      exact ((first.append second).append (.pop .rdi)).append
        (.top (.instrs (isSimple_operation _ _)))
  | call found _ kind _ declared _ hypothesis =>
      have inside := within _ List.mem_cons_self
      have values := hypothesis (within.below found kind)
      exact (((values.append (.pops _)).append
        (.call inside found kind declared _)).append
        (.instrs (isSimple_narrow _))).append .push
  | noValues | discardNone | optionalNone | noStatements => exact .nil
  | moreValues _ _ head tail | moreStatements _ _ head tail =>
      exact (head within.part).append (tail within.part)
  | discardSome _ hypothesis => exact (hypothesis within).append (.pop .rax)
  | branch found kind _ _ _ decision taken other =>
      have test := decision (within.below found kind)
      have first := taken (within.below found kind)
      have second := other (within.below found kind)
      exact (Traced.line (.place _)).append (.branches _ test first second)
  | loop found kind _ _ _ start inner advance =>
      have first := start (within.below found kind)
      have round := inner (within.below found kind)
      have next := advance (within.below found kind)
      exact (Traced.line (.place _)).append (.loop _ first .nil round next)
  | loopWhile found kind _ _ _ _ start decision inner advance =>
      have first := start (within.below found kind)
      have test := decision (within.below found kind)
      have round := inner (within.below found kind)
      have next := advance (within.below found kind)
      exact (Traced.line (.place _)).append
        (.loop _ first (test.append (.leave _)) round next)
  | block found kind _ hypothesis | exprStmt found kind _ hypothesis =>
      exact (Traced.line (.place _)).append (hypothesis (within.below found kind))
  | ret found kind _ hypothesis =>
      have inner := hypothesis (within.below found kind)
      exact ((Traced.line (.place _)).append inner).append (Traced.line .leave)
  | goto => exact (Traced.line (.place _)).append (Traced.line (.goto _))
  | label found kind _ hypothesis =>
      have inner := hypothesis (within.below found kind)
      exact ((Traced.line (.place _)).append (Traced.line (.mark _))).append inner
  | optionalSome _ hypothesis => exact hypothesis within

/-! ## Texts of functions -/

/-- What a line of the text of a function comes from. -/
inductive TextOrigin (program : Program) (definition : Program.Definition) : Line -> Prop
  | data {line}
      (data : isData line = true) :
      TextOrigin program definition line
  | simple {step}
      (simple : step.isSimple = true) :
      TextOrigin program definition (.instr step)
  | exit : TextOrigin program definition (.label (.exit definition.symbol.name))
  | reserve
      (positive : 0 < definition.function.stackSize) :
      TextOrigin program definition
        (.instr (.subConst .rsp definition.function.stackSize))
  | spill {param symbol offset reg width}
      (member : param ∈ definition.function.params)
      (declared : program.symbol? param = some symbol)
      (place : symbol.kind = .localVar (some offset)) :
      TextOrigin program definition (.instr (.storeFrame offset reg width))
  | body {line}
      (origin : Origin ⟨program, definition.symbol.name⟩ definition.body line) :
      TextOrigin program definition line

section Texts

variable {program : Program} {definition : Program.Definition}

/-- A line of the beginning of a function names its frame, its label or a parameter. -/
theorem textOrigin_of_mem_prologue
    {start : Code}
    (given : prologue program definition = .ok start)
    {line : Line}
    (member : line ∈ start) :
    TextOrigin program definition line := by
  obtain ⟨spills, spilled, rfl⟩ := prologue_lines given
  rcases List.mem_append.mp member with entry | spill
  · rcases List.mem_append.mp entry with first | framed
    · simp only [List.mem_cons, List.not_mem_nil, or_false, visibility] at first
      rcases first with rfl | rfl | rfl <;> exact .data rfl
    · obtain ⟨step, listed, rfl⟩ := List.mem_map.mp framed
      simp only [List.cons_append, List.nil_append, List.mem_cons] at listed
      rcases listed with rfl | rfl | reserves
      · exact .simple rfl
      · exact .simple rfl
      · unfold reserve at reserves
        split at reserves
        · rw [List.mem_singleton.mp reserves]
          exact .reserve ‹_›
        · cases reserves
  · obtain ⟨param, listed, symbol, offset, reg, width, declared, place, rfl⟩ :=
      spillFrom_places spilled line spill
    exact .spill listed declared place

/-- A line of the end of a function names its label at most. -/
theorem textOrigin_of_mem_epilogue
    {line : Line}
    (member : line ∈ epilogue definition.symbol.name) :
    TextOrigin program definition line := by
  unfold epilogue at member
  rcases List.mem_append.mp member with before | after
  · rcases List.mem_append.mp before with result | exit
    · split at result
      · rw [List.mem_singleton.mp result]
        exact .simple rfl
      · cases result
    · rw [List.mem_singleton.mp exit]
      exact .exit
  · simp only [instrs, List.map_cons, List.map_nil, List.mem_cons, List.not_mem_nil,
      or_false] at after
    rcases after with rfl | rfl | rfl <;> exact .simple rfl

/-- Every line of the text of a function comes from its prologue, its tree or its
epilogue. -/
theorem Placement.textOrigin
    {lines : Code}
    (place : Placement program lines)
    {line : Line}
    (member : line ∈ place.text) :
    TextOrigin program place.definition line := by
  rcases List.mem_append.mp member with before | last
  · rcases List.mem_append.mp before with first | inner
    · exact textOrigin_of_mem_prologue place.entry first
    · obtain ⟨_, _, emitted⟩ := place.inner
      have within :
          Task.Within program place.definition.body
            (.statement place.definition.body) := by
        intro id asked
        rw [List.mem_singleton.mp asked]
        exact .refl
      exact .body (emitted.traced within line inner)
  · exact textOrigin_of_mem_epilogue last

end Texts

end Emit
end MiniC
