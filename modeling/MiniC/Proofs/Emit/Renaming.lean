import MiniC.Emit.Program
import MiniC.Proofs.Program.Renaming

/-!
# The code of a renamed program

The code of a program does not depend on the places of its types and nodes in their
tables.  A program that another one renames has the same code as that one, or neither has
any.  Of the places in the source text only the lines of statements show in the code, and
these are the same.
-/

namespace MiniC
namespace Emit

open Asm

variable {α β γ : Type} {names : Renaming}

/-! ## Types -/

section

variable (names) (ty : Ty)

/-- Values are narrowed to the width of their type. -/
@[simp] theorem narrow_carry : narrow (carry names ty) = narrow ty := by
  obtain ⟨kind, _, _, _⟩ := ty
  cases kind <;> rfl

@[simp] theorem operation_carry (op : BinaryOp) :
    operation op (carry names ty) = operation op ty := by
  unfold operation
  rw [narrow_carry]

@[simp] theorem unaryOperation_carry (op : UnaryOp) :
    unaryOperation op (carry names ty) = unaryOperation op ty := by
  unfold unaryOperation
  rw [narrow_carry]

/-- Values are loaded by the width of their type. -/
@[simp] theorem load_carry : load (carry names ty) = load ty := by
  unfold load isByAddress
  rw [Ty.carry_isArray, Ty.carry_isAggregate, Ty.carry_isFunction, Ty.carry_size]

/-- So are they stored. -/
@[simp] theorem store_carry : store (carry names ty) = store ty := by
  unfold store
  rw [Ty.carry_isAggregate, Ty.carry_size]

/-- So are they converted. -/
@[simp] theorem convert_carry (source : Ty) :
    convert (carry names source) (carry names ty) = convert source ty := by
  unfold convert
  rw [Ty.carry_isVoid, Ty.carry_width, Ty.carry_width]
  simp only [Ty.carry_isBool]

end

/-! ## Generators -/

/-- Results that are the same, unless there are none. -/
def Agrees (result other : Except Error α) : Prop := other.toOption = result.toOption

/-- Generators that give the same code in every state, or both fail. -/
def Equals (generator other : Generator α) :
    Prop := ∀ state, Agrees (generator state) (other state)

namespace Agrees

/-- The same result is a result that agrees. -/
theorem of_eq {result other : Except Error α} (same : other = result) :
    Agrees result other :=
  congrArg Except.toOption same

theorem of_error (error also : Error) :
    Agrees (.error error : Except Error α) (.error also) := rfl

/-- Results of which no more is used than what is the same under other references. -/
theorem bind [Carried α] {first other : Except Error α}
    {rest behind : α -> Except Error β} (head : Renames names True first other)
    (tail : ∀ value, Agrees (rest value) (behind (carry names value))) :
    Agrees (first >>= rest) (other >>= behind) := by
  cases known : first with
  | ok value =>
      rw [head.ok value known]
      exact tail value
  | error error =>
      obtain ⟨why, failed⟩ := head.error trivial error known
      rw [failed]
      exact of_error error why

/-- Results that are the same, of which the same is made. -/
theorem bind_same {first other : Except Error α} {rest behind : α -> Except Error β}
    (head : Agrees first other) (tail : ∀ value, Agrees (rest value) (behind value)) :
    Agrees (first >>= rest) (other >>= behind) := by
  cases first with
  | ok value =>
      cases other with
      | ok also =>
          cases Option.some.inj head
          exact tail _
      | error error => cases head
  | error error =>
      cases other with
      | ok also => cases head
      | error also => exact of_error error also

/-- A list is read alike if each entry is. -/
theorem mapM {read also : α -> Except Error β} (list : List α)
    (reads : ∀ entry, Agrees (read entry) (also entry)) :
    Agrees (list.mapM read) (list.mapM also) := by
  induction list with
  | nil => exact of_eq rfl
  | cons entry rest hypothesis =>
      rw [List.mapM_cons, List.mapM_cons]
      exact .bind_same (reads entry) fun _ => .bind_same hypothesis fun _ => of_eq rfl

end Agrees

namespace Equals

/-- A generator is the same as itself. -/
theorem refl (generator : Generator α) : Equals generator generator := fun _ => .of_eq rfl

theorem throw (error also : Error) :
    Equals (MonadExcept.throw error : Generator α) (MonadExcept.throw also) :=
  fun _ => .of_error error also

/-- Generators that are the same may be run one behind another. -/
theorem bind {first other : Generator α} {rest behind : α -> Generator β}
    (head : Equals first other) (tail : ∀ value, Equals (rest value) (behind value)) :
    Equals (first >>= rest) (other >>= behind) :=
  fun state => (head state).bind_same fun pair => tail pair.1 pair.2

/-- The same generator in front of others. -/
theorem lead (first : Generator α) {rest behind : α -> Generator β}
    (tail : ∀ value, Equals (rest value) (behind value)) :
    Equals (first >>= rest) (first >>= behind) :=
  .bind (.refl first) tail

/-- What is read of a program is used in a generator. -/
theorem run_read (found : Except Error α) (next : α -> Generator β) (state : State) :
    (liftM found >>= next) state = found >>= fun value => next value state := by
  cases found <;> rfl

/-- What is the same for two programs, in front of a generator. -/
theorem read_same {first other : Except Error α} {rest behind : α -> Generator β}
    (head : Agrees first other) (tail : ∀ value, Equals (rest value) (behind value)) :
    Equals (liftM first >>= rest) (liftM other >>= behind) := fun state => by
  rw [run_read, run_read]
  exact head.bind_same fun value => tail value state

/-- A question to a program, in front of a generator. -/
theorem read [Carried α] {first other : Except Error α} {rest behind : α -> Generator β}
    (head : Renames names True first other)
    (tail : ∀ value, Equals (rest value) (behind (carry names value))) :
    Equals (liftM first >>= rest) (liftM other >>= behind) := fun state => by
  rw [run_read, run_read]
  exact head |> Agrees.bind <| fun value => tail value state

section

variable {again beside : NodeId -> Generator Code}
  (each : ∀ id, Equals (again id) (beside (carry names id)))

include each

/-- Statements give the same lines, one behind another. -/
theorem sequence (ids : List NodeId) :
    Equals (sequence again ids) (Emit.sequence beside (carry names ids)) := by
  induction ids with
  | nil => exact .refl _
  | cons id rest hypothesis =>
      exact .bind (each id) fun _ => .bind hypothesis fun _ => .refl _

theorem whenPresent (id : Option NodeId) :
    Equals (whenPresent again id) (Emit.whenPresent beside (carry names id)) := by
  cases id with
  | none => exact .refl _
  | some present => exact each present

end

end Equals

/-- Generators for children that are equal to those for the same children under other
references. -/
structure Routines.Renames (names : Renaming) (again beside : Routines) : Prop where
  address : ∀ id, Equals (again.address id) (beside.address (carry names id))
  value : ∀ id, Equals (again.value id) (beside.value (carry names id))
  statement : ∀ id, Equals (again.statement id) (beside.statement (carry names id))

namespace Equals

section

variable {again beside : Routines} (children : again.Renames names beside)

include children

/-- A logical operator gives the same lines. -/
theorem shortCircuit (jump : Label -> Instr) (role : Role) (decided undecided : Int)
    (lhs rhs : NodeId) :
    Equals (shortCircuit again jump role decided undecided lhs rhs)
      (Emit.shortCircuit beside jump role decided undecided (carry names lhs)
        (carry names rhs)) :=
  .lead _ fun _ => .bind (children.value lhs) fun _ => .lead _ fun _ =>
    .bind (children.value rhs) fun _ => .refl _

theorem discard (id : NodeId) :
    Equals (discard again id) (Emit.discard beside (carry names id)) :=
  .bind (children.value id) fun _ => .refl _

/-- A conditional statement gives the same lines. -/
theorem branch (cond onTrue : NodeId) (onFalse : Option NodeId) :
    Equals (branch again cond onTrue onFalse)
      (Emit.branch beside (carry names cond) (carry names onTrue)
        (carry names onFalse)) :=
  .lead _ fun _ => .bind (children.value cond) fun _ => .lead _ fun _ =>
    .bind (children.statement onTrue) fun _ =>
      .bind (.whenPresent children.statement onFalse) fun _ => .refl _

theorem loopTest (number : Nat) (cond : Option NodeId) :
    Equals (loopTest again number cond)
      (Emit.loopTest beside number (carry names cond)) := by
  cases cond with
  | none => exact .refl _
  | some id => exact .bind (children.value id) fun _ => .refl _

/-- A loop gives the same lines. -/
theorem loop (init cond step : Option NodeId) (body : NodeId) :
    Equals (loop again init cond step body)
      (Emit.loop beside (carry names init) (carry names cond) (carry names step)
        (carry names body)) :=
  .lead _ fun _ => .bind (.whenPresent children.statement init) fun _ =>
    .bind (.loopTest children _ cond) fun _ => .bind (children.statement body) fun _ =>
      .bind (.whenPresent (.discard children) step) fun _ => .refl _

end

/-! ## Nodes -/

section

variable {program other : Program} (renames : program.Renames names True other)

include renames

/-- A node is looked up, of which a generator uses no more than what does not depend on
its place. -/
theorem node_bind (id : NodeId) {rest behind : Node -> Generator α}
    (tail : ∀ node also, node.Stands names also -> Equals (rest node) (behind also)) :
    Equals (liftM (program.lookupNode id) >>= rest)
      (liftM (other.lookupNode (carry names id)) >>= behind) := fun state => by
  rw [run_read, run_read]
  unfold Program.lookupNode
  cases known : program.node? id with
  | some node =>
      obtain ⟨also, there, stands⟩ := renames.found id node known
      rw [there]
      exact tail node also stands state
  | none =>
      rw [renames.missing trivial id known]
      exact .of_error _ _

/-- A local variable has the same offset. -/
theorem frameOffset (id : SymbolId) :
    Renames names True (frameOffset program id) (Emit.frameOffset other id) := by
  refine .bind (renames.lookupSymbol id) fun ⟨_, _, _, kind⟩ => ?_
  cases kind with
  | localVar offset =>
      cases offset with
      | none => exact .of_error _ _
      | some offset => exact .of_ok offset
  | _ => exact .of_error _ _

/-- A variable has the same address. -/
theorem variableAddress (name : String) (id : SymbolId) :
    Equals (variableAddress ⟨program, name⟩ id)
      (Emit.variableAddress ⟨other, name⟩ id) := by
  refine .read (renames.lookupSymbol id) fun ⟨_, _, _, kind⟩ => ?_
  cases kind with
  | localVar offset => exact .read (frameOffset renames id) fun _ => .refl _
  | _ => exact .refl _

section

variable {again beside : Routines} (children : again.Renames names beside) (name : String)

include children

/-- An lvalue gives the same lines. -/
theorem address (id : NodeId) :
    Equals (address ⟨program, name⟩ again id)
      (Emit.address ⟨other, name⟩ beside (carry names id)) := by
  refine .node_bind renames id fun ⟨kind, _, _, _⟩ ⟨_, _, _, _⟩ stands => ?_
  cases stands.kind
  cases kind with
  | var symbol => exact .variableAddress renames name symbol
  | deref operand => exact children.value operand
  | member base aggregate index =>
      exact .read (renames.lookupMember aggregate index) fun _ =>
        .bind (children.address base) fun _ => .refl _
  | _ => exact .throw _ _

/-- A call gives the same lines. -/
theorem call (callee : SymbolId) (args : List NodeId) (ty : Ty) :
    Equals (call ⟨program, name⟩ again callee args ty)
      (Emit.call ⟨other, name⟩ beside callee (carry names args) (carry names ty)) := by
  unfold Emit.call
  rw [narrow_carry, show (carry names args).length = args.length from List.length_map _]
  exact .bind (.sequence children.value args) fun _ => .lead _ fun _ =>
    .read (renames.lookupSymbol callee) fun _ => .refl _

theorem statementExpression (body : List NodeId) :
    Equals (statementExpression ⟨program, name⟩ again body)
      (Emit.statementExpression ⟨other, name⟩ beside (carry names body)) := by
  unfold Emit.statementExpression
  rw [show (carry names body).getLast? =
    body.getLast?.map (carry names) from List.getLast?_map,
    show (carry names body).dropLast =
      carry names body.dropLast from List.map_dropLast.symm]
  cases body.getLast? with
  | none => exact .throw _ _
  | some last =>
      refine .bind (.sequence children.statement _) fun _ =>
        .node_bind renames last fun ⟨kind, _, _, _⟩ ⟨_, _, _, _⟩ stands => ?_
      cases stands.kind
      cases kind with
      | exprStmt expr => exact .bind (children.value expr) fun _ => .refl _
      | _ => exact .throw _ _

theorem value (id : NodeId) :
    Equals (value ⟨program, name⟩ again id)
      (Emit.value ⟨other, name⟩ beside (carry names id)) := by
  refine .node_bind renames id fun ⟨kind, _, _, _⟩ ⟨_, _, _, _⟩ stands =>
    .read (renames.nodeTy id) fun ty => ?_
  cases stands.kind
  rw [load_carry, store_carry]
  cases kind with
  | num number => exact .refl _
  | var | member => exact .bind (.address renames children name id) fun _ => .refl _
  | deref operand => exact .bind (children.value operand) fun _ => .refl _
  | addr operand => exact children.address operand
  | assign lhs rhs =>
      exact .bind (children.address lhs) fun _ => .bind (children.value rhs)
        fun _ => .refl _
  | comma lhs rhs =>
      exact .bind (children.value lhs) fun _ => .lead _ fun _ =>
        .bind (children.value rhs) fun _ => .refl _
  | stmtExpr body => exact .statementExpression renames children name body
  | cast operand =>
      refine .bind (children.value operand) fun _ =>
        .read (renames.nodeTy operand) fun source => ?_
      rw [convert_carry]
      exact .refl _
  | unary op operand =>
      refine .bind (children.value operand) fun _ => ?_
      rw [unaryOperation_carry]
      exact .refl _
  | binary op lhs rhs =>
      cases op with
      | logAnd => exact .shortCircuit children _ _ _ _ lhs rhs
      | logOr => exact .shortCircuit children _ _ _ _ lhs rhs
      | _ =>
          refine .bind (children.value lhs) fun _ => .bind (children.value rhs) fun _ =>
            .lead _ fun _ => ?_
          rw [operation_carry]
          exact .refl _
  | call callee args => exact .call renames children name callee args ty
  | _ => exact .throw _ _

theorem statement (id : NodeId) :
    Equals (statement ⟨program, name⟩ again id)
      (Emit.statement ⟨other, name⟩ beside (carry names id)) := by
  refine .node_bind renames id fun ⟨kind, _, _, line⟩ ⟨_, _, _, alsoLine⟩ stands => ?_
  cases stands.kind
  have lines := stands.line
  cases kind with
  | branch cond onTrue onFalse =>
      cases lines rfl
      exact .bind (.branch children cond onTrue onFalse) fun _ => .refl _
  | loop init cond step body =>
      cases lines rfl
      exact .bind (.loop children init cond step body) fun _ => .refl _
  | block body =>
      cases lines rfl
      exact .bind (.sequence children.statement body) fun _ => .refl _
  | ret result =>
      cases lines rfl
      exact .bind (.whenPresent (.discard children) result) fun _ => .refl _
  | exprStmt expr =>
      cases lines rfl
      exact .bind (.discard children expr) fun _ => .refl _
  | goto label =>
      cases lines rfl
      exact .refl _
  | label label body =>
      cases lines rfl
      exact .bind (children.statement body) fun _ => .refl _
  | _ => exact .throw _ _

end

/-- The generators are equal to any depth. -/
theorem routines (name : String) (depth : Nat) :
    (routines ⟨program, name⟩ depth).Renames names
      (Emit.routines ⟨other, name⟩ depth) := by
  induction depth with
  | zero => exact ⟨fun _ => .throw _ _, fun _ => .throw _ _, fun _ => .throw _ _⟩
  | succ depth children =>
      exact ⟨.address renames children name, .value renames children name,
        .statement renames children name⟩

end

end Equals

/-! ## Declarations -/

section

variable {program other : Program} (renames : program.Renames names True other)

include renames

theorem symbolData_agrees (id : SymbolId) :
    Agrees (symbolData program id) (symbolData other id) := by
  refine .bind (renames.lookupSymbol id) fun ⟨name, ty, isStatic, kind⟩ => ?_
  cases kind with
  | globalVar init =>
      refine .bind (renames.lookupTy ty) fun entry => ?_
      cases init <;> exact .of_eq rfl
  | _ => exact .of_eq rfl

theorem spillFrom_agrees (index : Nat) (params : List SymbolId) :
    Agrees (spillFrom program index params) (spillFrom other index params) := by
  induction params generalizing index with
  | nil => exact .of_eq rfl
  | cons param rest hypothesis =>
      refine .bind (Equals.frameOffset renames param) fun offset =>
        .bind (renames.lookupSymbol param) fun symbol =>
          .bind (renames.lookupTy symbol.ty)
          fun ty => .bind_same (.of_eq rfl) fun reg => .bind_same (hypothesis (index + 1))
            fun code => .of_eq rfl

end

instance : Carried Program.Definition :=
  ⟨fun names definition =>
    { symbol := carry names definition.symbol
      function := carry names definition.function
      body := carry names definition.body }⟩

section

variable {program other : Program} (renames : program.Renames names True other)

include renames

theorem definition?_carry (id : SymbolId) :
    other.definition? id = carry names (program.definition? id) := by
  unfold Program.definition?
  rw [renames.symbol? id]
  cases program.symbol? id with
  | none => rfl
  | some symbol =>
      obtain ⟨name, ty, isStatic, kind⟩ := symbol
      cases kind with
      | function function =>
          obtain ⟨params, locals, body, stackSize⟩ := function
          cases body <;> rfl
      | _ => rfl

theorem definitions_carry : other.definitions = carry names program.definitions := by
  unfold Program.definitions
  rw [renames.globals]
  induction program.globals.toList with
  | nil => rfl
  | cons id rest hypothesis =>
      rw [List.filterMap_cons, List.filterMap_cons,
        definition?_carry renames id, hypothesis]
      cases program.definition? id <;> rfl

/-- A function has the same text. -/
theorem functionText_equals (size : other.nodes.size = program.nodes.size)
    (definition : Program.Definition) :
    Equals (functionText program definition)
      (functionText other (carry names definition)) := by
  have start :
      Agrees (prologue program definition) (prologue other (carry names definition)) :=
    .bind_same (spillFrom_agrees renames 0 _) fun _ => .of_eq rfl
  unfold functionText
  rw [size]
  exact .read_same start fun code => .lead _ fun _ =>
    .bind ((Equals.routines renames definition.symbol.name _).statement definition.body)
      fun _ => .refl _

/-- So have the functions of a file. -/
theorem texts_equal (size : other.nodes.size = program.nodes.size)
    (list : List Program.Definition) :
    Equals (list.mapM (functionText program))
      ((carry names list).mapM (functionText other)) := by
  induction list with
  | nil =>
      change Equals _ (([] : List Program.Definition).mapM _)
      rw [List.mapM_nil, List.mapM_nil]
      exact .refl _
  | cons definition rest hypothesis =>
      change Equals _ ((carry names definition :: carry names rest).mapM _)
      rw [List.mapM_cons, List.mapM_cons]
      exact .bind (functionText_equals renames size definition) fun _ =>
        .bind hypothesis fun _ => .refl _

/-- A renamed program with as many nodes has the same code, or neither has any. -/
theorem program_agrees (size : other.nodes.size = program.nodes.size) (name : String) :
    Agrees (Emit.program program name) (Emit.program other name) := by
  unfold Emit.program
  rw [renames.globals, definitions_carry renames]
  refine .bind_same (.mapM _ fun id => symbolData_agrees renames id) fun data => ?_
  exact .bind_same (texts_equal renames size program.definitions ⟨0, 0⟩)
    fun _ => .of_eq rfl

end

end Emit
end MiniC
