import MiniC.Proofs.Emit.Emission

/-!
# How generators fail

`ErrorsIn allowed generator` says that whatever error a generator ends in is allowed.
The rules follow the way generators are put together, so that a statement about all
errors of the generators for nodes is an induction over the depth of the nodes.

The last statement is an application: none of the generators for nodes reports an
unbalanced stack.
-/

namespace MiniC
namespace Emit

open Asm

/-- Every error of a reading of the program is allowed. -/
def FailsIn {α : Type} (allowed : Error -> Prop) (read : Except Error α) : Prop :=
  ∀ error, read = .error error -> allowed error

namespace FailsIn

variable {α β : Type} {allowed : Error -> Prop}

theorem ok (value : α) : FailsIn allowed (.ok value) := by
  intro error failed
  cases failed

/-- An allowed error may be what a reading ends in. -/
theorem error {error : Error} (fine : allowed error) :
    FailsIn (α := α) allowed (.error error) := by
  intro other failed
  cases failed
  exact fine

/-- A reading made of two fails in the first, or in the second behind the result of the
first. -/
theorem bind
    {first : Except Error α}
    {next : α -> Except Error β}
    (head : FailsIn allowed first)
    (tail : ∀ value, first = .ok value -> FailsIn allowed (next value)) :
    FailsIn allowed (first >>= next) := by
  cases first with
  | error other => exact error (head other rfl)
  | ok value => exact tail value rfl

/-- Readings for the entries of a list fail as one of them does. -/
theorem mapM
    {read : α -> Except Error β}
    {list : List α}
    (each : ∀ entry ∈ list, FailsIn allowed (read entry)) :
    FailsIn allowed (list.mapM read) := by
  induction list with
  | nil => exact ok _
  | cons entry rest hypothesis =>
      rw [List.mapM_cons]
      refine bind (each entry List.mem_cons_self) fun _ _ => ?_
      refine bind (hypothesis fun other member => ?_) fun _ _ => ok _
      exact each other (List.mem_cons_of_mem entry member)

end FailsIn

/-- Every error of a generator is allowed. -/
def ErrorsIn {α : Type} (allowed : Error -> Prop) (generator : Generator α) : Prop :=
  ∀ state error, generator state = .error error -> allowed error

namespace ErrorsIn

variable {α β : Type} {allowed : Error -> Prop}

theorem pure (value : α) : ErrorsIn allowed (pure value) := by
  intro state error failed
  cases failed

/-- An allowed error may be what a generator ends in. -/
theorem throw {error : Error} (fine : allowed error) :
    ErrorsIn (α := α) allowed (throw error) := by
  intro state other failed
  cases failed
  exact fine

/-- A generator made of two fails in the first, or in the second behind a run of the
first. -/
theorem cases_bind
    {first : Generator α}
    {next : α -> Generator β}
    {state : State}
    {error : Error}
    (failed : (first >>= next) state = .error error) :
    first state = .error error ∨
      ∃ value middle, Gives first state value middle ∧ next value middle =
        .error error := by
  change StateT.bind first next state = _ at failed
  unfold StateT.bind at failed
  cases run : first state with
  | error other =>
      rw [run] at failed
      cases failed
      exact .inl rfl
  | ok pair =>
      rw [run] at failed
      exact .inr ⟨pair.1, pair.2, run, failed⟩

/-- A generator made of two fails only as one of them does. -/
theorem bind
    {first : Generator α}
    {next : α -> Generator β}
    (head : ErrorsIn allowed first)
    (tail : ∀ value, ErrorsIn allowed (next value)) :
    ErrorsIn allowed (first >>= next) := by
  intro state error failed
  rcases cases_bind failed with early | ⟨value, middle, _, late⟩
  · exact head state error early
  · exact tail value middle error late

/-- A generator behind something read from the program. -/
theorem read
    {found : Except Error α}
    {next : α -> Generator β}
    (head : FailsIn allowed found)
    (tail : ∀ value, found = .ok value -> ErrorsIn allowed (next value)) :
    ErrorsIn allowed (liftM found >>= next) := by
  cases found with
  | error other =>
      intro state error failed
      cases failed
      exact head _ rfl
  | ok value => exact tail value rfl

/-- Generators for the entries of a list fail as one of them does. -/
theorem mapM
    {generate : α -> Generator β}
    {list : List α}
    (each : ∀ entry ∈ list, ErrorsIn allowed (generate entry)) :
    ErrorsIn allowed (list.mapM generate) := by
  induction list with
  | nil => exact pure _
  | cons entry rest hypothesis =>
      rw [List.mapM_cons]
      refine bind (each entry List.mem_cons_self) fun _ => ?_
      refine bind (hypothesis fun other member => ?_) fun _ => pure _
      exact each other (List.mem_cons_of_mem entry member)

/-- Pushing a result does not fail. -/
theorem push : ErrorsIn allowed push := by
  intro state error failed
  cases failed

theorem pop (reg : Reg) : ErrorsIn allowed (pop reg) := by
  intro state error failed
  cases failed

/-- There is always a fresh number for labels. -/
theorem freshNumber : ErrorsIn allowed freshNumber := by
  intro state error failed
  cases failed

/-- Instructions on the topmost word do not fail. -/
theorem onTop (list : List Instr) : ErrorsIn allowed (onTop list) := by
  intro state error failed
  cases failed

theorem testTop : ErrorsIn allowed testTop := by
  intro state error failed
  cases failed

/-- Loading an object of any type does not fail. -/
theorem load (ty : Ty) : ErrorsIn allowed (load ty) := by
  unfold Emit.load
  split
  · exact pure _
  · exact onTop _

/-- Storing an object of any type does not fail. -/
theorem store (ty : Ty) : ErrorsIn allowed (store ty) := by
  intro state error failed
  cases failed

/-- Converting between any two types does not fail. -/
theorem convert (source target : Ty) : ErrorsIn allowed (convert source target) := by
  unfold Emit.convert
  split
  · exact pure _
  · split
    · exact onTop _
    · split
      · exact onTop _
      · exact pure _

/-- A call is padded by the height of the stack, which does not fail. -/
theorem alignedCall (name : String) : ErrorsIn allowed (alignedCall name) := by
  intro state error failed
  obtain ⟨_, run⟩ : ∃ result, Emit.alignedCall name state = .ok result :=
    ⟨_, Emits.gives_alignedCall name |>.mpr ⟨rfl, rfl⟩⟩
  rw [run] at failed
  cases failed

/-- Several generators fail as one of them does. -/
theorem sequence
    {generate : NodeId -> Generator Code}
    {ids : List NodeId}
    (each : ∀ id ∈ ids, ErrorsIn allowed (generate id)) :
    ErrorsIn allowed (sequence generate ids) := by
  induction ids with
  | nil => exact pure _
  | cons id rest hypothesis =>
      refine bind (each id List.mem_cons_self) fun _ => ?_
      refine bind (hypothesis fun other member => ?_) fun _ => pure _
      exact each other (List.mem_cons_of_mem id member)

/-- A generator for a node that may be missing fails as that for the node does. -/
theorem whenPresent
    {generate : NodeId -> Generator Code}
    {id : Option NodeId}
    (each : ∀ present, id = some present -> ErrorsIn allowed (generate present)) :
    ErrorsIn allowed (whenPresent generate id) := by
  cases id with
  | none => exact pure _
  | some present => exact each present rfl

/-- Popping arguments fails only for want of registers. -/
theorem popArguments
    {count : Nat}
    (registers : ∀ index, index < count -> FailsIn allowed (argumentRegister index)) :
    ErrorsIn allowed (popArguments count) := by
  induction count with
  | zero => exact pure _
  | succ count hypothesis =>
      refine read (registers count (Nat.lt_succ_self count)) fun _ _ => ?_
      refine bind (pop _) fun _ => bind (hypothesis fun index below => ?_) fun _ => pure _
      exact registers index (by omega)

end ErrorsIn

section Constructs

variable {allowed : Error -> Prop} {again : Routines}

namespace ErrorsIn

/-- An operator that may skip its right operand fails only as its operands do. -/
theorem shortCircuit
    {jump : Label -> Instr}
    {role : Role}
    {decided undecided : Int}
    {lhs rhs : NodeId}
    (left : ErrorsIn allowed (again.value lhs))
    (right : ErrorsIn allowed (again.value rhs)) :
    ErrorsIn allowed (shortCircuit again jump role decided undecided lhs rhs) := by
  refine bind freshNumber fun _ => bind left fun _ => bind testTop fun _ => ?_
  exact bind right fun _ => bind testTop fun _ => bind push fun _ => pure _

/-- A value that is thrown away fails only as it does itself. -/
theorem discard
    {id : NodeId}
    (inner : ErrorsIn allowed (again.value id)) :
    ErrorsIn allowed (discard again id) :=
  bind inner fun _ => bind (pop _) fun _ => pure _

/-- A branch fails only as its condition or one of its statements does. -/
theorem branch
    {cond onTrue : NodeId}
    {onFalse : Option NodeId}
    (decision : ErrorsIn allowed (again.value cond))
    (taken : ErrorsIn allowed (again.statement onTrue))
    (other : ∀ id, onFalse = some id -> ErrorsIn allowed (again.statement id)) :
    ErrorsIn allowed (branch again cond onTrue onFalse) := by
  refine bind freshNumber fun _ => bind decision fun _ => bind testTop fun _ => ?_
  exact bind taken fun _ => bind (whenPresent other) fun _ => pure _

/-- A loop fails only as one of its parts does. -/
theorem loop
    {init cond step : Option NodeId}
    {body : NodeId}
    (start : ∀ id, init = some id -> ErrorsIn allowed (again.statement id))
    (decision : ∀ id, cond = some id -> ErrorsIn allowed (again.value id))
    (inner : ErrorsIn allowed (again.statement body))
    (advance : ∀ id, step = some id -> ErrorsIn allowed (again.value id)) :
    ErrorsIn allowed (loop again init cond step body) := by
  have test (number : Nat) : ErrorsIn allowed (loopTest again number cond) := by
    cases cond with
    | none => exact pure _
    | some id => exact bind (decision id rfl) fun _ => bind testTop fun _ => pure _
  refine bind freshNumber fun _ => bind (whenPresent start) fun _ =>
    bind (test _) fun _ => ?_
  refine bind inner fun _ => bind (whenPresent fun id present => ?_) fun _ => pure _
  exact discard (advance id present)

/-- A call fails only as one of its arguments does, or if there are too many, or if its
function is missing. -/
theorem call
    {context : Context}
    {function : SymbolId}
    {args : List NodeId}
    {ty : Ty}
    (values : ∀ id ∈ args, ErrorsIn allowed (again.value id))
    (registers : ∀ index, index < args.length -> FailsIn allowed (argumentRegister index))
    (declared : FailsIn allowed (context.program.lookupSymbol function)) :
    ErrorsIn allowed (call context again function args ty) := by
  refine bind (sequence values) fun _ => bind (popArguments registers) fun _ => ?_
  refine read declared fun symbol _ => bind (alignedCall symbol.name) fun _ => ?_
  exact bind push fun _ => pure _

/-- The address of a variable fails if it is missing or has no place. -/
theorem variableAddress
    {context : Context}
    {id : SymbolId}
    (declared : FailsIn allowed (context.program.lookupSymbol id))
    (placed : ∀ symbol offset, context.program.symbol? id = some symbol ->
      symbol.kind = .localVar offset ->
        FailsIn allowed (frameOffset context.program id)) :
    ErrorsIn allowed (variableAddress context id) := by
  refine read declared fun symbol found => ?_
  rw [lookupSymbol_eq_ok] at found
  split
  · rename_i offset kind
    exact read (placed symbol offset found kind) fun _ _ => bind push fun _ => pure _
  · exact bind push fun _ => pure _

/-- A statement expression fails if its last statement has no value. -/
theorem statementExpression
    {context : Context}
    {body : List NodeId}
    (nonempty : body = [] -> allowed (.internal .emptyStatementExpression))
    (found : ∀ last, body.getLast? = some last ->
      FailsIn allowed (context.program.lookupNode last))
    (statements : ∀ id ∈ body.dropLast, ErrorsIn allowed (again.statement id))
    (value : ∀ last node expr, body.getLast? = some last ->
      context.program.node? last = some node -> node.kind = .exprStmt expr ->
      ErrorsIn allowed (again.value expr))
    (valueless : ∀ last node, body.getLast? = some last ->
      context.program.node? last = some node -> (∀ expr, node.kind ≠ .exprStmt expr) ->
      allowed (.internal .valuelessStatementExpression)) :
    ErrorsIn allowed (statementExpression context again body) := by
  unfold Emit.statementExpression
  split
  · rename_i empty
    exact throw (nonempty (by simpa using empty))
  · rename_i last present
    refine bind (sequence statements) fun _ => read (found last present)
      fun node there => ?_
    rw [lookupNode_eq_ok] at there
    split
    · rename_i expr kind
      exact bind (value last node expr present there kind) fun _ => pure _
    · rename_i other
      exact throw (valueless last node present there other)

end ErrorsIn
end Constructs

/-! ## No generator for nodes reports an unbalanced stack -/

/-- Errors other than an unbalanced stack. -/
def IsNoImbalance (error : Error) : Prop :=
  ∀ function depth, error ≠ .internal (.unbalancedStack function depth)

section NoImbalance

variable (program : Program)

/-- A missing node is another error than an unbalanced stack. -/
theorem lookupNode_noImbalance (id : NodeId) :
    FailsIn IsNoImbalance (program.lookupNode id) := by
  unfold Program.lookupNode
  split
  · exact .ok _
  · exact .error (by simp [IsNoImbalance])

/-- A missing symbol is another error than an unbalanced stack. -/
theorem lookupSymbol_noImbalance (id : SymbolId) :
    FailsIn IsNoImbalance (program.lookupSymbol id) := by
  unfold Program.lookupSymbol
  split
  · exact .ok _
  · exact .error (by simp [IsNoImbalance])

/-- A missing type is another error than an unbalanced stack. -/
theorem lookupTy_noImbalance (id : TyId) :
    FailsIn IsNoImbalance (program.lookupTy id) := by
  unfold Program.lookupTy
  split
  · exact .ok _
  · exact .error (by simp [IsNoImbalance])

theorem nodeTy_noImbalance (id : NodeId) : FailsIn IsNoImbalance (program.nodeTy id) := by
  refine .bind (.bind (lookupNode_noImbalance program id) fun node _ => ?_)
    fun ty _ => lookupTy_noImbalance program ty
  split
  · exact .ok _
  · exact .error (by simp [IsNoImbalance])

/-- A missing member is another error than an unbalanced stack. -/
theorem lookupMember_noImbalance (aggregate : TyId) (index : Nat) :
    FailsIn IsNoImbalance (program.lookupMember aggregate index) := by
  refine .bind (lookupTy_noImbalance program aggregate) fun ty _ => ?_
  split
  · exact .ok _
  · exact .error (by simp [IsNoImbalance])

/-- A variable without a place is another error than an unbalanced stack. -/
theorem frameOffset_noImbalance (id : SymbolId) :
    FailsIn IsNoImbalance (frameOffset program id) := by
  refine .bind (lookupSymbol_noImbalance program id) fun symbol _ => ?_
  split
  · exact .ok _
  · exact .error (by simp [IsNoImbalance])

/-- A missing register is another error than an unbalanced stack. -/
theorem argumentRegister_noImbalance (index : Nat) :
    FailsIn IsNoImbalance (argumentRegister index) := by
  unfold argumentRegister
  split
  · exact .ok _
  · exact .error (by simp [IsNoImbalance])

end NoImbalance

/-- Generators for children that report no unbalanced stack. -/
structure Routines.Balanced (again : Routines) : Prop where
  address : ∀ id, ErrorsIn IsNoImbalance (again.address id)
  value : ∀ id, ErrorsIn IsNoImbalance (again.value id)
  statement : ∀ id, ErrorsIn IsNoImbalance (again.statement id)

namespace Routines.Balanced

variable {context : Context} {again : Routines}

/-- The address of a node reports no unbalanced stack if the children do not. -/
theorem of_address (children : again.Balanced) (id : NodeId) :
    ErrorsIn IsNoImbalance (Emit.address context again id) := by
  refine .read (lookupNode_noImbalance _ _) fun node _ => ?_
  split
  · exact .variableAddress (lookupSymbol_noImbalance _ _)
      fun _ _ _ _ => frameOffset_noImbalance _ _
  · exact children.value _
  · refine .read (lookupMember_noImbalance _ _ _) fun place _ => ?_
    refine .bind (children.address _) fun _ => ?_
    split
    · exact .pure _
    · exact .bind (.onTop _) fun _ => .pure _
  · exact .throw (by simp [IsNoImbalance])

/-- The value of a node reports no unbalanced stack if the children do not. -/
theorem of_value (children : again.Balanced) (id : NodeId) :
    ErrorsIn IsNoImbalance (Emit.value context again id) := by
  have value := children.value
  refine .read (lookupNode_noImbalance _ _) fun node _ => ?_
  refine .read (nodeTy_noImbalance _ _) fun ty _ => ?_
  split
  case h_1 => exact .bind .push fun _ => .pure _
  case h_2 | h_3 =>
    exact .bind (of_address children id) fun _ => .bind (.load ty) fun _ => .pure _
  case h_4 => exact .bind (value _) fun _ => .bind (.load ty) fun _ => .pure _
  case h_5 => exact children.address _
  case h_6 =>
    exact .bind (children.address _) fun _ => .bind (value _) fun _ =>
      .bind (.store ty) fun _ => .pure _
  case h_7 =>
    exact .bind (value _) fun _ => .bind (.pop _) fun _ => .bind (value _)
      fun _ => .pure _
  case h_8 =>
    exact .statementExpression (fun _ => by simp [IsNoImbalance])
      (fun _ _ => lookupNode_noImbalance _ _) (fun _ _ => children.statement _)
      (fun _ _ _ _ _ _ => value _) (fun _ _ _ _ _ => by simp [IsNoImbalance])
  case h_9 =>
    refine .bind (value _) fun _ => .read (nodeTy_noImbalance _ _) fun source _ => ?_
    exact .bind (.convert source ty) fun _ => .pure _
  case h_10 => exact .bind (value _) fun _ => .bind (.onTop _) fun _ => .pure _
  case h_11 | h_12 => exact .shortCircuit (value _) (value _)
  case h_13 =>
    exact .bind (value _) fun _ => .bind (value _) fun _ => .bind (.pop _) fun _ =>
      .bind (.onTop _) fun _ => .pure _
  case h_14 =>
    exact .call (fun _ _ => value _) (fun _ _ => argumentRegister_noImbalance _)
      (lookupSymbol_noImbalance _ _)
  all_goals exact .throw (by simp [IsNoImbalance])

/-- A statement reports no unbalanced stack if the children do not. -/
theorem of_statement (children : again.Balanced) (id : NodeId) :
    ErrorsIn IsNoImbalance (Emit.statement context again id) := by
  have value := children.value
  have statement := children.statement
  refine .read (lookupNode_noImbalance _ _) fun node _ => ?_
  split
  case h_1 =>
    exact .bind (.branch (value _) (statement _) fun id _ => statement id)
      fun _ => .pure _
  case h_2 =>
    refine .bind (.loop ?_ ?_ (statement _) ?_) fun _ => .pure _
    · exact fun id _ => statement id
    · exact fun id _ => value id
    · exact fun id _ => value id
  case h_3 => exact .bind (.sequence fun id _ => statement id) fun _ => .pure _
  case h_4 =>
    exact .bind (.whenPresent fun id _ => .discard (value id)) fun _ => .pure _
  case h_5 => exact .bind (.discard (value _)) fun _ => .pure _
  case h_6 => exact .pure _
  case h_7 => exact .bind (statement _) fun _ => .pure _
  all_goals exact .throw (by simp [IsNoImbalance])

/-- The generators for nodes of any depth report no unbalanced stack. -/
theorem of_routines (context : Context) (depth : Nat) :
    (routines context depth).Balanced := by
  induction depth with
  | zero =>
      refine ⟨?_, ?_, ?_⟩ <;> exact fun _ => .throw (by simp [IsNoImbalance])
  | succ depth hypothesis =>
      exact ⟨of_address hypothesis, of_value hypothesis, of_statement hypothesis⟩

end Routines.Balanced

end Emit
end MiniC
