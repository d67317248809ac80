import MiniC.Proofs.Compile
import MiniC.Proofs.Program.Lvalues

/-!
# Exactly the lvalues have their address taken

`Asks program ids generator` says that a generator needs the addresses of some nodes in
their order and nothing else: it succeeds if they are all lvalues, and otherwise rejects
the first that is not.  The rules follow the way generators are put together, and the
addresses are appended as the code is.

On a program that comes from a file the generators for nodes ask for the addresses that
`Program.addressOrder` lists, so code is generated exactly if all targets are lvalues.
-/

namespace MiniC
namespace Emit

open Asm Grammar

/-- No error is allowed. -/
def Never (_ : Error) : Prop := False

/-- A reading that never fails gives a result. -/
theorem FailsIn.exists_ok {α : Type} {read : Except Error α}
    (total : FailsIn Never read) :
    ∃ value, read = .ok value := by
  cases run : read with
  | error error => exact (total error run).elim
  | ok value => exact ⟨value, rfl⟩

/-- A generator made of two fails if the first does. -/
theorem bind_of_error
    {α β : Type}
    {first : Generator α}
    {state : State}
    {error : Error}
    (failed : first state = .error error)
    (next : α -> Generator β) :
    (first >>= next) state = .error error := by
  change StateT.bind first next state = _
  unfold StateT.bind
  rw [failed]
  rfl

/-- A generator made of two runs the second where the first ends. -/
theorem bind_of_gives
    {α β : Type}
    {first : Generator α}
    {state middle : State}
    {value : α}
    (given : Gives first state value middle)
    (next : α -> Generator β) :
    (first >>= next) state = next value middle := by
  change StateT.bind first next state = _
  unfold StateT.bind
  rw [show first state = _ from given]
  rfl

/-- A generator that needs the addresses of nodes in their order, and nothing else. -/
def Asks (program : Program) (ids : List NodeId) {α : Type} (generator : Generator α) :
    Prop :=
  ∀ state,
    (∀ id ∈ ids, program.Lvalue id) ∧
    (∃ result after, Gives generator state result after) ∨
    ∃ id node, program.FirstNonLvalue ids id ∧ program.node? id = some node ∧
      generator state = .error (.rejected (.typing .notLvalue) node.loc)

namespace Asks

variable {program : Program} {α β : Type} {ids first second : List NodeId}

/-- A generator that never fails needs no address. -/
theorem of_never {generator : Generator α} (total : ErrorsIn Never generator) :
    Asks program [] generator := by
  intro state
  cases run : generator state with
  | error error => exact (total state error run).elim
  | ok pair => exact .inl ⟨by simp, pair.1, pair.2, run⟩

theorem bind
    {generator : Generator α}
    {next : α -> Generator β}
    (head : Asks program first generator)
    (tail : ∀ value, Asks program second (next value)) :
    Asks program (first ++ second) (generator >>= next) := by
  intro state
  rcases head state with ⟨lvalues, value, middle, given⟩ | ⟨id, node, least,
    found, failed⟩
  · have run := bind_of_gives given next
    rcases tail value middle with ⟨others, result, after, ends⟩ | ⟨id, node, least,
      found, failed⟩
    · refine .inl ⟨List.forall_mem_append.mpr ⟨lvalues, others⟩, result, after, ?_⟩
      exact run.trans ends
    · exact .inr ⟨id, node, .append_left lvalues least, found, run.trans failed⟩
  · exact .inr ⟨id, node, least.append_right second, found, bind_of_error failed next⟩

/-- A generator behind one that never fails. -/
theorem behind
    {generator : Generator α}
    {next : α -> Generator β}
    (head : ErrorsIn Never generator)
    (tail : ∀ value, Asks program ids (next value)) :
    Asks program ids (generator >>= next) :=
  bind (of_never head) tail

/-- A generator before one that never fails. -/
theorem before
    {generator : Generator α}
    {next : α -> Generator β}
    (head : Asks program ids generator)
    (tail : ∀ value, ErrorsIn Never (next value)) :
    Asks program ids (generator >>= next) := by
  rw [← List.append_nil ids]
  exact bind head fun value => of_never (tail value)

/-- A generator behind something read from the program. -/
theorem read
    {found : Except Error α}
    {next : α -> Generator β}
    (head : FailsIn Never found)
    (tail : ∀ value, found = .ok value -> Asks program ids (next value)) :
    Asks program ids (liftM found >>= next) := by
  cases found with
  | error error => exact (head error rfl).elim
  | ok value => exact tail value rfl

/-- An address that is there if those are that it is computed from. -/
theorem own
    {generator : Generator α}
    {id : NodeId}
    (asks : Asks program ids generator)
    (lvalue : (∀ other ∈ ids, program.Lvalue other) -> program.Lvalue id) :
    Asks program (ids ++ [id]) generator := by
  intro state
  rcases asks state with ⟨lvalues, given⟩ | ⟨other, node, least, found, failed⟩
  · refine .inl ⟨List.forall_mem_append.mpr ⟨lvalues, ?_⟩, given⟩
    exact List.forall_mem_singleton.mpr (lvalue lvalues)
  · exact .inr ⟨other, node, least.append_right [id], found, failed⟩

/-- A node that is no lvalue is rejected. -/
theorem throw
    {id : NodeId}
    {node : Node}
    (found : program.node? id = some node)
    (not : ¬program.Lvalue id)
    (rest : List NodeId) :
    Asks program (id :: rest)
      (throw (.rejected (.typing .notLvalue) node.loc) : Generator α) :=
  fun _ => .inr ⟨id, node, .head not rest, found, rfl⟩

/-- Generators for the entries of a list. -/
theorem mapM
    {order : α -> List NodeId}
    {generate : α -> Generator β}
    {list : List α}
    (each : ∀ entry ∈ list, Asks program (order entry) (generate entry)) :
    Asks program (list.flatMap order) (list.mapM generate) := by
  induction list with
  | nil => exact of_never (.pure _)
  | cons entry rest hypothesis =>
      rw [List.mapM_cons, List.flatMap_cons]
      refine bind (each entry List.mem_cons_self) fun _ => ?_
      refine before (hypothesis fun other member => ?_) fun _ => .pure _
      exact each other (List.mem_cons_of_mem entry member)

section Constructs

variable {order : NodeId -> List NodeId} {again : Routines}

theorem sequence
    {generate : NodeId -> Generator Code}
    {list : List NodeId}
    (each : ∀ id ∈ list, Asks program (order id) (generate id)) :
    Asks program (list.flatMap order) (sequence generate list) := by
  induction list with
  | nil => exact of_never (.pure _)
  | cons id rest hypothesis =>
      rw [List.flatMap_cons]
      refine bind (each id List.mem_cons_self) fun _ => ?_
      refine before (hypothesis fun other member => ?_) fun _ => .pure _
      exact each other (List.mem_cons_of_mem id member)

theorem whenPresent
    {generate : NodeId -> Generator Code}
    {id : Option NodeId}
    (each : ∀ present, id = some present ->
      Asks program (order present) (generate present)) :
    Asks program (id.toList.flatMap order) (whenPresent generate id) := by
  cases id with
  | none => exact of_never (.pure _)
  | some present =>
      rw [Option.toList_some, List.flatMap_singleton]
      exact each present rfl

theorem discard {id : NodeId} (inner : Asks program ids (again.value id)) :
    Asks program ids (discard again id) :=
  before inner fun _ => .bind (.pop _) fun _ => .pure _

theorem shortCircuit
    {jump : Label -> Instr}
    {role : Role}
    {decided undecided : Int}
    {lhs rhs : NodeId}
    (left : Asks program first (again.value lhs))
    (right : Asks program second (again.value rhs)) :
    Asks program (first ++ second)
      (shortCircuit again jump role decided undecided lhs rhs) := by
  refine behind .freshNumber fun _ => bind left fun _ => behind .testTop fun _ => ?_
  exact before right fun _ => .bind .testTop fun _ => .bind .push fun _ => .pure _

theorem branch
    {cond onTrue : NodeId}
    {onFalse : Option NodeId}
    {third : List NodeId}
    (decision : Asks program first (again.value cond))
    (taken : Asks program second (again.statement onTrue))
    (other : Asks program third (Emit.whenPresent again.statement onFalse)) :
    Asks program (first ++ (second ++ third)) (branch again cond onTrue onFalse) := by
  refine behind .freshNumber fun _ => bind decision fun _ => behind .testTop fun _ => ?_
  exact bind taken fun _ => before other fun _ => .pure _

theorem loop
    {init cond step : Option NodeId}
    {body : NodeId}
    (start : ∀ id, init = some id -> Asks program (order id) (again.statement id))
    (decision : ∀ id, cond = some id -> Asks program (order id) (again.value id))
    (inner : Asks program (order body) (again.statement body))
    (advance : ∀ id, step = some id -> Asks program (order id) (again.value id)) :
    Asks program ((init.toList ++ cond.toList ++ [body] ++ step.toList).flatMap order)
      (loop again init cond step body) := by
  have test (number : Nat) : Asks program (cond.toList.flatMap order)
      (loopTest again number cond) := by
    cases cond with
    | none => exact of_never (.pure _)
    | some id =>
        rw [Option.toList_some, List.flatMap_singleton]
        exact before (decision id rfl) fun _ => .bind .testTop fun _ => .pure _
  simp only [List.flatMap_append, List.flatMap_singleton, List.append_assoc]
  refine behind .freshNumber fun _ => bind (whenPresent start) fun _ =>
    bind (test _) fun _ => ?_
  refine bind inner fun _ => before (whenPresent fun id present => ?_) fun _ => .pure _
  exact discard (advance id present)

theorem call
    {context : Context}
    {function : SymbolId}
    {args : List NodeId}
    {ty : Ty}
    (values : ∀ id ∈ args, Asks program (order id) (again.value id))
    (registers : ∀ index, index < args.length -> FailsIn Never (argumentRegister index))
    (declared : FailsIn Never (context.program.lookupSymbol function)) :
    Asks program (args.flatMap order) (call context again function args ty) := by
  refine before (sequence values) fun _ => .bind (.popArguments registers) fun _ => ?_
  refine .read declared fun symbol _ => .bind (.alignedCall symbol.name) fun _ => ?_
  exact .bind .push fun _ => .pure _

/-- A statement expression is generated as its statements are, but the last one leaves its
value. -/
theorem statementExpression
    {context : Context}
    {body : List NodeId}
    {last expr : NodeId}
    {entry : Node}
    (ending : body.getLast? = some last)
    (found : context.program.node? last = some entry)
    (kind : entry.kind = .exprStmt expr)
    (statements : ∀ id ∈ body.dropLast, Asks program (order id) (again.statement id))
    (value : Asks program (order last) (again.value expr)) :
    Asks program (body.flatMap order) (statementExpression context again body) := by
  obtain ⟨front, rfl⟩ := List.getLast?_eq_some_iff.mp ending
  rw [List.dropLast_concat] at statements
  rw [List.flatMap_append, List.flatMap_singleton]
  unfold Emit.statementExpression
  rw [ending, List.dropLast_concat]
  refine bind (sequence statements) fun _ => read (.lookupNode found) fun same known => ?_
  rw [lookupNode_of_some found] at known
  cases known
  rw [kind]
  exact before value fun _ => .pure _

end Constructs
end Asks

/-! ## Nodes -/

/-- Generators that ask for the addresses of the nodes of a function. -/
structure Routines.Ask (again : Routines) (program : Program) (start stop depth : Nat) :
    Prop where
  address : ∀ id, InRegion start stop depth id -> program.IsExpression id ->
    Asks program (program.addressOrder depth .address id) (again.address id)
  value : ∀ id, InRegion start stop depth id -> program.IsExpression id ->
    Asks program (program.addressOrder depth .value id) (again.value id)
  statement : ∀ id, InRegion start stop depth id -> program.IsStatement id ->
    Asks program (program.addressOrder depth .value id) (again.statement id)

namespace Routines.Ask

variable {program : Program} {tokens : TokenStream} {start stop depth : Nat}
variable {again : Routines}

/-- The children of a node of a program that keeps the rules are there and come before
it. -/
theorem children_found
    (nodes : ∀ id node, program.node? id = some node -> program.NodeRule tokens id node)
    (id : NodeId)
    (node : Node)
    (found : program.node? id = some node) :
    ∀ child ∈ node.kind.children,
      child.index < id.index ∧ ∃ inner, program.node? child = some inner := by
  intro child member
  refine ⟨(nodes id node found).earlier child member, ?_⟩
  rcases NodeKind.mem_children.mp member with operand | part
  · obtain ⟨inner, there, -⟩ := (nodes id node found).operands child operand
    exact ⟨inner, there⟩
  · obtain ⟨inner, there, -⟩ := (nodes id node found).parts child part
    exact ⟨inner, there⟩

section Children

variable (region : Region program tokens start stop)
variable (children : again.Ask program start stop depth)
variable {id : NodeId} (here : InRegion start stop (depth + 1) id)
variable {node : Node} (found : program.node? id = some node)

include region children here found

theorem operand {inner : NodeId} (member : inner ∈ node.kind.operands) :
    Asks program (program.addressOrder depth .value inner) (again.value inner) :=
  children.value inner (Total.child region here found
    (NodeKind.mem_children.mpr (.inl member)))
    ((region.nodes id node found).operands inner member)

theorem operandAddress {inner : NodeId} (member : inner ∈ node.kind.operands) :
    Asks program (program.addressOrder depth .address inner) (again.address inner) :=
  children.address inner
    (Total.child region here found (NodeKind.mem_children.mpr (.inl member)))
    ((region.nodes id node found).operands inner member)

theorem part {inner : NodeId} (member : inner ∈ node.kind.parts) :
    Asks program (program.addressOrder depth .value inner) (again.statement inner) :=
  children.statement inner
    (Total.child region here found (NodeKind.mem_children.mpr (.inr member)))
    ((region.nodes id node found).parts inner member)

theorem of_address (function : String) :
    Asks program (program.addressOrder (depth + 1) .address id)
      (Emit.address ⟨program, function⟩ again id) := by
  have rule := region.nodes id node found
  have order := Program.addressOrder_of_found found depth .address
  refine .read (.lookupNode found) fun same there => ?_
  rw [lookupNode_of_some found] at there
  cases there
  split
  · rename_i symbol kind
    obtain ⟨entry, declared, placed⟩ :=
      region.own id node symbol here.start here.stop found kind
    simp only [order, kind, NodeKind.needsAddress, NodeKind.isPlace, if_true]
    refine .own (.of_never (.variableAddress (.lookupSymbol ⟨entry, declared⟩) ?_))
      fun _ => .var found kind
    intro other offset otherFound localKind
    obtain rfl := Option.some.inj (declared.symm.trans otherFound)
    obtain ⟨place, ty, slot⟩ := placed (by simp [Symbol.isLocal, localKind])
    exact .frameOffset slot
  · rename_i inner kind
    simp only [order, kind, NodeKind.needsAddress, NodeKind.isPlace, if_true,
      NodeKind.steps, NodeKind.spots, Spot.level, List.map_cons, List.map_nil,
        List.flatMap_singleton]
    refine .own ?_ fun _ => .deref found kind
    exact operand region children here found (by simp [kind, NodeKind.operands])
  · rename_i base aggregate index kind
    have kindRule := rule.kind
    rw [kind] at kindRule
    obtain ⟨ty, tyFound, inside⟩ := kindRule
    have member : base ∈ node.kind.operands := by simp [kind, NodeKind.operands]
    have baseAsks := operandAddress region children here found member
    simp only [order, kind, NodeKind.needsAddress, NodeKind.isPlace, if_true,
      NodeKind.steps, List.flatMap_singleton]
    refine .own ?_ ?_
    · refine .read (.lookupMember tyFound inside) fun member _ =>
        .before baseAsks fun _ => ?_
      split
      · exact .pure _
      · exact .bind (.onTop _) fun _ => .pure _
    · intro lvalues
      obtain ⟨inner, there, -⟩ := rule.operands base member
      have bound :=
        Total.child region here found (NodeKind.mem_children.mpr (.inl member))
      refine .member found kind ?_
      exact ((Program.forall_mem_addressOrder (children_found region.nodes) there
        bound.depth).mp lvalues).1 rfl
  · rename_i noVar noDeref noMember
    have place : node.kind.isPlace = false := by
      cases kind : node.kind with
      | var symbol => exact absurd kind (noVar symbol)
      | deref operand => exact absurd kind (noDeref operand)
      | member base aggregate index => exact absurd kind (noMember base aggregate index)
      | _ => rfl
    simp only [order, NodeKind.needsAddress, place, if_true, Bool.false_eq_true, if_false]
    refine .throw found ?_ _
    rw [Program.lvalue_iff found, place]
    exact fun lvalue => Bool.false_ne_true lvalue.1

/-- The value of the expression in the last statement of a statement expression. -/
theorem ending
    {body : List NodeId}
    (kind : node.kind = .stmtExpr body)
    {last expr : NodeId}
    {entry : Node}
    (ending : body.getLast? = some last)
    (lastFound : program.node? last = some entry)
    (lastKind : entry.kind = .exprStmt expr) :
    Asks program (program.addressOrder depth .value last) (again.value expr) := by
  have lastHere := Total.child region here found (NodeKind.mem_children.mpr (.inr
    (show last ∈ node.kind.parts by rw [kind]; exact List.mem_of_getLast? ending)))
  have exprMember : expr ∈ entry.kind.operands := by simp [lastKind, NodeKind.operands]
  have exprRule := region.nodes last entry lastFound
  have exprChild : expr ∈ entry.kind.children :=
    NodeKind.mem_children.mpr (.inl exprMember)
  have earlier := exprRule.earlier expr exprChild
  have near :=
    region.near last entry lastHere.start lastHere.stop lastFound expr exprChild
  have bound := lastHere.depth
  have stops := lastHere.stop
  have value :=
    children.value expr ⟨near, by omega, by omega⟩ (exprRule.operands expr exprMember)
  -- The statement needs what its expression needs, and its depth is one less.
  have same :
      program.addressOrder depth .value last =
        program.addressOrder depth .value expr := by
    cases depth with
    | zero => exact absurd bound (Nat.not_lt_zero _)
    | succ depth =>
        rw [Program.addressOrder_of_found lastFound,
          Program.addressOrder_succ
            (fun id node found => (region.nodes id node found).earlier) .value (by omega)]
        simp [lastKind, NodeKind.needsAddress, NodeKind.steps, NodeKind.spots, Spot.level]
  rw [same]
  exact value

theorem of_value (expression : node.kind.isExpression = true) (function : String) :
    Asks program (program.addressOrder (depth + 1) .value id)
      (Emit.value ⟨program, function⟩ again id) := by
  have rule := region.nodes id node found
  have order := Program.addressOrder_of_found found depth .value
  have plain := Program.addressOrder_of_plain found
  have value {inner : NodeId} (member : inner ∈ node.kind.operands) :=
    operand region children here found member
  have object {inner : NodeId} (member : inner ∈ node.kind.operands) :=
    operandAddress region children here found member
  have own := of_address region children here found function
  rw [Program.addressOrder_of_found found] at own
  refine .read (.lookupNode found) fun same there => ?_
  rw [lookupNode_of_some found] at there
  cases there
  refine .read (.nodeTy found rule) fun ty _ => ?_
  split
  case h_1 kind =>
    rw [plain (by rw [kind]; rfl) (by rw [kind]; rfl), kind]
    exact .of_never (.bind .push fun _ => .pure _)
  case h_2 kind | h_3 kind =>
    simp only [order, kind, NodeKind.needsAddress] at own ⊢
    exact .before own fun _ => .bind (.load ty) fun _ => .pure _
  case h_4 inner kind =>
    have member : inner ∈ node.kind.operands := by simp [kind, NodeKind.operands]
    rw [plain (by rw [kind]; rfl) (by rw [kind]; rfl), kind, NodeKind.spots,
      Spot.map_id_level, List.flatMap_singleton]
    exact .before (value member) fun _ => .bind (.load ty) fun _ => .pure _
  case h_5 inner kind =>
    have member : inner ∈ node.kind.operands := by simp [kind, NodeKind.operands]
    simp only [order, kind, NodeKind.needsAddress, NodeKind.steps, List.flatMap_singleton,
      Bool.false_eq_true, if_false]
    exact object member
  case h_6 lhs rhs kind =>
    have left : lhs ∈ node.kind.operands := by simp [kind, NodeKind.operands]
    have right : rhs ∈ node.kind.operands := by simp [kind, NodeKind.operands]
    simp only [order, kind, NodeKind.needsAddress, NodeKind.steps, List.flatMap_cons,
      List.flatMap_nil, List.append_nil, Bool.false_eq_true, if_false]
    exact .bind (object left) fun _ => .before (value right) fun _ =>
      .bind (.store ty) fun _ => .pure _
  case h_7 lhs rhs kind =>
    have left : lhs ∈ node.kind.operands := by simp [kind, NodeKind.operands]
    have right : rhs ∈ node.kind.operands := by simp [kind, NodeKind.operands]
    rw [plain (by rw [kind]; rfl) (by rw [kind]; rfl), kind, NodeKind.spots,
      Spot.map_id_level, List.flatMap_cons, List.flatMap_singleton]
    exact .bind (value left) fun _ => .behind (.pop _) fun _ =>
      .before (value right) fun _ => .pure _
  case h_8 body kind =>
    have kindRule := rule.kind
    rw [kind] at kindRule
    obtain ⟨last, entry, expr, lastOf, lastFound, lastKind⟩ := kindRule
    rw [plain (by rw [kind]; rfl) (by rw [kind]; rfl), kind, NodeKind.spots,
      Spot.map_id_level]
    refine .statementExpression lastOf lastFound lastKind (fun inner member => ?_) ?_
    · refine part region children here found ?_
      rw [kind]
      exact List.dropLast_subset body member
    · exact ending region children here found kind lastOf lastFound lastKind
  case h_9 inner kind =>
    have member : inner ∈ node.kind.operands := by simp [kind, NodeKind.operands]
    obtain ⟨innerNode, innerFound, _⟩ := rule.operands inner member
    rw [plain (by rw [kind]; rfl) (by rw [kind]; rfl), kind, NodeKind.spots,
      Spot.map_id_level, List.flatMap_singleton]
    refine .before (value member) fun _ => ?_
    refine .read (.nodeTy innerFound (region.nodes inner innerNode innerFound)) ?_
    exact fun source _ => .bind (.convert source ty) fun _ => .pure _
  case h_10 op inner kind =>
    have member : inner ∈ node.kind.operands := by simp [kind, NodeKind.operands]
    rw [plain (by rw [kind]; rfl) (by rw [kind]; rfl), kind, NodeKind.spots,
      Spot.map_id_level, List.flatMap_singleton]
    exact .before (value member) fun _ => .bind (.onTop _) fun _ => .pure _
  case h_11 lhs rhs kind | h_12 lhs rhs kind =>
    have left : lhs ∈ node.kind.operands := by simp [kind, NodeKind.operands]
    have right : rhs ∈ node.kind.operands := by simp [kind, NodeKind.operands]
    rw [plain (by rw [kind]; rfl) (by rw [kind]; rfl), kind, NodeKind.map_id_spots_binary,
      List.flatMap_cons, List.flatMap_singleton]
    exact .shortCircuit (value left) (value right)
  case h_13 op lhs rhs _ _ kind =>
    have left : lhs ∈ node.kind.operands := by simp [kind, NodeKind.operands]
    have right : rhs ∈ node.kind.operands := by simp [kind, NodeKind.operands]
    rw [plain (by rw [kind]; rfl) (by rw [kind]; rfl), kind, NodeKind.map_id_spots_binary,
      List.flatMap_cons, List.flatMap_singleton]
    exact .bind (value left) fun _ => .before (value right) fun _ =>
      .bind (.pop _) fun _ => .bind (.onTop _) fun _ => .pure _
  case h_14 function args kind =>
    have kindRule := rule.kind
    rw [kind] at kindRule
    rw [plain (by rw [kind]; rfl) (by rw [kind]; rfl), kind, NodeKind.spots,
      Spot.map_id_stacked]
    refine .call ?_ ?_ (.lookupSymbol kindRule.1)
    · intro inner member
      exact value (by rw [kind]; exact member)
    · intro index below
      exact .argumentRegister (Nat.lt_of_lt_of_le below kindRule.2)
  all_goals
    rename_i kind
    simp [kind, NodeKind.isExpression] at expression

theorem of_statement (isStatement : node.kind.isExpression = false) (function : String) :
    Asks program (program.addressOrder (depth + 1) .value id)
      (Emit.statement ⟨program, function⟩ again id) := by
  have plain := Program.addressOrder_of_plain found
  have value {inner : NodeId} (member : inner ∈ node.kind.operands) :=
    operand region children here found member
  have statement {inner : NodeId} (member : inner ∈ node.kind.parts) :=
    part region children here found member
  refine .read (.lookupNode found) fun same there => ?_
  rw [lookupNode_of_some found] at there
  cases there
  split
  case h_1 cond onTrue onFalse kind =>
    rw [plain (by rw [kind]; rfl) (by rw [kind]; rfl), kind, NodeKind.spots,
      Spot.map_id_level, List.flatMap_cons, List.flatMap_cons]
    refine .before (.branch (value ?_) (statement ?_) (.whenPresent fun inner present =>
      statement ?_)) fun _ => .pure _
    · simp [kind, NodeKind.operands]
    · simp [kind, NodeKind.parts]
    · simp [kind, NodeKind.parts, present]
  case h_2 kind =>
    rw [plain (by rw [kind]; rfl) (by rw [kind]; rfl), kind, NodeKind.spots,
      Spot.map_id_level]
    refine .before (.loop (fun inner present => statement ?_)
      (fun inner present => value ?_)
      (statement ?_) (fun inner present => value ?_)) fun _ => .pure _
    · simp [kind, NodeKind.parts, present]
    · simp [kind, NodeKind.operands, present]
    · simp [kind, NodeKind.parts]
    · simp [kind, NodeKind.operands, present]
  case h_3 kind =>
    rw [plain (by rw [kind]; rfl) (by rw [kind]; rfl), kind, NodeKind.spots,
      Spot.map_id_level]
    refine .before (.sequence fun inner member => statement ?_) fun _ => .pure _
    rw [kind]
    exact member
  case h_4 kind =>
    rw [plain (by rw [kind]; rfl) (by rw [kind]; rfl), kind, NodeKind.spots,
      Spot.map_id_level]
    refine .before (.whenPresent fun inner present => .discard (value ?_))
      fun _ => .pure _
    simp [kind, NodeKind.operands, present]
  case h_5 kind =>
    rw [plain (by rw [kind]; rfl) (by rw [kind]; rfl), kind, NodeKind.spots,
      Spot.map_id_level, List.flatMap_singleton]
    refine .before (.discard (value ?_)) fun _ => .pure _
    simp [kind, NodeKind.operands]
  case h_6 kind =>
    rw [plain (by rw [kind]; rfl) (by rw [kind]; rfl), kind]
    exact .of_never (.pure _)
  case h_7 kind =>
    rw [plain (by rw [kind]; rfl) (by rw [kind]; rfl), kind, NodeKind.spots,
      Spot.map_id_level, List.flatMap_singleton]
    refine .before (statement ?_) fun _ => .pure _
    simp [kind, NodeKind.parts]
  all_goals
    rename_i kind
    simp [kind, NodeKind.isExpression] at isStatement

end Children

/-- The generators of a depth ask for the addresses of the nodes of less depth. -/
theorem of_routines (region : Region program tokens start stop) (function : String)
    (depth : Nat) :
    (routines ⟨program, function⟩ depth).Ask program start stop depth := by
  induction depth with
  | zero =>
      refine ⟨?_, ?_, ?_⟩ <;> exact fun id here => absurd here.depth (Nat.not_lt_zero _)
  | succ depth hypothesis =>
      refine ⟨?_, ?_, ?_⟩
      · rintro id here ⟨node, found, _⟩
        exact of_address region hypothesis here found function
      · rintro id here ⟨node, found, expression⟩
        exact of_value region hypothesis here found expression function
      · rintro id here ⟨node, found, statement⟩
        exact of_statement region hypothesis here found statement function

end Routines.Ask

/-! ## Functions and programs -/

section Programs

variable {program : Program} {tokens : TokenStream}

/-- The text of a function asks for the addresses that its body needs. -/
theorem functionText_asks
    (sound : program.Sound tokens)
    {definition : Program.Definition}
    (member : definition ∈ program.definitions) :
    Asks program (program.addressOrder (program.nodes.size + 1) .value definition.body)
      (functionText program definition) := by
  obtain ⟨id, found, kind, bodied⟩ := definition_cases member
  obtain ⟨base, rule⟩ := sound.definitions id _ _ _ found kind bodied
  obtain ⟨start, inside, region⟩ := Region.of_definitionRule sound rule
  have placed (param : SymbolId) (listed : param ∈ definition.function.params) :
      ∃ offset ty, program.Placed param offset ty := by
    obtain ⟨offset, ty, slot, _⟩ :=
      rule.frame.placed param (rule.params_first.subset listed)
    exact ⟨offset, ty, slot⟩
  have few : 0 + definition.function.params.length ≤ 6 := by
    rw [Nat.zero_add]
    exact rule.params_few
  have bound : definition.body.index < program.nodes.size + 1 := by
    obtain ⟨node, there, _⟩ := rule.statement
    exact Nat.lt_succ_of_lt (Array.getElem?_eq_some_iff.mp there).1
  have body := (Routines.Ask.of_routines region definition.symbol.name
    (program.nodes.size + 1)).statement definition.body ⟨inside, Nat.le_refl _, bound⟩
    rule.statement
  have rules :=
    Emits.of_routines ⟨program, definition.symbol.name⟩ (program.nodes.size + 1)
  have total : FailsIn Never (prologue program definition) :=
    .bind (spillFrom_total placed few) fun _ _ => .ok _
  obtain ⟨startCode, started⟩ := total.exists_ok
  intro state
  -- The body is generated at depth zero, and ends there.
  have run : functionText program definition state =
      ((routines ⟨program, definition.symbol.name⟩ (program.nodes.size + 1)).statement
        definition.body >>= fun code => do
          checkBalance definition.symbol.name
          return startCode ++ code ++ epilogue definition.symbol.name)
        { state with depth := 0 } := by
    rw [functionText, started]
    rfl
  rcases body { state with depth := 0 } with
    ⟨lvalues, code, after, given⟩ | ⟨node, entry, least, there, failed⟩
  · have level : after.depth = 0 := (rules.statement given).disciplined.piece.depth
    have checked : Gives (checkBalance definition.symbol.name) after () after := by
      rw [checkBalance, gives_bind]
      refine ⟨after, after, rfl, ?_⟩
      rw [if_pos level]
      rfl
    exact .inl ⟨lvalues, _, after,
      run.trans ((bind_of_gives given _).trans (bind_of_gives checked _))⟩
  · exact .inr ⟨node, entry, least, there, run.trans (bind_of_error failed _)⟩

/-- All functions together ask for the addresses of the program. -/
theorem definitions_ask (sound : program.Sound tokens) :
    Asks program program.addresses (program.definitions.mapM (functionText program)) :=
  .mapM fun _ member => functionText_asks sound member

/-- All addresses of a program can be had exactly if all targets in its functions are
lvalues. -/
theorem forall_mem_addresses (sound : program.Sound tokens) :
    (∀ id ∈ program.addresses, program.Lvalue id) ↔
      ∀ definition ∈ program.definitions, program.TargetsAreLvalues definition.body := by
  simp only [Program.addresses, List.mem_flatMap, forall_exists_index, and_imp]
  rw [forall_comm]
  refine forall_congr' fun definition => ?_
  rw [forall_comm]
  refine forall_congr' fun member => ?_
  obtain ⟨id, found, kind, bodied⟩ := definition_cases member
  obtain ⟨base, rule⟩ := sound.definitions id _ _ _ found kind bodied
  obtain ⟨node, there, -⟩ := rule.statement
  have bound := (Array.getElem?_eq_some_iff.mp there).1
  rw [Program.forall_mem_addressOrder (Routines.Ask.children_found sound.nodes) there
    (Nat.lt_succ_of_lt bound)]
  simp

/-- Generation succeeds exactly if every target in every function is an lvalue; otherwise
it rejects the first node in the order of the code whose address is needed and that is
none. -/
theorem generation_rejects_exactly_the_non_lvalues
    {file : SourceFile}
    {program : Program}
    (accepted : parseFile file = .ok program)
    (name : String) :
    ((∃ code, Emit.program program name = .ok code) ↔
      ∀ definition ∈ program.definitions, ∀ id node,
        program.Contains definition.body id ->
        program.node? id = some node -> ∀ target ∈ node.kind.targets,
          program.Lvalue target) ∧
    ((∃ code, Emit.program program name = .ok code) ∨
      ∃ id node, program.FirstNonLvalue program.addresses id ∧
      program.node? id = some node ∧
        Emit.program program name = .error (.rejected (.typing .notLvalue) node.loc)) ∧
    (Cause.typing .notLvalue).message = "not an lvalue" := by
  obtain ⟨tokens, sound⟩ := sound_of_parseFile accepted
  have total : FailsIn Never (program.globals.toList.mapM (symbolData program)) := .mapM
    fun id member => symbolData_total sound
      (sound.globals id (Array.mem_toList_iff.mp member))
  obtain ⟨data, given⟩ := total.exists_ok
  have lvalues := forall_mem_addresses sound
  have run : Emit.program program name =
      ((program.definitions.mapM (functionText program)).run ⟨0, 0⟩ >>= fun text =>
        .ok (header name ++ data.flatten ++ text.1.flatten)) := by
    rw [Emit.program, given]
    rfl
  rcases definitions_ask sound ⟨0, 0⟩ with
    ⟨all, text, after, ends⟩ | ⟨id, node, least, found, failed⟩
  · have succeeds : ∃ code, Emit.program program name = .ok code := by
      rw [run, StateT.run, show _ = Except.ok _ from ends]
      exact ⟨_, rfl⟩
    exact ⟨iff_of_true succeeds (lvalues.mp all), .inl succeeds, rfl⟩
  · have fails :
        Emit.program program name = .error (.rejected (.typing .notLvalue) node.loc) := by
      rw [run, StateT.run, failed]
      rfl
    refine ⟨iff_of_false ?_ ?_, .inr ⟨id, node, least, found, fails⟩, rfl⟩
    · rintro ⟨code, succeeds⟩
      rw [fails] at succeeds
      cases succeeds
    · intro all
      obtain ⟨member, not⟩ := least.mem
      exact not (lvalues.mpr all id member)

/-- A file that parses, with a member of the value of an assignment as the first target
that is no lvalue, and a number behind it. -/
def assignedMemberFile : SourceFile :=
  ⟨"member.c", "struct { int a; } s, t; int main() { s.a = 1; (s = t).a = 2; return 0 = 1; }"⟩

/-- The program in that file. -/
def assignedMemberProgram : Program := (parseFile assignedMemberFile).toOption.getD .empty

/-- The code of that file is rejected at the assignment in parentheses. -/
theorem assigned_member_is_rejected :
    parseFile assignedMemberFile = .ok assignedMemberProgram ∧
      assignedMemberProgram.addresses = [⟨0⟩, ⟨1⟩, ⟨8⟩, ⟨6⟩, ⟨7⟩, ⟨9⟩, ⟨14⟩] ∧
      Emit.program assignedMemberProgram "member.c" =
        .error (.rejected (.typing .notLvalue) 49) := by
  have facts : (parseFile assignedMemberFile).isOk = true ∧
      assignedMemberProgram.addresses = [⟨0⟩, ⟨1⟩, ⟨8⟩, ⟨6⟩, ⟨7⟩, ⟨9⟩, ⟨14⟩] ∧
      ([⟨0⟩, ⟨1⟩, ⟨8⟩] : List NodeId).map (fun id =>
        (assignedMemberProgram.node? id).map fun node => (node.kind, node.ty)) =
        [some (.var ⟨0⟩, some ⟨6⟩), some (.member ⟨0⟩ ⟨6⟩ 0, some .int),
          some (.assign ⟨6⟩ ⟨7⟩, some ⟨6⟩)] ∧
      (assignedMemberProgram.node? ⟨8⟩).map (·.loc) = some 49 := by decide +kernel
  obtain ⟨succeeded, order, nodes, place⟩ := facts
  have accepted : parseFile assignedMemberFile = .ok assignedMemberProgram :=
    eq_ok_of_isOk succeeded
  simp only [List.map_cons, List.map_nil, List.cons.injEq, and_true] at nodes
  obtain ⟨named, namedFound, namedKind, -⟩ :=
    exists_node assignedMemberProgram _ _ _ nodes.1
  obtain ⟨member, memberFound, memberKind, -⟩ :=
    exists_node assignedMemberProgram _ _ _ nodes.2.1
  obtain ⟨assigned, assignedFound, assignedKind, -⟩ :=
    exists_node assignedMemberProgram _ _ _ nodes.2.2
  have first :
      assignedMemberProgram.FirstNonLvalue assignedMemberProgram.addresses ⟨8⟩ := by
    have lvalue := Program.Lvalue.var namedFound namedKind
    refine ⟨[⟨0⟩, ⟨1⟩], [⟨6⟩, ⟨7⟩, ⟨9⟩, ⟨14⟩], order, ?_, ?_⟩
    · simp [lvalue, Program.Lvalue.member memberFound memberKind lvalue]
    · rw [Program.lvalue_iff assignedFound, assignedKind]
      exact fun place => nomatch place.1
  obtain ⟨succeeds, either, -⟩ :=
    generation_rejects_exactly_the_non_lvalues accepted "member.c"
  obtain ⟨tokens, sound⟩ := sound_of_parseFile accepted
  have fails : ¬∃ code, Emit.program assignedMemberProgram "member.c" = .ok code :=
    fun given => first.mem.2
      ((forall_mem_addresses sound).mpr (succeeds.mp given) _ first.mem.1)
  obtain ⟨id, node, least, found, failed⟩ := either.resolve_left fails
  obtain rfl := first.unique least
  rw [found] at place
  have loc : node.loc = 49 := Option.some.inj place
  rw [loc] at failed
  exact ⟨accepted, order, failed⟩

end Programs

end Emit
end MiniC
