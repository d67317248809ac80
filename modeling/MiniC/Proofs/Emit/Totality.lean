import MiniC.Proofs.Emit.Balance
import MiniC.Proofs.Grammar.Units

/-!
# Code is generated for every program that keeps the rules

The generators fail in many ways, but on a program that keeps the rules of
`MiniC.Proofs.Program.Rules` only one is left: something that has no address is assigned
to or has its address taken.  That error names the place of a token.
-/

namespace MiniC

namespace NodeKind

/-- The children whose address is asked for. -/
def objects : NodeKind -> List NodeId
  | addr operand => [operand]
  | assign lhs _ => [lhs]
  | _ => []

/-- An address is asked for of operands only. -/
theorem objects_subset_operands (kind : NodeKind) : kind.objects ⊆ kind.operands := by
  cases kind <;> simp [objects, operands]

end NodeKind

namespace Emit

open Asm Grammar

/-- The errors that are left: the source text is rejected at a token, or the stack is
unbalanced. -/
def IsRejection (tokens : TokenStream) (error : Error) : Prop :=
  RejectsAt tokens error ∨ ¬IsNoImbalance error

section Reads

variable {allowed : Error -> Prop} {program : Program}

/-- A reading that succeeds does not fail. -/
theorem FailsIn.of_ok {α : Type} {read : Except Error α} {value : α}
    (known : read = .ok value) : FailsIn allowed read := by
  rw [known]
  exact .ok value

/-- A node that has an entry is found. -/
theorem FailsIn.lookupNode {id : NodeId} {node : Node}
    (found : program.node? id = some node) : FailsIn allowed (program.lookupNode id) :=
  .of_ok (lookupNode_of_some found)

/-- A symbol that has an entry is found. -/
theorem FailsIn.lookupSymbol {id : SymbolId} (has : program.HasSymbol id) :
    FailsIn allowed (program.lookupSymbol id) := by
  obtain ⟨symbol, found⟩ := has
  exact .of_ok (lookupSymbol_of_some found)

/-- A type that has an entry is found. -/
theorem FailsIn.lookupTy {id : TyId} (has : program.types.Has id) :
    FailsIn allowed (program.lookupTy id) := by
  obtain ⟨ty, found⟩ := TypeTable.has_iff.mp has
  exact .of_ok (lookupTy_eq_ok found)

/-- A node that keeps the rules has a type entry. -/
theorem FailsIn.nodeTy {tokens : TokenStream} {id : NodeId} {node : Node}
    (found : program.node? id = some node) (rule : program.NodeRule tokens id node) :
    FailsIn allowed (program.nodeTy id) := by
  obtain ⟨ty, typed, has, _⟩ := rule.typed
  obtain ⟨entry, there⟩ := TypeTable.has_iff.mp has
  exact .of_ok (nodeTy_eq_ok ⟨node, found, typed, there⟩)

/-- A member within the bounds of its struct or union is found. -/
theorem FailsIn.lookupMember {aggregate : TyId} {index : Nat} {ty : Ty}
    (found : program.types.get? aggregate = some ty)
    (inside : index < ty.members.length) :
    FailsIn allowed (program.lookupMember aggregate index) := by
  refine .bind (.of_ok (lookupTy_eq_ok found)) fun entry known => ?_
  rw [lookupTy_eq_ok found] at known
  cases known
  rw [List.getElem?_eq_getElem inside]
  exact .ok _

/-- A variable that has a place is found there. -/
theorem FailsIn.frameOffset {id : SymbolId} {offset : Int} {ty : Ty}
    (placed : program.Placed id offset ty) :
    FailsIn allowed (frameOffset program id) := by
  obtain ⟨symbol, found, kind, _⟩ := placed
  refine .bind (.of_ok (lookupSymbol_of_some found)) fun entry known => ?_
  rw [lookupSymbol_of_some found] at known
  cases known
  rw [kind]
  exact .ok _

/-- There is a register for each of six arguments. -/
theorem FailsIn.argumentRegister {index : Nat} (few : index < 6) :
    FailsIn allowed (argumentRegister index) := by
  unfold Emit.argumentRegister
  have inside : index < argumentRegisters.length := few
  rw [List.getElem?_eq_getElem inside]
  exact .ok _

end Reads

/-- The value of an expression is generated as the parts of the expression are. -/
theorem ErrorsIn.value_of_children
    {allowed : Error -> Prop}
    {program : Program}
    {tokens : TokenStream}
    {function : String}
    {again : Routines}
    {id : NodeId}
    {node : Node}
    (nodes : ∀ id node, program.node? id = some node -> program.NodeRule tokens id node)
    (found : program.node? id = some node)
    (expression : node.kind.isExpression = true)
    (own : ((∃ symbol, node.kind = .var symbol) ∨
      ∃ base aggregate index, node.kind = .member base aggregate index) ->
      ErrorsIn allowed (Emit.address ⟨program, function⟩ again id))
    (values : ∀ inner ∈ node.kind.operands, ErrorsIn allowed (again.value inner))
    (places : ∀ inner ∈ node.kind.objects, ErrorsIn allowed (again.address inner))
    (statements : ∀ inner ∈ node.kind.parts, ErrorsIn allowed (again.statement inner))
    (endings : ∀ body last entry expr, node.kind = .stmtExpr body ->
      body.getLast? = some last -> program.node? last = some entry ->
      entry.kind = .exprStmt expr -> ErrorsIn allowed (again.value expr)) :
    ErrorsIn allowed (Emit.value ⟨program, function⟩ again id) := by
  have rule := nodes id node found
  refine .read (.lookupNode found) fun same there => ?_
  rw [lookupNode_of_some found] at there
  cases there
  refine .read (.nodeTy found rule) fun ty _ => ?_
  split
  case h_1 => exact .bind .push fun _ => .pure _
  case h_2 symbol kind =>
    exact .bind (own (.inl ⟨symbol, kind⟩)) fun _ => .bind (.load ty) fun _ => .pure _
  case h_3 base aggregate index kind =>
    exact .bind (own (.inr ⟨base, aggregate, index, kind⟩)) fun _ =>
      .bind (.load ty) fun _ => .pure _
  case h_4 kind =>
    refine .bind (values _ ?_) fun _ => .bind (.load ty) fun _ => .pure _
    simp [kind, NodeKind.operands]
  case h_5 kind => exact places _ (by simp [kind, NodeKind.objects])
  case h_6 kind =>
    refine .bind (places _ ?_) fun _ => .bind (values _ ?_) fun _ =>
      .bind (.store ty) fun _ => .pure _
    · simp [kind, NodeKind.objects]
    · simp [kind, NodeKind.operands]
  case h_7 kind =>
    refine .bind (values _ ?_) fun _ => .bind (.pop _) fun _ =>
      .bind (values _ ?_) fun _ => .pure _
    · simp [kind, NodeKind.operands]
    · simp [kind, NodeKind.operands]
  case h_8 body kind =>
    have kindRule := rule.kind
    rw [kind] at kindRule
    obtain ⟨last, entry, expr, ending, lastFound, lastKind⟩ := kindRule
    refine .statementExpression ?_ ?_ ?_ ?_ ?_
    · rintro rfl
      cases ending
    · intro other equal
      obtain rfl : last = other := by simpa [ending] using equal
      exact .lookupNode lastFound
    · intro inner member
      apply statements
      rw [kind]
      exact List.dropLast_subset body member
    · intro other otherNode otherExpr equal otherFound otherKind
      exact endings body other otherNode otherExpr kind equal otherFound otherKind
    · intro other otherNode equal otherFound valueless
      obtain rfl : last = other := by simpa [ending] using equal
      obtain rfl : entry = otherNode := by simpa [lastFound] using otherFound
      exact absurd lastKind (valueless expr)
  case h_9 inner kind =>
    have member : inner ∈ node.kind.operands := by simp [kind, NodeKind.operands]
    refine .bind (values inner member) fun _ => ?_
    obtain ⟨innerNode, innerFound, _⟩ := rule.operands inner member
    refine .read (.nodeTy innerFound (nodes inner innerNode innerFound)) ?_
    exact fun source _ => .bind (.convert source ty) fun _ => .pure _
  case h_10 kind =>
    refine .bind (values _ ?_) fun _ => .bind (.onTop _) fun _ => .pure _
    simp [kind, NodeKind.operands]
  case h_11 kind | h_12 kind =>
    refine .shortCircuit (values _ ?_) (values _ ?_)
    · simp [kind, NodeKind.operands]
    · simp [kind, NodeKind.operands]
  case h_13 _ _ kind =>
    refine .bind (values _ ?_) fun _ => .bind (values _ ?_) fun _ =>
      .bind (.pop _) fun _ => .bind (.onTop _) fun _ => .pure _
    · simp [kind, NodeKind.operands]
    · simp [kind, NodeKind.operands]
  case h_14 function args kind =>
    have kindRule := rule.kind
    rw [kind] at kindRule
    refine .call ?_ ?_ (.lookupSymbol kindRule.1)
    · intro inner member
      exact values inner (by rw [kind]; exact member)
    · intro index below
      exact .argumentRegister (Nat.lt_of_lt_of_le below kindRule.2)
  all_goals
    rename_i kind
    simp [kind, NodeKind.isExpression] at expression

/-- The nodes of one function: those between its start and its body. -/
structure Region (program : Program) (tokens : TokenStream)
    (start stop : Nat) : Prop where
  nodes : ∀ id node, program.node? id = some node -> program.NodeRule tokens id node
  near : ∀ id node, start ≤ id.index -> id.index ≤ stop -> program.node? id = some node ->
    ∀ child ∈ node.kind.children, start ≤ child.index
  own : ∀ id node symbol, start ≤ id.index -> id.index ≤ stop ->
    program.node? id = some node -> node.kind = .var symbol ->
    ∃ entry, program.symbol? symbol = some entry ∧
      (entry.isLocal = true -> ∃ offset ty, program.Placed symbol offset ty)

/-- A node of a function at less than a depth. -/
structure InRegion (start stop depth : Nat) (id : NodeId) : Prop where
  start : start ≤ id.index
  stop : id.index ≤ stop
  depth : id.index < depth

/-- Generators that fail on no node of a function but by rejecting the source text. -/
structure Routines.Total (again : Routines) (program : Program) (tokens : TokenStream)
    (start stop depth : Nat) : Prop where
  address : ∀ id, InRegion start stop depth id -> program.IsExpression id ->
    ErrorsIn (IsRejection tokens) (again.address id)
  value : ∀ id, InRegion start stop depth id -> program.IsExpression id ->
    ErrorsIn (IsRejection tokens) (again.value id)
  statement : ∀ id, InRegion start stop depth id -> program.IsStatement id ->
    ErrorsIn (IsRejection tokens) (again.statement id)

namespace Routines.Total

variable {program : Program} {tokens : TokenStream} {start stop depth : Nat}
variable {again : Routines}

/-- A child of a node lies in the function at less depth. -/
theorem child
    (region : Region program tokens start stop)
    {id : NodeId}
    (here : InRegion start stop (depth + 1) id)
    {node : Node}
    (found : program.node? id = some node)
    {child : NodeId}
    (member : child ∈ node.kind.children) :
    InRegion start stop depth child := by
  have earlier := (region.nodes id node found).earlier child member
  have near := region.near id node here.start here.stop found child member
  have bound := here.depth
  have last := here.stop
  exact ⟨near, by omega, by omega⟩

section Children

variable (region : Region program tokens start stop)
variable (children : again.Total program tokens start stop depth)
variable {id : NodeId} (here : InRegion start stop (depth + 1) id)
variable {node : Node} (found : program.node? id = some node)

include region children here found

/-- An operand is an expression of the same function at less than the depth. -/
theorem operand {inner : NodeId} (member : inner ∈ node.kind.operands) :
    ErrorsIn (IsRejection tokens) (again.value inner) :=
  children.value inner (child region here found (NodeKind.mem_children.mpr (.inl member)))
    ((region.nodes id node found).operands inner member)

theorem operandAddress {inner : NodeId} (member : inner ∈ node.kind.operands) :
    ErrorsIn (IsRejection tokens) (again.address inner) :=
  children.address inner
    (child region here found (NodeKind.mem_children.mpr (.inl member)))
    ((region.nodes id node found).operands inner member)

/-- A part of a statement belongs to the same function. -/
theorem part {inner : NodeId} (member : inner ∈ node.kind.parts) :
    ErrorsIn (IsRejection tokens) (again.statement inner) :=
  children.statement inner
    (child region here found (NodeKind.mem_children.mpr (.inr member)))
    ((region.nodes id node found).parts inner member)

/-- An address fails only by rejecting an operand that is no lvalue. -/
theorem of_address (function : String) :
    ErrorsIn (IsRejection tokens) (Emit.address ⟨program, function⟩ again id) := by
  have rule := region.nodes id node found
  refine .read (.lookupNode found) fun same there => ?_
  rw [lookupNode_of_some found] at there
  cases there
  split
  · rename_i symbol kind
    obtain ⟨entry, declared, placed⟩ :=
      region.own id node symbol here.start here.stop found kind
    refine .variableAddress (.lookupSymbol ⟨entry, declared⟩) ?_
    intro other offset otherFound localKind
    rw [declared] at otherFound
    cases otherFound
    obtain ⟨place, ty, slot⟩ := placed (by simp [Symbol.isLocal, localKind])
    exact .frameOffset slot
  · rename_i inner kind
    exact operand region children here found (by simp [kind, NodeKind.operands])
  · rename_i inner aggregate index kind
    have kindRule := rule.kind
    rw [kind] at kindRule
    obtain ⟨ty, tyFound, inside⟩ := kindRule
    refine .read (.lookupMember tyFound inside) fun member _ => ?_
    refine .bind (operandAddress region children here found
      (by simp [kind, NodeKind.operands])) fun _ => ?_
    split
    · exact .pure _
    · exact .bind (.onTop _) fun _ => .pure _
  · obtain ⟨index, loc, _⟩ := rule.place
    exact .throw (.inl ⟨.typing .notLvalue, index, by rw [loc]⟩)

/-- A value fails on no node that is an expression. -/
theorem of_value (expression : node.kind.isExpression = true) (function : String) :
    ErrorsIn (IsRejection tokens) (Emit.value ⟨program, function⟩ again id) := by
  refine .value_of_children region.nodes found expression ?_ ?_ ?_ ?_ ?_
  · exact fun _ => of_address region children here found function
  · exact fun inner member => operand region children here found member
  · intro inner member
    apply operandAddress region children here found
    exact NodeKind.objects_subset_operands _ member
  · exact fun inner member => part region children here found member
  · intro body last entry expr kind ending lastFound lastKind
    have lastHere := child region here found (NodeKind.mem_children.mpr (.inr
      (show last ∈ node.kind.parts by rw [kind]; exact List.mem_of_getLast? ending)))
    have exprMember : expr ∈ entry.kind.operands := by simp [lastKind, NodeKind.operands]
    have exprRule := region.nodes last entry lastFound
    have exprChild : expr ∈ entry.kind.children :=
      NodeKind.mem_children.mpr (.inl exprMember)
    have earlier := exprRule.earlier expr exprChild
    have near :=
      region.near last entry lastHere.start lastHere.stop lastFound expr exprChild
    have bound := lastHere.depth
    have stops := lastHere.stop
    have exprHere : InRegion start stop depth expr := ⟨near, by omega, by omega⟩
    exact children.value expr exprHere (exprRule.operands expr exprMember)

/-- A statement fails on no node that is one. -/
theorem of_statement (isStatement : node.kind.isExpression = false) (function : String) :
    ErrorsIn (IsRejection tokens) (Emit.statement ⟨program, function⟩ again id) := by
  have value {inner : NodeId} (member : inner ∈ node.kind.operands) :=
    operand region children here found member
  have statement {inner : NodeId} (member : inner ∈ node.kind.parts) :=
    part region children here found member
  refine .read (.lookupNode found) fun same there => ?_
  rw [lookupNode_of_some found] at there
  cases there
  split
  case h_1 kind =>
    refine .bind (.branch (value ?_) (statement ?_) fun inner present => statement ?_)
      fun _ => .pure _
    · simp [kind, NodeKind.operands]
    · simp [kind, NodeKind.parts]
    · simp [kind, NodeKind.parts, present]
  case h_2 kind =>
    refine .bind (.loop (fun inner present => statement ?_)
      (fun inner present => value ?_)
      (statement ?_) (fun inner present => value ?_)) fun _ => .pure _
    · simp [kind, NodeKind.parts, present]
    · simp [kind, NodeKind.operands, present]
    · simp [kind, NodeKind.parts]
    · simp [kind, NodeKind.operands, present]
  case h_3 kind =>
    refine .bind (.sequence fun inner member => statement ?_) fun _ => .pure _
    rw [kind]
    exact member
  case h_4 kind =>
    refine .bind (.whenPresent fun inner present => .discard (value ?_)) fun _ => .pure _
    simp [kind, NodeKind.operands, present]
  case h_5 kind =>
    refine .bind (.discard (value ?_)) fun _ => .pure _
    simp [kind, NodeKind.operands]
  case h_6 => exact .pure _
  case h_7 kind =>
    refine .bind (statement ?_) fun _ => .pure _
    simp [kind, NodeKind.parts]
  all_goals
    rename_i kind
    simp [kind, NodeKind.isExpression] at isStatement

end Children

/-- The generators of a depth are total on the nodes of less depth. -/
theorem of_routines (region : Region program tokens start stop) (function : String)
    (depth : Nat) :
    (routines ⟨program, function⟩ depth).Total program tokens start stop depth := by
  induction depth with
  | zero =>
      refine ⟨?_, ?_, ?_⟩ <;> exact fun id here => absurd here.depth (Nat.not_lt_zero _)
  | succ depth hypothesis =>
      refine ⟨?_, ?_, ?_⟩
      · rintro id here ⟨node, found, _⟩
        exact of_address region hypothesis here found function
      · rintro id here ⟨node, found, expression⟩
        exact of_value region hypothesis here found expression function
      · rintro id here ⟨node, found, statement⟩
        exact of_statement region hypothesis here found statement function

end Routines.Total

/-! ## Functions and programs -/

section Programs

variable {tokens : TokenStream} {program : Program}

/-- The nodes of a function that is defined. -/
theorem Region.of_definitionRule (sound : program.Sound tokens) {base : Nat}
    {symbol : Symbol} {function : Function} {body : NodeId}
    (rule : program.DefinitionRule base symbol function body) :
    ∃ start, start ≤ body.index ∧ Region program tokens start body.index := by
  obtain ⟨start, result, params, declared, inside, _, _, home⟩ := rule.home
  refine ⟨start, inside, sound.nodes, ?_, ?_⟩
  · intro id node after before found child member
    exact (home id node after before found).near child member
  · intro id node named after before found kind
    obtain ⟨entry, there, own⟩ := (home id node after before found).own named kind
    refine ⟨entry, there, fun isLocal => ?_⟩
    obtain ⟨offset, ty, placed, _⟩ := rule.frame.placed named (own isLocal)
    exact ⟨offset, ty, placed⟩

/-- Parameters that have places are stored to them. -/
theorem spillFrom_total {allowed : Error -> Prop} {params : List SymbolId} {index : Nat}
    (placed : ∀ param ∈ params, ∃ offset ty, program.Placed param offset ty)
    (few : index + params.length ≤ 6) :
    FailsIn allowed (spillFrom program index params) := by
  induction params generalizing index with
  | nil => exact .ok _
  | cons param rest hypothesis =>
      obtain ⟨offset, ty, slot⟩ := placed param List.mem_cons_self
      obtain ⟨symbol, found, _, typed⟩ := id slot
      simp only [List.length_cons] at few
      refine .bind (.frameOffset slot) fun place _ => ?_
      refine .bind (.of_ok (lookupSymbol_of_some found)) fun same known => ?_
      rw [lookupSymbol_of_some found] at known
      cases known
      refine .bind (.lookupTy (.of_get? typed)) fun entry _ => ?_
      refine .bind (.argumentRegister (by omega)) fun reg _ => ?_
      refine .bind (hypothesis ?_ (by omega)) fun spills _ => .ok _
      exact fun other member => placed other (List.mem_cons_of_mem param member)

/-- The data of a symbol that has an entry are written. -/
theorem symbolData_total {allowed : Error -> Prop} (sound : program.Sound tokens)
    {id : SymbolId} (has : program.HasSymbol id) :
    FailsIn allowed (symbolData program id) := by
  obtain ⟨symbol, found⟩ := has
  refine .bind (.of_ok (lookupSymbol_of_some found)) fun same known => ?_
  rw [lookupSymbol_of_some found] at known
  cases known
  split
  · exact .bind (.lookupTy (sound.symbols id symbol found)) fun _ _ => .ok _
  · exact .ok _

/-- The function that a definition stands for. -/
theorem definition_cases {definition : Program.Definition}
    (member : definition ∈ program.definitions) :
    ∃ id, program.symbol? id = some definition.symbol ∧
      definition.symbol.kind = .function definition.function ∧
      definition.function.body = some definition.body := by
  obtain ⟨id, _, found⟩ := List.mem_filterMap.mp member
  unfold Program.definition? at found
  simp only [Option.bind_eq_bind, Option.bind_eq_some_iff] at found
  obtain ⟨symbol, there, function, named, body, bodied, equal⟩ := found
  cases equal
  refine ⟨id, there, ?_, bodied⟩
  unfold Symbol.function? at named
  split at named
  · rename_i other kind
    rw [kind]
    simpa using named
  · cases named

/-- The text of a function whose nodes keep the rules is generated, or the source
rejected. -/
theorem functionText_total (sound : program.Sound tokens)
    {definition : Program.Definition} (member : definition ∈ program.definitions) :
    ErrorsIn (IsRejection tokens) (functionText program definition) := by
  obtain ⟨id, found, kind, bodied⟩ := definition_cases member
  obtain ⟨base, rule⟩ := sound.definitions id _ _ _ found kind bodied
  obtain ⟨start, inside, region⟩ := Region.of_definitionRule sound rule
  have placed : ∀ param ∈ definition.function.params,
      ∃ offset ty, program.Placed param offset ty := by
    intro param listed
    obtain ⟨offset, ty, slot, _⟩ :=
      rule.frame.placed param (rule.params_first.subset listed)
    exact ⟨offset, ty, slot⟩
  have few : 0 + definition.function.params.length ≤ 6 := by
    rw [Nat.zero_add]
    exact rule.params_few
  have spilled : FailsIn (IsRejection tokens)
      (spillFrom program 0 definition.function.params) := spillFrom_total placed few
  refine .read (.bind spilled fun _ _ => .ok _) fun startCode _ => ?_
  have children := Routines.Total.of_routines region definition.symbol.name
    (program.nodes.size + 1)
  have bound : definition.body.index < program.nodes.size + 1 := by
    obtain ⟨node, there, _⟩ := rule.statement
    exact Nat.lt_succ_of_lt (Array.getElem?_eq_some_iff.mp there).1
  refine .bind (fun _ _ failed => by cases failed) fun _ => ?_
  refine .bind (children.statement definition.body ⟨inside, Nat.le_refl _, bound⟩
    rule.statement) fun body => ?_
  refine .bind ?_ fun _ => .pure _
  refine .bind (fun _ _ failed => by cases failed) fun state => ?_
  dsimp only
  split
  · exact .pure _
  · exact .throw (.inr (by simp [IsNoImbalance]))

/-- Code is generated for a program that keeps the rules, or the source text is rejected
at a token. -/
theorem program_rejectsAt (sound : program.Sound tokens) (name : String) :
    FailsIn (RejectsAt tokens) (Emit.program program name) := by
  have errors : FailsIn (IsRejection tokens) (Emit.program program name) := by
    refine .bind (.mapM fun id member => ?_) fun data _ => ?_
    · exact symbolData_total sound (sound.globals id (Array.mem_toList_iff.mp member))
    · refine .bind ?_ fun text _ => .ok _
      exact ErrorsIn.mapM (fun definition member => functionText_total sound member) _
  intro error failed
  rcases errors error failed with rejected | imbalance
  · exact rejected
  · exact absurd (program_noImbalance program name error failed) imbalance

end Programs

end Emit
end MiniC
