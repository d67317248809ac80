import MiniC.Proofs.Compile

/-!
# Parsed programs are well typed

Nodes get their types in two ways: from their kind, or from the production that enters
them.  Either way every node of a parsed program has a type, and the type, the kind and
the types of the children fit together as `Program.WellTyped` says.
-/

namespace MiniC

namespace Program

/-- What the type of a node and the types of its children have to do with each other. -/
structure WellTyped (program : Program) (ty : TyId) (kind : NodeKind) : Prop where
  /-- What is dereferenced is a pointer or an array, and its base is not `void`. -/
  deref : ∀ operand, kind = .deref operand -> ∃ own entry target,
    program.HasTy operand own entry ∧ entry.base? = some ty ∧
      program.types.get? ty = some target ∧ target.isVoid = false
  /-- An address points to the type of the operand, or to the element of an array. -/
  addr : ∀ operand, kind = .addr operand -> ∃ own entry pointer,
    program.HasTy operand own entry ∧ program.types.get? ty = some pointer ∧
      ((∃ element length, entry.kind = .array element length ∧ pointer.kind =
        .ptr element) ∨ entry.isArray = false ∧ pointer.kind = .ptr own)
  /-- A member is one of the struct or union that its base is. -/
  member : ∀ base aggregate index, kind = .member base aggregate index -> ∃ entry found,
    program.HasTy base aggregate entry ∧ entry.isAggregate = true ∧
      entry.members[index]? = some found ∧ ty = found.ty
  /-- The two sides of an assignment have its type, which is no array. -/
  assign : ∀ lhs rhs, kind = .assign lhs rhs -> ∃ entry,
    program.HasTy lhs ty entry ∧ program.HasTy rhs ty entry ∧ entry.isArray = false
  /-- No cast targets a struct or union, and one is cast to `void` only. -/
  cast : ∀ operand, kind = .cast operand -> ∃ target own entry,
    program.types.get? ty = some target ∧ target.isAggregate = false ∧
      program.HasTy operand own entry ∧ (entry.isAggregate = true -> target.isVoid = true)
  /-- Operators with two operands take scalars, products and remainders take integers, and
  comparisons and logical operators give an `int`. -/
  binary : ∀ op lhs rhs, kind = .binary op lhs rhs ->
    program.IsScalar lhs ∧ program.IsScalar rhs ∧
      (op = .mul ∨ op = .mod -> program.IsInteger lhs ∧ program.IsInteger rhs) ∧
      (op.isTruth = true -> ty = .int)
  /-- Negation takes a scalar and gives an `int`. -/
  not : ∀ operand, kind = .unary .not operand -> program.IsScalar operand ∧ ty = .int
  /-- The other operators with one operand take integers. -/
  unary : ∀ op operand, kind = .unary op operand -> op ≠ .not -> program.IsInteger operand
  /-- Conditions of branches are scalars. -/
  branch : ∀ cond onTrue onFalse, kind = .branch cond onTrue onFalse ->
    program.IsScalar cond
  /-- Conditions of loops are scalars. -/
  loop : ∀ init cond step body, kind = .loop init (some cond) step body ->
    program.IsScalar cond
  /-- A call has the result type of its function and at most six arguments, none of them a
  struct or union, each of the type of its parameter if that is declared. -/
  call : ∀ function args, kind = .call function args -> ∃ symbol entry params,
    program.symbol? function = some symbol ∧ program.types.get? symbol.ty = some entry ∧
      entry.kind = .func ty params ∧ args.length ≤ 6 ∧
      (∀ arg ∈ args, program.IsScalar arg) ∧
      ∀ (index : Nat) (arg : NodeId) (param : Param), args[index]? = some arg ->
        params[index]? = some param -> ∃ own, program.HasTy arg param.ty own
  /-- A statement expression ends in an expression statement of its type. -/
  stmtExpr : ∀ body, kind = .stmtExpr body -> ∃ last node expr entry,
    body.getLast? = some last ∧ program.node? last = some node ∧
      node.kind = .exprStmt expr ∧ program.HasTy expr ty entry
  /-- A variable has the type that it is declared with. -/
  var : ∀ symbol, kind = .var symbol ->
    ∃ entry, program.symbol? symbol = some entry ∧ ty = entry.ty
  /-- A comma expression has the type of its last operand. -/
  comma : ∀ lhs rhs, kind = .comma lhs rhs -> ∃ entry, program.HasTy rhs ty entry
  /-- Literals are integers. -/
  num : ∀ value, kind = .num value ->
    ∃ entry, program.types.get? ty = some entry ∧ entry.isInteger = true
  /-- Statements have no value. -/
  statement : kind.isExpression = false -> ty = .void

section Rules

variable {program : Program} {ty : TyId}

/-- The address of an array points to its elements, and any other address to what it is
of. -/
theorem TypingRule.addr_cases {operand : NodeId}
    (rule : program.TypingRule ty (.addr operand)) :
    ∃ own entry pointer, program.HasTy operand own entry ∧
      program.types.get? ty = some pointer ∧
      ((∃ element length, entry.kind = .array element length ∧ pointer.kind =
        .ptr element) ∨ entry.isArray = false ∧ pointer.kind = .ptr own) := by
  obtain ⟨own, entry, typed, pointer, found, kind⟩ := rule
  refine ⟨own, entry, pointer, typed, found, ?_⟩
  unfold Ty.pointee at kind
  split at kind
  · rename_i element length array
    exact .inl ⟨element, length, array, kind⟩
  · rename_i noArray
    refine .inr ⟨?_, kind⟩
    unfold Ty.isArray
    split
    · rename_i element length array
      exact absurd array (noArray element length)
    · rfl

/-- Both sides of an assignment have its type. -/
theorem TypingRule.assign_sides {lhs rhs : NodeId}
    (rule : program.TypingRule ty (.assign lhs rhs)) :
    ∃ entry, program.HasTy lhs ty entry ∧ program.HasTy rhs ty entry ∧
      entry.isArray = false := by
  obtain ⟨left, right, leftTyped, rightTyped, noArray, _⟩ := rule
  obtain ⟨_, _, _, leftFound⟩ := id leftTyped
  obtain ⟨_, _, _, rightFound⟩ := id rightTyped
  obtain rfl : left = right := by simpa [leftFound] using rightFound
  exact ⟨left, leftTyped, rightTyped, noArray⟩

/-- A member has the type that is recorded in its struct or union. -/
theorem TypingRule.member_of {base : NodeId} {aggregate : TyId} {index : Nat}
    (rule : program.TypingRule ty (.member base aggregate index)) :
    ∃ entry found, program.HasTy base aggregate entry ∧ entry.isAggregate = true ∧
      entry.members[index]? = some found ∧ ty = found.ty := by
  obtain ⟨entry, found, typed, present, equal⟩ := rule
  exact ⟨entry, found, typed, Ty.isAggregate_of_mem_members
    (List.mem_of_getElem? present), present, equal⟩

/-- A call has the result type of its function, and as many arguments as registers at
most. -/
theorem TypingRule.call_of {function : SymbolId} {args : List NodeId}
    (rule : program.TypingRule ty (.call function args))
    (few : program.KindRule (.call function args)) :
    ∃ symbol entry params, program.symbol? function = some symbol ∧
      program.types.get? symbol.ty = some entry ∧ entry.kind = .func ty params ∧
      args.length ≤ 6 ∧ (∀ arg ∈ args, program.IsScalar arg) ∧
      ∀ (index : Nat) (arg : NodeId) (param : Param), args[index]? = some arg ->
        params[index]? = some param -> ∃ own, program.HasTy arg param.ty own := by
  obtain ⟨symbol, entry, params, declared, found, kind, ruled⟩ := rule
  refine ⟨symbol, entry, params, declared, found, kind, few.2, ?_, ?_⟩
  · intro arg member
    obtain ⟨index, there⟩ := List.getElem?_of_mem member
    exact (ruled index arg there).1
  · intro index arg param there declaredThere
    exact (ruled index arg there).2 param declaredThere

/-- A statement has the type `void`. -/
theorem TypingRule.eq_void {kind : NodeKind} (rule : program.TypingRule ty kind)
    (statement : kind.isExpression = false) : ty = .void := by
  cases kind with
  | branch | loop => exact rule.2
  | ret | block | exprStmt | goto | label => exact rule
  | _ => cases statement

/-- The rule that nodes are built by, as it appears from outside. -/
theorem TypingRule.wellTyped {kind : NodeKind} (rule : program.TypingRule ty kind)
    (fits : program.KindRule kind) : program.WellTyped ty kind where
  deref := by
    rintro operand rfl
    obtain ⟨⟨own, entry, typed, pointing⟩, target, found, solid⟩ := rule
    exact ⟨own, entry, target, typed, pointing, found, solid⟩
  addr := by
    rintro operand rfl
    exact rule.addr_cases
  member := by
    rintro base aggregate index rfl
    exact rule.member_of
  assign := by
    rintro lhs rhs rfl
    exact rule.assign_sides
  cast := by
    rintro operand rfl
    exact rule
  binary := by
    rintro op lhs rhs rfl
    have operation : program.OperationRule ty op lhs rhs := rule
    exact ⟨operation.isScalar.1, operation.isScalar.2, operation.isInteger,
      operation.eq_int⟩
  not := by
    rintro operand rfl
    exact rule
  unary := by
    rintro op operand rfl other
    cases op with
    | not => exact absurd rfl other
    | neg | bitNot =>
        obtain ⟨own, entry, typed, integer, _⟩ := rule
        exact ⟨own, entry, typed, integer⟩
  branch := by
    rintro cond onTrue onFalse rfl
    exact rule.1
  loop := by
    rintro init cond step body rfl
    exact rule.1 cond rfl
  call := by
    rintro function args rfl
    exact rule.call_of fits
  stmtExpr := by
    rintro body rfl
    exact rule
  var := by
    rintro symbol rfl
    exact rule
  comma := by
    rintro lhs rhs rfl
    exact rule
  num := by
    rintro value rfl
    exact rule
  statement := rule.eq_void

end Rules

end Program

/-- Every node of a parsed program has a type that is there, and keeps the typing rule of
its kind. -/
theorem parsed_nodes_are_well_typed
    {file : SourceFile}
    {program : Program}
    (accepted : parseFile file = .ok program)
    {id : NodeId}
    {node : Node}
    (found : program.node? id = some node) :
    ∃ ty, node.ty = some ty ∧ program.types.Has ty ∧ program.WellTyped ty node.kind := by
  obtain ⟨tokens, sound⟩ := sound_of_parseFile accepted
  have rule := sound.nodes id node found
  obtain ⟨ty, typed, has, typing⟩ := rule.typed
  exact ⟨ty, typed, has, typing.wellTyped rule.kind⟩

/-- A file with a struct that refers to itself, a subscript of a member and a call. -/
def chainFile : SourceFile :=
  ⟨"chain.c",
    "struct s { struct s *next; char a[3]; }; " ++
      "int f(struct s *p, char n) { return f(p->next, p->a[n]); }"⟩

/-- The program in that file. -/
def chainProgram : Program := (parseFile chainFile).toOption.getD .empty

/-- In that file the argument `p->a[n]` of the call is converted to the type `char` of its
parameter. -/
theorem chain_call_is_well_typed :
    parseFile chainFile = .ok chainProgram ∧
      ∃ node, chainProgram.node? ⟨13⟩ = some node ∧ node.kind = .call ⟨0⟩ [⟨3⟩, ⟨12⟩] ∧
        chainProgram.WellTyped .int node.kind := by
  have facts : (parseFile chainFile).isOk = true ∧
      (chainProgram.node? ⟨13⟩).map (fun node => (node.kind, node.ty)) =
        some (.call ⟨0⟩ [⟨3⟩, ⟨12⟩], some .int) := by decide +kernel
  have accepted : parseFile chainFile = .ok chainProgram := eq_ok_of_isOk facts.1
  obtain ⟨node, found, kind, typed⟩ := exists_node _ _ _ _ facts.2
  obtain ⟨ty, sameTyped, _, wellTyped⟩ := parsed_nodes_are_well_typed accepted found
  obtain rfl : .int = ty := by simpa [typed] using sameTyped
  exact ⟨accepted, node, found, kind, wellTyped⟩

end MiniC
