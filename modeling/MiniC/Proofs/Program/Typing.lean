import MiniC.Proofs.Program.Growth

/-!
# The typing rule

Each kind of node has a rule for its type, given the types of its children.  Operators
have the most: numbers are joined, comparisons give truth values, and pointers are moved
by whole elements or subtracted.

The rule survives the growth of the tables, because the only entries that change are
structs and unions without members.
-/

namespace MiniC

namespace Ty

/-- What the address of an object points to: the object, or the first element of an
array. -/
def pointee (own : TyId) (entry : Ty) : TyId :=
  match entry.kind with
  | .array element _ => element
  | _ => own

theorem isAggregate_of_base? {entry : Ty} {element : TyId}
    (pointing : entry.base? = some element) : entry.isAggregate = false := by
  unfold base? at pointing
  unfold isAggregate
  split at pointing <;> simp_all

theorem isInteger_of_base? {entry : Ty} {element : TyId}
    (pointing : entry.base? = some element) : entry.isInteger = false := by
  unfold base? at pointing
  unfold isInteger
  split at pointing <;> simp_all

theorem base?_of_kind {entry : Ty} {element : TyId} (kind : entry.kind = .ptr element) :
    entry.base? = some element := by
  simp [base?, kind]

theorem Refines.pointee_eq {old new : Ty} (refines : old.Refines new) (own : TyId) :
    new.pointee own = old.pointee own := by
  rcases refines with rfl | ⟨_, _, kind, _, reached⟩
  · rfl
  · simp [pointee, kind, reached]

theorem Refines.isVoid_eq {old new : Ty} (refines : old.Refines new) :
    new.isVoid = old.isVoid := by
  rcases refines with rfl | ⟨_, _, kind, _, reached⟩
  · rfl
  · simp [isVoid, kind, reached]

theorem Refines.isArray_eq {old new : Ty} (refines : old.Refines new) :
    new.isArray = old.isArray := by
  rcases refines with rfl | ⟨_, _, kind, _, reached⟩
  · rfl
  · simp [isArray, kind, reached]

/-- A struct or union with a member stays as it is. -/
theorem Refines.eq_of_member {old new : Ty} (refines : old.Refines new) {index : Nat}
    {found : Member} (present : old.members[index]? = some found) : new = old := by
  rcases refines with same | ⟨_, _, kind, _, _⟩
  · exact same
  · simp [members, kind] at present

end Ty

namespace Program

/-! ## Types of operands -/

/-- A node of a type that is no struct or union. -/
def IsScalar (program : Program) (id : NodeId) : Prop :=
  ∃ ty entry, program.HasTy id ty entry ∧ entry.isAggregate = false

/-- A node of an integer type. -/
def IsInteger (program : Program) (id : NodeId) : Prop :=
  ∃ ty entry, program.HasTy id ty entry ∧ entry.isInteger = true

/-- A node that is a pointer to elements of a type, or an array of them. -/
def RefersTo (program : Program) (id : NodeId) (element : TyId) : Prop :=
  ∃ ty entry, program.HasTy id ty entry ∧ entry.base? = some element

/-- The type of pointers to another type. -/
def PointsTo (program : Program) (ty target : TyId) : Prop :=
  ∃ entry, program.types.get? ty = some entry ∧ entry.kind = .ptr target

/-- A node that gives a number of elements in bytes: the number times the size of an
element. -/
def Scales (program : Program) (id count : NodeId) (element : TyId) : Prop :=
  ∃ node factor number entry, program.node? id = some node ∧
    node.kind = .binary .mul count factor ∧ program.node? factor = some number ∧
    number.kind = .num entry.size ∧ number.ty = some .int ∧
    program.types.get? element = some entry ∧ 0 ≤ entry.size

section Operands

variable {program : Program} {id : NodeId}

/-- A node has one type. -/
theorem HasTy.unique {first second : TyId} {firstEntry secondEntry : Ty}
    (left : program.HasTy id first firstEntry)
    (right : program.HasTy id second secondEntry) :
    first = second ∧ firstEntry = secondEntry := by
  obtain ⟨node, found, typed, there⟩ := left
  obtain ⟨other, otherFound, otherTyped, otherThere⟩ := right
  obtain rfl : node = other := by simpa [found] using otherFound
  obtain rfl : first = second := by simpa [typed] using otherTyped
  exact ⟨rfl, by simpa [there] using otherThere⟩

theorem IsInteger.isScalar (integer : program.IsInteger id) : program.IsScalar id := by
  obtain ⟨ty, entry, typed, is⟩ := integer
  exact ⟨ty, entry, typed, Ty.isAggregate_of_isInteger is⟩

theorem RefersTo.isScalar {element : TyId} (refers : program.RefersTo id element) :
    program.IsScalar id := by
  obtain ⟨ty, entry, typed, pointing⟩ := refers
  exact ⟨ty, entry, typed, Ty.isAggregate_of_base? pointing⟩

/-- No pointer or array is an integer. -/
theorem RefersTo.not_isInteger {element : TyId} (refers : program.RefersTo id element) :
    ¬ program.IsInteger id := by
  rintro ⟨_, _, typed, integer⟩
  obtain ⟨_, _, other, pointing⟩ := refers
  obtain ⟨rfl, rfl⟩ := typed.unique other
  simp [Ty.isInteger_of_base? pointing] at integer

end Operands

namespace Grows

variable {old new : Program}

/-- What is no struct or union keeps its type and the entry of it. -/
theorem hasTy_of_scalar (grows : old.Grows new) {id : NodeId} {ty : TyId} {entry : Ty}
    (typed : old.HasTy id ty entry) (scalar : entry.isAggregate = false) :
    new.HasTy id ty entry := by
  obtain ⟨refined, reached, refines⟩ := grows.hasTy typed
  rwa [refines.eq_of_scalar scalar] at reached

theorem isScalar (grows : old.Grows new) {id : NodeId} (scalar : old.IsScalar id) :
    new.IsScalar id := by
  obtain ⟨ty, entry, typed, is⟩ := scalar
  exact ⟨ty, entry, grows.hasTy_of_scalar typed is, is⟩

theorem isInteger (grows : old.Grows new) {id : NodeId} (integer : old.IsInteger id) :
    new.IsInteger id := by
  obtain ⟨ty, entry, typed, is⟩ := integer
  exact ⟨ty, entry, grows.hasTy_of_scalar typed (Ty.isAggregate_of_isInteger is), is⟩

theorem refersTo (grows : old.Grows new) {id : NodeId} {element : TyId}
    (refers : old.RefersTo id element) : new.RefersTo id element := by
  obtain ⟨ty, entry, typed, pointing⟩ := refers
  exact ⟨ty, entry, grows.hasTy_of_scalar typed (Ty.isAggregate_of_base? pointing),
    pointing⟩

theorem get?_of_scalar (grows : old.Grows new) {ty : TyId} {entry : Ty}
    (found : old.types.get? ty = some entry) (scalar : entry.isAggregate = false) :
    new.types.get? ty = some entry := by
  obtain ⟨refined, reached, refines⟩ := grows.types ty entry found
  rwa [refines.eq_of_scalar scalar] at reached

theorem pointsTo (grows : old.Grows new) {ty target : TyId}
    (points : old.PointsTo ty target) :
    new.PointsTo ty target := by
  obtain ⟨entry, found, kind⟩ := points
  exact ⟨entry, grows.get?_of_scalar found (by simp [Ty.isAggregate, kind]), kind⟩

/-- A node that is no block stays as it is. -/
theorem node?_of_ne_block (grows : old.Grows new) {id : NodeId} {node : Node}
    (found : old.node? id = some node) (other : ∀ body, node.kind ≠ .block body) :
    new.node? id = some node := by
  obtain ⟨refined, reached, refines⟩ := grows.nodes id node found
  rwa [refines.eq_of_ne_block other] at reached

theorem scales (grows : old.Grows new) {id count : NodeId} {element : TyId}
    (scales : old.Scales id count element) : new.Scales id count element := by
  obtain ⟨node, factor, number, entry, found, kind, numberFound, numberKind, typed,
    elementFound, sized⟩ := scales
  obtain ⟨refined, reached, refines⟩ := grows.types element entry elementFound
  rw [refines.eq_of_sized sized] at reached
  exact ⟨node, factor, number, entry, grows.node?_of_ne_block found
    (by simp [kind]), kind, grows.node?_of_ne_block numberFound (by simp [numberKind]),
      numberKind, typed, reached,
    sized⟩

end Grows

/-! ## The rules -/

/-- The type of arithmetic on operands of the given types: that of the left operand, at
least `int`, and `long` if either operand is a `long`. -/
def joinTy (lhs : TyId) (left right : Ty) : TyId :=
  if left.isInteger = false then lhs
  else if left.size = 8 ∨ right.isInteger = true ∧ right.size = 8 then .long
  else if left.size < 4 ∨ left.isEnum = true then .int
  else lhs

/-- The type that an operator gives to its operands. -/
inductive OperationRule (program : Program) : TyId -> BinaryOp -> NodeId -> NodeId -> Prop
  /-- Comparisons and logical operators take scalars. -/
  | truth {op lhs rhs}
      (truth : op.isTruth = true)
      (left : program.IsScalar lhs)
      (right : program.IsScalar rhs) :
      OperationRule program .int op lhs rhs
  /-- Arithmetic on integers. -/
  | numbers {op lhs rhs left leftEntry right rightEntry}
      (number : op.isTruth = false)
      (leftTyped : program.HasTy lhs left leftEntry)
      (rightTyped : program.HasTy rhs right rightEntry)
      (leftInteger : leftEntry.isInteger = true)
      (rightInteger : rightEntry.isInteger = true) :
      OperationRule program (joinTy left leftEntry rightEntry) op lhs rhs
  /-- A pointer moved by a number of elements. -/
  | move {ty op lhs rhs count element}
      (direction : op = .add ∨ op = .sub)
      (pointer : program.RefersTo lhs element)
      (product : program.IsInteger rhs)
      (scaled : program.Scales rhs count element)
      (points : program.PointsTo ty element) :
      OperationRule program ty op lhs rhs
  /-- The distance of two pointers in bytes, with the type of a pointer. -/
  | distance {ty lhs rhs element other}
      (left : program.RefersTo lhs element)
      (right : program.RefersTo rhs other)
      (points : program.PointsTo ty element) :
      OperationRule program ty .sub lhs rhs
  /-- The distance of two pointers in elements. -/
  | elements {lhs rhs element}
      (bytes : program.RefersTo lhs element)
      (size : program.IsInteger rhs) :
      OperationRule program .int .div lhs rhs

namespace OperationRule

variable {program : Program} {ty : TyId} {op : BinaryOp} {lhs rhs : NodeId}

/-- The operands are no structs or unions. -/
theorem isScalar (rule : program.OperationRule ty op lhs rhs) :
    program.IsScalar lhs ∧ program.IsScalar rhs := by
  cases rule with
  | truth _ left right => exact ⟨left, right⟩
  | numbers _ leftTyped rightTyped leftInteger rightInteger =>
      exact ⟨IsInteger.isScalar ⟨_, _, leftTyped, leftInteger⟩,
        IsInteger.isScalar ⟨_, _, rightTyped, rightInteger⟩⟩
  | move _ pointer product _ _ => exact ⟨pointer.isScalar, product.isScalar⟩
  | distance left right _ => exact ⟨left.isScalar, right.isScalar⟩
  | elements bytes size => exact ⟨bytes.isScalar, size.isScalar⟩

/-- Comparisons and logical operators give an `int`. -/
theorem eq_int (rule : program.OperationRule ty op lhs rhs) (truth : op.isTruth = true) :
    ty = .int := by
  cases rule with
  | truth => rfl
  | numbers number => simp [number] at truth
  | move direction =>
      rcases direction with rfl | rfl <;> simp [BinaryOp.isTruth] at truth
  | distance => simp [BinaryOp.isTruth] at truth
  | elements => rfl

/-- Arithmetic on integers has the type that joins those of the operands. -/
theorem eq_joinTy (rule : program.OperationRule ty op lhs rhs)
    (number : op.isTruth = false) {left right : TyId} {leftEntry rightEntry : Ty}
    (leftTyped : program.HasTy lhs left leftEntry)
    (rightTyped : program.HasTy rhs right rightEntry)
    (leftInteger : leftEntry.isInteger = true)
    (rightInteger : rightEntry.isInteger = true) :
    ty = joinTy left leftEntry rightEntry := by
  have integer : program.IsInteger lhs := ⟨left, leftEntry, leftTyped, leftInteger⟩
  cases rule with
  | truth truth => simp [number] at truth
  | numbers _ otherLeft otherRight =>
      obtain ⟨rfl, rfl⟩ := otherLeft.unique leftTyped
      obtain ⟨rfl, rfl⟩ := otherRight.unique rightTyped
      rfl
  | move _ pointer => exact absurd integer pointer.not_isInteger
  | distance pointer => exact absurd integer pointer.not_isInteger
  | elements bytes => exact absurd integer bytes.not_isInteger

/-- Products and remainders are of integers. -/
theorem isInteger (rule : program.OperationRule ty op lhs rhs)
    (product : op = .mul ∨ op = .mod) :
    program.IsInteger lhs ∧ program.IsInteger rhs := by
  cases rule with
  | truth truth => rcases product with rfl | rfl <;> simp [BinaryOp.isTruth] at truth
  | numbers _ leftTyped rightTyped leftInteger rightInteger =>
      exact ⟨⟨_, _, leftTyped, leftInteger⟩, ⟨_, _, rightTyped, rightInteger⟩⟩
  | move direction => rcases direction with rfl | rfl <;> simp at product
  | distance => simp at product
  | elements => simp at product

/-- An integer is added to a pointer, or subtracted from it, by whole elements. -/
theorem scales (rule : program.OperationRule ty op lhs rhs)
    (direction : op = .add ∨ op = .sub) {element : TyId}
    (pointer : program.RefersTo lhs element) (integer : program.IsInteger rhs) :
    ∃ count, program.Scales rhs count element ∧ program.PointsTo ty element := by
  cases rule with
  | truth truth => rcases direction with rfl | rfl <;> simp [BinaryOp.isTruth] at truth
  | numbers _ leftTyped _ leftInteger =>
      exact absurd ⟨_, _, leftTyped, leftInteger⟩ pointer.not_isInteger
  | move _ other _ scaled points =>
      obtain ⟨_, _, typed, pointing⟩ := pointer
      obtain ⟨_, _, otherTyped, otherPointing⟩ := other
      obtain ⟨rfl, rfl⟩ := typed.unique otherTyped
      obtain rfl : element = _ := by simpa [pointing] using otherPointing
      exact ⟨_, scaled, points⟩
  | distance _ right => exact absurd integer right.not_isInteger
  | elements => simp at direction

end OperationRule

/-- An argument is no struct or union, and has the type of its parameter if that is
declared. -/
def ArgumentRule (program : Program) (param : Option Param) (arg : NodeId) : Prop :=
  program.IsScalar arg ∧ ∀ declared ∈ param, ∃ entry, program.HasTy arg declared.ty entry

/-- The arguments of a call, given the declared parameters. -/
def ArgumentsRule (program : Program) (params : List Param) (args : List NodeId) : Prop :=
  ∀ (index : Nat) (arg : NodeId), args[index]? = some arg ->
    program.ArgumentRule params[index]? arg

/-- One more argument behind the others. -/
theorem ArgumentsRule.append {program : Program} {params : List Param}
    {args : List NodeId} {arg : NodeId} (rule : program.ArgumentsRule params args)
    (last : program.ArgumentRule params[args.length]? arg) :
    program.ArgumentsRule params (args ++ [arg]) := by
  intro index other found
  rw [List.getElem?_append] at found
  split at found
  · exact rule index other found
  · obtain ⟨place, rfl⟩ : index - args.length = 0 ∧ arg = other := by
      simpa [List.getElem?_singleton] using found
    obtain rfl : index = args.length := by omega
    exact last

/-- The type that the kind of a node gives it. -/
def TypingRule (program : Program) (ty : TyId) : NodeKind -> Prop
  | .num _ => ∃ entry, program.types.get? ty = some entry ∧ entry.isInteger = true
  | .var symbol => ∃ entry, program.symbol? symbol = some entry ∧ ty = entry.ty
  | .unary .not operand => program.IsScalar operand ∧ ty = .int
  | .unary _ operand => ∃ own entry, program.HasTy operand own entry ∧
      entry.isInteger = true ∧ ty = joinTy own entry entry
  | .binary op lhs rhs => program.OperationRule ty op lhs rhs
  | .assign lhs rhs => ∃ leftEntry rightEntry, program.HasTy lhs ty leftEntry ∧
      program.HasTy rhs ty rightEntry ∧ leftEntry.isArray = false ∧
      (leftEntry.isAggregate = false -> ∃ node operand,
        program.node? rhs = some node ∧ node.kind = .cast operand)
  | .comma _ rhs => ∃ entry, program.HasTy rhs ty entry
  | .member base aggregate index => ∃ entry found, program.HasTy base aggregate entry ∧
      entry.members[index]? = some found ∧ ty = found.ty
  | .addr operand => ∃ own entry, program.HasTy operand own entry ∧
      program.PointsTo ty (entry.pointee own)
  | .deref operand => program.RefersTo operand ty ∧
      ∃ entry, program.types.get? ty = some entry ∧ entry.isVoid = false
  | .cast operand => ∃ target own entry, program.types.get? ty = some target ∧
      target.isAggregate = false ∧ program.HasTy operand own entry ∧
      (entry.isAggregate = true -> target.isVoid = true)
  | .call function args => ∃ symbol entry params, program.symbol? function = some symbol ∧
      program.types.get? symbol.ty = some entry ∧ entry.kind = .func ty params ∧
      program.ArgumentsRule params args
  | .stmtExpr body => ∃ last node expr entry, body.getLast? = some last ∧
      program.node? last = some node ∧ node.kind = .exprStmt expr ∧
      program.HasTy expr ty entry
  | .branch cond _ _ => program.IsScalar cond ∧ ty = .void
  | .loop _ cond _ _ => (∀ id ∈ cond, program.IsScalar id) ∧ ty = .void
  | .ret _ | .block _ | .exprStmt _ | .goto _ | .label _ _ => ty = .void

namespace Grows

variable {old new : Program}

theorem operationRule (grows : old.Grows new) {ty : TyId} {op : BinaryOp}
    {lhs rhs : NodeId}
    (rule : old.OperationRule ty op lhs rhs) : new.OperationRule ty op lhs rhs := by
  cases rule with
  | truth truth left right =>
      exact .truth truth (grows.isScalar left) (grows.isScalar right)
  | numbers number leftTyped rightTyped leftInteger rightInteger =>
      exact .numbers number
        (grows.hasTy_of_scalar leftTyped (Ty.isAggregate_of_isInteger leftInteger))
        (grows.hasTy_of_scalar rightTyped (Ty.isAggregate_of_isInteger rightInteger))
        leftInteger rightInteger
  | move direction pointer product scaled points =>
      exact .move direction (grows.refersTo pointer) (grows.isInteger product)
        (grows.scales scaled) (grows.pointsTo points)
  | distance left right points =>
      exact .distance (grows.refersTo left) (grows.refersTo right) (grows.pointsTo points)
  | elements bytes size => exact .elements (grows.refersTo bytes) (grows.isInteger size)

theorem argumentsRule (grows : old.Grows new) {params : List Param} {args : List NodeId}
    (rule : old.ArgumentsRule params args) : new.ArgumentsRule params args := by
  intro index arg found
  obtain ⟨scalar, typed⟩ := rule index arg found
  refine ⟨grows.isScalar scalar, ?_⟩
  intro declared member
  obtain ⟨entry, argTyped⟩ := typed declared member
  obtain ⟨refined, reached, _⟩ := grows.hasTy argTyped
  exact ⟨refined, reached⟩

/-- Types stay right while tables grow: an entry that a rule looks at is refined only if
it is a struct or union without members, and then it does not matter. -/
theorem typingRule (grows : old.Grows new) {ty : TyId} {kind : NodeKind}
    (rule : old.TypingRule ty kind) : new.TypingRule ty kind := by
  cases kind with
  | num value =>
      obtain ⟨entry, found, integer⟩ := rule
      exact ⟨entry, grows.get?_of_scalar found (Ty.isAggregate_of_isInteger integer),
        integer⟩
  | var symbol =>
      obtain ⟨entry, found, equal⟩ := rule
      obtain ⟨refined, reached, refines⟩ := grows.symbols symbol entry found
      exact ⟨refined, reached, by rw [refines.ty, equal]⟩
  | unary op operand =>
      have arithmetic (rule : ∃ own entry, old.HasTy operand own entry ∧
          entry.isInteger = true ∧ ty = joinTy own entry entry) :
          ∃ own entry, new.HasTy operand own entry ∧ entry.isInteger = true ∧
            ty = joinTy own entry entry := by
        obtain ⟨own, entry, typed, integer, equal⟩ := rule
        exact ⟨own, entry, grows.hasTy_of_scalar typed
          (Ty.isAggregate_of_isInteger integer), integer, equal⟩
      cases op with
      | not => exact ⟨grows.isScalar rule.1, rule.2⟩
      | neg => exact arithmetic rule
      | bitNot => exact arithmetic rule
  | binary op lhs rhs => exact grows.operationRule rule
  | assign lhs rhs =>
      obtain ⟨leftEntry, rightEntry, leftTyped, rightTyped, noArray, converted⟩ := rule
      obtain ⟨newLeft, leftReached, leftRefines⟩ := grows.hasTy leftTyped
      obtain ⟨newRight, rightReached, _⟩ := grows.hasTy rightTyped
      refine ⟨newLeft, newRight, leftReached, rightReached, ?_, ?_⟩
      · rw [leftRefines.isArray_eq, noArray]
      · intro scalar
        rw [leftRefines.isAggregate_eq] at scalar
        obtain ⟨node, operand, found, kind⟩ := converted scalar
        exact ⟨node, operand, grows.node?_of_ne_block found (by simp [kind]), kind⟩
  | comma lhs rhs =>
      obtain ⟨entry, typed⟩ := rule
      obtain ⟨refined, reached, _⟩ := grows.hasTy typed
      exact ⟨refined, reached⟩
  | member base aggregate index =>
      obtain ⟨entry, found, typed, present, equal⟩ := rule
      obtain ⟨refined, reached, refines⟩ := grows.hasTy typed
      rw [refines.eq_of_member present] at reached
      exact ⟨entry, found, reached, present, equal⟩
  | addr operand =>
      obtain ⟨own, entry, typed, points⟩ := rule
      obtain ⟨refined, reached, refines⟩ := grows.hasTy typed
      refine ⟨own, refined, reached, ?_⟩
      rw [refines.pointee_eq]
      exact grows.pointsTo points
  | deref operand =>
      obtain ⟨refers, entry, found, solid⟩ := rule
      obtain ⟨refined, reached, refines⟩ := grows.types ty entry found
      exact ⟨grows.refersTo refers, refined, reached, by rw [refines.isVoid_eq, solid]⟩
  | cast operand =>
      obtain ⟨target, own, entry, found, scalar, typed, emptied⟩ := rule
      obtain ⟨refined, reached, refines⟩ := grows.hasTy typed
      refine ⟨target, own, refined, grows.get?_of_scalar found scalar,
        scalar, reached, ?_⟩
      rwa [refines.isAggregate_eq]
  | call function args =>
      obtain ⟨symbol, entry, params, declared, found, kind, ruled⟩ := rule
      obtain ⟨refined, reached, refines⟩ := grows.symbols function symbol declared
      refine ⟨refined, entry, params, reached, ?_, kind, grows.argumentsRule ruled⟩
      rw [refines.ty]
      exact grows.get?_of_scalar found (by simp [Ty.isAggregate, kind])
  | stmtExpr body =>
      obtain ⟨last, node, expr, entry, ending, found, kind, typed⟩ := rule
      obtain ⟨refined, reached, _⟩ := grows.hasTy typed
      exact ⟨last, node, expr, refined, ending,
        grows.node?_of_ne_block found (by simp [kind]), kind, reached⟩
  | branch cond onTrue onFalse => exact ⟨grows.isScalar rule.1, rule.2⟩
  | loop init cond step body =>
      exact ⟨fun id member => grows.isScalar (rule.1 id member), rule.2⟩
  | ret _ | block _ | exprStmt _ | goto _ | label _ _ => exact rule

end Grows

end Program

end MiniC
