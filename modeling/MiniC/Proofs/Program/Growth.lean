import MiniC.Grammar.Node

/-!
# Growing programs

While a program is built its tables grow.  An entry that is there may change in two ways
only: a struct or union gets its members, and a block loses its statements to a statement
expression.  `Program.Grows` is that relation.
-/

namespace MiniC

/-! ## Types -/

namespace TyKind

/-- The types that a kind of type refers to. -/
def refs : TyKind -> List TyId
  | ptr base | array base _ => [base]
  | func result params => result :: params.map (·.ty)
  | aggregate _ members => members.map (·.ty)
  | _ => []

end TyKind

namespace TypeTable

/-- A reference that has a target. -/
def Has (types : TypeTable) (id : TyId) : Prop := id.index < types.entries.size

/-- A type is in the table if it has an entry. -/
theorem has_iff {types : TypeTable} {id : TyId} :
    types.Has id ↔ ∃ ty, types.get? id = some ty := by
  unfold Has get?
  constructor
  · intro bound
    exact ⟨_, Array.getElem?_eq_getElem bound⟩
  · rintro ⟨ty, found⟩
    exact (Array.getElem?_eq_some_iff.mp found).1

theorem Has.of_get? {types : TypeTable} {id : TyId} {ty : Ty}
    (found : types.get? id = some ty) : types.Has id :=
  has_iff.mpr ⟨ty, found⟩

/-- A type that is there and is no array. -/
def NoArray (types : TypeTable) (id : TyId) : Prop :=
  ∃ ty, types.get? id = some ty ∧ ty.isArray = false

/-- A member of known size that ends at an offset or before it. -/
def EndsBy (types : TypeTable) (member : Member) (stop : Int) : Prop :=
  ∃ ty, types.get? member.ty = some ty ∧ 0 ≤ ty.size ∧ member.offset + ty.size ≤ stop

/-- The members of a type lie inside of it, and those of a struct one behind the other. -/
structure MembersRule (types : TypeTable) (ty : Ty) : Prop where
  nonneg : ∀ member ∈ ty.members, 0 ≤ member.offset
  inside : ∀ member ∈ ty.members, types.EndsBy member ty.size
  ordered : ∀ members, ty.kind = .aggregate .struct members ->
    members.Pairwise fun first second => types.EndsBy first second.offset

/-- An earlier member of a struct ends before a later one begins. -/
theorem MembersRule.endsBy_of_lt {types : TypeTable} {ty : Ty}
    (rule : types.MembersRule ty)
    {members : List Member} (isStruct : ty.kind = .aggregate .struct members)
    {index later : Nat} {first second : Member}
    (firstListed : members[index]? = some first)
    (secondListed : members[later]? = some second) (before : index < later) :
    types.EndsBy first second.offset := by
  obtain ⟨_, rfl⟩ := List.getElem?_eq_some_iff.mp firstListed
  obtain ⟨_, rfl⟩ := List.getElem?_eq_some_iff.mp secondListed
  exact List.pairwise_iff_getElem.mp (rule.ordered members isStruct) _ _ _ _ before

/-- A type without members keeps the rule of members. -/
theorem MembersRule.of_nil {types : TypeTable} {ty : Ty} (none : ty.members = []) :
    types.MembersRule ty where
  nonneg := by simp [none]
  inside := by simp [none]
  ordered := by
    intro members kind
    obtain rfl : members = [] := by simpa [Ty.members, kind] using none
    exact .nil

/-- Members keep their places while the types that have a size stay as they are. -/
theorem MembersRule.keep {types more : TypeTable} {ty : Ty} (rule : types.MembersRule ty)
    (kept : ∀ id entry, types.get? id = some entry -> 0 ≤ entry.size ->
      more.get? id = some entry) : more.MembersRule ty := by
  have ends {member : Member} {stop : Int} (was : types.EndsBy member stop) :
      more.EndsBy member stop := by
    obtain ⟨entry, found, sized, room⟩ := was
    exact ⟨entry, kept member.ty entry found sized, sized, room⟩
  exact
    { nonneg := rule.nonneg
      inside := fun member listed => ends (rule.inside member listed)
      ordered := fun members kind => (rule.ordered members kind).imp ends }

/-- A type whose references have targets.  Only a struct or union without members has no
size, integers have the size of their width, what is neither a struct, a union nor an
array fits a register, and no parameter is an array.  Sizes are in range, and no alignment
is wider than a word. -/
structure EntryRule (types : TypeTable) (ty : Ty) : Prop where
  refs : ∀ ref ∈ ty.kind.refs, types.Has ref
  align : 0 < ty.align
  align_le : ty.align ≤ 8
  small : ty.size ≤ Extent.maxValue
  members : types.MembersRule ty
  sized : ty.size < 0 -> ∃ form, ty.kind = .aggregate form []
  width : ty.isInteger = true -> ty.size = ty.width.bytes
  moved : ty.isAggregate = false -> ty.isArray = false ->
    ((Width.ofSize ty.size).bytes : Int) = ty.size
  params : ∀ result params, ty.kind = .func result params -> ∀ param ∈ params,
    types.NoArray param.ty

/-- A table that begins with the primitive types and whose entries keep the rule. -/
structure Sound (types : TypeTable) : Prop where
  primitives : ∀ id ty, initial.get? id = some ty -> types.get? id = some ty
  entries : ∀ id ty, types.get? id = some ty -> types.EntryRule ty

namespace Sound

variable {types : TypeTable} (sound : types.Sound) (id : TyId) (ty : Ty)
  (found : types.get? id = some ty)

include sound found

/-- The types that an entry refers to are in the table. -/
theorem refs : ∀ ref ∈ ty.kind.refs, types.Has ref := (sound.entries id ty found).refs

theorem align : 0 < ty.align := (sound.entries id ty found).align

/-- No type is aligned to more than a word. -/
theorem align_le : ty.align ≤ 8 := (sound.entries id ty found).align_le

/-- Only a struct or union without members may have no size. -/
theorem sized : ty.size < 0 -> ∃ form, ty.kind = .aggregate form [] :=
  (sound.entries id ty found).sized

/-- An integer is as large as its width. -/
theorem widths : ty.isInteger = true -> ty.size = ty.width.bytes :=
  (sound.entries id ty found).width

end Sound

end TypeTable

namespace Ty

/-- A type entry may stay as it is, or get its members. -/
def Refines (old new : Ty) : Prop :=
  new = old ∨ ∃ form members, old.kind = .aggregate form [] ∧ old.size < 0 ∧
    new.kind = .aggregate form members

namespace Refines

variable {old new : Ty}

theorem refl (ty : Ty) : ty.Refines ty := .inl rfl

/-- An entry that is refined twice is refined. -/
theorem trans {last : Ty} (first : old.Refines new) (second : new.Refines last) :
    old.Refines last := by
  rcases first with rfl | ⟨form, members, kind, size, reached⟩
  · exact second
  · rcases second with rfl | ⟨other, more, again, _, final⟩
    · exact .inr ⟨form, members, kind, size, reached⟩
    · obtain ⟨rfl, _⟩ : form = other ∧ members = [] := by simpa [again] using reached.symm
      exact .inr ⟨form, more, kind, size, final⟩

/-- An entry with a size stays as it is. -/
theorem eq_of_sized (refines : old.Refines new) (sized : 0 ≤ old.size) : new = old := by
  rcases refines with same | ⟨_, _, _, unsized, _⟩
  · exact same
  · omega

/-- A struct or union stays one. -/
theorem isAggregate_eq (refines : old.Refines new) :
    new.isAggregate = old.isAggregate := by
  rcases refines with rfl | ⟨_, _, kind, _, reached⟩
  · rfl
  · simp [isAggregate, kind, reached]

/-- An entry that is no struct or union stays as it is. -/
theorem eq_of_scalar (refines : old.Refines new) (scalar : old.isAggregate = false) :
    new = old := by
  rcases refines with same | ⟨_, _, kind, _, _⟩
  · exact same
  · simp [isAggregate, kind] at scalar

end Refines

theorem isAggregate_of_isInteger {ty : Ty} (integer : ty.isInteger = true) :
    ty.isAggregate = false := by
  unfold isInteger at integer
  unfold isAggregate
  split at integer <;> simp_all

theorem isAggregate_of_isVoid {ty : Ty} (empty : ty.isVoid = true) :
    ty.isAggregate = false := by
  unfold isVoid at empty
  unfold isAggregate
  split at empty <;> simp_all

/-- Only structs and unions have members. -/
theorem isAggregate_of_mem_members {ty : Ty} {member : Member}
    (listed : member ∈ ty.members) :
    ty.isAggregate = true := by
  unfold members at listed
  unfold isAggregate
  split at listed
  · rfl
  · cases listed

end Ty

/-! ## Nodes and symbols -/

namespace NodeKind

/-- Whether nodes of a kind are expressions. -/
def isExpression : NodeKind -> Bool
  | num _ | var _ | unary _ _ | binary _ _ _ | assign _ _ | comma _ _ | member _ _ _
  | addr _ | deref _ | cast _ | call _ _ | stmtExpr _ => true
  | ret _ | branch _ _ _ | loop _ _ _ _ | block _ | exprStmt _ | goto _
  | label _ _ => false

/-- The children that are expressions. -/
def operands : NodeKind -> List NodeId
  | unary _ operand | addr operand | deref operand | cast operand => [operand]
  | binary _ lhs rhs | assign lhs rhs | comma lhs rhs => [lhs, rhs]
  | member base _ _ => [base]
  | call _ args => args
  | ret value => value.toList
  | branch cond _ _ => [cond]
  | loop _ cond step _ => cond.toList ++ step.toList
  | exprStmt expr => [expr]
  | num _ | var _ | stmtExpr _ | block _ | goto _ | label _ _ => []

/-- The children that are statements. -/
def parts : NodeKind -> List NodeId
  | stmtExpr body | block body => body
  | branch _ onTrue onFalse => onTrue :: onFalse.toList
  | loop init _ _ body => init.toList ++ [body]
  | label _ body => [body]
  | _ => []

/-- Every child is an expression or a statement. -/
theorem mem_children {kind : NodeKind} {child : NodeId} :
    child ∈ kind.children ↔ child ∈ kind.operands ∨ child ∈ kind.parts := by
  cases kind with
  | loop init cond step body =>
      simp only [children, operands, parts, List.mem_append, List.mem_singleton]
      grind
  | _ => simp [children, operands, parts]

end NodeKind

namespace Node

/-- A node may stay as it is, or be a block that loses its statements. -/
def Refines (old new : Node) : Prop :=
  new = old ∨ ∃ body, old.kind = .block body ∧ new = { old with kind := .block [] }

namespace Refines

variable {old new : Node}

theorem refl (node : Node) : node.Refines node := .inl rfl

/-- A node that is refined twice is refined. -/
theorem trans {last : Node} (first : old.Refines new) (second : new.Refines last) :
    old.Refines last := by
  rcases first with rfl | ⟨body, kind, rfl⟩
  · exact second
  · rcases second with rfl | ⟨_, _, rfl⟩
    · exact .inr ⟨body, kind, rfl⟩
    · exact .inr ⟨body, kind, rfl⟩

/-- A node keeps its type. -/
theorem ty_eq (refines : old.Refines new) : new.ty = old.ty := by
  rcases refines with rfl | ⟨_, _, rfl⟩ <;> rfl

/-- An expression stays one. -/
theorem isExpression_eq (refines : old.Refines new) :
    new.kind.isExpression = old.kind.isExpression := by
  rcases refines with rfl | ⟨_, kind, rfl⟩
  · rfl
  · simp [kind, NodeKind.isExpression]

/-- A node that is no block stays as it is. -/
theorem eq_of_ne_block (refines : old.Refines new)
    (other : ∀ body, old.kind ≠ .block body) :
    new = old := by
  rcases refines with same | ⟨body, kind, _⟩
  · exact same
  · exact absurd kind (other body)

end Refines
end Node

namespace Symbol

/-- Whether a symbol is a local variable. -/
def isLocal (symbol : Symbol) : Bool :=
  match symbol.kind with
  | .localVar _ => true
  | _ => false

/-- A symbol may be given its place or its body. -/
structure Refines (old new : Symbol) : Prop where
  name : new.name = old.name
  ty : new.ty = old.ty
  isLocal : new.isLocal = old.isLocal

theorem Refines.refl (symbol : Symbol) : symbol.Refines symbol := ⟨rfl, rfl, rfl⟩

theorem Refines.trans {old new last : Symbol} (first : old.Refines new)
    (second : new.Refines last) : old.Refines last :=
  ⟨second.name.trans first.name, second.ty.trans first.ty,
    second.isLocal.trans first.isLocal⟩

end Symbol

namespace Program

/-- A reference to a symbol that has a target. -/
def HasSymbol (program : Program) (id : SymbolId) : Prop :=
  ∃ symbol, program.symbol? id = some symbol

/-- A symbol whose type fits a register. -/
def FitsRegister (program : Program) (id : SymbolId) : Prop :=
  ∃ symbol ty, program.symbol? id = some symbol ∧ program.types.get? symbol.ty = some ty ∧
    ty.isAggregate = false ∧ ty.isArray = false

/-- A node that is an expression. -/
def IsExpression (program : Program) (id : NodeId) : Prop :=
  ∃ node, program.node? id = some node ∧ node.kind.isExpression = true

/-- A node that is a statement. -/
def IsStatement (program : Program) (id : NodeId) : Prop :=
  ∃ node, program.node? id = some node ∧ node.kind.isExpression = false

/-- A node with its type and the entry of the type. -/
def HasTy (program : Program) (id : NodeId) (ty : TyId) (entry : Ty) : Prop :=
  ∃ node, program.node? id = some node ∧ node.ty = some ty ∧
    program.types.get? ty = some entry

/-- A program whose tables have grown.  Entries are refined and nothing is lost. -/
structure Grows (old new : Program) : Prop where
  types : ∀ id ty, old.types.get? id = some ty ->
    ∃ refined, new.types.get? id = some refined ∧ ty.Refines refined
  nodes : ∀ id node, old.node? id = some node ->
    ∃ refined, new.node? id = some refined ∧ node.Refines refined
  symbols : ∀ id symbol, old.symbol? id = some symbol ->
    ∃ refined, new.symbol? id = some refined ∧ symbol.Refines refined

namespace Grows

variable {old new : Program}

theorem refl (program : Program) : program.Grows program where
  types := fun _ ty found => ⟨ty, found, .refl ty⟩
  nodes := fun _ node found => ⟨node, found, .refl node⟩
  symbols := fun _ symbol found => ⟨symbol, found, .refl symbol⟩

/-- A program that grows twice grows. -/
theorem trans {last : Program} (first : old.Grows new) (second : new.Grows last) :
    old.Grows last where
  types := by
    intro id ty found
    obtain ⟨middle, reached, refines⟩ := first.types id ty found
    obtain ⟨final, arrived, further⟩ := second.types id middle reached
    exact ⟨final, arrived, refines.trans further⟩
  nodes := by
    intro id node found
    obtain ⟨middle, reached, refines⟩ := first.nodes id node found
    obtain ⟨final, arrived, further⟩ := second.nodes id middle reached
    exact ⟨final, arrived, refines.trans further⟩
  symbols := by
    intro id symbol found
    obtain ⟨middle, reached, refines⟩ := first.symbols id symbol found
    obtain ⟨final, arrived, further⟩ := second.symbols id middle reached
    exact ⟨final, arrived, refines.trans further⟩

/-- A type stays in the table. -/
theorem has (grows : old.Grows new) {id : TyId} (has : old.types.Has id) :
    new.types.Has id := by
  obtain ⟨ty, found⟩ := TypeTable.has_iff.mp has
  obtain ⟨refined, reached, _⟩ := grows.types id ty found
  exact .of_get? reached

/-- A symbol stays in the table. -/
theorem hasSymbol (grows : old.Grows new) {id : SymbolId} (has : old.HasSymbol id) :
    new.HasSymbol id := by
  obtain ⟨symbol, found⟩ := has
  obtain ⟨refined, reached, _⟩ := grows.symbols id symbol found
  exact ⟨refined, reached⟩

/-- A variable that fits into a register keeps doing so. -/
theorem fitsRegister (grows : old.Grows new) {id : SymbolId}
    (fits : old.FitsRegister id) :
    new.FitsRegister id := by
  obtain ⟨symbol, ty, found, typed, scalar, noArray⟩ := fits
  obtain ⟨refined, reached, refines⟩ := grows.symbols id symbol found
  obtain ⟨entry, arrived, further⟩ := grows.types symbol.ty ty typed
  obtain rfl := further.eq_of_scalar scalar
  exact ⟨refined, entry, reached, by rw [refines.ty]; exact arrived, scalar, noArray⟩

/-- An expression stays one. -/
theorem isExpression (grows : old.Grows new) {id : NodeId} (is : old.IsExpression id) :
    new.IsExpression id := by
  obtain ⟨node, found, expression⟩ := is
  obtain ⟨refined, reached, refines⟩ := grows.nodes id node found
  exact ⟨refined, reached, by rw [refines.isExpression_eq, expression]⟩

/-- A statement stays one. -/
theorem isStatement (grows : old.Grows new) {id : NodeId} (is : old.IsStatement id) :
    new.IsStatement id := by
  obtain ⟨node, found, statement⟩ := is
  obtain ⟨refined, reached, refines⟩ := grows.nodes id node found
  exact ⟨refined, reached, by rw [refines.isExpression_eq, statement]⟩

/-- A node keeps its type, whose entry may be completed. -/
theorem hasTy (grows : old.Grows new) {id : NodeId} {ty : TyId} {entry : Ty}
    (has : old.HasTy id ty entry) :
    ∃ refined, new.HasTy id ty refined ∧ entry.Refines refined := by
  obtain ⟨node, found, typed, there⟩ := has
  obtain ⟨reachedNode, reached, refines⟩ := grows.nodes id node found
  obtain ⟨refined, arrived, further⟩ := grows.types ty entry there
  exact ⟨refined, ⟨reachedNode, reached, by rw [refines.ty_eq, typed], arrived⟩, further⟩

end Grows

/-! ## Tables that only get longer -/

/-- A program with entries behind those of another.  Nothing that was there changes. -/
structure Extends (old new : Program) : Prop where
  types : ∀ id ty, old.types.get? id = some ty -> new.types.get? id = some ty
  nodes : ∀ id node, old.node? id = some node -> new.node? id = some node
  symbols : ∀ id symbol, old.symbol? id = some symbol -> new.symbol? id = some symbol

namespace Extends

variable {old new : Program}

theorem refl (program : Program) : program.Extends program :=
  ⟨fun _ _ found => found, fun _ _ found => found, fun _ _ found => found⟩

/-- A program that is extended twice is extended. -/
theorem trans {last : Program} (first : old.Extends new) (second : new.Extends last) :
    old.Extends last where
  types := fun id ty found => second.types id ty (first.types id ty found)
  nodes := fun id node found => second.nodes id node (first.nodes id node found)
  symbols :=
    fun id symbol found => second.symbols id symbol (first.symbols id symbol found)

/-- A type that is no array stays none. -/
theorem noArray (extended : old.Extends new) {id : TyId}
    (noArray : old.types.NoArray id) :
    new.types.NoArray id := by
  obtain ⟨ty, found, no⟩ := noArray
  exact ⟨ty, extended.types id ty found, no⟩

/-- A program that is extended grows. -/
theorem grows (extended : old.Extends new) : old.Grows new where
  types := fun id ty found => ⟨ty, extended.types id ty found, .refl ty⟩
  nodes := fun id node found => ⟨node, extended.nodes id node found, .refl node⟩
  symbols := fun id symbol found =>
    ⟨symbol, extended.symbols id symbol found, .refl symbol⟩

/-- A node keeps its type and the entry of that. -/
theorem hasTy (extended : old.Extends new) {id : NodeId} {ty : TyId} {entry : Ty}
    (has : old.HasTy id ty entry) : new.HasTy id ty entry := by
  obtain ⟨node, found, typed, there⟩ := has
  exact ⟨node, extended.nodes id node found, typed, extended.types ty entry there⟩

end Extends

/-- No node is lost. -/
theorem Extends.size_le {old new : Program} (extended : old.Extends new) :
    old.nodes.size ≤ new.nodes.size := by
  apply Nat.le_of_not_lt
  intro shorter
  have found : old.node? ⟨new.nodes.size⟩ = some old.nodes[new.nodes.size] :=
    Array.getElem?_eq_getElem shorter
  have kept := extended.nodes _ _ found
  exact Nat.lt_irrefl _ (Array.getElem?_eq_some_iff.mp kept).1

/-- Entering a type. -/
theorem extends_pushTy (program : Program) (ty : Ty) :
    program.Extends { program with types := (program.types.insert ty).2 } where
  types := fun _ _ found => TypeTable.get?_insert_of_some found ty
  nodes := fun _ _ found => found
  symbols := fun _ _ found => found

/-- Entering a node. -/
theorem extends_pushNode (program : Program) (node : Node) :
    program.Extends { program with nodes := program.nodes.push node } where
  types := fun _ _ found => found
  nodes := by
    intro id other found
    obtain ⟨bound, _⟩ := Array.getElem?_eq_some_iff.mp found
    change (program.nodes.push node)[id.index]? = some other
    rw [Array.getElem?_push_lt bound, ← found, node?, Array.getElem?_eq_getElem bound]
  symbols := fun _ _ found => found

/-- Entering a symbol, which may also be listed. -/
theorem extends_pushSymbol (program : Program) (symbol : Symbol)
    (globals : Array SymbolId) :
    program.Extends
      { program with symbols := program.symbols.push symbol, globals := globals } where
  types := fun _ _ found => found
  nodes := fun _ _ found => found
  symbols := by
    intro id other found
    obtain ⟨bound, _⟩ := Array.getElem?_eq_some_iff.mp found
    change (program.symbols.push symbol)[id.index]? = some other
    rw [Array.getElem?_push_lt bound, ← found, symbol?, Array.getElem?_eq_getElem bound]

/-- A node found after one more was entered is that one or was there before. -/
theorem node?_push {program : Program} {entered : Node} {id : NodeId} {node : Node}
    (found : ({ program with nodes := program.nodes.push entered } : Program).node? id =
      some node) :
    program.node? id = some node ∨ id.index = program.nodes.size ∧ node = entered := by
  change (program.nodes.push entered)[id.index]? = some node at found
  rw [Array.getElem?_push] at found
  split at found
  · rename_i new
    exact .inr ⟨new, by simpa using found.symm⟩
  · exact .inl found

/-- A symbol found after one more was entered is that one or was there before. -/
theorem symbol?_push {program : Program} {entered : Symbol} {globals : Array SymbolId}
    {id : SymbolId} {symbol : Symbol}
    (found : ({ program with
      symbols := program.symbols.push entered, globals :=
        globals } : Program).symbol? id =
      some symbol) :
    program.symbol? id = some symbol ∨ id.index = program.symbols.size ∧
    symbol = entered := by
  change (program.symbols.push entered)[id.index]? = some symbol at found
  rw [Array.getElem?_push] at found
  split at found
  · rename_i new
    exact .inr ⟨new, by simpa using found.symm⟩
  · exact .inl found

end Program

end MiniC
