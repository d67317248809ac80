import MiniC.Proofs.Program.Names
import MiniC.Proofs.Program.Tree
import MiniC.Proofs.Program.Typing

/-!
# Rules of well-formed programs

The tables of a program refer to each other by index.  This module says what the entries
of a well-formed program look like: every reference has a target, expressions and
statements stand where they belong, and nodes have the types that their kinds give them.
Every rule survives the growth of the tables.
-/

namespace MiniC

/-- No token is the keyword `sizeof`. -/
def TokenStream.Unsized (tokens : TokenStream) : Prop :=
  ∀ index, (tokens.get index).isSymbol "sizeof" = false

theorem TokenStream.unsized_iff (tokens : TokenStream) :
    tokens.Unsized ↔ ∀ index ≤ tokens.last,
      (tokens.get index).isSymbol "sizeof" = false := by
  refine ⟨fun unsized index _ => unsized index, fun below index => ?_⟩
  rcases Nat.le_total index tokens.last with inside | beyond
  · exact below index inside
  · rw [get_of_last_le beyond, ← get_of_last_le (Nat.le_refl tokens.last)]
    exact below tokens.last (Nat.le_refl _)

instance (tokens : TokenStream) : Decidable tokens.Unsized :=
  decidable_of_iff _ tokens.unsized_iff.symm

namespace Program

/-! ## The rules of nodes -/

/-- What the kind of a node asks of the tables, apart from its children being expressions
and statements: references have targets, calls have few arguments, and statement
expressions end in a value. -/
def KindRule (program : Program) : NodeKind -> Prop
  | .var symbol => program.HasSymbol symbol
  | .call function args => program.HasSymbol function ∧ args.length ≤ 6
  | .member _ aggregate index =>
      ∃ ty, program.types.get? aggregate = some ty ∧ index < ty.members.length
  | .stmtExpr body => ∃ last node expr, body.getLast? = some last ∧
      program.node? last = some node ∧ node.kind = .exprStmt expr
  | _ => True

/-- A node whose children come before it and whose type and kind keep the rules.  A call
stands at the name of what it calls. -/
structure NodeRule (tokens : TokenStream) (program : Program) (id : NodeId)
    (node : Node) : Prop where
  place : ∃ index, node.loc = (tokens.get index).loc ∧
    ∀ function args, node.kind = .call function args ->
      program.name? function = some (tokens.get index).text
  typed : ∃ ty, node.ty = some ty ∧ program.types.Has ty ∧ program.TypingRule ty node.kind
  earlier : ∀ child ∈ node.kind.children, child.index < id.index
  operands : ∀ child ∈ node.kind.operands, program.IsExpression child
  parts : ∀ child ∈ node.kind.parts, program.IsStatement child
  kind : program.KindRule node.kind

namespace Grows

variable {old new : Program}

theorem kindRule (grows : old.Grows new) {kind : NodeKind} (rule : old.KindRule kind) :
    new.KindRule kind := by
  cases kind with
  | var symbol => exact grows.hasSymbol rule
  | call function args => exact ⟨grows.hasSymbol rule.1, rule.2⟩
  | member base aggregate index =>
      obtain ⟨ty, found, inside⟩ := rule
      obtain ⟨refined, reached, refines⟩ := grows.types aggregate ty found
      rcases refines with rfl | ⟨_, _, kind, _, _⟩
      · exact ⟨refined, reached, inside⟩
      · simp [Ty.members, kind] at inside
  | stmtExpr body =>
      obtain ⟨last, node, expr, ending, found, kind⟩ := rule
      obtain ⟨refined, reached, refines⟩ := grows.nodes last node found
      have same : refined = node := refines.eq_of_ne_block (by simp [kind])
      rw [same] at reached
      exact ⟨last, node, expr, ending, reached, kind⟩
  | _ => trivial

/-- The rules of a node survive the growth of the tables. -/
theorem nodeRule (grows : old.Grows new) {tokens : TokenStream}
    {id : NodeId} {node : Node}
    (rule : old.NodeRule tokens id node) : new.NodeRule tokens id node where
  place := by
    obtain ⟨index, loc, named⟩ := rule.place
    exact ⟨index, loc,
      fun function args kind => grows.name?_eq_some (named function args kind)⟩
  typed := by
    obtain ⟨ty, typed, has, typing⟩ := rule.typed
    exact ⟨ty, typed, grows.has has, grows.typingRule typing⟩
  earlier := rule.earlier
  operands := fun child member => grows.isExpression (rule.operands child member)
  parts := fun child member => grows.isStatement (rule.parts child member)
  kind := grows.kindRule rule.kind

end Grows

/-- A block that loses its statements keeps the rules. -/
theorem NodeRule.emptied
    {tokens : TokenStream}
    {program : Program}
    {id : NodeId}
    {node : Node}
    {body : List NodeId}
    (rule : program.NodeRule tokens id node)
    (kind : node.kind = .block body) :
    program.NodeRule tokens id { node with kind := .block [] } where
  place := by
    obtain ⟨index, loc, _⟩ := rule.place
    exact ⟨index, loc, by simp⟩
  typed := by
    obtain ⟨ty, typed, has, typing⟩ := rule.typed
    rw [kind] at typing
    exact ⟨ty, typed, has, typing⟩
  earlier := by simp [NodeKind.children]
  operands := by simp [NodeKind.operands]
  parts := by simp [NodeKind.parts]
  kind := trivial

/-! ## The rules of functions -/

/-- What the nodes of a function keep apart from the rules of all nodes: their children
belong to the function too, its local variables are among the given ones, and what is
returned is converted to the result type unless that is `void`. -/
structure HomeRule (program : Program) (base : Nat) (locals : List SymbolId)
    (result : TyId) (kind : NodeKind) : Prop where
  near : ∀ child ∈ kind.children, base ≤ child.index
  own : ∀ id, kind = .var id -> ∃ symbol, program.symbol? id = some symbol ∧
    (symbol.isLocal = true -> id ∈ locals)
  returned : ∀ value, kind = .ret (some value) ->
    (∃ ty, program.types.get? result = some ty ∧ ty.isVoid = true) ∨
      ∃ node operand, program.node? value = some node ∧ node.kind = .cast operand ∧
        node.ty = some result

theorem Grows.homeRule
    {old new : Program}
    (grows : old.Grows new)
    {base : Nat}
    {locals more : List SymbolId}
    {result : TyId}
    {kind : NodeKind}
    (rule : old.HomeRule base locals result kind)
    (subset : locals ⊆ more) :
    new.HomeRule base more result kind where
  near := rule.near
  own := by
    intro id equal
    obtain ⟨symbol, found, inside⟩ := rule.own id equal
    obtain ⟨refined, reached, refines⟩ := grows.symbols id symbol found
    refine ⟨refined, reached, fun isLocal => subset (inside ?_)⟩
    rw [← refines.isLocal]
    exact isLocal
  returned := by
    intro value equal
    rcases rule.returned value equal with ⟨ty, found, empty⟩ | ⟨node, operand,
      found, kind, typed⟩
    · obtain ⟨refined, reached, refines⟩ := grows.types result ty found
      have same := refines.eq_of_scalar (Ty.isAggregate_of_isVoid empty)
      rw [same] at reached
      exact .inl ⟨ty, reached, empty⟩
    · obtain ⟨refined, reached, refines⟩ := grows.nodes value node found
      have same : refined = node := refines.eq_of_ne_block (by simp [kind])
      rw [same] at reached
      exact .inr ⟨node, operand, reached, kind, typed⟩

/-- The type of a function that may be declared: what it returns fits a register, and so
do its few parameters. -/
def Callable (program : Program) (ty : TyId) : Prop :=
  ∃ entry result params returned, program.types.get? ty = some entry ∧
    entry.kind = .func result params ∧ program.types.get? result = some returned ∧
    returned.isAggregate = false ∧ params.length ≤ 6

theorem Grows.callable
    {old new : Program}
    (grows : old.Grows new)
    {ty : TyId}
    (callable : old.Callable ty) :
    new.Callable ty := by
  obtain ⟨entry, result, params, returned, found, kind, reached, scalar, few⟩ := callable
  have plain : entry.isAggregate = false := by simp [Ty.isAggregate, kind]
  exact ⟨entry, result, params, returned, grows.get?_of_scalar found plain, kind,
    grows.get?_of_scalar reached scalar, scalar, few⟩

/-! ## Frames and definitions -/

/-- A local variable with its place in the frame and its type. -/
def Placed (program : Program) (id : SymbolId) (offset : Int) (ty : Ty) : Prop :=
  ∃ symbol, program.symbol? id = some symbol ∧ symbol.kind = .localVar (some offset) ∧
    program.types.get? symbol.ty = some ty

/-- A local variable has one place and one type. -/
theorem Placed.unique
    {program : Program}
    {id : SymbolId}
    {offset other : Int}
    {ty otherTy : Ty}
    (first : program.Placed id offset ty)
    (second : program.Placed id other otherTy) :
    offset = other ∧ ty = otherTy := by
  obtain ⟨symbol, found, kind, typed⟩ := first
  obtain ⟨entry, there, otherKind, otherTyped⟩ := second
  obtain rfl := Option.some.inj (found.symm.trans there)
  rw [kind] at otherKind
  rw [typed] at otherTyped
  cases otherKind
  cases otherTyped
  exact ⟨rfl, rfl⟩

/-- A frame of the given size in which the locals are aligned, have room and keep apart.
A local at an offset occupies the bytes from there upwards, towards the base of the
frame. -/
structure FrameSound (program : Program) (locals : List SymbolId)
    (size : Int) : Prop where
  placed : ∀ id ∈ locals, ∃ offset ty, program.Placed id offset ty ∧ 0 ≤ ty.size ∧
    ty.size ≤ offset ∧ offset ≤ size
  aligned : ∀ id ∈ locals, ∀ offset ty, program.Placed id offset ty ->
    offset % ty.align = 0
  apart : ∀ id ∈ locals, ∀ other ∈ locals, id ≠ other ->
    ∀ offset ty otherOffset otherTy, program.Placed id offset ty ->
      program.Placed other otherOffset otherTy ->
      offset ≤ otherOffset - otherTy.size ∨ otherOffset ≤ offset - ty.size
  size_nonneg : 0 ≤ size
  size_aligned : size % 16 = 0
  size_le : size ≤ Extent.maxInt32

/-- A function with a body.  The nodes of its body are those between `start` and the body
itself, and all of them keep the rules of the function. -/
structure DefinitionRule (program : Program) (base : Nat) (symbol : Symbol)
    (function : Function) (body : NodeId) : Prop where
  statement : program.IsStatement body
  body_lt : body.index < base
  home : ∃ start result params declared, start ≤ body.index ∧
    program.types.get? symbol.ty = some declared ∧ declared.kind = .func result params ∧
    ∀ id node, start ≤ id.index -> id.index ≤ body.index ->
    program.node? id = some node ->
      program.HomeRule start function.locals result node.kind
  params_few : function.params.length ≤ 6
  params_first : function.params <+: function.locals
  params_fit : ∀ param ∈ function.params, program.FitsRegister param
  locals_nodup : function.locals.Nodup
  frame : program.FrameSound function.locals function.stackSize

/-- The labels and jumps in the tree of a function's body.  No label stands there twice,
and unless a `sizeof` has dropped its operand every goto has its label. -/
def LabelRule (tokens : TokenStream) (program : Program) (body : NodeId) : Prop :=
  ∃ signs, program.Bears [body] signs ∧ (∀ name, signs.count (.label name) ≤ 1) ∧
    (tokens.Unsized -> ∀ name, .goto name ∈ signs -> .label name ∈ signs)

/-- A program whose tables have grown while the locals that have a place and the nodes
before `base` stayed as they were. -/
structure Keeps (base : Nat) (old new : Program) : Prop extends Grows old new where
  exactPlaces : ∀ id symbol offset, old.symbol? id = some symbol ->
    symbol.kind = .localVar (some offset) -> new.symbol? id = some symbol
  exactNodes : ∀ id node, id.index < base -> old.node? id = some node ->
    new.node? id = some node

theorem Extends.keeps {old new : Program} (extended : old.Extends new) (base : Nat) :
    Keeps base old new where
  toGrows := extended.grows
  exactPlaces := fun id symbol _ found _ => extended.symbols id symbol found
  exactNodes := fun id node _ => extended.nodes id node

namespace Keeps

variable {base : Nat} {old new : Program}

/-- A node before `base` that is there afterwards was there before. -/
theorem node?_of_lt
    (keeps : Keeps base old new)
    (enough : base ≤ old.nodes.size)
    {id : NodeId}
    {node : Node}
    (below : id.index < base)
    (found : new.node? id = some node) :
    old.node? id = some node := by
  obtain ⟨earlier, present⟩ : ∃ earlier, old.node? id = some earlier :=
    ⟨_, Array.getElem?_eq_getElem (by omega)⟩
  rw [keeps.exactNodes id earlier below present] at found
  rw [present, found]

/-- A local with a size that has a place afterwards had the same place before. -/
theorem placed_of_placed
    (keeps : Keeps base old new)
    {id : SymbolId}
    {offset : Int}
    {ty : Ty}
    (placed : old.Placed id offset ty)
    (sized : 0 ≤ ty.size)
    {newOffset : Int}
    {newTy : Ty}
    (found : new.Placed id newOffset newTy) :
    newOffset = offset ∧ newTy = ty := by
  obtain ⟨symbol, declared, kind, typed⟩ := placed
  obtain ⟨newSymbol, newDeclared, newKind, newTyped⟩ := found
  rw [keeps.exactPlaces id symbol offset declared kind] at newDeclared
  obtain rfl : symbol = newSymbol := by simpa using newDeclared
  obtain ⟨refined, reached, refines⟩ := keeps.types symbol.ty ty typed
  have same := refines.eq_of_sized sized
  constructor
  · simpa [kind] using newKind.symm
  · rw [newTyped] at reached
    rw [← same]
    simpa using reached

theorem placed
    (keeps : Keeps base old new)
    {id : SymbolId}
    {offset : Int}
    {ty : Ty}
    (placed : old.Placed id offset ty)
    (sized : 0 ≤ ty.size) :
    new.Placed id offset ty := by
  obtain ⟨symbol, declared, kind, typed⟩ := placed
  obtain ⟨refined, reached, refines⟩ := keeps.types symbol.ty ty typed
  rw [refines.eq_of_sized sized] at reached
  exact ⟨symbol, keeps.exactPlaces id symbol offset declared kind, kind, reached⟩

theorem frameSound
    (keeps : Keeps base old new)
    {locals : List SymbolId}
    {size : Int}
    (sound : old.FrameSound locals size) :
    new.FrameSound locals size where
  placed := by
    intro id member
    obtain ⟨offset, ty, placed, sized, bounds⟩ := sound.placed id member
    exact ⟨offset, ty, keeps.placed placed sized, sized, bounds⟩
  aligned := by
    intro id member offset ty placed
    obtain ⟨oldOffset, oldTy, was, sized, _⟩ := sound.placed id member
    obtain ⟨rfl, rfl⟩ := keeps.placed_of_placed was sized placed
    exact sound.aligned id member _ _ was
  apart := by
    intro id member other otherMember different offset ty otherOffset otherTy placed
      otherPlaced
    obtain ⟨oldOffset, oldTy, was, sized, _⟩ := sound.placed id member
    obtain ⟨oldOther, oldOtherTy, otherWas, otherSized, _⟩ :=
      sound.placed other otherMember
    obtain ⟨rfl, rfl⟩ := keeps.placed_of_placed was sized placed
    obtain ⟨rfl, rfl⟩ := keeps.placed_of_placed otherWas otherSized otherPlaced
    exact sound.apart id member other otherMember different _ _ _ _ was otherWas
  size_nonneg := sound.size_nonneg
  size_aligned := sound.size_aligned
  size_le := sound.size_le

/-- A function that is finished stays so. -/
theorem definitionRule
    (keeps : Keeps base old new)
    (enough : base ≤ old.nodes.size)
    {symbol : Symbol}
    {function : Function}
    {body : NodeId}
    (rule : old.DefinitionRule base symbol function body) :
    new.DefinitionRule base symbol function body where
  statement := keeps.isStatement rule.statement
  body_lt := rule.body_lt
  home := by
    obtain ⟨start, result, params, declared, inside, typed, kind, home⟩ := rule.home
    obtain ⟨refined, reached, refines⟩ := keeps.types symbol.ty declared typed
    have same : refined = declared :=
      refines.eq_of_scalar (by simp [Ty.isAggregate, kind])
    rw [same] at reached
    refine ⟨start, result, params, declared, inside, reached, kind, ?_⟩
    intro id node after before found
    have below : id.index < base := Nat.lt_of_le_of_lt before rule.body_lt
    have was := keeps.node?_of_lt enough below found
    exact keeps.homeRule (home id node after before was) (fun _ member => member)
  params_few := rule.params_few
  params_first := rule.params_first
  params_fit := fun param member => keeps.fitsRegister (rule.params_fit param member)
  locals_nodup := rule.locals_nodup
  frame := keeps.frameSound rule.frame

/-- The labels of a function that is finished stay as they are. -/
theorem labelRule
    (keeps : Keeps base old new)
    (enough : base ≤ old.nodes.size)
    (earlier : ∀ id node, old.node? id = some node ->
      ∀ child ∈ node.kind.children, child.index < id.index)
    {tokens : TokenStream}
    {body : NodeId}
    (below : body.index < base)
    (rule : old.LabelRule tokens body) :
    new.LabelRule tokens body := by
  obtain ⟨signs, bears, once, targets⟩ := rule
  refine ⟨signs, bears.congr earlier (by simpa using below) ?_, once, targets⟩
  intro id inside
  have found : old.node? id = some old.nodes[id.index] :=
    Array.getElem?_eq_getElem (by omega)
  rw [found, keeps.exactNodes id _ inside found]

end Keeps

theorem DefinitionRule.mono
    {program : Program}
    {base more : Nat}
    {symbol : Symbol}
    {function : Function}
    {body : NodeId}
    (rule : program.DefinitionRule base symbol function body)
    (le : base ≤ more) :
    program.DefinitionRule more symbol function body :=
  { rule with body_lt := Nat.lt_of_lt_of_le rule.body_lt le }

/-- A program whose tables keep the rules. -/
structure Sound (program : Program) (tokens : TokenStream) : Prop where
  types : program.types.Sound
  nodes : ∀ id node, program.node? id = some node -> program.NodeRule tokens id node
  symbols : ∀ id symbol, program.symbol? id = some symbol -> program.types.Has symbol.ty
  globals : ∀ id ∈ program.globals, program.HasSymbol id
  listing : ∃ literals, program.Listing literals
  functions : ∀ id symbol function, program.symbol? id = some symbol ->
    symbol.kind = .function function -> Undotted symbol.name ∧ program.Callable symbol.ty
  definitions : ∀ id symbol function body, program.symbol? id = some symbol ->
    symbol.kind = .function function -> function.body = some body ->
    ∃ base, program.DefinitionRule base symbol function body
  labels : ∀ id symbol function body, program.symbol? id = some symbol ->
    symbol.kind = .function function -> function.body = some body ->
    program.LabelRule tokens body

end Program

end MiniC
