import MiniC.Proofs.Grammar.Signs

/-!
# Nodes that keep the rules

The parsers that enter nodes are given children that are there.  They reject the source
text, or enter a node whose type and kind keep the rules of
`MiniC.Proofs.Program.Rules`.
-/

namespace MiniC
namespace Grammar

variable {tokens : TokenStream} {base : Nat} {state : State}

/-- A node has been entered with a kind and a type. -/
structure NewNode (tokens : TokenStream) (base : Nat) (state : State) (kind : NodeKind)
    (ty : TyId) (id : NodeId) (after : State) : Prop where
  ran : Ran tokens base state after
  near : base ≤ id.index
  fresh : state.program.nodes.size ≤ id.index
  stays : after.pos = state.pos
  node : ∃ node, after.program.node? id = some node ∧ node.kind = kind ∧ node.ty = some ty

namespace NewNode

variable {kind : NodeKind} {ty : TyId} {id : NodeId} {after : State}

/-- An expression that is entered may be the operand of another. -/
theorem operand
    (entered : NewNode tokens base state kind ty id after)
    (expression : kind.isExpression = true) :
    Operand base after id := by
  obtain ⟨node, found, rfl, _⟩ := entered.node
  exact ⟨entered.near, node, found, expression⟩

/-- A statement that is entered may be a part of another. -/
theorem part
    (entered : NewNode tokens base state kind ty id after)
    (statement : kind.isExpression = false) :
    Part base after id := by
  obtain ⟨node, found, rfl, _⟩ := entered.node
  exact ⟨entered.near, node, found, statement⟩

/-- The tree of a node entered bears what it has itself and what its children bear. -/
theorem bears
    (entered : NewNode tokens base state kind ty id after)
    {signs : List Sign}
    (below : state.program.Bears kind.children signs) :
    after.program.Bears [id] (kind.sign?.toList ++ signs) := by
  obtain ⟨node, found, rfl, _⟩ := entered.node
  exact .node found (below.extend entered.ran.extended)

/-- A node entered behind a run is entered behind its start too. -/
theorem behind
    {before : State}
    (entered : NewNode tokens base state kind ty id after)
    (ran : Ran tokens base before state)
    (stays : state.pos = before.pos) :
    NewNode tokens base before kind ty id after where
  ran := ran.trans entered.ran
  near := entered.near
  fresh := Nat.le_trans ran.extended.size_le entered.fresh
  stays := entered.stays.trans stays
  node := entered.node

end NewNode

/-- What a node asks of the state before it is entered, apart from its type. -/
structure Enterable (base : Nat) (state : State) (kind : NodeKind) : Prop where
  operands : ∀ child ∈ kind.operands, Operand base state child
  parts : ∀ child ∈ kind.parts, Part base state child
  own : ∀ id, kind = .var id -> ∃ symbol, state.program.symbol? id = some symbol ∧
    (symbol.isLocal = true -> id ∈ state.locals)
  returned : ∀ value context, kind = .ret (some value) -> state.function = some context ->
    (∃ ty, state.program.types.get? context.result = some ty ∧ ty.isVoid = true) ∨
      ∃ node operand, state.program.node? value = some node ∧ node.kind = .cast operand ∧
        node.ty = some context.result

namespace Enterable

/-- What may be entered may still be entered later. -/
theorem run
    {after : State}
    {kind : NodeKind}
    (enterable : Enterable base state kind)
    (ran : Moved tokens base state after) :
    Enterable base after kind where
  operands := fun child member => ran.operand (enterable.operands child member)
  parts := fun child member => ran.part (enterable.parts child member)
  own := by
    intro id equal
    obtain ⟨symbol, found, inside⟩ := enterable.own id equal
    exact ⟨symbol, ran.extended.symbols id symbol found,
      fun isLocal => ran.locals.subset (inside isLocal)⟩
  returned := by
    intro value context equal function
    have result := ran.result
    rw [function] at result
    obtain ⟨was, wasFunction, sameResult⟩ : ∃ was, state.function = some was ∧
        was.result = context.result := by
      cases earlier : state.function with
      | none => simp [earlier] at result
      | some was => exact ⟨was, rfl, by simpa [earlier] using result.symm⟩
    rw [← sameResult]
    rcases enterable.returned value was equal wasFunction with
      ⟨ty, found, empty⟩ | ⟨node, operand, found, kind, typed⟩
    · exact .inl ⟨ty, ran.extended.types _ ty found, empty⟩
    · exact .inr ⟨node, operand, ran.extended.nodes _ node found, kind, typed⟩

end Enterable

/-- Entering a node of a known type. -/
theorem newTyped_meets
    (inv : Inv tokens base state)
    {kind : NodeKind}
    (enterable : Enterable base state kind)
    (rule : state.program.KindRule kind)
    {ty : TyId}
    (has : state.program.types.Has ty)
    (typing : state.program.TypingRule ty kind)
    (tok : Nat)
    (named : ∀ function args, kind = .call function args ->
      state.program.name? function = some (tokens.get tok).text := by simp) :
    Meets tokens (newTyped kind ty tok) state (NewNode tokens base state kind ty) := by
  have present {child : NodeId} (member : child ∈ kind.children) :
      base ≤ child.index ∧ child.index < state.program.nodes.size := by
    rcases NodeKind.mem_children.mp member with operand | part
    · obtain ⟨near, node, found, _⟩ := enterable.operands child operand
      exact ⟨near, (Array.getElem?_eq_some_iff.mp found).1⟩
    · obtain ⟨near, node, found, _⟩ := enterable.parts child part
      exact ⟨near, (Array.getElem?_eq_some_iff.mp found).1⟩
  have nodeRule : state.program.NodeRule tokens ⟨state.program.nodes.size⟩
      ⟨kind, some ty, (state.token tok).loc, (state.token tok).line⟩ :=
    { place := ⟨tok, by rw [← inv.same]; rfl, named⟩
      typed := ⟨ty, rfl, has, typing⟩
      earlier := fun child member => (present member).2
      operands := fun child member => (enterable.operands child member).is
      parts := fun child member => (enterable.parts child member).is
      kind := rule }
  have homeRule (context : FunctionContext) (inside : state.function = some context) :
      state.program.HomeRule base context.locals context.result kind :=
    { near := fun child member => (present member).1
      own := by
        have own : state.locals = context.locals := by simp [State.locals, inside]
        rw [← own]
        exact enterable.own
      returned := fun value equal => enterable.returned value context equal inside }
  refine ⟨⟨⟨inv.pushNode nodeRule homeRule, Program.extends_pushNode _ _, rfl,
    List.prefix_rfl, .refl _, Nat.le_refl _⟩, rfl⟩, inv.base_le, Nat.le_refl _, rfl, ?_⟩
  exact ⟨⟨kind, some ty, (state.token tok).loc, (state.token tok).line⟩,
    by simp [Program.node?], rfl, rfl⟩

/-! ## Checks -/

/-- A type that has an entry is looked up with success. -/
theorem lookupTy_meets {ty : TyId} {entry : Ty} {β : Type} {rest : Ty -> Parser β}
    {post : β -> State -> Prop}
    (found : state.program.types.get? ty = some entry)
    (second : Meets tokens (rest entry) state post) :
    Meets tokens (lookupTy ty >>= rest) state post :=
  .query (lookupTy_eq_ok found) second

/-- The type of a node that has one is looked up with success. -/
theorem typeOf_meets {id : NodeId} {ty : TyId} {entry : Ty} {β : Type}
    {rest : TyId -> Parser β} {post : β -> State -> Prop}
    (typed : state.program.HasTy id ty entry)
    (second : Meets tokens (rest ty) state post) :
    Meets tokens (typeOf id >>= rest) state post :=
  .query (typeOf_eq_ok typed) second

theorem typeOf_meets_last {id : NodeId} {ty : TyId} {entry : Ty}
    {post : TyId -> State -> Prop}
    (typed : state.program.HasTy id ty entry)
    (holds : post ty state) :
    Meets tokens (typeOf id) state post := by
  rw [← bind_pure (typeOf id)]
  exact typeOf_meets typed (.pure holds)

/-- The type entry of a node that has one is looked up with success. -/
theorem nodeTy_meets {id : NodeId} {ty : TyId} {entry : Ty} {β : Type}
    {rest : Ty -> Parser β} {post : β -> State -> Prop}
    (typed : state.program.HasTy id ty entry)
    (second : Meets tokens (rest entry) state post) :
    Meets tokens (nodeTy id >>= rest) state post :=
  .query (nodeTy_eq_ok typed) second

/-- A check that rejects the source text or changes nothing. -/
def Checks (tokens : TokenStream) (state : State) (check : Parser Unit) (fact : Prop) :
    Prop :=
  Meets tokens check state fun _ after => after = state ∧ fact

/-- An operand that passes is no struct or union. -/
theorem checkScalar_meets
    (inv : Inv tokens base state)
    {id : NodeId}
    {ty : TyId}
    {entry : Ty}
    (typed : state.program.HasTy id ty entry)
    (tok : Nat) :
    Checks tokens state (checkScalar id tok) (entry.isAggregate = false) := by
  refine nodeTy_meets typed ?_
  split
  · exact .failAt inv.same
  · rename_i scalar
    exact .pure ⟨rfl, by simpa using scalar⟩

/-- An operand that passes is an integer. -/
theorem checkInteger_meets
    (inv : Inv tokens base state)
    {id : NodeId}
    {ty : TyId}
    {entry : Ty}
    (typed : state.program.HasTy id ty entry)
    (tok : Nat) :
    Checks tokens state (checkInteger id tok) (entry.isInteger = true) := by
  refine nodeTy_meets typed ?_
  split
  · rename_i integer
    exact .pure ⟨rfl, integer⟩
  · exact .failAt inv.same

/-- An operand that passes is an integer, a pointer or an array. -/
theorem checkArithmetic_meets
    (inv : Inv tokens base state)
    (ty : Ty)
    (tok : Nat) :
    Checks tokens state (checkArithmetic ty tok)
      (ty.isInteger = true ∨ ty.base?.isSome = true) := by
  unfold Checks checkArithmetic
  split
  · rename_i fine
    exact .pure ⟨rfl, by simpa using fine⟩
  · exact .failAt inv.same

/-! ## Types of nodes -/

/-- A type for a node of a kind has been found. -/
structure Inferred (tokens : TokenStream) (base : Nat) (state : State) (kind : NodeKind)
    (ty : TyId) (after : State) : Prop where
  ran : Ran tokens base state after
  stays : after.pos = state.pos
  has : after.program.types.Has ty
  typing : after.program.TypingRule ty kind

theorem Inferred.here
    (inv : Inv tokens base state)
    {kind : NodeKind}
    {ty : TyId}
    (has : state.program.types.Has ty)
    (typing : state.program.TypingRule ty kind) :
    Inferred tokens base state kind ty state :=
  ⟨.refl inv, rfl, has, typing⟩

/-- The common type of two operands is in the table. -/
theorem joinTy_has
    (inv : Inv tokens base state)
    {lhs : TyId}
    (has : state.program.types.Has lhs)
    (left right : Ty) :
    state.program.types.Has (Program.joinTy lhs left right) := by
  unfold Program.joinTy
  split
  · exact has
  split
  · exact inv.has_long
  split
  · exact inv.has_int
  · exact has

/-- Arithmetic on integers gives an integer. -/
theorem joinTy_isInteger
    (inv : Inv tokens base state)
    {lhs : TyId}
    {left : Ty}
    (found : state.program.types.get? lhs = some left)
    (integer : left.isInteger = true)
    (right : Ty) :
    ∃ entry, state.program.types.get? (Program.joinTy lhs left right) = some entry ∧
      entry.isInteger = true := by
  unfold Program.joinTy
  rw [if_neg (by simp [integer])]
  split
  · exact ⟨_, inv.types.primitives .long ⟨.long, 8, 8, none⟩ rfl, rfl⟩
  split
  · exact ⟨_, inv.types.primitives .int ⟨.int, 4, 4, none⟩ rfl, rfl⟩
  · exact ⟨left, found, integer⟩

/-- The type of arithmetic is found without a change of the state. -/
theorem arithmeticTy_meets
    {lhs rhs : TyId}
    {left right : Ty}
    (leftFound : state.program.types.get? lhs = some left)
    (rightFound : state.program.types.get? rhs = some right) :
    Meets tokens (arithmeticTy lhs rhs) state fun ty after =>
      ty = Program.joinTy lhs left right ∧ after = state := by
  refine lookupTy_meets leftFound (lookupTy_meets rightFound ?_)
  by_cases integer : left.isInteger = true
  · rw [if_neg (by simp [integer])]
    by_cases wide : left.size = 8 ∨ right.isInteger = true ∧ right.size = 8
    · rw [if_pos (by simpa using wide)]
      exact .pure ⟨by simp [Program.joinTy, integer, wide], rfl⟩
    · rw [if_neg (by simpa using wide)]
      by_cases narrow : left.size < 4 ∨ left.isEnum = true
      · rw [if_pos (by simpa using narrow)]
        exact .pure ⟨by simp [Program.joinTy, integer, wide, narrow], rfl⟩
      · rw [if_neg (by simpa using narrow)]
        exact .pure ⟨by simp [Program.joinTy, integer, wide, narrow], rfl⟩
  · rw [if_pos (by simp [integer])]
    exact .pure ⟨by simp [Program.joinTy, integer], rfl⟩

/-- A pointer or array becomes a pointer. -/
theorem decayed_meets
    (inv : Inv tokens base state)
    {ty : TyId}
    {entry : Ty}
    {element : TyId}
    (found : state.program.types.get? ty = some entry)
    (pointing : entry.base? = some element) :
    Meets tokens (decayed ty) state fun id after =>
      Ran tokens base state after ∧ after.pos = state.pos ∧
        after.program.PointsTo id element := by
  refine lookupTy_meets found ?_
  split
  · rename_i target length kind
    obtain rfl : target = element := by simpa [Ty.base?, kind] using pointing
    have has : state.program.types.Has target :=
      inv.types.refs ty entry found target (by simp [kind, TyKind.refs])
    refine (pointerTo_meets inv has).weaken ?_
    intro id after outcome
    exact ⟨outcome.1, outcome.2.1, _, outcome.2.2, rfl⟩
  · rename_i noArray
    refine .pure ⟨.refl inv, rfl, entry, found, ?_⟩
    unfold Ty.base? at pointing
    split at pointing
    · rename_i target kind
      rw [kind, Option.some.inj pointing]
    · rename_i target length kind
      exact absurd kind (noArray target length)
    · cases pointing

/-- A number has the type `int` or `long`, by its size. -/
theorem inferTy_num_meets (inv : Inv tokens base state) (value : Int) (tok : Nat) :
    Meets tokens (inferTy (.num value) tok) state
      (Inferred tokens base state (.num value)) := by
  have typing : state.program.TypingRule (literalTy value) (.num value) := by
    unfold literalTy
    split
    · exact ⟨_, inv.types.primitives .int ⟨.int, 4, 4, none⟩ rfl, rfl⟩
    · exact ⟨_, inv.types.primitives .long ⟨.long, 8, 8, none⟩ rfl, rfl⟩
  obtain ⟨_, found, _⟩ := id typing
  exact .pure (.here inv (.of_get? found) typing)

/-- A variable has its own type. -/
theorem inferTy_var_meets
    (inv : Inv tokens base state)
    {id : SymbolId}
    {symbol : Symbol}
    (found : state.program.symbol? id = some symbol)
    (tok : Nat) :
    Meets tokens (inferTy (.var id) tok) state
      (Inferred tokens base state (.var id)) := by
  refine .query (lookupSymbol_of_some found) (.pure ?_)
  exact .here inv (inv.symbols id symbol found).typed ⟨symbol, found, rfl⟩

theorem inferTy_unary_meets
    (inv : Inv tokens base state)
    (op : UnaryOp)
    {operand : NodeId}
    (present : Operand base state operand)
    (tok : Nat) :
    Meets tokens (inferTy (.unary op operand) tok) state
      (Inferred tokens base state (.unary op operand)) := by
  obtain ⟨ty, entry, typed⟩ := present.hasTy inv
  obtain ⟨_, _, _, found⟩ := id typed
  have arithmetic (other : op ≠ .not) : Meets tokens (do
      let ty ← typeOf operand
      unless (← lookupTy ty).isInteger do
        failAt tok (.typing .invalidOperand)
      arithmeticTy ty ty) state (Inferred tokens base state (.unary op operand)) := by
    refine typeOf_meets typed (lookupTy_meets found ?_)
    refine .rejectUnless (.failAt inv.same) fun integer => ?_
    refine (arithmeticTy_meets found found).weaken ?_
    rintro _ _ ⟨rfl, rfl⟩
    refine .here inv (joinTy_has inv (.of_get? found) entry entry) ?_
    cases op with
    | not => exact absurd rfl other
    | neg => exact ⟨ty, entry, typed, integer, rfl⟩
    | bitNot => exact ⟨ty, entry, typed, integer, rfl⟩
  cases op with
  | not =>
      refine nodeTy_meets typed ?_
      refine .rejectIf (.failAt inv.same) fun scalar => .pure (.here inv inv.has_int ?_)
      exact ⟨⟨ty, entry, typed, by simpa using scalar⟩, rfl⟩
  | neg => exact arithmetic (by simp)
  | bitNot => exact arithmetic (by simp)

/-- An operator on scalars, which are integers unless the result is a truth value. -/
theorem inferTy_binary_meets
    (inv : Inv tokens base state)
    {op : BinaryOp}
    {lhs rhs : NodeId}
    (left : state.program.IsScalar lhs)
    (right : state.program.IsScalar rhs)
    (numbers : op.isTruth = false ->
      state.program.IsInteger lhs ∧ state.program.IsInteger rhs)
    (tok : Nat) :
    Meets tokens (inferTy (.binary op lhs rhs) tok) state
      (Inferred tokens base state (.binary op lhs rhs)) := by
  change Meets tokens (if op.isTruth = true then _ else _) state _
  split
  · rename_i truth
    exact .pure (.here inv inv.has_int (.truth truth left right))
  · rename_i number
    obtain ⟨⟨leftTy, leftEntry, leftTyped, leftInteger⟩,
      ⟨rightTy, rightEntry, rightTyped, rightInteger⟩⟩ := numbers (by simpa using number)
    obtain ⟨_, _, _, leftFound⟩ := id leftTyped
    obtain ⟨_, _, _, rightFound⟩ := id rightTyped
    refine typeOf_meets leftTyped (typeOf_meets rightTyped ?_)
    refine (arithmeticTy_meets leftFound rightFound).weaken ?_
    rintro _ _ ⟨rfl, rfl⟩
    refine .here inv (joinTy_has inv (.of_get? leftFound) leftEntry rightEntry) ?_
    exact .numbers (by simpa using number) leftTyped rightTyped leftInteger rightInteger

/-- The type of the right operand is that of both. -/
theorem inferTy_comma_meets
    (inv : Inv tokens base state)
    {lhs rhs : NodeId}
    (right : Operand base state rhs)
    (tok : Nat) :
    Meets tokens (inferTy (.comma lhs rhs) tok) state
      (Inferred tokens base state (.comma lhs rhs)) := by
  obtain ⟨ty, entry, typed⟩ := right.hasTy inv
  exact typeOf_meets_last typed (.here inv (Program.HasTy.has typed) ⟨entry, typed⟩)

/-- The two sides of an assignment have the same type. -/
theorem inferTy_assign_meets
    (inv : Inv tokens base state)
    {lhs rhs : NodeId}
    {ty : TyId}
    {left right : Ty}
    (leftTyped : state.program.HasTy lhs ty left)
    (rightTyped : state.program.HasTy rhs ty right)
    (converted : left.isAggregate = false -> ∃ node operand,
      state.program.node? rhs = some node ∧ node.kind = .cast operand)
    (tok : Nat) :
    Meets tokens (inferTy (.assign lhs rhs) tok) state
      (Inferred tokens base state (.assign lhs rhs)) := by
  obtain ⟨_, _, _, found⟩ := id leftTyped
  refine typeOf_meets leftTyped (lookupTy_meets found ?_)
  refine .rejectIf (.failAt inv.same) fun noArray => ?_
  refine .pure (.here inv (.of_get? found)
    ⟨left, right, leftTyped, rightTyped, ?_, converted⟩)
  simpa using noArray

/-- A pointer type is entered for an address. -/
theorem inferTy_addr_meets
    (inv : Inv tokens base state)
    {operand : NodeId}
    (present : Operand base state operand)
    (tok : Nat) :
    Meets tokens (inferTy (.addr operand) tok) state
      (Inferred tokens base state (.addr operand)) := by
  obtain ⟨ty, entry, typed⟩ := present.hasTy inv
  obtain ⟨_, _, _, found⟩ := id typed
  have pointed {target : TyId} (has : state.program.types.Has target)
      (equal : entry.pointee ty = target) :
      Meets tokens (pointerTo target) state
        (Inferred tokens base state (.addr operand)) := by
    refine (pointerTo_meets inv has).weaken ?_
    rintro pointer after ⟨ran, stays, there⟩
    refine ⟨ran, stays, .of_get? there, ty, entry, ran.extended.hasTy typed, ?_⟩
    rw [equal]
    exact ⟨_, there, rfl⟩
  refine typeOf_meets typed (lookupTy_meets found ?_)
  split
  · rename_i element length kind
    exact pointed (inv.types.refs ty entry found element (by simp [kind, TyKind.refs]))
      (by simp [Ty.pointee, kind])
  · rename_i noArray
    refine pointed (.of_get? found) ?_
    unfold Ty.pointee
    split
    · rename_i element length kind
      exact absurd kind (noArray element length)
    · rfl

/-- What a pointer points to may not be `void`. -/
theorem inferTy_deref_meets
    (inv : Inv tokens base state)
    {operand : NodeId}
    (present : Operand base state operand)
    (tok : Nat) :
    Meets tokens (inferTy (.deref operand) tok) state
      (Inferred tokens base state (.deref operand)) := by
  obtain ⟨ty, entry, typed⟩ := present.hasTy inv
  obtain ⟨_, _, _, found⟩ := id typed
  refine nodeTy_meets typed ?_
  split
  · exact .failAt inv.same
  · rename_i target pointing
    have has : state.program.types.Has target := by
      refine inv.types.refs ty entry found target ?_
      unfold Ty.base? at pointing
      split at pointing <;> simp_all [TyKind.refs]
    obtain ⟨targetEntry, targetFound⟩ := TypeTable.has_iff.mp has
    refine lookupTy_meets targetFound ?_
    refine .rejectIf (.failAt inv.same) fun solid => .pure (.here inv has ?_)
    exact ⟨⟨ty, entry, typed, pointing⟩, targetEntry, targetFound, by simpa using solid⟩

/-- A statement has the type `void`. -/
theorem inferTy_statement_meets
    (inv : Inv tokens base state)
    {kind : NodeKind}
    (statement : kind.isExpression = false)
    (typing : state.program.TypingRule .void kind)
    (tok : Nat) :
    Meets tokens (inferTy kind tok) state (Inferred tokens base state kind) := by
  have empty : Inferred tokens base state kind .void state :=
    .here inv inv.has_void typing
  cases kind <;> first | exact .pure empty | simp [NodeKind.isExpression] at statement

/-! ## Nodes with the type that their kind gives them -/

/-- A node has been entered with a kind. -/
def Entered (tokens : TokenStream) (base : Nat) (state : State) (kind : NodeKind)
    (id : NodeId) (after : State) : Prop :=
  ∃ ty, NewNode tokens base state kind ty id after

/-- An expression has been built at the cursor from others. -/
structure Built (tokens : TokenStream) (base : Nat)
    (operands : List NodeId) (state : State) (id : NodeId) (after : State) : Prop where
  ran : Ran tokens base state after
  stays : after.pos = state.pos
  operand : Operand base after id
  bears : ∀ signs, state.program.Bears operands signs -> after.program.Bears [id] signs

/-- A node that is entered is built over its children. -/
theorem NewNode.built
    {kind : NodeKind}
    {ty : TyId}
    {id : NodeId}
    {after : State}
    (entered : NewNode tokens base state kind ty id after)
    (expression : kind.isExpression = true) :
    Built tokens base kind.children state id after where
  ran := entered.ran
  stays := entered.stays
  operand := entered.operand expression
  bears := by
    intro signs below
    have bears := entered.bears below
    rwa [NodeKind.sign?_of_isExpression expression] at bears

/-- An expression built behind a run from what the run has made of others. -/
theorem Built.behind
    {before after : State}
    {operands others : List NodeId}
    {id : NodeId}
    (built : Built tokens base operands state id after)
    (ran : Ran tokens base before state)
    (stays : state.pos = before.pos)
    (bears : ∀ signs, before.program.Bears others signs ->
      state.program.Bears operands signs) :
    Built tokens base others before id after where
  ran := ran.trans built.ran
  stays := built.stays.trans stays
  operand := built.operand
  bears := fun signs own => built.bears signs (bears signs own)

/-- A node is entered with the type that is found for it. -/
theorem newNode_meets
    {kind : NodeKind}
    {tok : Nat}
    (inferred : Meets tokens (inferTy kind tok) state (Inferred tokens base state kind))
    (enterable : Enterable base state kind)
    (rule : state.program.KindRule kind)
    (noCall : ∀ function args, kind ≠ .call function args) :
    Meets tokens (newNode kind tok) state (Entered tokens base state kind) := by
  refine .bind inferred ?_
  intro ty middle found
  have entered := newTyped_meets found.ran.inv (enterable.run found.ran.toMoved)
    (found.ran.grows.kindRule rule) found.has found.typing tok
    (fun function args equal => absurd equal (noCall function args))
  refine entered.weaken ?_
  intro id after outcome
  exact ⟨ty, outcome.behind found.ran found.stays⟩

/-- What a node with expressions as children asks of the state. -/
theorem Enterable.ofOperands
    {kind : NodeKind}
    (operands : ∀ child ∈ kind.operands, Operand base state child)
    (parts : kind.parts = [])
    (noVar : ∀ id, kind ≠ .var id)
    (noReturn : ∀ value, kind ≠ .ret (some value)) :
    Enterable base state kind where
  operands := operands
  parts := by simp [parts]
  own := fun id equal => absurd equal (noVar id)
  returned := fun value _ equal => absurd equal (noReturn value)

/-- A number is built over nothing. -/
theorem newNum_meets (inv : Inv tokens base state) (value : Int) (tok : Nat) :
    Meets tokens (newNode (.num value) tok) state (Built tokens base [] state) := by
  have enterable : Enterable base state (.num value) :=
    .ofOperands (by simp [NodeKind.operands]) rfl (by simp) (by simp)
  refine (newNode_meets (inferTy_num_meets inv value tok) enterable trivial
    (by simp)).weaken ?_
  rintro id after ⟨ty, entered⟩
  exact entered.built rfl

/-- A reference to a symbol that is in reach. -/
theorem newVar_meets
    (inv : Inv tokens base state)
    {id : SymbolId}
    {symbol : Symbol}
    (found : state.program.symbol? id = some symbol)
    (reached : symbol.isLocal = true -> id ∈ state.locals)
    (tok : Nat) :
    Meets tokens (newNode (.var id) tok) state (Built tokens base [] state) := by
  have enterable : Enterable base state (.var id) :=
    { operands := by simp [NodeKind.operands]
      parts := by simp [NodeKind.parts]
      own := by
        intro other equal
        cases equal
        exact ⟨symbol, found, reached⟩
      returned := by simp }
  refine (newNode_meets (inferTy_var_meets inv found tok) enterable ⟨symbol, found⟩
    (by simp)).weaken ?_
  rintro node after ⟨ty, entered⟩
  exact entered.built rfl

/-- A node with one operand. -/
theorem newUnaryNode_meets
    {kind : NodeKind}
    {operand : NodeId}
    {tok : Nat}
    (single : kind.operands = [operand])
    (parts : kind.parts = [])
    (expression : kind.isExpression = true)
    (present : Operand base state operand)
    (rule : state.program.KindRule kind)
    (inferred : Meets tokens (inferTy kind tok) state (Inferred tokens base state kind))
    (noCall : ∀ function args, kind ≠ .call function args) :
    Meets tokens (newNode kind tok) state (Built tokens base kind.children state) := by
  have enterable : Enterable base state kind := by
    refine .ofOperands ?_ parts ?_ ?_
    · intro child member
      rw [single] at member
      obtain rfl := List.mem_singleton.mp member
      exact present
    · rintro id rfl
      simp [NodeKind.operands] at single
    · rintro value rfl
      simp [NodeKind.isExpression] at expression
  refine (newNode_meets inferred enterable rule noCall).weaken ?_
  rintro id after ⟨ty, entered⟩
  exact entered.built expression

/-- An operator is built over its operand. -/
theorem newUnary_meets
    (inv : Inv tokens base state)
    (op : UnaryOp)
    {operand : NodeId}
    (present : Operand base state operand)
    (tok : Nat) :
    Meets tokens (newNode (.unary op operand) tok) state
      (Built tokens base [operand] state) :=
  newUnaryNode_meets rfl rfl rfl present trivial
    (inferTy_unary_meets inv op present tok) (by simp)

theorem newAddr_meets
    (inv : Inv tokens base state)
    {operand : NodeId}
    (present : Operand base state operand)
    (tok : Nat) :
    Meets tokens (newNode (.addr operand) tok) state
      (Built tokens base [operand] state) :=
  newUnaryNode_meets rfl rfl rfl present trivial
    (inferTy_addr_meets inv present tok) (by simp)

theorem newDeref_meets
    (inv : Inv tokens base state)
    {operand : NodeId}
    (present : Operand base state operand)
    (tok : Nat) :
    Meets tokens (newNode (.deref operand) tok) state
      (Built tokens base [operand] state) :=
  newUnaryNode_meets rfl rfl rfl present trivial
    (inferTy_deref_meets inv present tok) (by simp)

/-- A node with two operands may be entered behind them. -/
theorem enterable_pair
    {kind : NodeKind}
    {lhs rhs : NodeId}
    (left : Operand base state lhs)
    (right : Operand base state rhs)
    (both : kind.operands = [lhs, rhs])
    (parts : kind.parts = []) :
    Enterable base state kind := by
  refine .ofOperands ?_ parts ?_ ?_
  · intro child member
    rw [both] at member
    rcases List.mem_cons.mp member with rfl | last
    · exact left
    · obtain rfl := List.mem_singleton.mp last
      exact right
  · rintro id rfl
    simp [NodeKind.operands] at both
  · rintro value rfl
    simp [NodeKind.operands] at both

/-- A comma is built over its operands. -/
theorem newComma_meets
    (inv : Inv tokens base state)
    {lhs rhs : NodeId}
    (left : Operand base state lhs)
    (right : Operand base state rhs)
    (tok : Nat) :
    Meets tokens (newNode (.comma lhs rhs) tok) state
      (Built tokens base [lhs, rhs] state) := by
  have enterable : Enterable base state (.comma lhs rhs) :=
    enterable_pair left right rfl rfl
  refine (newNode_meets (inferTy_comma_meets inv right tok) enterable trivial
    (by simp)).weaken ?_
  rintro id after ⟨ty, entered⟩
  exact entered.built rfl

/-- An operator on operands that are integers unless the result is a truth value. -/
theorem newBinary_meets
    (inv : Inv tokens base state)
    {op : BinaryOp}
    {lhs rhs : NodeId}
    (left : Operand base state lhs)
    (right : Operand base state rhs)
    (numbers : op.isTruth = false ->
      state.program.IsInteger lhs ∧ state.program.IsInteger rhs)
    (tok : Nat) :
    Meets tokens (newBinary op lhs rhs tok) state
      (Entered tokens base state (.binary op lhs rhs)) := by
  obtain ⟨leftTy, leftEntry, leftTyped⟩ := left.hasTy inv
  obtain ⟨rightTy, rightEntry, rightTyped⟩ := right.hasTy inv
  refine .bind (checkScalar_meets inv leftTyped tok) ?_
  rintro _ _ ⟨rfl, leftScalar⟩
  refine .bind (checkScalar_meets inv rightTyped tok) ?_
  rintro _ _ ⟨rfl, rightScalar⟩
  have enterable : Enterable base _ (.binary op lhs rhs) :=
    enterable_pair left right rfl rfl
  exact newNode_meets (inferTy_binary_meets inv ⟨leftTy, leftEntry, leftTyped, leftScalar⟩
    ⟨rightTy, rightEntry, rightTyped, rightScalar⟩ numbers tok) enterable
      trivial (by simp)

/-- A comparison or logical operator. -/
theorem newTruth_meets
    (inv : Inv tokens base state)
    {op : BinaryOp}
    (truth : op.isTruth = true)
    {lhs rhs : NodeId}
    (left : Operand base state lhs)
    (right : Operand base state rhs)
    (tok : Nat) :
    Meets tokens (newBinary op lhs rhs tok) state
      (Built tokens base [lhs, rhs] state) := by
  refine (newBinary_meets inv left right (by simp [truth]) tok).weaken ?_
  rintro id after ⟨ty, entered⟩
  exact entered.built rfl

/-- Arithmetic on integers. -/
theorem newNumbers_meets
    (inv : Inv tokens base state)
    (op : BinaryOp)
    {lhs rhs : NodeId}
    (left : Operand base state lhs)
    (right : Operand base state rhs)
    (leftInteger : state.program.IsInteger lhs)
    (rightInteger : state.program.IsInteger rhs)
    (tok : Nat) :
    Meets tokens (newBinary op lhs rhs tok) state
      (Built tokens base [lhs, rhs] state) := by
  refine (newBinary_meets inv left right (fun _ => ⟨leftInteger, rightInteger⟩)
    tok).weaken ?_
  rintro id after ⟨ty, entered⟩
  exact entered.built rfl

/-- An operator on integers is built over its operands. -/
theorem newIntegerBinary_meets
    (inv : Inv tokens base state)
    (op : BinaryOp)
    {lhs rhs : NodeId}
    (left : Operand base state lhs)
    (right : Operand base state rhs)
    (tok : Nat) :
    Meets tokens (newIntegerBinary op lhs rhs tok) state
      (Built tokens base [lhs, rhs] state) := by
  obtain ⟨_, _, leftTyped⟩ := left.hasTy inv
  obtain ⟨_, _, rightTyped⟩ := right.hasTy inv
  refine .bind (checkInteger_meets inv leftTyped tok) ?_
  rintro _ _ ⟨rfl, leftInteger⟩
  refine .bind (checkInteger_meets inv rightTyped tok) ?_
  rintro _ _ ⟨rfl, rightInteger⟩
  exact newNumbers_meets inv op left right ⟨_, _, leftTyped, leftInteger⟩
    ⟨_, _, rightTyped, rightInteger⟩ tok

/-- A conversion to a type that is there. -/
theorem newCast_meets
    (inv : Inv tokens base state)
    {operand : NodeId}
    (present : Operand base state operand)
    {ty : TyId}
    (has : state.program.types.Has ty)
    (tok : Nat) :
    Meets tokens (newCast operand ty tok) state
      (NewNode tokens base state (.cast operand) ty) := by
  obtain ⟨own, entry, typed⟩ := present.hasTy inv
  obtain ⟨target, found⟩ := TypeTable.has_iff.mp has
  have enterable : Enterable base state (.cast operand) := by
    refine .ofOperands ?_ rfl (by simp) (by simp)
    intro child member
    obtain rfl := List.mem_singleton.mp member
    exact present
  refine lookupTy_meets found ?_
  refine .rejectIf (.failAt inv.same) fun scalar => ?_
  refine nodeTy_meets typed ?_
  refine .rejectIf (.failAt inv.same) fun fits => ?_
  refine newTyped_meets inv enterable trivial has ?_ tok
  exact ⟨target, own, entry, found, by simpa using scalar, typed, by simpa using fits⟩

theorem newAssignNode_meets
    (inv : Inv tokens base state)
    {lhs rhs : NodeId}
    (leftOperand : Operand base state lhs)
    (rightOperand : Operand base state rhs)
    {ty : TyId}
    {left right : Ty}
    (leftTyped : state.program.HasTy lhs ty left)
    (rightTyped : state.program.HasTy rhs ty right)
    (converted : left.isAggregate = false -> ∃ node operand,
      state.program.node? rhs = some node ∧ node.kind = .cast operand)
    (tok : Nat) :
    Meets tokens (newNode (.assign lhs rhs) tok) state
      (Built tokens base [lhs, rhs] state) := by
  have enterable : Enterable base state (.assign lhs rhs) :=
    enterable_pair leftOperand rightOperand rfl rfl
  have inferred := inferTy_assign_meets inv leftTyped rightTyped converted tok
  refine (newNode_meets inferred enterable trivial (by simp)).weaken ?_
  rintro id after ⟨ty, entered⟩
  exact entered.built rfl

/-- An assignment is built over its left side and the converted right one. -/
theorem newAssign_meets
    (inv : Inv tokens base state)
    {lhs rhs : NodeId}
    (leftOperand : Operand base state lhs)
    (rightOperand : Operand base state rhs)
    (tok : Nat) :
    Meets tokens (newAssign lhs rhs tok) state (Built tokens base [lhs, rhs] state) := by
  obtain ⟨leftTy, left, leftTyped⟩ := leftOperand.hasTy inv
  obtain ⟨rightTy, right, rightTyped⟩ := rightOperand.hasTy inv
  obtain ⟨_, _, _, found⟩ := id leftTyped
  refine typeOf_meets leftTyped (typeOf_meets rightTyped (lookupTy_meets found ?_))
  refine .rejectIf (.failAt inv.same) fun _ => ?_
  split
  · rename_i aggregate
    refine .rejectIf (.failAt inv.same) fun equal => ?_
    obtain rfl : leftTy = rightTy := by simpa using equal
    exact newAssignNode_meets inv leftOperand rightOperand leftTyped rightTyped
      (by simp [aggregate]) tok
  · refine .bind (newCast_meets inv rightOperand (.of_get? found) tok) ?_
    intro cast middle entered
    obtain ⟨node, there, kind, typed⟩ := entered.node
    have leftThen := entered.ran.extended.hasTy leftTyped
    have castTyped : middle.program.HasTy cast leftTy left :=
      ⟨node, there, typed, entered.ran.extended.types leftTy left found⟩
    refine (newAssignNode_meets entered.ran.inv (entered.ran.operand leftOperand)
      (entered.operand rfl) leftThen castTyped (fun _ => ⟨node, rhs, there, kind⟩)
        tok).weaken ?_
    intro id after built
    refine built.behind entered.ran entered.stays fun signs bears => ?_
    exact @Program.Bears.replaceLast _ [lhs] _ _ _ _ bears entered.ran.extended
      (entered.built rfl).bears

/-! ## Arithmetic on pointers -/

theorem newNumber_meets
    (inv : Inv tokens base state)
    (value : Int)
    (tok : Nat) :
    Meets tokens (newTyped (.num value) .int tok) state
      (NewNode tokens base state (.num value) .int) := by
  have enterable : Enterable base state (.num value) :=
    .ofOperands (by simp [NodeKind.operands]) rfl (by simp) (by simp)
  exact newTyped_meets inv enterable trivial inv.has_int
    ⟨_, inv.types.primitives .int ⟨.int, 4, 4, none⟩ rfl, rfl⟩ tok

/-- A node of a type entered with it. -/
theorem NewNode.hasTy
    {kind : NodeKind}
    {ty : TyId}
    {id : NodeId}
    {after : State}
    (entered : NewNode tokens base state kind ty id after)
    {entry : Ty}
    (found : after.program.types.get? ty = some entry) :
    after.program.HasTy id ty entry := by
  obtain ⟨node, there, _, typed⟩ := entered.node
  exact ⟨node, there, typed, found⟩

/-- A number of elements in bytes has been entered. -/
structure Scaled (tokens : TokenStream) (base : Nat) (state : State) (count : NodeId)
    (element : TyId) (id : NodeId) (after : State) : Prop
    extends Built tokens base [count] state id after where
  integer : after.program.IsInteger id
  scales : after.program.Scales id count element

/-- An integer is multiplied by the size of an element, if that has one. -/
theorem scale_meets
    (inv : Inv tokens base state)
    {operand : NodeId}
    (present : Operand base state operand)
    (integer : state.program.IsInteger operand)
    {element : TyId}
    (has : state.program.types.Has element)
    (tok : Nat) :
    Meets tokens (scale operand element tok) state
      (Scaled tokens base state operand element) := by
  obtain ⟨entry, found⟩ := TypeTable.has_iff.mp has
  refine lookupTy_meets found ?_
  refine .rejectIf (.failAt inv.same) fun sized => ?_
  refine .bind (newNumber_meets inv entry.size tok) ?_
  intro factor middle entered
  have int := entered.ran.inv.types.primitives .int ⟨.int, 4, 4, none⟩ rfl
  have factorInteger : middle.program.IsInteger factor := ⟨_, _, entered.hasTy int, rfl⟩
  refine (newBinary_meets entered.ran.inv (entered.ran.operand present)
    (entered.operand rfl) (fun _ => ⟨entered.ran.grows.isInteger integer, factorInteger⟩)
    tok).weaken ?_
  rintro id after ⟨ty, product⟩
  have ran := entered.ran.trans product.ran
  obtain ⟨node, there, kind, typed⟩ := product.node
  obtain ⟨number, numberFound, numberKind, numberTyped⟩ := entered.node
  obtain ⟨own, ownTyped, _, rule⟩ := (product.ran.inv.nodes id node there).typed
  have operands (signs : List Sign) (bears : state.program.Bears [operand] signs) :
      middle.program.Bears [operand, factor] signs :=
    (bears.extend entered.ran.extended).concat ((entered.built rfl).bears [] .nil)
  refine ⟨(product.built rfl).behind entered.ran entered.stays operands, ?_, node,
    factor, number, entry, there, kind, product.ran.extended.nodes factor number
      numberFound, numberKind,
    numberTyped, ran.extended.types element entry found, by simpa using sized⟩
  rw [kind] at rule
  obtain ⟨_, left, leftTyped, leftInteger⟩ := ran.grows.isInteger integer
  obtain ⟨_, right, rightTyped, rightInteger⟩ := product.ran.grows.isInteger factorInteger
  have joined := rule.eq_joinTy rfl leftTyped rightTyped leftInteger rightInteger
  obtain ⟨_, _, _, leftFound⟩ := leftTyped
  obtain ⟨result, resultFound, resultInteger⟩ :=
    joinTy_isInteger ran.inv leftFound leftInteger right
  exact ⟨own, result, ⟨node, there, ownTyped, by rw [joined]; exact resultFound⟩,
    resultInteger⟩

/-- Arithmetic on a pointer. -/
theorem newPointerNode_meets
    (inv : Inv tokens base state)
    {op : BinaryOp}
    {lhs rhs : NodeId}
    (leftOperand : Operand base state lhs)
    (rightOperand : Operand base state rhs)
    {ty : TyId}
    (has : state.program.types.Has ty)
    (rule : state.program.OperationRule ty op lhs rhs)
    (tok : Nat) :
    Meets tokens (newTyped (.binary op lhs rhs) ty tok) state
      (NewNode tokens base state (.binary op lhs rhs) ty) := by
  have enterable : Enterable base state (.binary op lhs rhs) :=
    enterable_pair leftOperand rightOperand rfl rfl
  exact newTyped_meets inv enterable trivial has rule tok

/-- What a pointer points to is in the table. -/
theorem has_of_base?
    (inv : Inv tokens base state)
    {id : NodeId}
    {ty element : TyId}
    {entry : Ty}
    (typed : state.program.HasTy id ty entry)
    (pointing : entry.base? = some element) :
    state.program.types.Has element := by
  obtain ⟨_, _, _, found⟩ := typed
  refine inv.types.refs ty entry found element ?_
  unfold Ty.base? at pointing
  split at pointing <;> simp_all [TyKind.refs]

theorem PointsTo.has {program : Program} {ty target : TyId}
    (points : program.PointsTo ty target) : program.types.Has ty := by
  obtain ⟨_, found, _⟩ := points
  exact .of_get? found

/-- A pointer that is moved keeps its type, and an array becomes a pointer. -/
theorem movePointer_meets
    (inv : Inv tokens base state)
    {op : BinaryOp}
    (direction : op = .add ∨ op = .sub)
    {pointer operand : NodeId}
    (pointerOperand : Operand base state pointer)
    (present : Operand base state operand)
    {ty element : TyId}
    {entry : Ty}
    (typed : state.program.HasTy pointer ty entry)
    (pointing : entry.base? = some element)
    (integer : state.program.IsInteger operand)
    (tok : Nat) :
    Meets tokens (movePointer op pointer operand element tok) state
      (Built tokens base [pointer, operand] state) := by
  refine .bind (scale_meets inv present integer (has_of_base? inv typed pointing) tok) ?_
  intro scaled middle product
  have typedThen := product.ran.extended.hasTy typed
  obtain ⟨_, _, _, found⟩ := id typedThen
  refine typeOf_meets typedThen ?_
  refine .bind (decayed_meets product.ran.inv found pointing) ?_
  rintro pointed last ⟨ran, stays, points⟩
  have both := product.ran.trans ran
  have rule : last.program.OperationRule pointed op pointer scaled :=
    .move direction ⟨ty, entry, ran.extended.hasTy typedThen, pointing⟩
      (ran.grows.isInteger product.integer) (ran.grows.scales product.scales) points
  refine (newPointerNode_meets both.inv (both.operand pointerOperand)
    (ran.operand product.operand) (PointsTo.has points) rule tok).weaken ?_
  intro id after entered
  refine (entered.built rfl).behind both (stays.trans product.stays) fun signs bears => ?_
  have moved := @Program.Bears.replaceLast _ [pointer] _ _ _ _ bears product.ran.extended
    product.bears
  exact moved.extend ran.extended

/-- The distance of two pointers is a `long`. -/
theorem pointerDistance_meets
    (inv : Inv tokens base state)
    {lhs rhs : NodeId}
    (leftOperand : Operand base state lhs)
    (rightOperand : Operand base state rhs)
    {ty element other : TyId}
    {entry : Ty}
    (typed : state.program.HasTy lhs ty entry)
    (pointing : entry.base? = some element)
    (otherRefers : state.program.RefersTo rhs other)
    (tok : Nat) :
    Meets tokens (pointerDistance lhs rhs element tok) state
      (Built tokens base [lhs, rhs] state) := by
  obtain ⟨elementEntry, elementFound⟩ :=
    TypeTable.has_iff.mp (has_of_base? inv typed pointing)
  obtain ⟨_, _, _, found⟩ := id typed
  refine lookupTy_meets elementFound ?_
  refine .rejectIf (.failAt inv.same) fun _ => ?_
  refine typeOf_meets typed ?_
  refine .bind (decayed_meets inv found pointing) ?_
  rintro pointed first ⟨firstRan, firstStays, points⟩
  have distance : first.program.OperationRule pointed .sub lhs rhs :=
    .distance ⟨ty, entry, firstRan.extended.hasTy typed, pointing⟩
      (firstRan.grows.refersTo otherRefers) points
  refine .bind (newPointerNode_meets firstRan.inv (firstRan.operand leftOperand)
    (firstRan.operand rightOperand) (PointsTo.has points) distance tok) ?_
  intro bytes second bytesEntered
  refine .bind (newNumber_meets bytesEntered.ran.inv elementEntry.size tok) ?_
  intro divisor third divisorEntered
  have ran := (firstRan.trans bytesEntered.ran).trans divisorEntered.ran
  have int := ran.inv.types.primitives .int ⟨.int, 4, 4, none⟩ rfl
  obtain ⟨reached, there, kind⟩ := bytesEntered.ran.grows.pointsTo points
  have bytesRefer : second.program.RefersTo bytes element :=
    ⟨pointed, reached, bytesEntered.hasTy there, Ty.base?_of_kind kind⟩
  have elements : third.program.OperationRule .int .div bytes divisor :=
    .elements (divisorEntered.ran.grows.refersTo bytesRefer)
      ⟨_, _, divisorEntered.hasTy int, rfl⟩
  refine (newPointerNode_meets ran.inv
    (divisorEntered.ran.operand (bytesEntered.operand rfl)) (divisorEntered.operand rfl)
    ran.inv.has_int elements tok).weaken ?_
  intro id after entered
  have stays : third.pos = state.pos :=
    (divisorEntered.stays.trans bytesEntered.stays).trans firstStays
  refine (entered.built rfl).behind ran stays fun signs bears => ?_
  have difference := (bytesEntered.built rfl).bears signs (bears.extend firstRan.extended)
  exact (difference.extend divisorEntered.ran.extended).concat
    ((divisorEntered.built rfl).bears [] .nil)

/-- What takes part in arithmetic and is no pointer or array is an integer. -/
theorem isInteger_of_arithmetic
    {id : NodeId}
    {ty : TyId}
    {entry : Ty}
    (typed : state.program.HasTy id ty entry)
    (fine : entry.isInteger = true ∨ entry.base?.isSome = true)
    (noPointer : entry.base? = none) :
    state.program.IsInteger id :=
  ⟨ty, entry, typed, by simpa [noPointer] using fine⟩

/-- A sum is built over its operands, one of which may be scaled. -/
theorem newAdd_meets
    (inv : Inv tokens base state)
    {lhs rhs : NodeId}
    (leftOperand : Operand base state lhs)
    (rightOperand : Operand base state rhs)
    (tok : Nat) :
    Meets tokens (newAdd lhs rhs tok) state (Built tokens base [lhs, rhs] state) := by
  obtain ⟨_, left, leftTyped⟩ := leftOperand.hasTy inv
  obtain ⟨_, right, rightTyped⟩ := rightOperand.hasTy inv
  refine nodeTy_meets leftTyped (nodeTy_meets rightTyped ?_)
  refine .bind (checkArithmetic_meets inv left tok) ?_
  rintro _ _ ⟨rfl, leftFine⟩
  refine .bind (checkArithmetic_meets inv right tok) ?_
  rintro _ _ ⟨rfl, rightFine⟩
  split
  · rename_i leftNone rightNone
    exact newNumbers_meets inv .add leftOperand rightOperand
      (isInteger_of_arithmetic leftTyped leftFine leftNone)
      (isInteger_of_arithmetic rightTyped rightFine rightNone) tok
  · exact .failAt inv.same
  · rename_i pointing rightNone
    exact movePointer_meets inv (.inl rfl) leftOperand rightOperand leftTyped pointing
      (isInteger_of_arithmetic rightTyped rightFine rightNone) tok
  · rename_i leftNone pointing
    refine (movePointer_meets inv (.inl rfl) rightOperand leftOperand rightTyped pointing
      (isInteger_of_arithmetic leftTyped leftFine leftNone) tok).weaken ?_
    intro id after built
    exact
      { built with
        bears := fun signs bears => built.bears signs (bears.perm (.swap _ _ _)) }

/-- A difference is built over its operands, one of which may be scaled. -/
theorem newSub_meets
    (inv : Inv tokens base state)
    {lhs rhs : NodeId}
    (leftOperand : Operand base state lhs)
    (rightOperand : Operand base state rhs)
    (tok : Nat) :
    Meets tokens (newSub lhs rhs tok) state (Built tokens base [lhs, rhs] state) := by
  obtain ⟨_, left, leftTyped⟩ := leftOperand.hasTy inv
  obtain ⟨_, right, rightTyped⟩ := rightOperand.hasTy inv
  refine nodeTy_meets leftTyped (nodeTy_meets rightTyped ?_)
  refine .bind (checkArithmetic_meets inv left tok) ?_
  rintro _ _ ⟨rfl, leftFine⟩
  refine .bind (checkArithmetic_meets inv right tok) ?_
  rintro _ _ ⟨rfl, rightFine⟩
  split
  · rename_i leftNone rightNone
    exact newNumbers_meets inv .sub leftOperand rightOperand
      (isInteger_of_arithmetic leftTyped leftFine leftNone)
      (isInteger_of_arithmetic rightTyped rightFine rightNone) tok
  · rename_i pointing rightNone
    exact movePointer_meets inv (.inr rfl) leftOperand rightOperand leftTyped pointing
      (isInteger_of_arithmetic rightTyped rightFine rightNone) tok
  · rename_i pointing otherPointing
    exact pointerDistance_meets inv leftOperand rightOperand leftTyped pointing
      ⟨_, right, rightTyped, otherPointing⟩ tok
  · exact .failAt inv.same

/-! ## Statements -/

/-- A statement has been built at the cursor. -/
theorem newStatement_meets
    (inv : Inv tokens base state)
    {kind : NodeKind}
    (statement : kind.isExpression = false)
    (enterable : Enterable base state kind)
    (typing : state.program.TypingRule .void kind)
    (tok : Nat) :
    Meets tokens (newNode kind tok) state (Entered tokens base state kind) := by
  refine newNode_meets (inferTy_statement_meets inv statement typing tok) enterable ?_ ?_
  · cases kind <;> trivial
  · rintro function args rfl
    cases statement

/-- A statement expression whose last statement is an expression. -/
theorem newStatementExpression_meets
    (inv : Inv tokens base state)
    {body : List NodeId}
    (parts : ∀ part ∈ body, Part base state part)
    (tok : Nat) :
    Meets tokens (newNode (.stmtExpr body) tok) state (Built tokens base body state) := by
  have enterable : Enterable base state (.stmtExpr body) :=
    { operands := by simp [NodeKind.operands]
      parts := parts
      own := by simp
      returned := by simp }
  cases ending : body.getLast? with
  | none =>
      have failed :
          Meets tokens (inferTy (.stmtExpr body) tok) state fun _ _ => False := by
        change Meets tokens (lastValueTy body tok) state _
        unfold lastValueTy
        rw [ending]
        exact .failAt inv.same
      exact .bind failed fun _ _ impossible => impossible.elim
  | some last =>
      obtain ⟨_, node, found, _⟩ := parts last (List.mem_of_getLast? ending)
      by_cases value : ∃ expr, node.kind = .exprStmt expr
      · obtain ⟨expr, kind⟩ := value
        have rule := inv.nodes last node found
        obtain ⟨inner, innerFound, _⟩ :=
          rule.operands expr (by simp [kind, NodeKind.operands])
        obtain ⟨ty, entry, typed⟩ := inv.hasTy innerFound
        have inferred : Meets tokens (inferTy (.stmtExpr body) tok) state
            (Inferred tokens base state (.stmtExpr body)) := by
          change Meets tokens (lastValueTy body tok) state _
          unfold lastValueTy
          rw [ending]
          refine .query (lookupNode_of_some found) ?_
          rw [kind]
          exact typeOf_meets_last typed (.here inv (Program.HasTy.has typed)
            ⟨last, node, expr, entry, ending, found, kind, typed⟩)
        refine (newNode_meets inferred enterable
          ⟨last, node, expr, ending, found, kind⟩ (by simp)).weaken ?_
        rintro id after ⟨ty, entered⟩
        exact entered.built rfl
      · have failed :
            Meets tokens (inferTy (.stmtExpr body) tok) state fun _ _ => False := by
          change Meets tokens (lastValueTy body tok) state _
          unfold lastValueTy
          rw [ending]
          refine .query (lookupNode_of_some found) ?_
          split
          · rename_i expr kind
            exact absurd ⟨expr, kind⟩ value
          · exact .failAt inv.same
        exact .bind failed fun _ _ impossible => impossible.elim

end Grammar
end MiniC
