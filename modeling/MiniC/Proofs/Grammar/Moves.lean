import MiniC.Grammar.Symbol
import MiniC.Proofs.Grammar.Invariant

/-!
# What parsers do to the state

`Moved tokens base before after` is what every production does: it keeps the invariant,
adds to the tables without changing what was there, continues the function being parsed,
leaves the outer scopes alone and does not move the cursor back.  `Ran` says in addition
that no label and no jump has been noted.  The primitive parsers of types, symbols and
nodes are shown to do that here; productions are built from them.
-/

namespace MiniC
namespace Grammar

/-! ## Scopes that differ in the innermost only -/

/-- Scopes that are the same but for the declarations of the innermost. -/
structure SameOuter (old new : Scopes) : Prop where
  depth : new.blocks.length = old.blocks.length
  outer : new.blocks.tail = old.blocks.tail
  file : old.blocks ≠ [] -> new.file = old.file

namespace SameOuter

variable {old new : Scopes}

theorem refl (scopes : Scopes) : SameOuter scopes scopes := ⟨rfl, rfl, fun _ => rfl⟩

/-- Scopes inside a block stay inside of it. -/
theorem inside (same : SameOuter old new) (block : old.blocks ≠ []) :
    new.blocks ≠ [] := by
  have depth := same.depth
  intro empty
  rw [empty] at depth
  exact block (List.eq_nil_of_length_eq_zero depth.symm)

/-- Two changes of the innermost scope are one. -/
theorem trans {last : Scopes} (first : SameOuter old new) (second : SameOuter new last) :
    SameOuter old last where
  depth := second.depth.trans first.depth
  outer := second.outer.trans first.outer
  file := fun block => (second.file (first.inside block)).trans (first.file block)

/-- A change of the innermost scope only. -/
theorem modifyInnermost (scopes : Scopes) (change : Frame -> Frame) :
    SameOuter scopes (scopes.modifyInnermost change) := by
  obtain ⟨file, blocks⟩ := scopes
  cases blocks with
  | nil => exact ⟨rfl, rfl, fun block => absurd rfl block⟩
  | cons block outer => exact ⟨rfl, rfl, fun _ => rfl⟩

/-- A name is bound in the innermost scope only. -/
theorem declareVariable (scopes : Scopes) (name : String) (binding : Binding) :
    SameOuter scopes (scopes.declareVariable name binding) :=
  modifyInnermost scopes _

/-- A tag is bound in the innermost scope only. -/
theorem declareTag (scopes : Scopes) (name : String) (ty : TyId) :
    SameOuter scopes (scopes.declareTag name ty) :=
  modifyInnermost scopes _

/-- Leaving a scope undoes everything since it was entered. -/
theorem leave_eq {scopes : Scopes} (same : SameOuter scopes.enter new) :
    new.leave = scopes := by
  have file := same.file (by simp [Scopes.enter])
  have outer := same.outer
  obtain ⟨newFile, newBlocks⟩ := new
  simp only [Scopes.enter, List.tail_cons] at file outer
  simp only [Scopes.leave, outer, file]

end SameOuter

/-! ## Runs -/

/-- What a production does to the state. -/
structure Moved (tokens : TokenStream) (base : Nat) (before after : State) : Prop where
  inv : Inv tokens base after
  extended : before.program.Extends after.program
  result : after.function.map (·.result) = before.function.map (·.result)
  locals : before.locals <+: after.locals
  outer : SameOuter before.scopes after.scopes
  forward : before.pos ≤ after.pos

/-- What a production does that notes no label and no jump. -/
structure Ran (tokens : TokenStream) (base : Nat) (before after : State) : Prop
    extends Moved tokens base before after where
  signs : after.signs = before.signs

/-- A state inside a function and a block of it. -/
structure InFunction (state : State) : Prop where
  function : state.function.isSome = true
  block : state.scopes.blocks ≠ []

/-- An expression of the function being parsed. -/
structure Operand (base : Nat) (state : State) (id : NodeId) : Prop where
  near : base ≤ id.index
  is : state.program.IsExpression id

/-- A statement of the function being parsed. -/
structure Part (base : Nat) (state : State) (id : NodeId) : Prop where
  near : base ≤ id.index
  is : state.program.IsStatement id

namespace Moved

variable {tokens : TokenStream} {base : Nat} {before middle after : State}

theorem refl {state : State} (inv : Inv tokens base state) :
    Moved tokens base state state :=
  ⟨inv, .refl _, rfl, List.prefix_rfl, .refl _, Nat.le_refl _⟩

/-- A production goes on from where another has ended. -/
theorem trans (first : Moved tokens base before middle)
    (second : Moved tokens base middle after) : Moved tokens base before after where
  inv := second.inv
  extended := first.extended.trans second.extended
  result := second.result.trans first.result
  locals := first.locals.trans second.locals
  outer := first.outer.trans second.outer
  forward := Nat.le_trans first.forward second.forward

/-- The tables only grow. -/
theorem grows (moved : Moved tokens base before after) :
    before.program.Grows after.program :=
  moved.extended.grows

/-- A type that is in the table stays in it. -/
theorem has (moved : Moved tokens base before after) {ty : TyId}
    (has : before.program.types.Has ty) : after.program.types.Has ty :=
  moved.grows.has has

/-- What is inside a function stays inside of it. -/
theorem inFunction (moved : Moved tokens base before after) (inside : InFunction before) :
    InFunction after where
  function := by
    have result := congrArg Option.isSome moved.result
    simp only [Option.isSome_map] at result
    rw [result]
    exact inside.function
  block := moved.outer.inside inside.block

/-- An expression that has been read stays one. -/
theorem operand (moved : Moved tokens base before after) {id : NodeId}
    (operand : Operand base before id) : Operand base after id :=
  ⟨operand.near, moved.grows.isExpression operand.is⟩

/-- A statement that has been read stays one. -/
theorem part (moved : Moved tokens base before after) {id : NodeId}
    (part : Part base before id) : Part base after id :=
  ⟨part.near, moved.grows.isStatement part.is⟩

/-- A cursor that has moved on leaves fewer tokens. -/
theorem closer (moved : Moved tokens base before after) {budget : Nat}
    (near : tokens.last - before.pos ≤ budget) (forward : before.pos < after.pos) :
    tokens.last - after.pos < budget := by
  have bounded := moved.inv.cursor
  omega

end Moved

namespace Ran

variable {tokens : TokenStream} {base : Nat} {before middle after : State}

theorem refl {state : State} (inv : Inv tokens base state) :
    Ran tokens base state state :=
  ⟨.refl inv, rfl⟩

/-- A production that notes no label goes on from where another such has ended. -/
theorem trans (first : Ran tokens base before middle)
    (second : Ran tokens base middle after) :
    Ran tokens base before after :=
  ⟨first.toMoved.trans second.toMoved, second.signs.trans first.signs⟩

/-- Moving the cursor forward is a run. -/
theorem move {state : State} (inv : Inv tokens base state) {pos : Nat}
    (forward : state.pos ≤ pos) (bounded : pos ≤ tokens.last) :
    Ran tokens base state { state with pos := pos } :=
  ⟨⟨inv.move bounded, .refl _, rfl, List.prefix_rfl, .refl _, forward⟩, rfl⟩

/-- The cursor moves to the next token. -/
theorem next {state : State} (inv : Inv tokens base state)
    (before : state.pos < tokens.last) : Ran tokens base state state.next :=
  move inv (Nat.le_succ _) before

end Ran

/-! ## Reading the tables -/

section Read

variable {tokens : TokenStream} {base : Nat} {state : State}

/-- A type that has an entry is found. -/
theorem lookupTy_eq_ok {program : Program} {id : TyId} {ty : Ty}
    (found : program.types.get? id = some ty) : program.lookupTy id = .ok ty := by
  unfold Program.lookupTy
  rw [found]

/-- A node that has an entry is found. -/
theorem lookupNode_of_some {program : Program} {id : NodeId} {node : Node}
    (found : program.node? id = some node) : program.lookupNode id = .ok node := by
  unfold Program.lookupNode
  rw [found]

/-- A symbol that has an entry is found. -/
theorem lookupSymbol_of_some {program : Program} {id : SymbolId} {symbol : Symbol}
    (found : program.symbol? id = some symbol) :
    program.lookupSymbol id = .ok symbol := by
  unfold Program.lookupSymbol
  rw [found]

/-- The type of a node that has one is found. -/
theorem typeOf_eq_ok {program : Program} {id : NodeId} {ty : TyId} {entry : Ty}
    (typed : program.HasTy id ty entry) : program.typeOf id = .ok ty := by
  obtain ⟨node, found, equal, _⟩ := typed
  unfold Program.typeOf
  rw [lookupNode_of_some found]
  simp only [bind, Except.bind, equal]
  rfl

/-- The type entry of a node that has one is found. -/
theorem nodeTy_eq_ok {program : Program} {id : NodeId} {ty : TyId} {entry : Ty}
    (typed : program.HasTy id ty entry) : program.nodeTy id = .ok entry := by
  unfold Program.nodeTy
  rw [typeOf_eq_ok typed]
  obtain ⟨_, _, _, there⟩ := typed
  exact lookupTy_eq_ok there

/-- Every node has a type that is there. -/
theorem Inv.hasTy (inv : Inv tokens base state) {id : NodeId} {node : Node}
    (found : state.program.node? id = some node) :
    ∃ ty entry, state.program.HasTy id ty entry := by
  obtain ⟨ty, typed, has, _⟩ := (inv.nodes id node found).typed
  obtain ⟨entry, there⟩ := TypeTable.has_iff.mp has
  exact ⟨ty, entry, node, found, typed, there⟩

/-- An expression has a type. -/
theorem Operand.hasTy {id : NodeId} (operand : Operand base state id)
    (inv : Inv tokens base state) : ∃ ty entry, state.program.HasTy id ty entry := by
  obtain ⟨node, found, _⟩ := operand.is
  exact inv.hasTy found

/-- The type of a node is in the table. -/
theorem Program.HasTy.has {program : Program} {id : NodeId} {ty : TyId} {entry : Ty}
    (typed : program.HasTy id ty entry) : program.types.Has ty := by
  obtain ⟨_, _, _, there⟩ := typed
  exact .of_get? there

theorem Inv.has_int (inv : Inv tokens base state) : state.program.types.Has .int :=
  .of_get? (inv.types.primitives .int ⟨.int, 4, 4, none⟩ rfl)

theorem Inv.has_long (inv : Inv tokens base state) : state.program.types.Has .long :=
  .of_get? (inv.types.primitives .long ⟨.long, 8, 8, none⟩ rfl)

theorem Inv.has_void (inv : Inv tokens base state) : state.program.types.Has .void :=
  .of_get? (inv.types.primitives .void ⟨.void, 1, 1, none⟩ rfl)

end Read

/-! ## Types -/

section Types

variable {tokens : TokenStream} {base : Nat} {state : State}

/-- Entering a type that keeps the rule. -/
theorem enterTy_meets
    (inv : Inv tokens base state)
    {enter : TypeTable -> TyId × TypeTable}
    (ty : Ty)
    (inserts : ∀ types, enter types = types.insert ty)
    (rule : state.program.types.EntryRule ty) :
    Meets tokens (enterTy enter) state fun id after =>
      Ran tokens base state after ∧ id.index = state.program.types.entries.size ∧
        after.pos = state.pos ∧ after.program.types.get? id = some ty := by
  have known : enterTy enter state = .ok ⟨state.program.types.entries.size⟩
      { state with
        program := { state.program with types := (state.program.types.insert ty).2 }
          } := by
    change EStateM.Result.ok (enter state.program.types).1 _ = _
    rw [inserts]
    rfl
  unfold Meets
  rw [known]
  refine ⟨?_, rfl, rfl, TypeTable.get?_insert_self _ _⟩
  exact ⟨⟨inv.pushTy rule, Program.extends_pushTy _ _, rfl, List.prefix_rfl,
    .refl _, Nat.le_refl _⟩, rfl⟩

/-- A pointer type is entered at the cursor. -/
theorem pointerTo_meets (inv : Inv tokens base state) {target : TyId}
    (has : state.program.types.Has target) :
    Meets tokens (pointerTo target) state fun id after =>
      Ran tokens base state after ∧ after.pos = state.pos ∧
        after.program.types.get? id = some ⟨.ptr target, 8, 8, none⟩ := by
  have rule : state.program.types.EntryRule ⟨.ptr target, 8, 8, none⟩ :=
    { refs := by
        intro ref member
        obtain rfl := List.mem_singleton.mp member
        exact has
      align := by simp
      align_le := by simp
      small := by simp [Extent.maxValue]
      members := .of_nil rfl
      sized := by simp
      width := by simp [Ty.isInteger]
      moved := fun _ _ => rfl
      params := by simp }
  have entered := enterTy_meets inv ⟨.ptr target, 8, 8, none⟩ (fun _ => rfl) rule
  exact entered.weaken fun _ _ outcome => ⟨outcome.1, outcome.2.2⟩

/-- Entering an array of elements that have a size. -/
theorem arrayOf_meets
    (inv : Inv tokens base state)
    {element : TyId}
    {entry : Ty}
    (found : state.program.types.get? element = some entry)
    (sized : 0 ≤ entry.size)
    {length : Int}
    (nonneg : 0 ≤ length)
    (tok : Nat)
    (cause : TypingError) :
    Meets tokens (arrayOf element length tok cause) state fun id after =>
      Ran tokens base state after ∧ after.pos = state.pos ∧
        after.program.types.Has id := by
  refine .get ?_
  rcases TypeTable.arrayOf_cases found length with failed | ⟨inRange, entered⟩
  · rw [failed]
    exact .failAt inv.same
  · rw [entered]
    refine .run rfl (.pure ?_)
    have size : 0 ≤ entry.size * length := Int.mul_nonneg sized nonneg
    have rule : state.program.types.EntryRule
        ⟨.array element length, entry.size * length, entry.align, none⟩ :=
      { refs := by
          intro ref member
          obtain rfl := List.mem_singleton.mp member
          exact .of_get? found
        align := inv.types.align element entry found
        align_le := inv.types.align_le element entry found
        small := inRange.2
        members := .of_nil rfl
        sized := fun negative => by
          change entry.size * length < 0 at negative
          omega
        width := by simp [Ty.isInteger]
        moved := by simp [Ty.isArray]
        params := by simp }
    exact ⟨⟨⟨inv.pushTy rule, Program.extends_pushTy _ _, rfl, List.prefix_rfl, .refl _,
      Nat.le_refl _⟩, rfl⟩, rfl, .of_get? (TypeTable.get?_insert_self _ _)⟩

end Types

/-! ## Names and symbols -/

section Symbols

variable {tokens : TokenStream} {base : Nat} {state : State}

/-- Binding a name to what is no local. -/
theorem declareVariable_meets
    (inv : Inv tokens base state)
    (name : String)
    {binding : Binding}
    (fine : BindingRule state.program [] name binding) :
    Meets tokens (modifyScopes (·.declareVariable name binding)) state fun _ after =>
      Ran tokens base state after ∧ after.pos = state.pos :=
  ⟨⟨⟨inv.rescope (inv.scopes.declareVariable name fine), .refl _, rfl, List.prefix_rfl,
    .declareVariable _ _ _, Nat.le_refl _⟩, rfl⟩, rfl⟩

/-- A tag is bound in the innermost scope at the cursor. -/
theorem declareTag_meets
    (inv : Inv tokens base state)
    (name : String)
    {ty : TyId}
    (has : state.program.types.Has ty) :
    Meets tokens (modifyScopes (·.declareTag name ty)) state fun _ after =>
      Ran tokens base state after ∧ after.pos = state.pos :=
  ⟨⟨⟨inv.rescope (inv.scopes.declareTag name has), .refl _, rfl, List.prefix_rfl,
    .declareTag _ _ _, Nat.le_refl _⟩, rfl⟩, rfl⟩

/-- Declaring a local of the function being parsed. -/
theorem newLocal_meets
    (inv : Inv tokens base state)
    (inside : InFunction state)
    (name : String)
    {ty : TyId}
    {entry : Ty}
    (found : state.program.types.get? ty = some entry)
    (sized : 0 ≤ entry.size) :
    Meets tokens (newLocal name ty) state fun id after =>
      Ran tokens base state after ∧ after.locals = state.locals ++ [id] ∧
        after.pos = state.pos ∧
        after.program.symbol? id = some ⟨name, ty, false, .localVar none⟩ := by
  obtain ⟨context, function⟩ := Option.isSome_iff_exists.mp inside.function
  have symbolRule : SymbolRule state.program ⟨name, ty, false, .localVar none⟩ :=
    ⟨.of_get? found, fun _ => ⟨entry, found, sized⟩, by simp⟩
  have entered := inv.pushSymbol symbolRule (by simp)
  have there : ({ state.program with
      symbols := state.program.symbols.push ⟨name, ty, false, .localVar none⟩ } :
        Program).symbol? ⟨state.program.symbols.size⟩ =
      some ⟨name, ty, false, .localVar none⟩ := by
    simp [Program.symbol?]
  have own : state.locals = context.locals := by simp [State.locals, function]
  have fresh : (⟨state.program.symbols.size⟩ : SymbolId) ∉ context.locals := by
    intro member
    obtain ⟨symbol, present, _⟩ := inv.locals _ (own ▸ member)
    have bound := (Array.getElem?_eq_some_iff.mp present).1
    exact Nat.lt_irrefl _ bound
  have added := entered.addLocal function fresh there rfl
  have fine : BindingRule
      { state.program with
        symbols := state.program.symbols.push ⟨name, ty, false, .localVar none⟩ }
      (context.locals ++ [⟨state.program.symbols.size⟩]) name
      (.object ⟨state.program.symbols.size⟩) :=
    ⟨_, there, rfl, fun _ => by simp⟩
  have bound := added.rescope (added.scopes.declareLocal inside.block name fine)
  refine .run rfl (.run rfl (.run rfl (.pure ?_)))
  simp only [function, Option.map_some]
  refine ⟨⟨⟨bound, Program.extends_pushSymbol _ _ _, ?_, ?_, .declareVariable _ _ _,
    Nat.le_refl _⟩, ?_⟩, ?_, trivial, there⟩
  · simp [function]
  · rw [own]
    exact List.prefix_append _ _
  · simp [State.signs, FunctionContext.signs, function]
  · rw [own]
    rfl

/-- Entering a symbol of the file scope under a name of the source text. -/
theorem bindGlobal_meets
    (inv : Inv tokens base state)
    {symbol : Symbol}
    (rule : SymbolRule state.program symbol)
    (undotted : Undotted symbol.name)
    (global : symbol.isLocal = false)
    (bodiless : ∀ function, symbol.kind = .function function -> function.body = none) :
    Meets tokens (do
        let id ← newSymbol symbol
        addGlobal id
        bindSymbol symbol.name id
        return id) state fun id after =>
      Ran tokens base state after ∧ id.index = state.program.symbols.size ∧
        after.pos = state.pos ∧ after.program.symbol? id = some symbol := by
  have entered := inv.pushGlobal rule (.declared undotted) bodiless
  have there : ({ state.program with
      symbols := state.program.symbols.push symbol
      globals := state.program.globals.push ⟨state.program.symbols.size⟩ } :
        Program).symbol? ⟨state.program.symbols.size⟩ = some symbol := by
    simp [Program.symbol?]
  have fine : BindingRule
      { state.program with
        symbols := state.program.symbols.push symbol
        globals := state.program.globals.push ⟨state.program.symbols.size⟩ }
      [] symbol.name (.object ⟨state.program.symbols.size⟩) :=
    ⟨symbol, there, rfl, by simp [global]⟩
  have bound := entered.rescope (entered.scopes.declareVariable symbol.name fine)
  refine .run rfl (.run rfl (.run rfl (.pure ?_)))
  exact ⟨⟨⟨bound, Program.extends_pushSymbol _ _ _, rfl, List.prefix_rfl,
    .declareVariable _ _ _, Nat.le_refl _⟩, rfl⟩, rfl, rfl, there⟩

/-- Entering the array of a string literal. -/
theorem newStringLiteral_meets (inv : Inv tokens base state)
    (data : List UInt8) (tok : Nat) :
    Meets tokens (newStringLiteral data tok) state fun id after =>
      Ran tokens base state after ∧ after.pos = state.pos ∧
        ∃ symbol, after.program.symbol? id = some symbol ∧ symbol.isLocal = false := by
  have char := inv.types.primitives .char ⟨.char, 1, 1, none⟩ rfl
  refine .bind (arrayOf_meets inv char (by decide) (by omega) tok _) ?_
  rintro ty middle ⟨ran, stays, has⟩
  refine .run rfl (.run rfl (.run rfl (.pure ?_)))
  let symbol : Symbol := ⟨literalName middle.literals, ty, true, .globalVar (some data)⟩
  have rule : SymbolRule middle.program symbol :=
    ⟨has, by simp [symbol, Symbol.isLocal], by simp [symbol]⟩
  have entered := ran.inv.pushGlobal rule (.literal rfl) (by simp [symbol])
  have there : ({ middle.program with
      symbols := middle.program.symbols.push symbol
      globals := middle.program.globals.push ⟨middle.program.symbols.size⟩ } :
        Program).symbol? ⟨middle.program.symbols.size⟩ = some symbol := by
    simp [Program.symbol?]
  exact ⟨ran.trans ⟨⟨entered, Program.extends_pushSymbol _ _ _, rfl, List.prefix_rfl,
    .refl _, Nat.le_refl _⟩, rfl⟩, stays, symbol, there, rfl⟩

end Symbols

end Grammar
end MiniC
