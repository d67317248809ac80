import MiniC.Grammar.Unit
import MiniC.Proofs.Program.Forest
import MiniC.Proofs.Program.Frame
import MiniC.Proofs.Ty.Consistency

/-!
# What parsers do to the tables

Parsers enter types, nodes and symbols, and hand on what they have entered.  A parser may
put the nodes it is given under one new node, but keeps none of them for a second; and
what it relies on to have a size has one.  So the nodes stay a forest and the table of
types stays consistent while a program is built.

`Plants` says so of a parser: given a stock, it gives a stock, whatever else is in stock.
-/

namespace MiniC
/-- A type that was found has an entry. -/
theorem Program.get?_of_lookupTy {program : Program} {id : TyId} {ty : Ty}
    (looked : program.lookupTy id = .ok ty) : program.types.get? id = some ty := by
  unfold lookupTy at looked
  split at looked
  · rwa [← Except.ok.inj looked]
  · cases looked

/-- A node that was found has an entry. -/
theorem Program.node?_of_lookupNode {program : Program} {id : NodeId} {node : Node}
    (looked : program.lookupNode id = .ok node) : program.node? id = some node := by
  unfold lookupNode at looked
  split at looked
  · rwa [← Except.ok.inj looked]
  · cases looked

namespace Grammar

/-- What a parser has in stock: roots that it may put under a node, and types that are
known to have a size. -/
structure Stock where
  roots : List NodeId
  sized : List TyId

namespace Stock

/-- Nothing. -/
abbrev none : Stock := ⟨[], []⟩

/-- Roots. -/
abbrev nodes (roots : List NodeId) : Stock := ⟨roots, []⟩

/-- Types that have a size. -/
abbrev types (sized : List TyId) : Stock := ⟨[], sized⟩

instance : Append Stock := ⟨fun left right =>
  ⟨left.roots ++ right.roots, left.sized ++ right.sized⟩⟩

theorem append_assoc (first second third : Stock) :
    first ++ second ++ third = first ++ (second ++ third) :=
  congrArg₂ mk (List.append_assoc _ _ _) (List.append_assoc _ _ _)

/-- A stock that is part of another. -/
structure Within (part whole : Stock) : Prop where
  roots : part.roots.Subperm whole.roots
  sized : part.sized ⊆ whole.sized

namespace Within

variable {part whole : Stock}

theorem refl (stock : Stock) : stock.Within stock := ⟨.refl _, List.Subset.refl _⟩

/-- Both stocks may be joined with others. -/
theorem append_right (within : part.Within whole) (others : Stock) :
    (part ++ others).Within (whole ++ others) where
  roots := (List.subperm_append_right others.roots).mpr within.roots
  sized := List.append_subset.mpr
    ⟨List.subset_append_of_subset_left _ within.sized, List.subset_append_right _ _⟩

theorem none (stock : Stock) :
    Stock.none.Within stock := ⟨List.nil_subperm, List.nil_subset _⟩

/-- Roots may be listed in any order. -/
theorem of_perm {roots others : List NodeId} (order : roots.Perm others) :
    (nodes roots).Within (nodes others) :=
  ⟨order.subperm, List.Subset.refl _⟩

/-- Two roots may be listed in either order. -/
theorem swap (first second : NodeId) :
    (nodes [first, second]).Within (nodes [second, first]) :=
  of_perm (.swap second first [])

end Within
end Stock

/-- A program whose nodes are a forest with the roots in stock, and whose table of types
is consistent but for the open types. -/
structure Arranged (program : Program) (opened : List TyId) (bodies : List NodeId)
    (stock : Stock) : Prop where
  forest : program.Forest stock.roots
  types : program.types.Consistent opened
  sized : ∀ id ∈ stock.sized, program.types.Sized id
  bodies : program.bodies = bodies

/-- Roots may be forgotten. -/
theorem Arranged.fewer
    {program : Program}
    {opened : List TyId}
    {bodies : List NodeId}
    {stock part : Stock}
    (arranged : Arranged program opened bodies stock)
    (within : part.Within stock) :
    Arranged program opened bodies part where
  forest := arranged.forest.fewer within.roots
  types := arranged.types
  sized := fun id member => arranged.sized id (within.sized member)
  bodies := arranged.bodies

/-- The table of types may change as long as it is consistent and keeps the sizes. -/
theorem Arranged.retype
    {program : Program}
    {opened now : List TyId}
    {bodies : List NodeId}
    {stock : Stock}
    {types : TypeTable}
    (arranged : Arranged program opened bodies stock)
    (consistent : types.Consistent now)
    (keeps : program.types.Keeps types) :
    Arranged { program with types := types } now bodies stock where
  forest := arranged.forest.of_nodes_eq rfl
  types := consistent
  sized := fun id member => keeps.sized (arranged.sized id member)
  bodies := arranged.bodies

/-- Both parts of a computation that gives a result give one. -/
theorem bind_ok
    {α β ε σ : Type}
    {first : EStateM ε σ α}
    {rest : α -> EStateM ε σ β}
    {before after : σ}
    {result : β}
    (run : (first >>= rest) before = .ok result after) :
    ∃ value middle, first before = .ok value middle ∧ rest value middle =
      .ok result after := by
  change EStateM.bind first rest before = _ at run
  unfold EStateM.bind at run
  split at run
  · exact ⟨_, _, ‹_›, run⟩
  · cases run

/-- From a state a parser makes one stock of another, if it gives a result.  It closes the
types that it opens, and leaves the bodies of functions and all that is not taken
alone. -/
def PlantsFrom {α : Type} (state : State) (taken : Stock) (parser : Parser α)
    (given : α -> Stock) : Prop :=
  ∀ value after, parser state = .ok value after ->
    ∀ opened bodies others, Arranged state.program opened bodies (taken ++ others) ->
      Arranged after.program opened bodies (given value ++ others)

/-- A parser that makes one stock of another from every state. -/
def Plants {α : Type} (taken : Stock) (parser : Parser α) (given : α -> Stock) : Prop :=
  ∀ state, PlantsFrom state taken parser given

namespace Plants

variable {α β σ : Type} {taken part : Stock} {given : α -> Stock} {last : β -> Stock}

/-! ## Ways to put parsers together -/

/-- A parser that does not give a result. -/
theorem of_error {parser : Parser α} (fails : ∀ state, ∃ error after,
    parser state = .error error after) : Plants taken parser given := by
  intro state value after run
  obtain ⟨error, reached, failed⟩ := fails state
  cases failed.symm.trans run

/-- A parser that leaves the program alone. -/
theorem of_eq {parser : Parser α}
    (same : ∀ state value after, parser state = .ok value after ->
      after.program = state.program) :
    Plants .none parser fun _ => .none := by
  intro state value after run opened bodies others arranged
  rw [same state value after run]
  exact arranged

/-- One parser behind another that makes its stock. -/
theorem seq {parser : Parser α} {rest : α -> Parser β} (first : Plants taken parser given)
    (second : ∀ value, Plants (given value) (rest value) last) :
    Plants taken (parser >>= rest) last := by
  intro state value after run opened bodies others arranged
  obtain ⟨middle, between, firstRun, secondRun⟩ := bind_ok run
  exact second middle between value after secondRun opened bodies others
    (first state middle between firstRun opened bodies others arranged)

/-- What is not taken stays in stock. -/
theorem frame {parser : Parser α} (plants : Plants taken parser given) (kept : Stock) :
    Plants (taken ++ kept) parser fun value => given value ++ kept := by
  intro state value after run opened bodies others arranged
  rw [Stock.append_assoc] at arranged ⊢
  exact plants state value after run opened bodies (kept ++ others) arranged

/-- What is not needed may be given up. -/
theorem weaken {parser : Parser α} (plants : Plants part parser given)
    (within : part.Within taken) : Plants taken parser given := by
  intro state value after run opened bodies others arranged
  exact plants state value after run opened bodies others
    (arranged.fewer (within.append_right others))

/-- A parser that needs part of what there is, in front of another. -/
theorem bindPart (kept : Stock) {parser : Parser α} {rest : α -> Parser β}
    (first : Plants part parser given)
    (within : (part ++ kept).Within taken)
    (second : ∀ value, Plants (given value ++ kept) (rest value) last) :
    Plants taken (parser >>= rest) last :=
  .seq ((first.frame kept).weaken within) second

/-- A parser that needs nothing, in front of another. -/
theorem gain {parser : Parser α} {rest : α -> Parser β}
    (first : Plants .none parser given)
    (second : ∀ value, Plants (given value ++ taken) (rest value) last) :
    Plants taken (parser >>= rest) last :=
  bindPart taken first (.refl _) second

/-- A parser that neither needs nor gives anything, in front of another. -/
theorem bind {parser : Parser α} {rest : α -> Parser β}
    (first : Plants .none parser fun _ => .none)
    (second : ∀ value, Plants taken (rest value) last) :
    Plants taken (parser >>= rest) last :=
  .gain first second

/-- A value is given with the part of the stock that it names. -/
theorem give {value : α} (within : (given value).Within taken) :
    Plants taken (Pure.pure value) given := by
  rintro state _ _ ⟨⟩ opened bodies others arranged
  exact arranged.fewer (within.append_right others)

/-- A value that names all of the stock. -/
theorem pure {value : α} (same : given value = taken) :
    Plants taken (Pure.pure value) given :=
  give (same ▸ .refl _)

theorem get : Plants .none get fun _ => .none :=
  of_eq fun _ _ _ run => by cases run; rfl

/-- A parser that begins by reading the state. -/
theorem get_bind {rest : State -> Parser β}
    (second : ∀ state, PlantsFrom state taken (rest state) last) :
    Plants taken (MonadState.get >>= rest) last := by
  intro state value after run
  obtain ⟨_, _, read, run⟩ := bind_ok run
  cases read
  exact second state value after run

/-- A parser that fails gives nothing that would have to be planted. -/
theorem throw (error : Error) : Plants taken (throw error : Parser α) given :=
  of_error fun _ => ⟨_, _, rfl⟩

/-- A change of the state that is not one of the program. -/
theorem modify {change : State -> State}
    (same : ∀ state, (change state).program = state.program) :
    Plants .none (modify change) fun _ => .none :=
  of_eq fun state _ _ run => by cases run; exact same state

/-- A choice between two parsers. -/
theorem ite {condition : Prop} [Decidable condition] {left right : Parser α}
    (first : Plants taken left given) (second : Plants taken right given) :
    Plants taken (if condition then left else right) given := by
  split
  · exact first
  · exact second

/-- A check in front of a parser. -/
theorem first_if {condition : Prop} [Decidable condition] {parser : Parser Unit}
    {rest : Unit -> Parser β} (first : Plants .none parser fun _ => .none)
    (second : ∀ value, Plants taken (rest value) last) :
    Plants taken (if condition then parser >>= rest else rest ()) last :=
  .ite (.bind first second) (second ())

/-- A check the other way round in front of a parser. -/
theorem first_unless {condition : Prop} [Decidable condition] {parser : Parser Unit}
    {rest : Unit -> Parser β} (first : Plants .none parser fun _ => .none)
    (second : ∀ value, Plants taken (rest value) last) :
    Plants taken (if condition then rest () else parser >>= rest) last :=
  .ite (second ()) (.bind first second)

/-- The stock at the end of a round of a loop. -/
def afterRound (again : σ -> Stock) (done : α -> Stock) : Round σ α -> Stock
  | .again next => again next
  | .done value => done value

/-- Each round makes the stock of the next. -/
theorem iterate (stock : σ -> Stock) {start : σ} {round : σ -> Parser (Round σ α)}
    (rounds : ∀ current, Plants (stock current) (round current)
      (afterRound stock given)) :
    Plants (stock start) (iterate start round) given := by
  have bounded (bound : Nat) (current : σ) :
      Plants (stock current) (iterateFor round bound current) given := by
    induction bound generalizing current with
    | zero => exact .throw _
    | succ bound hypothesis =>
        refine .seq (rounds current) fun result => ?_
        cases result with
        | again next => exact hypothesis next
        | done value => exact .pure rfl
  exact .bind .get fun _ => bounded _ _

/-- A parser that is run for each entry of a list. -/
theorem mapM {parse : β -> Parser α}
    (each : ∀ entry, Plants .none (parse entry) fun _ => .none)
    (list : List β) : Plants .none (list.mapM parse) fun _ => .none := by
  induction list with
  | nil => exact .pure rfl
  | cons entry rest hypothesis =>
      rw [List.mapM_cons]
      exact .bind (each entry) fun _ => .bind hypothesis fun _ => .pure rfl

/-- Scopes are not part of the program. -/
theorem withScope {parser : Parser α} (inner : Plants taken parser given) :
    Plants taken (withScope parser) given := by
  intro state value after run opened bodies others arranged
  unfold Grammar.withScope at run
  split at run
  · rename_i reached innerRun
    cases run
    exact inner _ value reached innerRun opened bodies others arranged
  · cases run

/-! ## Parsers that leave the program alone -/

/-- A rejection gives nothing that would have to be planted. -/
theorem failAt (index : Nat) (cause : Cause) :
    Plants taken (failAt index cause : Parser α) given :=
  of_error fun _ => ⟨_, _, rfl⟩

theorem failHere (cause : Cause) : Plants taken (failHere cause : Parser α) given :=
  of_error fun _ => ⟨_, _, rfl⟩

theorem position : Plants .none position fun _ => .none := .bind .get fun _ => .pure rfl

theorem advance : Plants .none advance fun _ => .none := .modify fun _ => rfl

theorem seek (index : Nat) : Plants .none (seek index) fun _ => .none :=
  .modify fun _ => rfl

/-- A lookup takes no node and gives none. -/
theorem query (read : Program -> Except Error α) :
    Plants .none (query read) fun _ => .none := by
  refine .bind .get fun state => ?_
  cases read state.program with
  | ok value => exact .pure rfl
  | error error => exact .throw error

/-- A parser that begins by reading the program. -/
theorem query_bind {read : Program -> Except Error α} {rest : α -> Parser β}
    (second : ∀ state value, read state.program = .ok value ->
      PlantsFrom state taken (rest value) last) :
    Plants taken (Grammar.query read >>= rest) last := by
  intro state value after run
  obtain ⟨first, middle, looked, rest⟩ := bind_ok run
  change ofExcept (read state.program) state = _ at looked
  cases known : read state.program with
  | error error =>
      rw [known] at looked
      cases looked
  | ok own =>
      rw [known] at looked
      cases looked
      exact second state first known value after rest

theorem lookupTy (id : TyId) : Plants .none (lookupTy id) fun _ => .none := .query _

theorem typeOf (id : NodeId) : Plants .none (typeOf id) fun _ => .none := .query _

theorem nodeTy (id : NodeId) : Plants .none (nodeTy id) fun _ => .none := .query _

/-- A token is no node. -/
theorem accept (symbol : String) : Plants .none (accept symbol) fun _ => .none :=
  .bind .get fun _ => .ite (.bind (.modify fun _ => rfl) fun _ => .pure rfl) (.pure rfl)

theorem expect (symbol : String) : Plants .none (expect symbol) fun _ => .none :=
  .bind (.accept symbol) fun _ => .ite (.pure rfl) (.bind .get fun _ => .failHere _)

theorem identifier : Plants .none identifier fun _ => .none := by
  refine of_eq fun state value after run => ?_
  change (if state.current.isIdentifier = true then _ else _ : Parser _) state = _ at run
  split at run <;> cases run
  rfl

theorem identifier? : Plants .none identifier? fun _ => .none :=
  .bind .get fun _ => .ite (.bind .identifier fun _ => .pure rfl) (.pure rfl)

/-- The value of a number is no node before a literal is made of it. -/
theorem number : Plants .none number fun _ => .none := by
  have signed (negative : Bool) (value : Int) : Plants .none
      (if negative then negated value else Pure.pure value) fun _ => .none :=
    .ite (.ite (.pure rfl) (.throw _)) (.pure rfl)
  refine .bind (.accept "-") fun negative => .get_bind fun state => ?_
  split
  · rename_i value _
    exact signed negative value { state with pos := state.pos + 1 }
  · exact failHere _ state

theorem modifyScopes (change : Scopes -> Scopes) :
    Plants .none (modifyScopes change) fun _ => .none :=
  .modify fun _ => rfl

/-- The labels and variables of a function are not part of the program before its end. -/
theorem modifyFunction (change : FunctionContext -> FunctionContext) :
    Plants .none (modifyFunction change) fun _ => .none :=
  .modify fun _ => rfl

/-- The list of globals names symbols and not nodes. -/
theorem addGlobal (id : SymbolId) : Plants .none (addGlobal id) fun _ => .none := by
  rintro state _ _ ⟨⟩ opened bodies others arranged
  exact ⟨arranged.forest.of_nodes_eq rfl, arranged.types, arranged.sized, arranged.bodies⟩

/-- The check of a type takes no node and gives none. -/
theorem checkVariableTy (id : TyId) (tok : Nat) :
    Plants .none (checkVariableTy id tok) fun _ => .none :=
  .bind (.lookupTy id) fun _ => .first_if (.failAt _ _) fun _ =>
    .ite (.failAt _ _) (.pure rfl)

/-! ## Types -/

/-- A type is entered with a size that fits. -/
theorem enterTy {enter : TypeTable -> TyId × TypeTable}
    (fits : ∀ types opened, TypeTable.Consistent types opened ->
      (enter types).2.Consistent opened)
    (keeps : ∀ types, TypeTable.Keeps types (enter types).2) :
    Plants .none (enterTy enter) fun _ => .none := by
  rintro state _ _ ⟨⟩ opened bodies others arranged
  exact arranged.retype (fits _ opened arranged.types) (keeps _)

/-- A pointer type has a size. -/
theorem pointerTo (base : TyId) : Plants .none (pointerTo base) fun _ => .none :=
  .enterTy (fun _ _ consistent => consistent.pointerTo base)
    fun _ => TypeTable.Consistent.keeps_insert _ _

/-- An array type needs an element type with a size, and has the size of its elements
together. -/
theorem arrayOf (element : TyId) {length : Int} (nonneg : 0 ≤ length) (tok : Nat)
    (cause : TypingError) :
    Plants (.types [element]) (arrayOf element length tok cause) fun _ => .none := by
  refine .get_bind fun state => ?_
  split
  · rename_i entered
    rintro _ _ ⟨⟩ opened bodies others arranged
    have sized := arranged.sized element List.mem_cons_self
    obtain ⟨consistent, keeps⟩ := arranged.types.arrayOf sized nonneg entered
    have others : Arranged state.program opened bodies others :=
      arranged.fewer ⟨.refl _, List.subset_cons_self _ _⟩
    exact others.retype consistent keeps
  · exact failAt _ _ state
  · exact throw _ state

/-- A type that is checked to have a size has one from then on. -/
theorem sizedOrFail {id : TyId} {tok : Nat} {cause : Cause} {rest : Unit -> Parser β}
    (second : Plants (.types [id] ++ taken) (rest ()) last) :
    Plants taken (do
      let ty ← Grammar.lookupTy id
      if ty.size < 0 then
        Grammar.failAt tok cause >>= rest
      else
        rest ()) last := by
  refine .query_bind fun state ty looked => ?_
  split
  · exact of_error (fun _ => ⟨_, _, rfl⟩) state
  · intro value after run opened bodies others arranged
    refine second state value after run opened bodies others
      ⟨arranged.forest, arranged.types, ?_, arranged.bodies⟩
    exact List.forall_mem_cons.mpr
      ⟨⟨ty, Program.get?_of_lookupTy looked, by omega⟩, arranged.sized⟩

/-- The type `char` has a size. -/
theorem char {parser : Parser α}
    (plants : Plants (.types [.char] ++ taken) parser given) :
    Plants taken parser given := by
  intro state value after run opened bodies others arranged
  have sized : state.program.types.Sized .char :=
    ⟨_, arranged.types.primitives .char _ rfl, by decide⟩
  exact plants state value after run opened bodies others
    ⟨arranged.forest, arranged.types, List.forall_mem_cons.mpr ⟨sized, arranged.sized⟩,
      arranged.bodies⟩

/-! ## Symbols -/

/-- A symbol without a body leaves the forest as it is. -/
theorem newSymbol {symbol : Symbol} (noBody : symbol.kind.body? = none) :
    Plants .none (newSymbol symbol) fun _ => .none := by
  rintro state _ _ ⟨⟩ opened bodies others arranged
  refine ⟨arranged.forest.of_nodes_eq rfl, arranged.types, arranged.sized, ?_⟩
  rw [← arranged.bodies]
  simp [Program.bodies, noBody]

/-- A local variable has no body. -/
theorem newLocal (name : String) (ty : TyId) :
    Plants .none (newLocal name ty) fun _ => .none :=
  .bind (.newSymbol rfl) fun _ => .bind (.modifyFunction _) fun _ =>
    .bind (.modifyScopes _) fun _ => .pure rfl

/-- A global variable has no body. -/
theorem newGlobal (name : String) (ty : TyId) (isStatic : Bool) :
    Plants .none (newGlobal name ty isStatic) fun _ => .none :=
  .bind (.newSymbol rfl) fun _ => .bind (.addGlobal _) fun _ =>
    .bind (.modifyScopes _) fun _ => .pure rfl

/-- A string literal has an array type of bytes, which have a size. -/
theorem newStringLiteral (data : List UInt8) (tok : Nat) :
    Plants .none (newStringLiteral data tok) fun _ => .none :=
  .char <| .bindPart .none (.arrayOf .char (Int.natCast_nonneg _) tok .stringTooLarge)
    (.refl _) fun _ => .bind (of_eq fun _ _ _ run => by cases run; rfl) fun _ =>
      .bind (.newSymbol rfl) fun _ => .bind (.addGlobal _) fun _ => .pure rfl

/-! ## Nodes -/

theorem arithmeticTy (lhs rhs : TyId) :
    Plants .none (arithmeticTy lhs rhs) fun _ => .none :=
  .bind (.lookupTy lhs) fun _ => .bind (.lookupTy rhs) fun _ =>
    .ite (.pure rfl) (.ite (.pure rfl) (.ite (.pure rfl) (.pure rfl)))

/-- An array as a value may enter a pointer type. -/
theorem decayed (id : TyId) : Plants .none (decayed id) fun _ => .none := by
  refine .bind (.lookupTy id) fun ty => ?_
  split
  · exact .pointerTo _
  · exact .pure rfl

/-- The statements of a block are only looked at. -/
theorem lastValueTy (body : List NodeId) (tok : Nat) :
    Plants .none (lastValueTy body tok) fun _ => .none := by
  unfold Grammar.lastValueTy
  split
  · exact .failAt _ _
  · refine .bind (.query _) fun node => ?_
    split
    · exact .typeOf _
    · exact .failAt _ _

/-- The children of a node are only looked at for its type. -/
theorem inferTy (kind : NodeKind) (tok : Nat) :
    Plants .none (inferTy kind tok) fun _ => .none := by
  unfold Grammar.inferTy
  split
  · exact .pure rfl
  · exact .bind (.query _) fun _ => .pure rfl
  · exact .bind (.nodeTy _) fun _ => .first_if (.failAt _ _) fun _ => .pure rfl
  · exact .bind (.typeOf _) fun _ => .bind (.lookupTy _) fun _ =>
      .first_unless (.failAt _ _) fun _ => .arithmeticTy _ _
  · exact .ite (.pure rfl) (.bind (.typeOf _) fun _ => .bind (.typeOf _) fun _ =>
      .arithmeticTy _ _)
  · exact .bind (.typeOf _) fun _ => .bind (.lookupTy _) fun _ =>
      .first_if (.failAt _ _) fun _ => .pure rfl
  · exact .typeOf _
  · exact .bind (.query _) fun _ => .pure rfl
  · refine .bind (.typeOf _) fun _ => .bind (.lookupTy _) fun _ => ?_
    split <;> exact .pointerTo _
  · refine .bind (.nodeTy _) fun _ => ?_
    split
    · exact .failAt _ _
    · exact .bind (.lookupTy _) fun _ => .first_if (.failAt _ _) fun _ => .pure rfl
  · exact .typeOf _
  · refine .bind (.query _) fun _ => .bind (.lookupTy _) fun _ => ?_
    split <;> exact .pure rfl
  · exact .lastValueTy _ _
  all_goals exact .pure rfl

/-- A node takes its children out of the stock and comes in for them. -/
theorem newTyped (kind : NodeKind) (ty : TyId) (tok : Nat) :
    Plants (.nodes kind.children) (newTyped kind ty tok) fun id => .nodes [id] := by
  rintro state _ _ ⟨⟩ opened bodies others arranged
  exact ⟨arranged.forest.push _, arranged.types, arranged.sized, arranged.bodies⟩

/-- A node is planted above its children, with the type that is found for it. -/
theorem newNode (kind : NodeKind) (tok : Nat) :
    Plants (.nodes kind.children) (newNode kind tok) fun id => .nodes [id] :=
  .bind (.inferTy kind tok) fun _ => .newTyped _ _ _

theorem checkScalar (node : NodeId) (tok : Nat) :
    Plants .none (checkScalar node tok) fun _ => .none :=
  .bind (.nodeTy node) fun _ => .ite (.failAt _ _) (.pure rfl)

theorem checkInteger (node : NodeId) (tok : Nat) :
    Plants .none (checkInteger node tok) fun _ => .none :=
  .bind (.nodeTy node) fun _ => .ite (.pure rfl) (.failAt _ _)

theorem checkArithmetic (ty : Ty) (tok : Nat) :
    Plants .none (checkArithmetic ty tok) fun _ => .none :=
  .ite (.pure rfl) (.failAt _ _)

/-- An operator is planted above its operands. -/
theorem newBinary (op : BinaryOp) (lhs rhs : NodeId) (tok : Nat) :
    Plants (.nodes [lhs, rhs]) (newBinary op lhs rhs tok) fun id => .nodes [id] :=
  .bind (.checkScalar lhs tok) fun _ => .bind (.checkScalar rhs tok) fun _ =>
    .newNode (.binary op lhs rhs) _

/-- An operator on integers is planted above its operands. -/
theorem newIntegerBinary (op : BinaryOp) (lhs rhs : NodeId) (tok : Nat) :
    Plants (.nodes [lhs, rhs]) (newIntegerBinary op lhs rhs tok) fun id => .nodes [id] :=
  .bind (.checkInteger lhs tok) fun _ => .bind (.checkInteger rhs tok) fun _ =>
    .newBinary _ _ _ _

/-- A conversion is planted above its operand. -/
theorem newCast (operand : NodeId) (ty : TyId) (tok : Nat) :
    Plants (.nodes [operand]) (newCast operand ty tok) fun id => .nodes [id] :=
  .bind (.lookupTy ty) fun _ => .first_if (.failAt _ _) fun _ =>
    .bind (.nodeTy operand) fun _ => .first_if (.failAt _ _) fun _ =>
      .newTyped (.cast operand) _ _

/-- An assignment is planted above the left side and a conversion of the right one. -/
theorem newAssign (lhs rhs : NodeId) (tok : Nat) :
    Plants (.nodes [rhs, lhs]) (newAssign lhs rhs tok) fun id => .nodes [id] := by
  have assigned (value : NodeId) :
      Plants (.nodes [value, lhs]) (Grammar.newNode (.assign lhs value) tok)
        fun id => .nodes [id] :=
    (newNode (.assign lhs value) tok).weaken (.swap lhs value)
  refine .bind (.typeOf lhs) fun _ => .bind (.typeOf rhs) fun _ =>
    .bind (.lookupTy _) fun _ =>
    .first_if (.failAt _ _) fun _ =>
      .ite (.first_if (.failAt _ _) fun _ => assigned rhs) ?_
  exact .bindPart (.nodes [lhs]) (.newCast rhs _ _) (.refl _) fun _ => assigned _

/-- The product with an element size has a literal of its own as the other operand. -/
theorem scale (operand : NodeId) (element : TyId) (tok : Nat) :
    Plants (.nodes [operand]) (scale operand element tok) fun id => .nodes [id] := by
  refine .bind (.lookupTy element) fun _ => .first_if (.failAt _ _) fun _ =>
    .gain (.newTyped (.num _) _ _) fun factor => ?_
  exact (newBinary .mul operand factor tok).weaken (.swap operand factor)

/-- A pointer that is moved is planted with the scaled operand. -/
theorem movePointer (op : BinaryOp) (pointer operand : NodeId)
    (element : TyId) (tok : Nat) :
    Plants (.nodes [operand, pointer]) (movePointer op pointer operand element tok)
      fun id => .nodes [id] := by
  refine .bindPart (.nodes [pointer]) (.scale operand element tok) (.refl _)
    fun scaled => .bind (.typeOf pointer) fun _ => .bind (.decayed _) fun _ => ?_
  exact (newTyped (.binary op pointer scaled) _ tok).weaken (.swap pointer scaled)

/-- The quotient by an element size has a literal of its own as the other operand. -/
theorem pointerDistance (lhs rhs : NodeId) (element : TyId) (tok : Nat) :
    Plants (.nodes [lhs, rhs]) (pointerDistance lhs rhs element tok) fun id =>
      .nodes [id] := by
  refine .bind (.lookupTy element) fun _ => .first_if (.failAt _ _) fun _ =>
    .bind (.typeOf lhs) fun _ => .bind (.decayed _) fun _ =>
      .seq (.newTyped (.binary .sub lhs rhs) _ _) fun bytes =>
        .gain (.newTyped (.num _) _ _) fun divisor => ?_
  exact (newTyped (.binary .div bytes divisor) _ tok).weaken (.swap bytes divisor)

/-- The sum of a number and a pointer has them the other way round. -/
theorem newAdd (lhs rhs : NodeId) (tok : Nat) :
    Plants (.nodes [rhs, lhs]) (newAdd lhs rhs tok) fun id => .nodes [id] := by
  refine .bind (.nodeTy lhs) fun left => .bind (.nodeTy rhs) fun right => ?_
  refine .bind (.checkArithmetic left tok) fun _ =>
    .bind (.checkArithmetic right tok) fun _ => ?_
  split
  · exact (newBinary _ _ _ _).weaken (.swap lhs rhs)
  · exact .failAt _ _
  · exact .movePointer _ _ _ _ _
  · exact (movePointer _ _ _ _ _).weaken (.swap lhs rhs)

/-- A difference is planted above its operands, whichever of the three it is. -/
theorem newSub (lhs rhs : NodeId) (tok : Nat) :
    Plants (.nodes [rhs, lhs]) (newSub lhs rhs tok) fun id => .nodes [id] := by
  refine .bind (.nodeTy lhs) fun left => .bind (.nodeTy rhs) fun right => ?_
  refine .bind (.checkArithmetic left tok) fun _ =>
    .bind (.checkArithmetic right tok) fun _ => ?_
  split
  · exact (newBinary _ _ _ _).weaken (.swap lhs rhs)
  · exact .movePointer _ _ _ _ _
  · exact (pointerDistance _ _ _ _).weaken (.swap lhs rhs)
  · exact .failAt _ _

/-- The statements of a block come into the stock for the block. -/
theorem takeBlock (block : NodeId) (tok : Nat) :
    Plants (.nodes [block]) (takeBlock block tok) .nodes := by
  refine .query_bind fun state node looked => ?_
  split
  · rename_i body kind
    rintro _ _ ⟨⟩ opened bodies others arranged
    have forest := arranged.forest.takeBody (Program.node?_of_lookupNode looked) kind
    exact ⟨forest, arranged.types, arranged.sized, arranged.bodies⟩
  · exact failAt _ _ state

end Plants

/-! ## Productions -/

/-- Productions that give the nodes they enter, whoever calls them. -/
structure Productions.Planting (again : Productions) : Prop where
  specifiers : ∀ allowed, Plants .none (again.specifiers allowed) fun _ => .none
  declarator : ∀ ty, Plants .none (again.declarator ty) fun _ => .none
  suffix : ∀ ty, Plants .none (again.suffix ty) fun _ => .none
  expr : Plants .none again.expr fun id => .nodes [id]
  assign : Plants .none again.assign fun id => .nodes [id]
  cast : Plants .none again.cast fun id => .nodes [id]
  unary : Plants .none again.unary fun id => .nodes [id]
  stmt : Plants .none again.stmt fun id => .nodes [id]
  block : Plants .none again.block fun id => .nodes [id]

namespace Plants

/-! ### Declarators and specifiers -/

/-- The stars of a declarator enter pointer types. -/
theorem pointers (base : TyId) : Plants .none (pointers base) fun _ => .none :=
  .iterate (fun _ => .none) fun _ => .bind (.accept "*") fun _ =>
    .ite (.bind (.pointerTo _) fun _ => .pure rfl) (.pure rfl)

theorem parameterTy (id : TyId) : Plants .none (parameterTy id) fun _ => .none := by
  refine .bind (.lookupTy id) fun ty => ?_
  split
  · exact .pointerTo _
  · exact .pure rfl

/-- A function type refers to types and to no node. -/
theorem enterFunction (result : TyId) (params : List Param) :
    Plants .none (Grammar.enterTy (·.function result params)) fun _ => .none :=
  .enterTy (fun _ _ consistent => consistent.function result params)
    fun _ => TypeTable.Consistent.keeps_insert _ _

theorem requireName (declared : Declarator) :
    Plants .none declared.requireName fun _ => .none := by
  unfold Declarator.requireName
  split
  · exact .pure rfl
  · exact .failAt _ _

theorem taggedAggregate (form : Form) (tag : String) (tok : Nat) :
    Plants .none (taggedAggregate form tag tok) fun _ => .none := by
  refine .bind .get fun state => ?_
  split
  · exact .failAt _ _
  · exact .bind (.lookupTy _) fun _ => .ite (.pure rfl) (.failAt _ _)

/-- A tag is bound in the scopes. -/
theorem bindTag (tag : Option (String × Nat)) (ty : TyId) :
    Plants .none (bindTag tag ty) fun _ => .none := by
  unfold Grammar.bindTag
  split
  · exact .modifyScopes _
  · exact .pure rfl

/-- The types of fields have a size. -/
theorem addField (fields : List Field) (declared : Declarator) (tok : Nat) :
    Plants (.types (fields.map (·.ty))) (addField fields declared tok)
      fun fields => .types (fields.map (·.ty)) := by
  refine .sizedOrFail (.bind .get fun _ => .give ⟨.refl _, ?_⟩)
  change List.map _ (fields ++ [_]) ⊆ declared.ty :: fields.map (·.ty)
  simp

theorem taggedEnum (tag : String) (tok : Nat) :
    Plants .none (taggedEnum tag tok) fun _ => .none := by
  refine .bind .get fun state => ?_
  split
  · exact .failAt _ _
  · exact .bind (.lookupTy _) fun _ => .ite (.pure rfl) (.failAt _ _)

/-- The value of a constant is no node. -/
theorem enumConstant (ty : TyId) (next : Option Int) :
    Plants .none (enumConstant ty next) fun _ => .none := by
  refine .bind .identifier fun named => .bind (.accept "=") fun _ => ?_
  have declared (value : Int) : Plants .none (do
      Grammar.modifyScopes (·.declareVariable named.1 (.enumConstant ty value))
      return Extent.add? value 1) fun _ => .none :=
    .bind (.modifyScopes _) fun _ => .pure rfl
  refine .ite (.bind .number declared) ?_
  split
  · exact .bind (.pure rfl) declared
  · exact .bind (.failAt _ _) declared

theorem enumConstants (ty : TyId) : Plants .none (enumConstants ty) fun _ => .none := by
  refine .iterate (fun _ => .none) fun _ => .bind (.accept closeBrace) fun _ =>
    .ite (.pure rfl) (.ite ?_ ?_)
  · exact .bind (.enumConstant ty _) fun _ => .pure rfl
  · exact .bind (.expect ",") fun _ => .bind (.accept closeBrace) fun _ =>
      .ite (.pure rfl) (.bind (.enumConstant ty _) fun _ => .pure rfl)

/-- The type of an enumeration has a size from the beginning. -/
theorem enumBody (tag : Option (String × Nat)) :
    Plants .none (enumBody tag) fun _ => .none := by
  have entered : Plants .none (Grammar.enterTy (·.enumeration)) fun _ => .none :=
    .enterTy (fun _ _ consistent => consistent.enumeration)
      fun _ => TypeTable.Consistent.keeps_insert _ _
  exact .bind (.expect _) fun _ => .bind entered fun _ =>
    .bind (.enumConstants _) fun _ => .bind (.bindTag _ _) fun _ => .pure rfl

theorem enumeration : Plants .none enumeration fun _ => .none := by
  refine .bind .identifier? fun tag => .bind .get fun state => ?_
  split
  · exact .taggedEnum _ _
  · exact .enumBody _

theorem storageClass (allowed : Bool) (storage : Storage) :
    Plants .none (storageClass allowed storage) fun _ => .none :=
  .first_unless (.failHere _) fun _ => .bind .get fun _ =>
    .first_if (.failHere _) fun _ => .bind .advance fun _ => .pure rfl

theorem typeWord (seen : Specifiers) : Plants .none (typeWord seen) fun _ => .none := by
  refine .bind .get fun state => ?_
  split
  · exact .failHere _
  · exact .bind .advance fun _ => .pure rfl

section

variable {again : Productions} (planting : again.Planting)

include planting

/-- A parameter is a type with a name. -/
theorem parameter : Plants .none (parameter again) fun _ => .none :=
  .bind (planting.specifiers false) fun _ => .bind (planting.declarator _) fun _ =>
    .bind (.parameterTy _) fun _ => .pure rfl

/-- A list of parameters enters a function type. -/
theorem parameters (result : TyId) :
    Plants .none (parameters again result) fun _ => .none := by
  refine .bind .get fun state =>
    .ite ?_ (.bind (.iterate (fun _ => .none) fun params => ?_) (.enterFunction result))
  · exact .bind .advance fun _ => .bind .advance fun _ => .enterFunction result _
  · exact .bind (.accept ")") fun _ => .ite (.pure rfl) <|
      .first_unless (.expect ",") fun _ => .bind (.parameter planting) fun _ => .pure rfl

/-- An element type without a size is rejected before the array type is entered. -/
theorem arraySuffix (ty : TyId) : Plants .none (arraySuffix again ty) fun _ => .none := by
  refine .bind .position fun tok => .bind .number fun length => ?_
  by_cases negative : length < 0
  · rw [if_pos negative]
    exact of_error fun _ => ⟨_, _, rfl⟩
  · rw [if_neg negative]
    exact .bind (.expect "]") fun _ => .bind (planting.suffix ty) fun element =>
      .sizedOrFail (.arrayOf element (by omega) tok .arrayTooLarge)

/-- A suffix enters function and array types. -/
theorem suffix (ty : TyId) : Plants .none (suffix again ty) fun _ => .none :=
  .bind (.accept "(") fun _ => .ite (.parameters planting ty) <|
    .bind (.accept "[") fun _ => .ite (.arraySuffix planting ty) (.pure rfl)

/-- The types that the first reading enters stay in the table. -/
theorem nestedDeclarator (ty : TyId) :
    Plants .none (nestedDeclarator again ty) fun _ => .none :=
  .bind .advance fun _ => .bind .position fun _ => .bind (planting.declarator _) fun _ =>
    .bind (.expect ")") fun _ => .bind (.suffix planting ty) fun _ =>
      .bind .position fun _ =>
      .bind (.seek _) fun _ => .bind (planting.declarator _) fun _ =>
        .bind (.seek _) fun _ => .pure rfl

/-- A declarator enters types and plants nothing. -/
theorem declarator (base : TyId) : Plants .none (declarator again base) fun _ => .none :=
  .bind .position fun _ => .bind (.pointers base) fun _ => .bind .get fun _ =>
    .ite (.bind (.nestedDeclarator planting _) fun _ => .pure rfl)
      (.bind .identifier? fun _ => .bind (.suffix planting _) fun _ => .pure rfl)

/-- A list of declarators plants what the uses of them plant. -/
theorem declaratorList (stock : σ -> Stock) {start : σ}
    {extend : σ -> Declarator -> Nat -> Parser σ}
    (each : ∀ result declared tok,
      Plants (stock result) (extend result declared tok) stock)
    (base : TyId) :
    Plants (stock start) (declaratorList again base start extend) stock := by
  refine .iterate (fun current : Bool × σ => stock current.2) fun current => ?_
  refine .bind (.accept ";") fun _ => .ite (.pure rfl) <|
    .first_unless (.expect ",") fun _ =>
    .bind (.declarator planting base) fun _ => .bind (.requireName _) fun _ => ?_
  exact .seq (each current.2 _ _) fun _ => .pure rfl

/-- The types of all fields have a size. -/
theorem fieldList :
    Plants .none (fieldList again) fun fields => .types (fields.map (·.ty)) := by
  refine .iterate (fun fields : List Field => .types (fields.map (·.ty))) fun fields => ?_
  refine .bind (.accept closeBrace) fun _ => .ite (.pure rfl) <|
    .bind (planting.specifiers false) fun _ => ?_
  exact .seq (declaratorList planting
    (fun fields : List Field => .types (fields.map (·.ty))) addField _) fun _ => .pure rfl

omit planting in
/-- Completing a type closes it. -/
theorem completeTy
    {id : TyId}
    {fields : List Field}
    {tok : Nat}
    {state after : State}
    (run : Grammar.completeTy id fields tok state = .ok () after)
    {opened : List TyId}
    {bodies : List NodeId}
    {others : Stock}
    (apart : id ∉ opened)
    (arranged : Arranged state.program (id :: opened) bodies
      (.types (fields.map (·.ty)) ++ others)) :
    Arranged after.program opened bodies others := by
  have sized (field : Field) (listed : field ∈ fields) :
      state.program.types.Sized field.ty :=
    arranged.sized field.ty (List.mem_append_left _ (List.mem_map_of_mem listed))
  obtain ⟨_, _, read, rest⟩ := bind_ok run
  cases read
  cases reached : state.program.types.complete id fields with
  | ok types =>
      rw [reached] at rest
      cases rest
      obtain ⟨consistent, keeps⟩ := arranged.types.complete apart sized reached
      have others : Arranged state.program (id :: opened) bodies others :=
        arranged.fewer ⟨.refl _, List.subset_append_right _ _⟩
      exact others.retype consistent keeps
  | error reason =>
      rw [reached] at rest
      cases reason <;> cases rest

/-- The members of a struct or union are read while it is open. -/
theorem aggregateBody (form : Form) (tag : Option (String × Nat)) :
    Plants .none (aggregateBody again form tag) fun _ => .none := by
  refine .bind .position fun brace => .bind (.expect _) fun _ => ?_
  intro state value after run opened bodies others arranged
  obtain ⟨id, open_, entered, run⟩ := bind_ok run
  cases entered
  obtain ⟨_, bound, tagged, run⟩ := bind_ok run
  obtain ⟨fields, listed, read, run⟩ := bind_ok run
  obtain ⟨_, closed, completed, done⟩ := bind_ok run
  cases done
  have unsized : (⟨.aggregate form [], -1, 1, some brace⟩ : Ty).size < 0 :=
    (by decide : (-1 : Int) < 0)
  have opening := arranged.retype (arranged.types.insert_open unsized)
    (TypeTable.Consistent.keeps_insert _ _)
  have tagging := bindTag tag _ _ _ _ tagged _ _ _ opening
  have reading := fieldList planting _ _ _ read _ _ _ tagging
  exact completeTy completed (arranged.types.insert_not_mem _) reading

/-- A struct or union plants nothing. -/
theorem aggregate (form : Form) : Plants .none (aggregate again form) fun _ => .none := by
  refine .bind .identifier? fun tag => .bind .get fun state => ?_
  split
  · exact .taggedAggregate _ _ _
  · exact .aggregateBody planting _ _

theorem namedTy (typedef : Option TyId) :
    Plants .none (namedTy again typedef) fun _ => .none :=
  .bind (.accept "struct") fun _ => .ite (.aggregate planting .struct) <|
    .bind (.accept "union") fun _ => .ite (.aggregate planting .union) <|
      .bind (.accept "enum") fun _ => .ite .enumeration <| .bind .advance
        fun _ => .pure rfl

/-- Specifiers enter types and plant nothing. -/
theorem specifiers (allowed : Bool) :
    Plants .none (specifiers again allowed) fun _ => .none :=
  .iterate (fun _ => .none) fun _ => .bind .get fun _ => .ite (.pure rfl) <|
    .ite (.bind (.storageClass _ _) fun _ => .pure rfl) <|
      .ite (.ite (.pure rfl) (.bind (.namedTy planting _) fun _ => .pure rfl))
        (.bind (.typeWord _) fun _ => .pure rfl)

theorem typeName : Plants .none (typeName again) fun _ => .none :=
  .bind (.specifiers planting false) fun _ => .bind (.declarator planting _)
    fun _ => .pure rfl

/-! ### Expressions -/

/-- An argument is given as one tree. -/
theorem argument (param : Option Param) :
    Plants .none (argument again param) fun id => .nodes [id] := by
  refine .bind .position fun _ => .gain planting.assign fun value =>
    .bind (.nodeTy _) fun _ => .first_if (.failAt _ _) fun _ => ?_
  split
  · exact .newCast _ _ _
  · exact .pure rfl

/-- The arguments of a call are given as a tree each. -/
theorem arguments (params : List Param) :
    Plants .none (arguments again params) .nodes := by
  refine .iterate .nodes fun args => .bind (.accept ")") fun _ => .ite (.pure rfl) <|
    .first_unless (.expect ",") fun _ => .gain (.argument planting _) fun value => ?_
  exact .give (.of_perm List.perm_append_comm)

/-- A call is planted above its arguments. -/
theorem call : Plants .none (call again) fun id => .nodes [id] := by
  have callee (name : String) (tok : Nat) :
      Plants .none (callee name tok) fun _ => .none := by
    refine .bind .get fun state => ?_
    split
    · exact .pure rfl
    · exact .failAt _ _
    · exact .failAt _ _
  refine .bind .identifier fun _ => .bind (.expect "(") fun _ =>
    .bind (callee _ _) fun _ => .bind (.query _) fun _ => .bind (.lookupTy _) fun _ => ?_
  split
  · exact .gain (.arguments planting _) fun args => .first_if (.failAt _ _) fun _ =>
      (newTyped (.call _ args) _ _).weaken (.of_perm (by simp [NodeKind.children]))
  · exact .failAt _ _

omit planting in
/-- A variable is a node without children. -/
theorem variableReference : Plants .none variableReference fun id => .nodes [id] := by
  refine .bind .identifier fun _ => .bind .get fun state => ?_
  split
  · exact .newNode (.var _) _
  · exact .newTyped (.num _) _ _
  · exact .failAt _ _

/-- A statement expression is planted above the statements that its block has lost. -/
theorem statementExpression :
    Plants .none (statementExpression again) fun id => .nodes [id] :=
  .bind .position fun _ => .bind .advance fun _ => .bind .advance fun _ =>
    .gain planting.block fun block => .bind (.expect ")") fun _ =>
      .seq (.takeBlock block _) fun body => .newNode (.stmtExpr body) _

/-- The operand of `sizeof` is given up. -/
theorem sizeofOperand (tok : Nat) :
    Plants .none (sizeofOperand again tok) fun _ => .none :=
  .bind .get fun _ => .ite
    (.bind .advance fun _ => .bind (.typeName planting) fun _ =>
      .bind (.expect ")") fun _ => .pure rfl)
    (.gain planting.unary fun id => (typeOf id).weaken (.none _))

/-- A size is a literal, and the trees of the operand are forgotten. -/
theorem sizeof (tok : Nat) : Plants .none (sizeof again tok) fun id => .nodes [id] :=
  .bind (.sizeofOperand planting tok) fun _ => .bind (.lookupTy _) fun _ =>
    .first_if (.failAt _ _) fun _ => .newTyped (.num _) _ _

/-- A name, a string and a number are nodes without children, and a call is a tree. -/
theorem atom : Plants .none (atom again) fun id => .nodes [id] := by
  refine .bind .get fun state => ?_
  dsimp only
  split
  · exact .ite (.call planting) .variableReference
  · exact .bind .advance fun _ => .bind (.newStringLiteral _ _) fun _ =>
      .newNode (.var _) _
  · exact .bind .number fun _ => .newNode (.num _) _
  · exact .failHere _

/-- A primary expression is given as one tree. -/
theorem primary : Plants .none (primary again) fun id => .nodes [id] :=
  .bind .get fun _ => .ite (.statementExpression planting) <| .bind (.accept "(") fun _ =>
    .ite (.gain planting.expr fun _ => .bind (.expect ")") fun _ => .pure rfl) <|
      .bind (.accept "sizeof") fun _ => .ite (.sizeof planting _) (.atom planting)

omit planting in
/-- A member is planted above its struct or union. -/
theorem memberAccess (base : NodeId) :
    Plants (.nodes [base]) (memberAccess base) fun id => .nodes [id] := by
  refine .bind (.typeOf base) fun _ => .bind .identifier fun _ =>
    .bind (.lookupTy _) fun ty => .first_unless (.failAt _ _) fun _ => ?_
  split
  · exact .failAt _ _
  · exact .newTyped (.member base _ _) _ _

/-- Each trailer is planted above what stands in front of it. -/
theorem trailer : Plants .none (trailer again) fun id => .nodes [id] := by
  refine .gain (.primary planting) fun first => .iterate
    (fun node => .nodes [node]) fun node =>
    .bind .position fun tok => .bind (.accept "[") fun _ => .ite ?_ <|
      .bind (.accept ".") fun _ => .ite ?_ <| .bind (.accept "->") fun _ =>
        .ite ?_ (.pure rfl)
  · exact .gain planting.expr fun index => .bind (.expect "]") fun _ =>
      .seq (.newAdd node index tok) fun sum => .seq (.newNode (.deref sum) tok)
        fun _ => .pure rfl
  · exact .seq (.memberAccess node) fun _ => .pure rfl
  · exact .seq (.newNode (.deref node) tok) fun target =>
      .seq (.memberAccess target) fun _ => .pure rfl

/-- An operator is planted above its operand. -/
theorem unary : Plants .none (unary again) fun id => .nodes [id] := by
  have operated (kind : NodeId -> NodeKind) (single : ∀ id, (kind id).children = [id])
      (tok : Nat) :
      Plants .none (do Grammar.newNode (kind (← again.cast)) tok) fun id =>
        .nodes [id] := by
    refine .gain planting.cast fun operand => ?_
    have entered := newNode (kind operand) tok
    rw [single] at entered
    exact entered
  exact .bind .position fun tok => .bind (.accept "+") fun _ => .ite planting.cast <|
    .bind (.accept "-") fun _ => .ite (operated (.unary .neg) (fun _ => rfl) tok) <|
    .bind (.accept "&") fun _ => .ite (operated .addr (fun _ => rfl) tok) <|
    .bind (.accept "*") fun _ => .ite (operated .deref (fun _ => rfl) tok) <|
    .bind (.accept "!") fun _ => .ite (operated (.unary .not) (fun _ => rfl) tok) <|
    .bind (.accept "~") fun _ => .ite (operated (.unary .bitNot) (fun _ => rfl) tok)
      (.trailer planting)

/-- A conversion is planted above its operand. -/
theorem cast : Plants .none (cast again) fun id => .nodes [id] :=
  .bind .get fun _ => .ite
    (.bind .advance fun _ => .bind (.typeName planting) fun _ =>
      .bind (.expect ")") fun _ => .gain planting.cast fun _ => .newCast _ _ _)
    (.unary planting)

omit planting in
/-- A level of operators, if each joins its operands. -/
theorem leftChain {operators : List (String × Join)} {operand : Parser NodeId}
    (joins : ∀ operator ∈ operators, ∀ lhs rhs tok,
      Plants (.nodes [rhs, lhs]) (operator.2 lhs rhs tok) fun id => .nodes [id])
    (each : Plants .none operand fun id => .nodes [id]) :
    Plants .none (leftChain operators operand) fun id => .nodes [id] := by
  refine .gain each fun _ => .iterate (fun node => .nodes [node]) fun lhs =>
    .bind .get fun state => ?_
  split
  · exact .pure rfl
  · rename_i found
    exact .bind (.modify fun _ => rfl) fun _ => .gain each fun rhs =>
      .seq (joins _ (List.mem_of_find?_eq_some found) lhs rhs _) fun _ => .pure rfl

omit planting in
/-- Operands that were read in turn are joined by an operator. -/
theorem joinBinary (op : BinaryOp) (lhs rhs : NodeId) (tok : Nat) :
    Plants (.nodes [rhs, lhs]) (Grammar.newBinary op lhs rhs tok) fun id => .nodes [id] :=
  (newBinary op lhs rhs tok).weaken (.swap lhs rhs)

omit planting in
/-- Operands that were read in turn are joined by an operator on integers. -/
theorem joinIntegers (op : BinaryOp) (lhs rhs : NodeId) (tok : Nat) :
    Plants (.nodes [rhs, lhs]) (Grammar.newIntegerBinary op lhs rhs tok) fun id =>
      .nodes [id] :=
  (newIntegerBinary op lhs rhs tok).weaken (.swap lhs rhs)

/-- A chain of operators is given as one tree. -/
theorem product : Plants .none (product again) fun id => .nodes [id] :=
  .leftChain (by simp [joinIntegers]) (.cast planting)

theorem sum : Plants .none (sum again) fun id => .nodes [id] :=
  .leftChain (by simp [newAdd, newSub]) (.product planting)

theorem relational : Plants .none (relational again) fun id => .nodes [id] :=
  .leftChain (by simp [joinBinary]) (.sum planting)

theorem equality : Plants .none (equality again) fun id => .nodes [id] :=
  .leftChain (by simp [joinBinary]) (.relational planting)

theorem logAnd : Plants .none (logAnd again) fun id => .nodes [id] :=
  .leftChain (by simp [joinBinary]) (.equality planting)

theorem logOr : Plants .none (logOr again) fun id => .nodes [id] :=
  .leftChain (by simp [joinBinary]) (.logAnd planting)

/-- An assignment is given as one tree. -/
theorem assign : Plants .none (assign again) fun id => .nodes [id] :=
  .gain (.logOr planting) fun lhs => .bind .position fun _ => .bind (.accept "=") fun _ =>
    .ite (.gain planting.assign fun rhs => .newAssign lhs rhs _) (.pure rfl)

/-- An expression is given as one tree. -/
theorem expr : Plants .none (expr again) fun id => .nodes [id] :=
  .gain (.assign planting) fun lhs => .bind .position fun _ =>
    .bind (.accept ",") fun _ =>
    .ite (.gain planting.expr fun rhs => (newNode (.comma lhs rhs) _).weaken
      (.swap lhs rhs)) (.pure rfl)

/-! ### Statements -/

/-- An initialiser is given as a statement that assigns it. -/
theorem initialiser (symbol : SymbolId) (tok : Nat) :
    Plants .none (initialiser again symbol tok) .nodes :=
  .bind .position fun _ => .bind (.accept "=") fun _ => .ite
    (.gain (.newNode (.var symbol) tok) fun lhs => .gain (.assign planting) fun rhs =>
      .seq (.newAssign lhs rhs _) fun assignment =>
        .seq (.newNode (.exprStmt assignment) _)
        fun _ => .pure rfl)
    (.pure rfl)

/-- An initialiser is listed behind the statements before it. -/
theorem declareLocal (body : List NodeId) (declared : Declarator) (tok : Nat) :
    Plants (.nodes body) (declareLocal again body declared tok) .nodes :=
  .bind (.checkVariableTy _ _) fun _ => .bind .get fun _ =>
    .bind (.newLocal _ _) fun symbol =>
    .gain (.initialiser planting symbol tok) fun _ =>
      .give (.of_perm List.perm_append_comm)

/-- A declaration is a block of the assignments to its variables. -/
theorem declaration (base : TyId) :
    Plants .none (declaration again base) fun id => .nodes [id] :=
  .bind .position fun _ =>
    .seq (declaratorList planting .nodes (declareLocal planting) base) fun body =>
      .newNode (.block body) _

/-- A `typedef` plants nothing. -/
theorem typedefNames (base : TyId) :
    Plants .none (typedefNames again base) fun _ => .none :=
  declaratorList planting (fun _ => .none)
    (fun _ _ _ => .bind .get fun _ => .modifyScopes _) base

/-- A statement is planted above its expression. -/
theorem exprStmt : Plants .none (exprStmt again) fun id => .nodes [id] :=
  .bind .position fun _ => .bind (.accept ";") fun _ => .ite (.newNode (.block []) _) <|
    .gain (.expr planting) fun value => .bind (.expect ";") fun _ =>
      .newNode (.exprStmt value) _

/-- A `return` is planted above its value or a conversion of it. -/
theorem returnStmt (tok : Nat) :
    Plants .none (returnStmt again tok) fun id => .nodes [id] := by
  refine .bind (.accept ";") fun _ => .ite (.newNode (.ret none) tok) <|
    .gain planting.expr fun value => .bind (.expect ";") fun _ => .bind .get
      fun state => ?_
  split
  · exact .newNode (.ret (some value)) tok
  · exact .bind (.lookupTy _) fun _ => .ite (.newNode (.ret (some value)) tok) <|
      .seq (.newCast value _ tok) fun converted => .newNode (.ret (some converted)) tok

theorem condition (tok : Nat) :
    Plants .none (condition again tok) fun id => .nodes [id] :=
  .bind (.expect "(") fun _ => .gain planting.expr fun _ =>
    .bind (.checkScalar _ _) fun _ => .bind (.expect ")") fun _ => .pure rfl

/-- A branch is planted above its condition and its statements. -/
theorem ifStmt (tok : Nat) : Plants .none (ifStmt again tok) fun id => .nodes [id] := by
  refine .gain (.condition planting tok) fun cond => .gain planting.stmt fun onTrue =>
    .bind (.accept "else") fun _ => .ite (.gain planting.stmt fun onFalse => ?_) ?_
  · exact (newNode (.branch cond onTrue (some onFalse)) tok).weaken
      (.of_perm (List.reverse_perm [onFalse, onTrue, cond]))
  · exact (newNode (.branch cond onTrue none) tok).weaken (.swap cond onTrue)

/-- The beginning of a `for` statement is given as one tree. -/
theorem forInit : Plants .none (forInit again) fun id => .nodes [id] :=
  .bind .get fun _ =>
    .ite (.bind (.specifiers planting false) fun _ => .declaration planting _)
      (.exprStmt planting)

/-- The condition of a `for` statement may be missing. -/
theorem forCond (tok : Nat) :
    Plants .none (forCond again tok) fun cond => .nodes cond.toList :=
  .bind (.accept ";") fun _ => .ite (.pure rfl) <| .gain planting.expr fun _ =>
    .bind (.checkScalar _ _) fun _ => .bind (.expect ";") fun _ => .pure rfl

/-- The step of a `for` statement may be missing. -/
theorem forStep : Plants .none (forStep again) fun step => .nodes step.toList :=
  .bind (.accept ")") fun _ => .ite (.pure rfl) <| .gain planting.expr fun _ =>
    .bind (.expect ")") fun _ => .pure rfl

/-- A loop is planted above its four parts, as far as they are there. -/
theorem forStmt (tok : Nat) : Plants .none (forStmt again tok) fun id => .nodes [id] := by
  refine .bind (.expect "(") fun _ => .withScope <| .gain (.forInit planting) fun init =>
    .gain (.forCond planting tok) fun cond => .gain (.forStep planting) fun step =>
      .gain planting.stmt fun body =>
        (newNode (.loop (some init) cond step body) tok).weaken ?_
  cases cond with
  | none =>
      cases step with
      | none => exact .of_perm (List.reverse_perm [body, init])
      | some step => exact .of_perm (List.reverse_perm [body, step, init])
  | some cond =>
      cases step with
      | none => exact .of_perm (List.reverse_perm [body, cond, init])
      | some step => exact .of_perm (List.reverse_perm [body, step, cond, init])

/-- A loop with a condition and a body only. -/
theorem whileStmt (tok : Nat) :
    Plants .none (whileStmt again tok) fun id => .nodes [id] :=
  .gain (.condition planting tok) fun cond => .gain planting.stmt fun body =>
    (newNode (.loop none (some cond) none body) tok).weaken (.swap cond body)

omit planting in
/-- A jump is a node without children. -/
theorem gotoStmt (tok : Nat) : Plants .none (gotoStmt tok) fun id => .nodes [id] :=
  .bind .identifier fun _ => .bind (.expect ";") fun _ =>
    .bind (.modifyFunction _) fun _ => .newNode (.goto _) tok

/-- A label is planted above the statement behind it. -/
theorem labelStmt (tok : Nat) :
    Plants .none (labelStmt again tok) fun id => .nodes [id] :=
  .bind .identifier fun _ => .bind (.expect ":") fun _ => .bind .get fun _ =>
    .first_if (.failAt _ _) fun _ => .bind (.modifyFunction _) fun _ =>
      .gain planting.stmt fun body => .newNode (.label _ body) tok

/-- A statement is given as one tree. -/
theorem stmt : Plants .none (stmt again) fun id => .nodes [id] :=
  .bind .position fun tok => .bind (.accept "return") fun _ =>
    .ite (.returnStmt planting tok) <|
    .bind (.accept "if") fun _ => .ite (.ifStmt planting tok) <|
    .bind (.accept "for") fun _ => .ite (.forStmt planting tok) <|
    .bind (.accept "while") fun _ => .ite (.whileStmt planting tok) <|
    .bind (.accept "goto") fun _ => .ite (.gotoStmt tok) <|
    .bind .get fun _ => .ite (.labelStmt planting tok) <|
    .bind (.accept openBrace) fun _ => .ite planting.block (.exprStmt planting)

/-- A `typedef` in a block gives no tree, any other declaration one. -/
theorem blockDeclaration : Plants .none (blockDeclaration again) .nodes :=
  .bind .position fun _ => .bind (.specifiers planting true) fun _ =>
    .ite (.bind (.typedefNames planting _) fun _ => .pure rfl) <| .ite (.failAt _ _) <|
      .gain (.declaration planting _) fun _ => .pure rfl

/-- Every item of a block gives its trees. -/
theorem blockItem : Plants .none (blockItem again) .nodes :=
  .bind .get fun _ => .ite (.blockDeclaration planting)
    (.gain (.stmt planting) fun _ => .pure rfl)

/-- A block is planted above the trees of its items. -/
theorem block : Plants .none (block again) fun id => .nodes [id] := by
  refine .bind .position fun _ => .withScope <| .seq (.iterate .nodes fun body => ?_)
    fun body => .newNode (.block body) _
  exact .bind (.accept closeBrace) fun _ => .ite (.pure rfl) <| .bind .get fun _ =>
    .ite (.failHere _) (.gain (.blockItem planting) fun _ =>
      .give (.of_perm List.perm_append_comm))

end

end Plants

/-- All productions give the nodes they enter, to whatever depth they recur. -/
theorem productions_planting (depth : Nat) : (productions depth).Planting := by
  induction depth with
  | zero =>
      exact ⟨fun _ => .throw _, fun _ => .throw _, fun _ => .throw _, .throw _, .throw _,
        .throw _, .throw _, .throw _, .throw _⟩
  | succ depth planting =>
      exact ⟨.specifiers planting, .declarator planting, .suffix planting, .expr planting,
        .assign planting, .cast planting, .unary planting, .stmt planting,
          .block planting⟩

/-! ## Source files -/

/-- A program between two declarations: the roots are the bodies of the functions, and no
type is open. -/
def Whole (program : Program) : Prop :=
  Arranged program [] program.bodies (.nodes program.bodies)

/-- A parser that takes whole programs to whole programs. -/
def Builds {α : Type} (parser : Parser α) : Prop :=
  ∀ state value after, parser state = .ok value after -> Whole state.program ->
    Whole after.program

/-- A tree in stock becomes the body of a function. -/
theorem Whole.setSymbolKind
    {program : Program}
    {bodies : List NodeId}
    {kind : SymbolKind}
    (arranged : Arranged program [] bodies (.nodes (kind.body?.toList ++ bodies)))
    (id : SymbolId) :
    Whole (program.setSymbolKind id kind) where
  forest := by
    have fewer := program.bodies_setSymbolKind id kind
    rw [arranged.bodies] at fewer
    exact (arranged.forest.fewer fewer).of_nodes_eq rfl
  types := arranged.types
  sized := by simp
  bodies := rfl

/-- A function whose body stays the same may change otherwise. -/
theorem Whole.setFunction
    {program : Program}
    (whole : Whole program)
    {id : SymbolId}
    {symbol : Symbol}
    (found : program.symbol? id = some symbol)
    {kind : SymbolKind}
    (same : kind.body? = symbol.kind.body?) :
    Whole (program.setSymbolKind id kind) := by
  unfold Whole
  rw [program.bodies_setSymbolKind_of_eq found same]
  exact ⟨whole.forest.of_nodes_eq rfl, whole.types, by simp,
    program.bodies_setSymbolKind_of_eq found same⟩

namespace Builds

variable {α β σ : Type}

/-- What a parser that gives no roots does keeps a program whole. -/
theorem of_plants {parser : Parser α} (plants : Plants .none parser fun _ => .none) :
    Builds parser := by
  intro state value after run whole
  have arranged := plants state value after run [] _ (.nodes state.program.bodies) whole
  unfold Whole
  rw [arranged.bodies]
  exact arranged

/-- Two parsers take whole programs to whole programs if both of them do. -/
theorem bind {parser : Parser α} {rest : α -> Parser β} (first : Builds parser)
    (second : ∀ value, Builds (rest value)) : Builds (parser >>= rest) := by
  intro state value after run whole
  obtain ⟨middle, between, firstRun, secondRun⟩ := bind_ok run
  exact second middle between value after secondRun
    (first state middle between firstRun whole)

theorem ite {condition : Prop} [Decidable condition] {left right : Parser α}
    (first : Builds left) (second : Builds right) :
    Builds (if condition then left else right) := by
  split
  · exact first
  · exact second

/-- A loop takes whole programs to whole programs if its rounds do. -/
theorem iterate {start : σ} {round : σ -> Parser (Round σ α)}
    (rounds : ∀ current, Builds (round current)) : Builds (iterate start round) := by
  have bounded (bound : Nat) (current : σ) : Builds (iterateFor round bound current) := by
    induction bound generalizing current with
    | zero => exact .of_plants (.throw _)
    | succ bound hypothesis =>
        refine .bind (rounds current) fun result => ?_
        cases result with
        | again next => exact hypothesis next
        | done value => exact .of_plants (.pure rfl)
  exact .bind (.of_plants .get) fun _ => bounded _ _

end Builds

/-! ### Frames -/

/-- A symbol that was looked up during a layout has an entry. -/
theorem symbol_ok {id : SymbolId} {symbol : Symbol} {program after : Program}
    (run : Program.FrameM.symbol id program = .ok symbol after) :
    program.symbol? id = some symbol ∧ after = program := by
  cases found : program.symbol? id with
  | some entry =>
      rw [Program.symbol_run found] at run
      cases run
      exact ⟨rfl, rfl⟩
  | none =>
      obtain ⟨_, _, read, rest⟩ := bind_ok run
      cases read
      rw [found] at rest
      cases rest

/-- Looking up the type of a symbol changes nothing. -/
theorem symbolTy_ok {id : SymbolId} {ty : Ty} {program after : Program}
    (run : Program.FrameM.symbolTy id program = .ok ty after) : after = program := by
  obtain ⟨symbol, middle, read, rest⟩ := bind_ok run
  obtain ⟨-, rfl⟩ := symbol_ok read
  obtain ⟨_, _, got, rest⟩ := bind_ok rest
  cases got
  cases typed : middle.types.get? symbol.ty <;> rw [typed] at rest <;> cases rest
  rfl

theorem sized_ok {size : Option Int} {value : Int} {program after : Program}
    (run : Program.FrameM.sized size program = .ok value after) : after = program := by
  cases size <;> cases run
  rfl

theorem aligned_ok {size align value : Int} {program after : Program}
    (run : Program.FrameM.aligned size align program = .ok value after) :
    after = program := by
  unfold Program.FrameM.aligned at run
  cases rounded : Layout.aligned size align <;> rw [rounded] at run <;> cases run
  rfl

/-- A local variable that gets its place has no body. -/
theorem Whole.placeLocals
    {locals : List SymbolId}
    {offset last : Int}
    {program after : Program}
    (whole : Whole program)
    (run : Program.placeLocals locals offset program = .ok last after) :
    Whole after := by
  induction locals generalizing offset program with
  | nil =>
      cases run
      exact whole
  | cons id rest hypothesis =>
      obtain ⟨ty, first, typed, behindTy⟩ := bind_ok run
      obtain rfl := symbolTy_ok typed
      obtain ⟨stop, second, added, behindStop⟩ := bind_ok behindTy
      obtain rfl := sized_ok added
      obtain ⟨place, third, rounded, behindPlace⟩ := bind_ok behindStop
      obtain rfl := aligned_ok rounded
      obtain ⟨_, _, ⟨⟩, others⟩ := bind_ok behindPlace
      have noBody : Arranged third [] third.bodies
          (.nodes ((SymbolKind.localVar (some place)).body?.toList ++ third.bodies)) :=
            whole
      exact hypothesis (.setSymbolKind noBody id) others

/-- A frame is laid out without a change of bodies. -/
theorem Whole.layoutFrame
    {id : SymbolId}
    {program after : Program}
    (whole : Whole program)
    (run : Program.layoutFrame id program = .ok () after) :
    Whole after := by
  obtain ⟨symbol, before, read, rest⟩ := bind_ok run
  obtain ⟨-, rfl⟩ := symbol_ok read
  cases kind : symbol.kind with
  | function definition =>
      rw [kind] at rest
      obtain ⟨last, placed, places, behindLocals⟩ := bind_ok rest
      have laid := whole.placeLocals places
      obtain ⟨size, sized, rounded, behindSize⟩ := bind_ok behindLocals
      obtain rfl := sized_ok rounded
      obtain ⟨own, known, again, setting⟩ := bind_ok behindSize
      obtain ⟨found, rfl⟩ := symbol_ok again
      cases ownKind : own.kind with
      | function definition =>
          rw [ownKind] at setting
          cases setting
          exact laid.setFunction found (by rw [ownKind]; rfl)
      | _ =>
          rw [ownKind] at setting
          cases setting
          exact laid
  | _ =>
      rw [kind] at rest
      cases rest
      exact whole

/-! ### Declarations -/

namespace Builds

/-- The layout of a frame changes the kinds of symbols, but no body. -/
theorem layoutFrame (id : SymbolId) (tok : Nat) : Builds (layoutFrame id tok) := by
  intro state value after run whole
  obtain ⟨_, _, read, rest⟩ := bind_ok run
  cases read
  cases laid : Program.layoutFrame id state.program with
  | ok _ program =>
      rw [laid] at rest
      cases rest
      exact whole.layoutFrame laid
  | error reason program =>
      rw [laid] at rest
      cases reason <;> cases rest

theorem signature (ty : TyId) (tok : Nat) :
    Plants .none (signature ty tok) fun _ => .none := by
  refine .bind (.lookupTy ty) fun _ => ?_
  split
  · exact .bind (.lookupTy _) fun _ => .first_if (.failAt _ _) fun _ =>
      .first_if (.failAt _ _) fun _ => .pure rfl
  · exact .failAt _ _

/-- A function is entered without a body. -/
theorem newFunction (name : String) (ty : TyId) (isStatic : Bool) :
    Plants .none (newFunction name ty isStatic) fun _ => .none :=
  .bind (.newSymbol rfl) fun _ => .bind (.addGlobal _) fun _ =>
    .bind (.modifyScopes _) fun _ => .pure rfl

/-- A parameter is a local variable. -/
theorem declareParameter (param : Param) :
    Plants .none (declareParameter param) fun _ => .none := by
  unfold Grammar.declareParameter
  split
  · exact .failHere _
  · exact .bind (.lookupTy _) fun _ => .first_if (.failAt _ _) fun _ =>
      .bind .get fun _ => .newLocal _ _

theorem finishFunction : Plants .none finishFunction fun _ => .none := by
  refine .bind .get fun state => ?_
  split
  · exact .throw _
  · exact .bind (.modify fun _ => rfl) fun _ => .pure rfl

theorem checkGotos (function : FunctionContext) :
    Plants .none (checkGotos function) fun _ => .none := by
  unfold Grammar.checkGotos
  induction function.gotos with
  | nil => exact .pure rfl
  | cons jump rest hypothesis =>
      exact .bind (.ite (.pure rfl) (.failAt _ _)) fun _ => hypothesis

end Builds

section

variable {again : Productions} (planting : again.Planting)

include planting

/-- The body of a function is given as one tree. -/
theorem Plants.functionBody (params : List Param) :
    Plants .none (functionBody again params) fun result => .nodes [result.2] :=
  .withScope <| .bind (.mapM Builds.declareParameter params) fun _ =>
    .bind (.expect openBrace) fun _ => .gain (.block planting) fun _ => .pure rfl

/-- The body of a function is a root from its definition on. -/
theorem Builds.functionDefinition (id : SymbolId) (result : TyId) (params : List Param)
    (tok : Nat) : Builds (functionDefinition again id result params tok) := by
  intro state value after run whole
  obtain ⟨_, _, began, run⟩ := bind_ok run
  cases began
  obtain ⟨⟨symbols, body⟩, _, parsed, run⟩ := bind_ok run
  obtain ⟨context, _, finished, run⟩ := bind_ok run
  obtain ⟨_, checked, resolved, run⟩ := bind_ok run
  have parsing := Plants.functionBody planting params _ _ _ parsed [] state.program.bodies
    (.nodes state.program.bodies) whole
  have finishing := finishFunction _ _ _ finished [] _
    (.nodes (body :: state.program.bodies)) parsing
  have checking := checkGotos context _ _ _ resolved [] _
    (.nodes (body :: state.program.bodies)) finishing
  obtain ⟨_, _, defined, run⟩ := bind_ok run
  cases defined
  exact layoutFrame id tok _ _ _ run (.setSymbolKind checking id)

/-- A function is entered, and its body with it if there is one. -/
theorem Builds.function (declared : Declarator) (storage : Storage) :
    Builds (function again declared storage) :=
  .bind (.of_plants (.requireName declared)) fun _ =>
    .bind (.of_plants (signature _ _)) fun _ =>
    .bind (.of_plants .get) fun _ => .bind (.of_plants (newFunction _ _ _)) fun _ =>
      .bind (.of_plants (.accept ";")) fun _ =>
        .ite (.of_plants (.pure rfl)) (.functionDefinition planting _ _ _ _)

/-- Global variables plant nothing. -/
theorem Plants.globalVariables (base : TyId) (first : Declarator) (storage : Storage) :
    Plants .none (globalVariables again base first storage) fun _ => .none := by
  have declareGlobal (declared : Declarator) :
      Plants .none (declareGlobal storage declared) fun _ => .none :=
    .bind (.requireName declared) fun _ => .bind (.checkVariableTy _ _) fun _ =>
      .bind .get fun _ => .bind (.newGlobal _ _ _) fun _ => .pure rfl
  exact .iterate (fun _ => .none) fun _ => .bind (declareGlobal _) fun _ =>
    .bind (.accept ";") fun _ => .ite (.pure rfl) <| .bind (.expect ",") fun _ =>
      .bind (.declarator planting base) fun _ => .pure rfl

/-- A declaration at file scope takes whole programs to whole programs. -/
theorem Builds.fileDeclaration : Builds (fileDeclaration again) :=
  .bind (.of_plants (.specifiers planting true)) fun _ =>
    .ite (.of_plants (.typedefNames planting _)) <|
      .bind (.of_plants (.accept ";")) fun _ =>
      .ite (.of_plants (.pure rfl)) <|
        .bind (.of_plants (.declarator planting _)) fun _ =>
        .bind (.of_plants (.lookupTy _)) fun _ =>
          .ite (.function planting _ _) (.of_plants (.globalVariables planting _ _ _))

/-- A source file takes whole programs to whole programs. -/
theorem Builds.unit : Builds (unit again) :=
  .iterate fun _ => .bind (.of_plants .get) fun _ => .ite (.of_plants (.pure rfl)) <|
    .bind (.fileDeclaration planting) fun _ => .of_plants (.pure rfl)

end

end Grammar

/-- The program that tokens spell is whole. -/
theorem whole_of_parse {tokens : TokenStream} {program : Program}
    (parsed : parse tokens = .ok program) : Grammar.Whole program := by
  have empty : Grammar.Whole Program.empty :=
    ⟨.empty, TypeTable.Consistent.initial, by simp, rfl⟩
  unfold parse at parsed
  split at parsed
  · rename_i after run
    obtain rfl := Except.ok.inj parsed
    exact Grammar.Builds.unit (Grammar.productions_planting _) _ _ _ run empty
  · cases parsed

end MiniC
