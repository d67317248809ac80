import Mathlib.Order.RelClasses
import MiniC.Proofs.Grammar.Runs

/-!
# Parsing restores the scopes

Whatever a parser reads, and whether it gives a result or fails, it ends with as many open
scopes as it began with, and it has changed at most the innermost of them.  Blocks and
`for` statements leave that one as it was too.  So the end of a source file is reached at
file scope.

Nothing is asked of the state in which a parser begins.
-/

namespace MiniC
namespace Grammar

variable {α β σ : Type}

/-- The state in which a parser ends, with a result or without one. -/
def ending (parser : Parser α) (state : State) : State :=
  match parser state with
  | .ok _ after => after
  | .error _ after => after

/-- A parser that changes the scopes along a relation only.  One along equality leaves
them alone, and one along `SameOuter` declares nothing but in the innermost. -/
def Rescopes (rel : Scopes -> Scopes -> Prop) (parser : Parser α) : Prop :=
  ∀ state, rel state.scopes (ending parser state).scopes

/-- A relation along which scopes change when names are declared and blocks are parsed. -/
class Lexical (rel : Scopes -> Scopes -> Prop) : Prop extends IsPreorder Scopes rel where
  declareVariable : ∀ scopes name binding,
    rel scopes (scopes.declareVariable name binding)
  declareTag : ∀ scopes name ty, rel scopes (scopes.declareTag name ty)
  leave : ∀ {scopes inner}, rel scopes.enter inner -> rel scopes inner.leave

instance : Lexical SameOuter where
  refl := .refl
  trans _ _ _ := .trans
  declareVariable := .declareVariable
  declareTag := .declareTag
  leave same := same.leave_eq ▸ .refl _

namespace Rescopes

variable {rel : Scopes -> Scopes -> Prop} [IsPreorder Scopes rel]

/-! ## Ways to put parsers together -/

/-- A parser that leaves the scopes alone. -/
theorem of_eq {parser : Parser α}
    (same : ∀ state, (ending parser state).scopes = state.scopes) :
    Rescopes rel parser := by
  intro state
  rw [same state]
  exact refl_of rel _

theorem pure (value : α) : Rescopes rel (pure value) := of_eq fun _ => rfl

theorem get : Rescopes rel get := of_eq fun _ => rfl

/-- A parser that fails keeps the scopes it began with. -/
theorem throw (error : Error) :
    Rescopes rel (throw error : Parser α) := of_eq fun _ => rfl

/-- A change of the state outside of its scopes. -/
theorem modify {change : State -> State}
    (same : ∀ state, (change state).scopes = state.scopes) :
    Rescopes rel (modify change) :=
  of_eq same

/-- One parser behind another. -/
theorem bind {parser : Parser α} {rest : α -> Parser β} (first : Rescopes rel parser)
    (second : ∀ value, Rescopes rel (rest value)) : Rescopes rel (parser >>= rest) := by
  intro state
  have one := first state
  have unfolded : (parser >>= rest) state = EStateM.bind parser rest state := rfl
  unfold ending at one ⊢
  rw [unfolded, EStateM.bind]
  cases run : parser state with
  | ok value after =>
      rw [run] at one
      exact trans_of rel one (second value after)
  | error error after =>
      rw [run] at one
      exact one

omit [IsPreorder Scopes rel] in
/-- A choice between two parsers. -/
theorem ite {condition : Prop} [Decidable condition] {left right : Parser α}
    (first : Rescopes rel left) (second : Rescopes rel right) :
    Rescopes rel (if condition then left else right) := by
  split
  · exact first
  · exact second

/-- A parser behind another that is run under a condition. -/
theorem first_if {condition : Prop} [Decidable condition] {parser : Parser Unit}
    {rest : Unit -> Parser β} (first : Rescopes rel parser)
    (second : ∀ value, Rescopes rel (rest value)) :
    Rescopes rel (if condition then parser >>= rest else rest ()) :=
  .ite (.bind first second) (second ())

/-- A parser behind another that is run unless a condition holds. -/
theorem first_unless {condition : Prop} [Decidable condition] {parser : Parser Unit}
    {rest : Unit -> Parser β} (first : Rescopes rel parser)
    (second : ∀ value, Rescopes rel (rest value)) :
    Rescopes rel (if condition then rest () else parser >>= rest) :=
  .ite (second ()) (.bind first second)

/-- What each round of a loop does the loop does. -/
theorem iterate {start : σ} {round : σ -> Parser (Round σ α)}
    (rounds : ∀ current, Rescopes rel (round current)) :
    Rescopes rel (iterate start round) := by
  have bounded (bound : Nat) (current : σ) :
      Rescopes rel (iterateFor round bound current) := by
    induction bound generalizing current with
    | zero => exact .throw _
    | succ bound hypothesis =>
        refine .bind (rounds current) fun result => ?_
        cases result with
        | again next => exact hypothesis next
        | done value => exact .pure value
  exact .bind .get fun _ => bounded _ _

/-- A parser that is run for each entry of a list. -/
theorem mapM {parse : β -> Parser α} (each : ∀ entry, Rescopes rel (parse entry))
    (list : List β) : Rescopes rel (list.mapM parse) := by
  induction list with
  | nil => exact .pure []
  | cons entry rest hypothesis =>
      rw [List.mapM_cons]
      exact .bind (each entry) fun _ => .bind hypothesis fun _ => .pure _

omit [IsPreorder Scopes rel] in
/-- Parsing inside a scope of its own. -/
theorem withScope {inside : Scopes -> Scopes -> Prop} {parser : Parser α}
    (leave : ∀ {scopes inner}, inside scopes.enter inner -> rel scopes inner.leave)
    (inner : Rescopes inside parser) : Rescopes rel (withScope parser) := by
  intro state
  have changed := inner { state with scopes := state.scopes.enter }
  unfold ending at changed ⊢
  unfold Grammar.withScope
  cases run : parser { state with scopes := state.scopes.enter } with
  | ok value after =>
      rw [run] at changed
      exact leave changed
  | error error after =>
      rw [run] at changed
      exact leave changed

/-! ## Parsers that leave the scopes alone -/

/-- A rejection of the source changes nothing. -/
theorem failAt (index : Nat) (cause : Cause) :
    Rescopes rel (failAt index cause : Parser α) :=
  of_eq fun _ => rfl

theorem failHere (cause : Cause) : Rescopes rel (failHere cause : Parser α) :=
  of_eq fun _ => rfl

theorem position : Rescopes rel position := of_eq fun _ => rfl

/-- Moving the cursor leaves the scopes alone. -/
theorem advance : Rescopes rel advance := of_eq fun _ => rfl

/-- Setting the cursor back does not undo declarations. -/
theorem seek (index : Nat) : Rescopes rel (seek index) := of_eq fun _ => rfl

/-- A lookup in the program leaves the scopes alone, whether it succeeds or not. -/
theorem query (read : Program -> Except Error α) : Rescopes rel (query read) := by
  refine .bind .get fun state => ?_
  cases read state.program with
  | ok value => exact .pure value
  | error error => exact .throw error

theorem lookupTy (id : TyId) : Rescopes rel (lookupTy id) := .query _

theorem typeOf (id : NodeId) : Rescopes rel (typeOf id) := .query _

theorem nodeTy (id : NodeId) : Rescopes rel (nodeTy id) := .query _

/-- Passing over a token is no declaration. -/
theorem accept (symbol : String) : Rescopes rel (accept symbol) :=
  .bind .get fun _ => .ite (.bind (.modify fun _ => rfl) fun _ => .pure _) (.pure _)

/-- A token that has to be there is passed over, or the source is rejected. -/
theorem expect (symbol : String) : Rescopes rel (expect symbol) :=
  .bind (.accept symbol) fun _ => .ite (.pure _) (.bind .get fun _ => .failHere _)

/-- An identifier that is read is not declared by that. -/
theorem identifier : Rescopes rel identifier := by
  refine of_eq fun state => ?_
  change (ending (if state.current.isIdentifier = true then _ else _ : Parser _)
    state).scopes = _
  split <;> rfl

theorem identifier? : Rescopes rel identifier? :=
  .bind .get fun _ => .ite (.bind .identifier fun _ => .pure _) (.pure _)

/-- A number is passed over with the sign in front of it. -/
theorem number : Rescopes rel number := by
  have negated (value : Int) : Rescopes Eq (negated value) := .ite (.pure _) (.throw _)
  refine .bind (.accept "-") fun negative => of_eq fun state => ?_
  have behind (rest : State -> Parser Int) :
      ending (MonadState.get >>= rest) state = ending (rest state) state := rfl
  rw [behind]
  split
  · rename_i value _
    exact (Rescopes.ite (negated value) (.pure value)
      { state with pos := state.pos + 1 }).symm
  · rfl

/-- A new type has no name in the scopes. -/
theorem enterTy (enter : TypeTable -> TyId × TypeTable) : Rescopes rel (enterTy enter) :=
  of_eq fun _ => rfl

theorem pointerTo (base : TyId) : Rescopes rel (pointerTo base) := .enterTy _

/-- A symbol that is entered is bound to its name by a step of its own. -/
theorem newSymbol (symbol : Symbol) :
    Rescopes rel (newSymbol symbol) := of_eq fun _ => rfl

theorem addGlobal (id : SymbolId) : Rescopes rel (addGlobal id) := of_eq fun _ => rfl

/-- What is known of the function being parsed is not part of the scopes. -/
theorem modifyFunction (change : FunctionContext -> FunctionContext) :
    Rescopes rel (modifyFunction change) :=
  of_eq fun _ => rfl

/-- An array type is entered, or the source is rejected at the token for it. -/
theorem arrayOf (element : TyId) (length : Int) (tok : Nat) (cause : TypingError) :
    Rescopes rel (arrayOf element length tok cause) := by
  refine .bind .get fun state => ?_
  split
  · exact .bind (.modify fun _ => rfl) fun _ => .pure _
  · exact .failAt _ _
  · exact .throw _

/-- A string literal becomes a global variable that no name is bound to. -/
theorem newStringLiteral (data : List UInt8) (tok : Nat) :
    Rescopes rel (newStringLiteral data tok) :=
  .bind (.arrayOf _ _ _ _) fun _ => .bind (of_eq fun _ => rfl) fun _ =>
    .bind (.newSymbol _) fun _ => .bind (.addGlobal _) fun _ => .pure _

/-- The check of the type of a variable comes before its declaration. -/
theorem checkVariableTy (id : TyId) (tok : Nat) : Rescopes rel (checkVariableTy id tok) :=
  .bind (.lookupTy id) fun _ => .first_if (.failAt _ _) fun _ =>
    .ite (.failAt _ _) (.pure _)

/-! ## Nodes -/

/-- Finding the common type of two operands leaves the scopes alone. -/
theorem arithmeticTy (lhs rhs : TyId) : Rescopes rel (arithmeticTy lhs rhs) :=
  .bind (.lookupTy lhs) fun _ => .bind (.lookupTy rhs) fun _ =>
    .ite (.pure _) (.ite (.pure _) (.ite (.pure _) (.pure _)))

/-- The type of an array as a value may be a new one, which has no name. -/
theorem decayed (id : TyId) : Rescopes rel (decayed id) := by
  refine .bind (.lookupTy id) fun ty => ?_
  split
  · exact .pointerTo _
  · exact .pure _

/-- The type of a statement expression is that of the statement at its end. -/
theorem lastValueTy (body : List NodeId) (tok : Nat) :
    Rescopes rel (lastValueTy body tok) := by
  unfold Grammar.lastValueTy
  split
  · exact .failAt _ _
  · refine .bind (.query _) fun node => ?_
    split
    · exact .typeOf _
    · exact .failAt _ _

/-- Finding the type of a node only looks into the tables and enters pointer types. -/
theorem inferTy (kind : NodeKind) (tok : Nat) : Rescopes rel (inferTy kind tok) := by
  unfold Grammar.inferTy
  split
  · exact .pure _
  · exact .bind (.query _) fun _ => .pure _
  · exact .bind (.nodeTy _) fun _ => .first_if (.failAt _ _) fun _ => .pure _
  · exact .bind (.typeOf _) fun _ => .bind (.lookupTy _) fun _ =>
      .first_unless (.failAt _ _) fun _ => .arithmeticTy _ _
  · exact .ite (.pure _) (.bind (.typeOf _) fun _ => .bind (.typeOf _) fun _ =>
      .arithmeticTy _ _)
  · exact .bind (.typeOf _) fun _ => .bind (.lookupTy _) fun _ =>
      .first_if (.failAt _ _) fun _ => .pure _
  · exact .typeOf _
  · exact .bind (.query _) fun _ => .pure _
  · refine .bind (.typeOf _) fun _ => .bind (.lookupTy _) fun _ => ?_
    split <;> exact .pointerTo _
  · refine .bind (.nodeTy _) fun _ => ?_
    split
    · exact .failAt _ _
    · exact .bind (.lookupTy _) fun _ => .first_if (.failAt _ _) fun _ => .pure _
  · exact .typeOf _
  · refine .bind (.query _) fun _ => .bind (.lookupTy _) fun _ => ?_
    split <;> exact .pure _
  · exact .lastValueTy _ _
  all_goals exact .pure _

theorem newTyped (kind : NodeKind) (ty : TyId) (tok : Nat) :
    Rescopes rel (newTyped kind ty tok) :=
  of_eq fun _ => rfl

/-- A node is entered with the type that is found for it. -/
theorem newNode (kind : NodeKind) (tok : Nat) : Rescopes rel (newNode kind tok) :=
  .bind (.inferTy kind tok) fun _ => .newTyped _ _ _

/-- An operand that is no scalar is rejected with the scopes as they are. -/
theorem checkScalar (node : NodeId) (tok : Nat) : Rescopes rel (checkScalar node tok) :=
  .bind (.nodeTy node) fun _ => .ite (.failAt _ _) (.pure _)

/-- An operand that is no integer is rejected with the scopes as they are. -/
theorem checkInteger (node : NodeId) (tok : Nat) : Rescopes rel (checkInteger node tok) :=
  .bind (.nodeTy node) fun _ => .ite (.pure _) (.failAt _ _)

theorem checkArithmetic (ty : Ty) (tok : Nat) : Rescopes rel (checkArithmetic ty tok) :=
  .ite (.pure _) (.failAt _ _)

/-- Both operands of an operator are checked before its node is entered. -/
theorem newBinary (op : BinaryOp) (lhs rhs : NodeId) (tok : Nat) :
    Rescopes rel (newBinary op lhs rhs tok) :=
  .bind (.checkScalar lhs tok) fun _ => .bind (.checkScalar rhs tok) fun _ => .newNode _ _

theorem newIntegerBinary (op : BinaryOp) (lhs rhs : NodeId) (tok : Nat) :
    Rescopes rel (newIntegerBinary op lhs rhs tok) :=
  .bind (.checkInteger lhs tok) fun _ => .bind (.checkInteger rhs tok) fun _ =>
    .newBinary _ _ _ _

/-- A conversion is entered between types that allow it. -/
theorem newCast (operand : NodeId) (ty : TyId) (tok : Nat) :
    Rescopes rel (newCast operand ty tok) :=
  .bind (.lookupTy ty) fun _ => .first_if (.failAt _ _) fun _ =>
    .bind (.nodeTy operand) fun _ => .first_if (.failAt _ _) fun _ => .newTyped _ _ _

/-- An assignment converts its right side, unless it is one of structs or unions. -/
theorem newAssign (lhs rhs : NodeId) (tok : Nat) : Rescopes rel (newAssign lhs rhs tok) :=
  .bind (.typeOf lhs) fun _ => .bind (.typeOf rhs) fun _ => .bind (.lookupTy _) fun _ =>
    .first_if (.failAt _ _) fun _ =>
      .ite (.first_if (.failAt _ _) fun _ => .newNode _ _)
        (.bind (.newCast _ _ _) fun _ => .newNode _ _)

/-- The number of elements that a pointer moves by becomes a number of bytes. -/
theorem scale (operand : NodeId) (element : TyId) (tok : Nat) :
    Rescopes rel (scale operand element tok) :=
  .bind (.lookupTy element) fun _ => .first_if (.failAt _ _) fun _ =>
    .bind (.newTyped _ _ _) fun _ => .newBinary _ _ _ _

/-- A pointer moved by a number of elements. -/
theorem movePointer (op : BinaryOp) (pointer operand : NodeId)
    (element : TyId) (tok : Nat) :
    Rescopes rel (movePointer op pointer operand element tok) :=
  .bind (.scale operand element tok) fun _ => .bind (.typeOf pointer) fun _ =>
    .bind (.decayed _) fun _ => .newTyped _ _ _

/-- The distance of two pointers is divided by the size of their elements. -/
theorem pointerDistance (lhs rhs : NodeId) (element : TyId) (tok : Nat) :
    Rescopes rel (pointerDistance lhs rhs element tok) :=
  .bind (.lookupTy element) fun _ => .first_if (.failAt _ _) fun _ =>
    .bind (.typeOf lhs) fun _ => .bind (.decayed _) fun _ =>
      .bind (.newTyped _ _ _) fun _ => .bind (.newTyped _ _ _) fun _ => .newTyped _ _ _

/-- A sum is one of numbers or moves a pointer. -/
theorem newAdd (lhs rhs : NodeId) (tok : Nat) : Rescopes rel (newAdd lhs rhs tok) := by
  refine .bind (.nodeTy lhs) fun left => .bind (.nodeTy rhs) fun right => ?_
  refine .bind (.checkArithmetic left tok) fun _ =>
    .bind (.checkArithmetic right tok) fun _ => ?_
  split
  · exact .newBinary _ _ _ _
  · exact .failAt _ _
  · exact .movePointer _ _ _ _ _
  · exact .movePointer _ _ _ _ _

/-- A difference is one of numbers, moves a pointer or is the distance of two. -/
theorem newSub (lhs rhs : NodeId) (tok : Nat) : Rescopes rel (newSub lhs rhs tok) := by
  refine .bind (.nodeTy lhs) fun left => .bind (.nodeTy rhs) fun right => ?_
  refine .bind (.checkArithmetic left tok) fun _ =>
    .bind (.checkArithmetic right tok) fun _ => ?_
  split
  · exact .newBinary _ _ _ _
  · exact .movePointer _ _ _ _ _
  · exact .pointerDistance _ _ _ _
  · exact .failAt _ _

end Rescopes

/-! ## Declarations in the innermost scope -/

section

variable {rel : Scopes -> Scopes -> Prop} [Lexical rel]

namespace Rescopes

/-- A name of an object, a type or a constant is bound in the innermost scope. -/
theorem declareVariable (name : String) (binding : Binding) :
    Rescopes rel (modifyScopes (·.declareVariable name binding)) :=
  fun _ => Lexical.declareVariable _ _ _

/-- A tag is bound in the innermost scope. -/
theorem declareTag (name : String) (ty : TyId) :
    Rescopes rel (modifyScopes (·.declareTag name ty)) :=
  fun _ => Lexical.declareTag _ _ _

/-- A local variable is declared where it stands. -/
theorem newLocal (name : String) (ty : TyId) : Rescopes rel (newLocal name ty) :=
  .bind (.newSymbol _) fun _ => .bind (.modifyFunction _) fun _ =>
    .bind (.declareVariable _ _) fun _ => .pure _

/-- A global variable is declared where it stands. -/
theorem newGlobal (name : String) (ty : TyId) (isStatic : Bool) :
    Rescopes rel (newGlobal name ty isStatic) :=
  .bind (.newSymbol _) fun _ => .bind (.addGlobal _) fun _ =>
    .bind (.declareVariable _ _) fun _ => .pure _

end Rescopes

/-! ## Productions -/

/-- Productions that change the scopes along a relation only, whoever calls them. -/
structure Productions.Scoped (rel : Scopes -> Scopes -> Prop)
    (again : Productions) : Prop where
  specifiers : ∀ allowed, Rescopes rel (again.specifiers allowed)
  declarator : ∀ ty, Rescopes rel (again.declarator ty)
  suffix : ∀ ty, Rescopes rel (again.suffix ty)
  expr : Rescopes rel again.expr
  assign : Rescopes rel again.assign
  cast : Rescopes rel again.cast
  unary : Rescopes rel again.unary
  stmt : Rescopes rel again.stmt
  block : Rescopes rel again.block

namespace Rescopes

/-! ### Declarators and specifiers -/

/-- The stars of a declarator make pointer types and bind no name. -/
theorem pointers (base : TyId) : Rescopes rel (pointers base) :=
  .iterate fun _ => .bind (.accept "*") fun _ =>
    .ite (.bind (.pointerTo _) fun _ => .pure _) (.pure _)

/-- An array as the type of a parameter becomes a pointer. -/
theorem parameterTy (id : TyId) : Rescopes rel (parameterTy id) := by
  refine .bind (.lookupTy id) fun ty => ?_
  split
  · exact .pointerTo _
  · exact .pure _

theorem requireName (declared : Declarator) :
    Rescopes rel declared.requireName := by
  unfold Declarator.requireName
  split
  · exact .pure _
  · exact .failAt _ _

/-- A tag without members refers to a struct or union that is in scope. -/
theorem taggedAggregate (form : Form) (tag : String) (tok : Nat) :
    Rescopes rel (taggedAggregate form tag tok) := by
  refine .bind .get fun state => ?_
  split
  · exact .failAt _ _
  · exact .bind (.lookupTy _) fun _ => .ite (.pure _) (.failAt _ _)

/-- A tag, if there is one, is bound in the innermost scope. -/
theorem bindTag (tag : Option (String × Nat)) (ty : TyId) :
    Rescopes rel (bindTag tag ty) := by
  unfold Grammar.bindTag
  split
  · exact .declareTag _ _
  · exact .pure _

/-- A member is remembered with its type, and its name is not bound in the scopes. -/
theorem addField (fields : List Field) (declared : Declarator) (tok : Nat) :
    Rescopes rel (addField fields declared tok) :=
  .bind (.lookupTy _) fun _ => .first_if (.failAt _ _) fun _ => .bind .get
    fun _ => .pure _

/-- The members of a struct or union are laid out behind their closing brace. -/
theorem completeTy (id : TyId) (fields : List Field) (tok : Nat) :
    Rescopes rel (completeTy id fields tok) := by
  refine .bind .get fun state => ?_
  split
  · exact .modify fun _ => rfl
  · exact .failAt _ _
  · exact .throw _

/-- A tag without constants refers to an enumeration that is in scope. -/
theorem taggedEnum (tag : String) (tok : Nat) :
    Rescopes rel (taggedEnum tag tok) := by
  refine .bind .get fun state => ?_
  split
  · exact .failAt _ _
  · exact .bind (.lookupTy _) fun _ => .ite (.pure _) (.failAt _ _)

/-- A constant is bound in the innermost scope as soon as it is read. -/
theorem enumConstant (ty : TyId) (next : Option Int) :
    Rescopes rel (enumConstant ty next) := by
  refine .bind .identifier fun named => .bind (.accept "=") fun _ => ?_
  have declared (value : Int) : Rescopes rel (do
      modifyScopes (·.declareVariable named.1 (.enumConstant ty value))
      return Extent.add? value 1) :=
    .bind (.declareVariable _ _) fun _ => .pure _
  refine .ite (.bind .number declared) ?_
  split
  · exact .bind (.pure _) declared
  · exact .bind (.failAt _ _) declared

/-- The constants of an enumeration stand in the scope around it. -/
theorem enumConstants (ty : TyId) : Rescopes rel (enumConstants ty) := by
  refine .iterate fun _ => .bind (.accept closeBrace) fun _ => .ite (.pure _) (.ite ?_ ?_)
  · exact .bind (.enumConstant ty _) fun _ => .pure _
  · exact .bind (.expect ",") fun _ => .bind (.accept closeBrace) fun _ =>
      .ite (.pure _) (.bind (.enumConstant ty _) fun _ => .pure _)

/-- The tag of an enumeration is bound behind its constants. -/
theorem enumBody (tag : Option (String × Nat)) : Rescopes rel (enumBody tag) :=
  .bind (.expect _) fun _ => .bind (.enterTy _) fun _ => .bind (.enumConstants _) fun _ =>
    .bind (.bindTag _ _) fun _ => .pure _

/-- An enumeration is declared, or one in scope is referred to. -/
theorem enumeration : Rescopes rel enumeration := by
  refine .bind .identifier? fun tag => .bind .get fun state => ?_
  split
  · exact .taggedEnum _ _
  · exact .enumBody _

/-- A storage class is remembered for the declaration that follows. -/
theorem storageClass (allowed : Bool) (storage : Storage) :
    Rescopes rel (storageClass allowed storage) :=
  .first_unless (.failHere _) fun _ => .bind .get fun _ =>
    .first_if (.failHere _) fun _ => .bind .advance fun _ => .pure _

/-- A word of a basic type is counted among the specifiers. -/
theorem typeWord (seen : Specifiers) : Rescopes rel (typeWord seen) := by
  refine .bind .get fun state => ?_
  split
  · exact .failHere _
  · exact .bind .advance fun _ => .pure _

section

variable {again : Productions} (within : again.Scoped rel)

include within

/-- The specifiers of a parameter may declare a tag, but its own name is not bound
here. -/
theorem parameter : Rescopes rel (parameter again) :=
  .bind (within.specifiers false) fun _ => .bind (within.declarator _) fun _ =>
    .bind (.parameterTy _) fun _ => .pure _

/-- A list of parameters opens no scope. -/
theorem parameters (result : TyId) : Rescopes rel (parameters again result) := by
  refine .bind .get fun state =>
    .ite ?_ (.bind (.iterate fun params => ?_) fun _ => .enterTy _)
  · exact .bind .advance fun _ => .bind .advance fun _ => .enterTy _
  · exact .bind (.accept ")") fun _ => .ite (.pure _) <|
      .first_unless (.expect ",") fun _ => .bind (.parameter within) fun _ => .pure _

/-- The element type of an array is read behind its length. -/
theorem arraySuffix (ty : TyId) : Rescopes rel (arraySuffix again ty) :=
  .bind .position fun _ => .bind .number fun _ => .first_if (.failAt _ _) fun _ =>
    .bind (.expect "]") fun _ => .bind (within.suffix ty) fun _ =>
      .bind (.lookupTy _) fun _ => .first_if (.failAt _ _) fun _ => .arrayOf _ _ _ _

/-- What stands behind a declarator makes a function or an array of its type. -/
theorem suffix (ty : TyId) : Rescopes rel (suffix again ty) :=
  .bind (.accept "(") fun _ => .ite (.parameters within ty) <|
    .bind (.accept "[") fun _ => .ite (.arraySuffix within ty) (.pure _)

/-- The declarator in parentheses is read twice, each time along the same relation. -/
theorem nestedDeclarator (ty : TyId) : Rescopes rel (nestedDeclarator again ty) :=
  .bind .advance fun _ => .bind .position fun _ => .bind (within.declarator _) fun _ =>
    .bind (.expect ")") fun _ => .bind (.suffix within ty) fun _ =>
      .bind .position fun _ =>
      .bind (.seek _) fun _ => .bind (within.declarator _) fun _ =>
        .bind (.seek _) fun _ => .pure _

/-- A declarator binds nothing, but types inside its parameters may. -/
theorem declarator (base : TyId) : Rescopes rel (declarator again base) :=
  .bind .position fun _ => .bind (.pointers base) fun _ => .bind .get fun _ =>
    .ite (.bind (.nestedDeclarator within _) fun _ => .pure _)
      (.bind .identifier? fun _ => .bind (.suffix within _) fun _ => .pure _)

/-- What each use of a declarator does the list of them does. -/
theorem declaratorList {start : σ} {extend : σ -> Declarator -> Nat -> Parser σ}
    (each : ∀ result declared tok, Rescopes rel (extend result declared tok))
    (base : TyId) : Rescopes rel (declaratorList again base start extend) :=
  .iterate fun _ => .bind (.accept ";") fun _ => .ite (.pure _) <|
    .first_unless (.expect ",") fun _ => .bind (.declarator within base) fun _ =>
      .bind (.requireName _) fun _ => .bind (each _ _ _) fun _ => .pure _

/-- The members between two braces open no scope. -/
theorem fieldList : Rescopes rel (fieldList again) :=
  .iterate fun _ => .bind (.accept closeBrace) fun _ => .ite (.pure _) <|
    .bind (within.specifiers false) fun _ =>
      .bind (.declaratorList within .addField _) fun _ => .pure _

/-- The tag of a struct or union is bound in front of its members. -/
theorem aggregateBody (form : Form) (tag : Option (String × Nat)) :
    Rescopes rel (aggregateBody again form tag) :=
  .bind .position fun _ => .bind (.expect _) fun _ => .bind (.enterTy _) fun _ =>
    .bind (.bindTag _ _) fun _ => .bind (.fieldList within) fun _ =>
      .bind (.completeTy _ _ _) fun _ => .pure _

/-- A struct or union is declared, or one in scope is referred to. -/
theorem aggregate (form : Form) : Rescopes rel (aggregate again form) := by
  refine .bind .identifier? fun tag => .bind .get fun state => ?_
  split
  · exact .taggedAggregate _ _ _
  · exact .aggregateBody within _ _

/-- A type that begins with a keyword for tags, or the name of a type. -/
theorem namedTy (typedef : Option TyId) : Rescopes rel (namedTy again typedef) :=
  .bind (.accept "struct") fun _ => .ite (.aggregate within .struct) <|
    .bind (.accept "union") fun _ => .ite (.aggregate within .union) <|
      .bind (.accept "enum") fun _ => .ite .enumeration <| .bind .advance fun _ => .pure _

/-- Specifiers declare only what their structs, unions and enumerations declare. -/
theorem specifiers (allowed : Bool) : Rescopes rel (specifiers again allowed) :=
  .iterate fun _ => .bind .get fun _ => .ite (.pure _) <|
    .ite (.bind (.storageClass _ _) fun _ => .pure _) <|
      .ite (.ite (.pure _) (.bind (.namedTy within _) fun _ => .pure _))
        (.bind (.typeWord _) fun _ => .pure _)

/-- The name of a type is written as a declarator without a name. -/
theorem typeName : Rescopes rel (typeName again) :=
  .bind (.specifiers within false) fun _ => .bind (.declarator within _) fun _ => .pure _

/-! ### Expressions -/

/-- An argument is converted to the type of its parameter. -/
theorem argument (param : Option Param) : Rescopes rel (argument again param) := by
  refine .bind .position fun _ => .bind within.assign fun _ => .bind (.nodeTy _) fun _ =>
    .first_if (.failAt _ _) fun _ => ?_
  split
  · exact .newCast _ _ _
  · exact .pure _

/-- The arguments of a call are read one after the other. -/
theorem arguments (params : List Param) : Rescopes rel (arguments again params) :=
  .iterate fun _ => .bind (.accept ")") fun _ => .ite (.pure _) <|
    .first_unless (.expect ",") fun _ => .bind (.argument within _) fun _ => .pure _

/-- A call looks its function up and declares nothing by itself. -/
theorem call : Rescopes rel (call again) := by
  have callee (name : String) (tok : Nat) : Rescopes rel (callee name tok) := by
    refine .bind .get fun state => ?_
    split
    · exact .pure _
    · exact .failAt _ _
    · exact .failAt _ _
  refine .bind .identifier fun _ => .bind (.expect "(") fun _ =>
    .bind (callee _ _) fun _ => .bind (.query _) fun _ => .bind (.lookupTy _) fun _ => ?_
  split
  · exact .bind (.arguments within _) fun _ => .first_if (.failAt _ _) fun _ =>
      .newTyped _ _ _
  · exact .failAt _ _

omit within in
/-- A name that is used is looked up, and is not declared if it is missing. -/
theorem variableReference : Rescopes rel variableReference := by
  refine .bind .identifier fun _ => .bind .get fun state => ?_
  split
  · exact .newNode _ _
  · exact .newTyped _ _ _
  · exact .failAt _ _

omit within in
/-- The statements of a block become those of a statement expression. -/
theorem takeBlock (block : NodeId) (tok : Nat) : Rescopes rel (takeBlock block tok) := by
  refine .bind (.query _) fun node => ?_
  split
  · exact .bind (.modify fun _ => rfl) fun _ => .pure _
  · exact .failAt _ _

/-- The block of a statement expression closes its own scope. -/
theorem statementExpression : Rescopes rel (statementExpression again) :=
  .bind .position fun _ => .bind .advance fun _ => .bind .advance fun _ =>
    .bind within.block fun _ => .bind (.expect ")") fun _ =>
      .bind (.takeBlock _ _) fun _ => .newNode _ _

/-- The operand of `sizeof` may be a type that declares a tag. -/
theorem sizeofOperand (tok : Nat) : Rescopes rel (sizeofOperand again tok) :=
  .bind .get fun _ => .ite
    (.bind .advance fun _ => .bind (.typeName within) fun _ =>
      .bind (.expect ")") fun _ => .pure _)
    (.bind within.unary fun _ => .typeOf _)

theorem sizeof (tok : Nat) : Rescopes rel (sizeof again tok) :=
  .bind (.sizeofOperand within tok) fun _ => .bind (.lookupTy _) fun _ =>
    .first_if (.failAt _ _) fun _ => .newTyped _ _ _

/-- A name, a string or a number. -/
theorem atom : Rescopes rel (atom again) := by
  refine .bind .get fun state => ?_
  dsimp only
  split
  · exact .ite (.call within) .variableReference
  · exact .bind .advance fun _ => .bind (.newStringLiteral _ _) fun _ => .newNode _ _
  · exact .bind .number fun _ => .newNode _ _
  · exact .failHere _

/-- An expression in parentheses, a `sizeof` or an atom. -/
theorem primary : Rescopes rel (primary again) :=
  .bind .get fun _ => .ite (.statementExpression within) <| .bind (.accept "(") fun _ =>
    .ite (.bind within.expr fun _ => .bind (.expect ")") fun _ => .pure _) <|
      .bind (.accept "sizeof") fun _ => .ite (.sizeof within _) (.atom within)

omit within in
/-- A member is found in its struct or union and not in the scopes. -/
theorem memberAccess (base : NodeId) : Rescopes rel (memberAccess base) := by
  refine .bind (.typeOf base) fun _ => .bind .identifier fun _ =>
    .bind (.lookupTy _) fun ty => .first_unless (.failAt _ _) fun _ => ?_
  split
  · exact .failAt _ _
  · exact .newTyped _ _ _

/-- Indices and members behind a primary expression. -/
theorem trailer : Rescopes rel (trailer again) := by
  refine .bind (.primary within) fun _ => .iterate fun _ => .bind .position fun _ =>
    .bind (.accept "[") fun _ => .ite ?_ <| .bind (.accept ".") fun _ => .ite ?_ <|
      .bind (.accept "->") fun _ => .ite ?_ (.pure _)
  · exact .bind within.expr fun _ => .bind (.expect "]") fun _ =>
      .bind (.newAdd _ _ _) fun _ => .bind (.newNode _ _) fun _ => .pure _
  · exact .bind (.memberAccess _) fun _ => .pure _
  · exact .bind (.newNode _ _) fun _ => .bind (.memberAccess _) fun _ => .pure _

/-- Operators in front of an operand. -/
theorem unary : Rescopes rel (unary again) := by
  have operated (kind : NodeId -> NodeKind) (tok : Nat) :
      Rescopes rel (do Grammar.newNode (kind (← again.cast)) tok) :=
    .bind within.cast fun _ => .newNode _ _
  exact .bind .position fun tok => .bind (.accept "+") fun _ => .ite within.cast <|
    .bind (.accept "-") fun _ => .ite (operated (.unary .neg) tok) <|
    .bind (.accept "&") fun _ => .ite (operated .addr tok) <|
    .bind (.accept "*") fun _ => .ite (operated .deref tok) <|
    .bind (.accept "!") fun _ => .ite (operated (.unary .not) tok) <|
    .bind (.accept "~") fun _ => .ite (operated (.unary .bitNot) tok) (.trailer within)

/-- A type in parentheses in front of an operand. -/
theorem cast : Rescopes rel (cast again) :=
  .bind .get fun _ => .ite
    (.bind .advance fun _ => .bind (.typeName within) fun _ =>
      .bind (.expect ")") fun _ => .bind within.cast fun _ => .newCast _ _ _)
    (.unary within)

omit within in
/-- A level of operators, if joining operands leaves the scopes alone. -/
theorem leftChain {operators : List (String × Join)} {operand : Parser NodeId}
    (joins : ∀ operator ∈ operators, ∀ lhs rhs tok,
      Rescopes rel (operator.2 lhs rhs tok))
    (each : Rescopes rel operand) : Rescopes rel (leftChain operators operand) := by
  refine .bind each fun _ => .iterate fun lhs => .bind .get fun state => ?_
  split
  · exact .pure _
  · rename_i found
    exact .bind (.modify fun _ => rfl) fun _ => .bind each fun _ =>
      .bind (joins _ (List.mem_of_find?_eq_some found) _ _ _) fun _ => .pure _

/-- The operands of `*`, `/` and `%`. -/
theorem product : Rescopes rel (product again) :=
  .leftChain (by simp [Rescopes.newIntegerBinary]) (.cast within)

theorem sum : Rescopes rel (sum again) :=
  .leftChain (by simp [Rescopes.newAdd, Rescopes.newSub]) (.product within)

theorem relational : Rescopes rel (relational again) :=
  .leftChain (by simp [Rescopes.newBinary]) (.sum within)

theorem equality : Rescopes rel (equality again) :=
  .leftChain (by simp [Rescopes.newBinary]) (.relational within)

theorem logAnd : Rescopes rel (logAnd again) :=
  .leftChain (by simp [Rescopes.newBinary]) (.equality within)

theorem logOr : Rescopes rel (logOr again) :=
  .leftChain (by simp [Rescopes.newBinary]) (.logAnd within)

/-- An assignment groups to the right. -/
theorem assign : Rescopes rel (assign again) :=
  .bind (.logOr within) fun _ => .bind .position fun _ => .bind (.accept "=") fun _ =>
    .ite (.bind within.assign fun _ => .newAssign _ _ _) (.pure _)

/-- Expressions behind commas are read one after the other. -/
theorem expr : Rescopes rel (expr again) :=
  .bind (.assign within) fun _ => .bind .position fun _ => .bind (.accept ",") fun _ =>
    .ite (.bind within.expr fun _ => .newNode _ _) (.pure _)

/-! ### Statements -/

/-- A variable is in scope in its own initialiser. -/
theorem initialiser (symbol : SymbolId) (tok : Nat) :
    Rescopes rel (initialiser again symbol tok) :=
  .bind .position fun _ => .bind (.accept "=") fun _ => .ite
    (.bind (.newNode _ _) fun _ => .bind (.assign within) fun _ =>
      .bind (.newAssign _ _ _) fun _ => .bind (.newNode _ _) fun _ => .pure _)
    (.pure _)

/-- A local variable is declared in front of its initialiser. -/
theorem declareLocal (body : List NodeId) (declared : Declarator) (tok : Nat) :
    Rescopes rel (declareLocal again body declared tok) :=
  .bind (.checkVariableTy _ _) fun _ => .bind .get fun _ => .bind (.newLocal _ _) fun _ =>
    .bind (.initialiser within _ _) fun _ => .pure _

/-- A declaration binds its names in the innermost scope. -/
theorem declaration (base : TyId) : Rescopes rel (declaration again base) :=
  .bind .position fun _ =>
    .bind (.declaratorList within (.declareLocal within) base) fun _ => .newNode _ _

/-- A `typedef` binds its names in the innermost scope. -/
theorem typedefNames (base : TyId) : Rescopes rel (typedefNames again base) :=
  .declaratorList within (fun _ _ _ => .bind .get fun _ => .declareVariable _ _) base

/-- A statement that is an expression, or empty. -/
theorem exprStmt : Rescopes rel (exprStmt again) :=
  .bind .position fun _ => .bind (.accept ";") fun _ => .ite (.newNode _ _) <|
    .bind (.expr within) fun _ => .bind (.expect ";") fun _ => .newNode _ _

/-- A value that is returned is converted to the result type, unless that is `void`. -/
theorem returnStmt (tok : Nat) : Rescopes rel (returnStmt again tok) := by
  refine .bind (.accept ";") fun _ => .ite (.newNode _ _) <| .bind within.expr fun _ =>
    .bind (.expect ";") fun _ => .bind .get fun state => ?_
  split
  · exact .newNode _ _
  · exact .bind (.lookupTy _) fun _ => .ite (.newNode _ _) <|
      .bind (.newCast _ _ _) fun _ => .newNode _ _

/-- A condition in parentheses is a scalar. -/
theorem condition (tok : Nat) : Rescopes rel (condition again tok) :=
  .bind (.expect "(") fun _ => .bind within.expr fun _ =>
    .bind (.checkScalar _ _) fun _ => .bind (.expect ")") fun _ => .pure _

/-- The branches of an `if` are statements that open no scope of their own. -/
theorem ifStmt (tok : Nat) : Rescopes rel (ifStmt again tok) :=
  .bind (.condition within tok) fun _ => .bind within.stmt fun _ =>
    .bind (.accept "else") fun _ =>
      .ite (.bind within.stmt fun _ => .newNode _ _) (.newNode _ _)

/-- A `for` statement may begin with a declaration. -/
theorem forInit : Rescopes rel (forInit again) :=
  .bind .get fun _ =>
    .ite (.bind (.specifiers within false) fun _ => .declaration within _)
      (.exprStmt within)

theorem forCond (tok : Nat) : Rescopes rel (forCond again tok) :=
  .bind (.accept ";") fun _ => .ite (.pure _) <| .bind within.expr fun _ =>
    .bind (.checkScalar _ _) fun _ => .bind (.expect ";") fun _ => .pure _

theorem forStep : Rescopes rel (forStep again) :=
  .bind (.accept ")") fun _ => .ite (.pure _) <| .bind within.expr fun _ =>
    .bind (.expect ")") fun _ => .pure _

/-- A `for` statement is in a scope of its own. -/
theorem forStmt {outside : Scopes -> Scopes -> Prop} [IsPreorder Scopes outside]
    (leave : ∀ {scopes inner}, rel scopes.enter inner -> outside scopes inner.leave)
    (tok : Nat) :
    Rescopes outside (forStmt again tok) :=
  .bind (.expect "(") fun _ => .withScope leave <| .bind (.forInit within) fun _ =>
    .bind (.forCond within tok) fun _ => .bind (.forStep within) fun _ =>
      .bind within.stmt fun _ => .newNode _ _

/-- The body of a `while` is a statement that opens no scope of its own. -/
theorem whileStmt (tok : Nat) : Rescopes rel (whileStmt again tok) :=
  .bind (.condition within tok) fun _ => .bind within.stmt fun _ => .newNode _ _

omit within in
/-- The label of a `goto` is not in the scopes. -/
theorem gotoStmt (tok : Nat) : Rescopes rel (gotoStmt tok) :=
  .bind .identifier fun _ => .bind (.expect ";") fun _ =>
    .bind (.modifyFunction _) fun _ => .newNode _ _

/-- A label belongs to the function and not to a scope. -/
theorem labelStmt (tok : Nat) : Rescopes rel (labelStmt again tok) :=
  .bind .identifier fun _ => .bind (.expect ":") fun _ => .bind .get fun _ =>
    .first_if (.failAt _ _) fun _ => .bind (.modifyFunction _) fun _ =>
      .bind within.stmt fun _ => .newNode _ _

/-- The first token decides which statement it is, and only two of them open a scope. -/
theorem stmt : Rescopes rel (stmt again) :=
  .bind .position fun tok => .bind (.accept "return") fun _ =>
    .ite (.returnStmt within tok) <|
    .bind (.accept "if") fun _ => .ite (.ifStmt within tok) <|
    .bind (.accept "for") fun _ => .ite (.forStmt within Lexical.leave tok) <|
    .bind (.accept "while") fun _ => .ite (.whileStmt within tok) <|
    .bind (.accept "goto") fun _ => .ite (.gotoStmt tok) <|
    .bind .get fun _ => .ite (.labelStmt within tok) <|
    .bind (.accept openBrace) fun _ => .ite within.block (.exprStmt within)

/-- A declaration in a block is in the scope of that block. -/
theorem blockDeclaration : Rescopes rel (blockDeclaration again) :=
  .bind .position fun _ => .bind (.specifiers within true) fun _ =>
    .ite (.bind (.typedefNames within _) fun _ => .pure _) <| .ite (.failAt _ _) <|
      .bind (.declaration within _) fun _ => .pure _

/-- A block is made of declarations and statements. -/
theorem blockItem : Rescopes rel (blockItem again) :=
  .bind .get fun _ => .ite (.blockDeclaration within)
    (.bind (.stmt within) fun _ => .pure _)

/-- A block is in a scope of its own. -/
theorem block {outside : Scopes -> Scopes -> Prop} [IsPreorder Scopes outside]
    (leave : ∀ {scopes inner}, rel scopes.enter inner -> outside scopes inner.leave) :
    Rescopes outside (block again) := by
  refine .bind .position fun _ => .withScope leave <|
    .bind (.iterate fun _ => ?_) fun _ => .newNode _ _
  exact .bind (.accept closeBrace) fun _ => .ite (.pure _) <| .bind .get fun _ =>
    .ite (.failHere _) (.bind (.blockItem within) fun _ => .pure _)

/-! ### Source files -/

omit within in
/-- The result and the parameters of a function type. -/
theorem signature (ty : TyId) (tok : Nat) : Rescopes rel (signature ty tok) := by
  refine .bind (.lookupTy ty) fun _ => ?_
  split
  · exact .bind (.lookupTy _) fun _ => .first_if (.failAt _ _) fun _ =>
      .first_if (.failAt _ _) fun _ => .pure _
  · exact .failAt _ _

omit within in
/-- A function is declared in front of its body. -/
theorem newFunction (name : String) (ty : TyId) (isStatic : Bool) :
    Rescopes rel (newFunction name ty isStatic) :=
  .bind (.newSymbol _) fun _ => .bind (.addGlobal _) fun _ =>
    .bind (.declareVariable _ _) fun _ => .pure _

omit within in
/-- A parameter is declared as a local variable. -/
theorem declareParameter (param : Param) : Rescopes rel (declareParameter param) := by
  unfold Grammar.declareParameter
  split
  · exact .failHere _
  · exact .bind (.lookupTy _) fun _ => .first_if (.failAt _ _) fun _ =>
      .bind .get fun _ => .newLocal _ _

/-- Parameters are in a scope around the block of the body. -/
theorem functionBody (params : List Param) : Rescopes rel (functionBody again params) :=
  .withScope Lexical.leave <| .bind (.mapM .declareParameter params) fun _ =>
    .bind (.expect openBrace) fun _ => .bind (.block within Lexical.leave)
      fun _ => .pure _

omit within in
/-- The labels and variables of a function are handed over at its end. -/
theorem finishFunction : Rescopes rel finishFunction := by
  refine .bind .get fun state => ?_
  split
  · exact .throw _
  · exact .bind (.modify fun _ => rfl) fun _ => .pure _

omit within in
/-- Each `goto` needs a label in its function. -/
theorem checkGotos (function : FunctionContext) : Rescopes rel (checkGotos function) := by
  unfold Grammar.checkGotos
  induction function.gotos with
  | nil => exact .pure ()
  | cons jump rest hypothesis =>
      exact .bind (.ite (.pure _) (.failAt _ _)) fun _ => hypothesis

omit within in
/-- The frame of a function is laid out behind its body. -/
theorem layoutFrame (id : SymbolId) (tok : Nat) : Rescopes rel (layoutFrame id tok) := by
  refine .bind .get fun state => ?_
  split
  · exact .modify fun _ => rfl
  · exact .failAt _ _
  · exact .throw _

/-- A definition leaves the scope of its parameters at its end. -/
theorem functionDefinition (id : SymbolId) (result : TyId)
    (params : List Param) (tok : Nat) :
    Rescopes rel (functionDefinition again id result params tok) :=
  .bind (.modify fun _ => rfl) fun _ => .bind (.functionBody within params) fun _ =>
    .bind .finishFunction fun _ => .bind (.checkGotos _) fun _ =>
      .bind (.modify fun _ => rfl) fun _ => .layoutFrame id tok

/-- A function is declared, and defined unless a semicolon follows. -/
theorem function (declared : Declarator) (storage : Storage) :
    Rescopes rel (function again declared storage) :=
  .bind (.requireName declared) fun _ => .bind (.signature _ _) fun _ =>
    .bind .get fun _ => .bind (.newFunction _ _ _) fun _ => .bind (.accept ";") fun _ =>
      .ite (.pure _) (.functionDefinition within _ _ _ _)

omit within in
theorem declareGlobal (storage : Storage) (declared : Declarator) :
    Rescopes rel (declareGlobal storage declared) :=
  .bind (.requireName declared) fun _ => .bind (.checkVariableTy _ _) fun _ =>
    .bind .get fun _ => .bind (.newGlobal _ _ _) fun _ => .pure _

/-- The declarators of a file declaration bind their names at file scope. -/
theorem globalVariables (base : TyId) (first : Declarator) (storage : Storage) :
    Rescopes rel (globalVariables again base first storage) :=
  .iterate fun _ => .bind (.declareGlobal storage _) fun _ => .bind (.accept ";") fun _ =>
    .ite (.pure _) <| .bind (.expect ",") fun _ =>
      .bind (.declarator within base) fun _ => .pure _

/-- A declaration at file scope is of types, a function or variables. -/
theorem fileDeclaration : Rescopes rel (fileDeclaration again) :=
  .bind (.specifiers within true) fun _ => .ite (.typedefNames within _) <|
    .bind (.accept ";") fun _ => .ite (.pure _) <| .bind (.declarator within _) fun _ =>
      .bind (.lookupTy _) fun _ =>
        .ite (.function within _ _) (.globalVariables within _ _ _)

/-- A source file is parsed declaration by declaration. -/
theorem unit : Rescopes rel (unit again) :=
  .iterate fun _ => .bind .get fun _ => .ite (.pure _) <|
    .bind (.fileDeclaration within) fun _ => .pure _

end

end Rescopes

/-- All productions change the scopes by declarations and blocks only, to whatever depth
they recur. -/
theorem productions_scoped (depth : Nat) : (productions depth).Scoped rel := by
  induction depth with
  | zero =>
      exact ⟨fun _ => .throw _, fun _ => .throw _, fun _ => .throw _, .throw _, .throw _,
        .throw _, .throw _, .throw _, .throw _⟩
  | succ depth within =>
      exact ⟨.specifiers within, .declarator within, .suffix within, .expr within,
        .assign within, .cast within, .unary within, .stmt within,
        .block within Lexical.leave⟩

end

/-- Scopes that agree but for the innermost. -/
theorem SameOuter.frames {old new : Scopes} (same : SameOuter old new) :
    new.depth = old.depth ∧ new.frames.tail = old.frames.tail := by
  obtain ⟨depth, outer, file⟩ := same
  obtain ⟨oldFile, oldBlocks⟩ := old
  obtain ⟨newFile, newBlocks⟩ := new
  refine ⟨congrArg (· + 1) depth, ?_⟩
  cases oldBlocks with
  | nil =>
      obtain rfl := List.eq_nil_of_length_eq_zero depth
      rfl
  | cons block blocks =>
      obtain ⟨changed, rest, rfl⟩ := List.exists_cons_of_length_eq_add_one depth
      simpa [Scopes.frames] using ⟨outer, file (List.cons_ne_nil _ _)⟩

/-- The statement behind the keyword `for` is the `for` statement. -/
theorem stmt_of_sees_for (again : Productions) {state : State}
    (here : state.sees "for" = true) :
    stmt again state = forStmt again state.pos state.next := by
  have absent {symbol : String} (other : "for" ≠ symbol) : state.sees symbol = false :=
    State.sees_eq_false here other
  unfold stmt
  rw [position_run, accept_else (absent (by decide)), accept_else (absent (by decide)),
    accept_then here]

/-- Parsing restores the scopes.  In every state, and whether they give a result or fail,
expressions, statements, declarations and blocks end with as many scopes as they began
with and have changed none but the innermost; blocks and `for` statements have not changed
that one either.  A source file is parsed to its end at file scope. -/
theorem parsing_restores_scopes :
    (∀ depth state,
      (∀ parser ∈ [(productions depth).expr, (productions depth).stmt,
        (productions depth).block], (ending parser state).scopes.depth =
          state.scopes.depth ∧
          (ending parser state).scopes.frames.tail = state.scopes.frames.tail) ∧
      (∀ base, (ending (declaration (productions depth) base) state).scopes.depth
            = state.scopes.depth ∧
          (ending (declaration (productions depth) base) state).scopes.frames.tail
            = state.scopes.frames.tail) ∧
      (ending (productions depth).block state).scopes = state.scopes ∧
      (state.sees "for" = true ->
        (ending (productions depth).stmt state).scopes = state.scopes)) ∧
    ∀ tokens program, parse tokens = .ok program ->
      ∃ after, unit (productions (tokens.last + 1)) (.initial tokens) = .ok () after ∧
        after.program = program ∧ after.scopes.depth = 1 := by
  refine ⟨fun depth state =>
    ⟨fun parser member => ?_, fun base => ?_, ?_, fun here => ?_⟩,
    fun tokens program parsed => ?_⟩
  · have within : (productions depth).Scoped SameOuter := productions_scoped depth
    simp only [List.mem_cons, List.not_mem_nil, or_false] at member
    obtain rfl | rfl | rfl := member
    · exact (within.expr state).frames
    · exact (within.stmt state).frames
    · exact (within.block state).frames
  · exact SameOuter.frames (Rescopes.declaration (productions_scoped depth) base state)
  · cases depth with
    | zero => rfl
    | succ depth =>
        have same : Rescopes Eq (block (productions depth)) :=
          .block (productions_scoped depth) (Eq.symm ∘ SameOuter.leave_eq)
        exact (same state).symm
  · cases depth with
    | zero => rfl
    | succ depth =>
        have same : Rescopes Eq (forStmt (productions depth) state.pos) :=
          .forStmt (productions_scoped depth) (Eq.symm ∘ SameOuter.leave_eq) state.pos
        have ends : ending (stmt (productions depth)) state =
            ending (forStmt (productions depth) state.pos) state.next := by
          unfold ending
          rw [stmt_of_sees_for _ here]
        exact (congrArg State.scopes ends).trans (same _).symm
  · have same := (SameOuter.frames
      (Rescopes.unit (productions_scoped (tokens.last + 1)) (.initial tokens))).1
    unfold parse at parsed
    unfold ending at same
    split at parsed
    · rename_i after run
      rw [run] at same
      exact ⟨after, run, Except.ok.inj parsed, same⟩
    · cases parsed

/-- The tokens of `int f() { for (;;) ; }`, places left out. -/
def loopTokens : TokenStream :=
  ⟨#[⟨.keyword, "int", 0, 1⟩, ⟨.identifier, "f", 0, 1⟩, ⟨.punctuator, "(", 0, 1⟩,
      ⟨.punctuator, ")", 0, 1⟩, ⟨.punctuator, openBrace, 0, 1⟩, ⟨.keyword, "for", 0, 1⟩,
      ⟨.punctuator, "(", 0, 1⟩, ⟨.punctuator, ";", 0, 1⟩, ⟨.punctuator, ";", 0, 1⟩,
      ⟨.punctuator, ")", 0, 1⟩, ⟨.punctuator, ";", 0, 1⟩,
        ⟨.punctuator, closeBrace, 0, 1⟩],
    ⟨.eof, "", 0, 1⟩⟩

/-- The state at the loop, had nothing been declared before it. -/
def loopState : State := { State.initial loopTokens with pos := 5 }

theorem parsing_restores_scopes_loop :
    (ending (productions 3).stmt loopState).scopes = loopState.scopes ∧
      ∃ after, unit (productions (loopTokens.last + 1)) (.initial loopTokens) =
        .ok () after ∧ after.scopes.depth = 1 := by
  have succeeds : (parse loopTokens).isOk = true := by decide +kernel
  cases parsed : parse loopTokens with
  | error error => simp [parsed, Except.isOk, Except.toBool] at succeeds
  | ok program =>
      obtain ⟨after, run, -, depth⟩ := parsing_restores_scopes.2 loopTokens program parsed
      have here : loopState.sees "for" = true := by decide
      exact ⟨(parsing_restores_scopes.1 3 loopState).2.2.2 here, after, run, depth⟩

end Grammar
end MiniC
