import MiniC.Grammar.Unit
import MiniC.Proofs.Grammar.Halting

/-!
# Building nodes halts

What a production does to the tables between two tokens leaves the cursor alone, and none
of the errors it may end in is that of a traversal without an end.
-/

namespace MiniC

/-! ## Tables -/

/-- A result that is not the given error. -/
def Avoids {ε α : Type} (error : ε) (result : Except ε α) : Prop := result ≠ .error error

namespace Avoids

variable {ε α β : Type} {error : ε}

theorem ok (value : α) : Avoids error (.ok value) := by simp [Avoids]

/-- A result that is an error of another kind. -/
theorem other {found : ε} (different : found ≠ error) :
    Avoids error (.error found : Except ε α) := by simpa [Avoids] using different

/-- A computation made of two avoids an error that neither of them ends in. -/
theorem bind {result : Except ε α} {rest : α -> Except ε β} (first : Avoids error result)
    (second : ∀ value, Avoids error (rest value)) : Avoids error (result >>= rest) := by
  cases result with
  | ok value => exact second value
  | error found => exact .other fun same => first (by rw [same])

end Avoids

namespace Program

variable (program : Program)

/-- A type that is missing is a fault of its own. -/
theorem lookupTy_avoids (id : TyId) : Avoids (.fault .endless) (program.lookupTy id) := by
  unfold lookupTy
  split
  · exact .ok _
  · exact .other (by simp)

/-- A node that is missing is a fault of its own. -/
theorem lookupNode_avoids (id : NodeId) :
    Avoids (.fault .endless) (program.lookupNode id) := by
  unfold lookupNode
  split
  · exact .ok _
  · exact .other (by simp)

/-- A symbol that is missing is a fault of its own. -/
theorem lookupSymbol_avoids (id : SymbolId) :
    Avoids (.fault .endless) (program.lookupSymbol id) := by
  unfold lookupSymbol
  split
  · exact .ok _
  · exact .other (by simp)

/-- A node without a type is an inconsistency and no traversal. -/
theorem typeOf_avoids (id : NodeId) : Avoids (.fault .endless) (program.typeOf id) := by
  refine .bind (program.lookupNode_avoids id) fun node => ?_
  split
  · exact .ok _
  · exact .other (by simp)

theorem nodeTy_avoids (id : NodeId) : Avoids (.fault .endless) (program.nodeTy id) :=
  .bind (program.typeOf_avoids id) program.lookupTy_avoids

/-- A member is looked up by its index, without a traversal. -/
theorem lookupMember_avoids (aggregate : TyId) (index : Nat) :
    Avoids (.fault .endless) (program.lookupMember aggregate index) := by
  refine .bind (program.lookupTy_avoids aggregate) fun ty => ?_
  split
  · exact .ok _
  · exact .other (by simp)

end Program

namespace Layout

/-- A size that leaves the range is a fault of arithmetic. -/
theorem sized_avoids (size : Option Int) : Avoids (.fault .endless) (sized size) := by
  unfold sized
  split
  · exact .ok _
  · exact .other (by simp)

/-- Rounding up fails if an alignment or a size is out of range, and in no other way. -/
theorem aligned_avoids (size align : Int) :
    Avoids (.fault .endless) (aligned size align) := by
  unfold aligned
  split
  · exact sized_avoids _
  · exact .other (by simp)

end Layout

namespace TypeTable

variable (types : TypeTable)

theorem entry_avoids (id : TyId) : Avoids (.fault .endless) (types.entry id) := by
  unfold entry
  split
  · exact .ok _
  · exact .other (by simp)

/-- The size of an array is found from the recorded size of its elements. -/
theorem arrayOf_avoids (base : TyId) (length : Int) :
    Avoids (.fault .endless) (types.arrayOf base length) :=
  .bind (types.entry_avoids base) fun _ => .bind (Layout.sized_avoids _) fun _ => .ok _

/-- The fields of a struct are laid out one after the other, by the sizes recorded for
them. -/
theorem structFrom_avoids (fields : List Field) (offset align : Int) :
    Avoids (.fault .endless) (types.structFrom fields offset align) := by
  induction fields generalizing offset align with
  | nil => exact .bind (Layout.aligned_avoids offset align) fun _ => .ok _
  | cons field rest hypothesis =>
      exact .bind (types.entry_avoids field.ty) fun _ =>
        .bind (Layout.aligned_avoids _ _) fun _ => .bind (Layout.sized_avoids _) fun _ =>
          .bind (hypothesis _ _) fun _ => .ok _

/-- The fields of a union are looked at once each. -/
theorem unionFrom_avoids (fields : List Field) (largest align : Int) :
    Avoids (.fault .endless) (types.unionFrom fields largest align) := by
  induction fields generalizing largest align with
  | nil => exact .bind (Layout.aligned_avoids largest align) fun _ => .ok _
  | cons field rest hypothesis =>
      exact .bind (types.entry_avoids field.ty) fun _ => .bind (hypothesis _ _)
        fun _ => .ok _

/-- Completing a struct or union looks at its fields and not into their types. -/
theorem complete_avoids (id : TyId) (fields : List Field) :
    Avoids (.fault .endless) (types.complete id fields) := by
  refine .bind (types.entry_avoids id) fun ty => .bind ?_ fun _ => .ok _
  unfold layout
  split
  · exact types.structFrom_avoids fields 0 1
  · exact types.unionFrom_avoids fields 0 1

end TypeTable

/-! ## Frames -/

namespace Program

/-- A computation on a program that does not end because a traversal is endless. -/
def FrameM.Ends {α : Type} (run : FrameM α) : Prop :=
  ∀ program error after, run program = .error error after -> error ≠ .fault .endless

namespace FrameM.Ends

variable {α β : Type}

/-- A computation made of two ends well if both of them do. -/
theorem bind {run : FrameM α} {rest : α -> FrameM β} (first : Ends run)
    (second : ∀ value, Ends (rest value)) : Ends (run >>= rest) := by
  intro program error after failed
  change EStateM.bind run rest program = _ at failed
  unfold EStateM.bind at failed
  split at failed
  · exact second _ _ error after failed
  · rename_i known
    cases failed
    exact first program _ _ known

theorem pure (value : α) : Ends (pure value) := by
  intro program error after failed
  cases failed

/-- A layout may be given up for any other reason. -/
theorem throw {error : LayoutError} (ends : error ≠ .fault .endless) :
    Ends (throw error : FrameM α) := by
  intro program other after failed
  cases failed
  exact ends

theorem get : Ends get := by
  intro program error after failed
  cases failed

/-- A change of the tables does not fail. -/
theorem modify (change : Program -> Program) : Ends (modify change) := by
  intro program error after failed
  cases failed

theorem sized (size : Option Int) : Ends (sized size) := by
  unfold FrameM.sized
  split
  · exact .pure _
  · exact .throw (by simp)

/-- Rounding up a frame offset fails only for reasons of arithmetic. -/
theorem aligned (size align : Int) : Ends (aligned size align) := by
  unfold FrameM.aligned
  split
  · exact .pure _
  · rename_i reason failed
    exact .throw fun same => Layout.aligned_avoids size align (same ▸ failed)

/-- A symbol is looked up, and a missing one is a fault of its own. -/
theorem symbol (id : SymbolId) : Ends (symbol id) := by
  refine .bind .get fun program => ?_
  split
  · exact .pure _
  · exact .throw (by simp)

/-- The type of a symbol is looked up behind the symbol. -/
theorem symbolTy (id : SymbolId) : Ends (symbolTy id) := by
  refine .bind (.symbol id) fun symbol => .bind .get fun program => ?_
  split
  · exact .pure _
  · exact .throw (by simp)

/-- The local variables are placed one after the other. -/
theorem placeLocals (ids : List SymbolId) (offset : Int) :
    Ends (placeLocals ids offset) := by
  induction ids generalizing offset with
  | nil => exact .pure _
  | cons id rest hypothesis =>
      exact .bind (.symbolTy id) fun _ => .bind (.sized _) fun _ =>
        .bind (.aligned _ _) fun _ => .bind (.modify _) fun _ => hypothesis _

/-- The layout of a frame is given up only for reasons of arithmetic or a missing
entry. -/
theorem layoutFrame (id : SymbolId) : Ends (layoutFrame id) := by
  refine .bind (.symbol id) fun symbol => ?_
  split
  · refine .bind (.placeLocals _ _) fun _ => .bind (.sized _) fun _ => ?_
    refine .bind (.symbol id) fun symbol => ?_
    split
    · exact .modify _
    · exact .pure _
  · exact .pure _

end FrameM.Ends
end Program

namespace Grammar
namespace Halts

variable {tokens : TokenStream} {low : Nat} {α : Type}

/-! ## Reading and entering -/

/-- A change that keeps the tokens and the cursor. -/
theorem modify {change : State -> State}
    (same : ∀ state, (change state).tokens = state.tokens)
    (pos : ∀ state, (change state).pos = state.pos) : Steady tokens low (modify change) :=
  steady fun state => ⟨_, _, rfl, same state, pos state⟩

/-- A lookup that avoids the error of an endless traversal. -/
theorem query {read : Program -> Except Error α}
    (avoids : ∀ program, Avoids (.fault .endless) (read program)) :
    Steady tokens low (query read) := by
  refine .read fun state => ?_
  have fine := avoids state.program
  unfold ofExcept
  split
  · exact .pure rfl
  · rename_i error failed
    exact .throw fun same => fine (same ▸ failed)

theorem lookupTy (id : TyId) : Steady tokens low (lookupTy id) :=
  .query (·.lookupTy_avoids id)

theorem typeOf (id : NodeId) : Steady tokens low (typeOf id) :=
  .query (·.typeOf_avoids id)

theorem nodeTy (id : NodeId) : Steady tokens low (nodeTy id) :=
  .query (·.nodeTy_avoids id)

theorem lookupNode (id : NodeId) : Steady tokens low (Grammar.query (·.lookupNode id)) :=
  .query (·.lookupNode_avoids id)

theorem lookupSymbol (id : SymbolId) :
    Steady tokens low (Grammar.query (·.lookupSymbol id)) :=
  .query (·.lookupSymbol_avoids id)

theorem modifyScopes (change : Scopes -> Scopes) :
    Steady tokens low (modifyScopes change) :=
  .modify (fun _ => rfl) fun _ => rfl

theorem modifyFunction (change : FunctionContext -> FunctionContext) :
    Steady tokens low (modifyFunction change) :=
  .modify (fun _ => rfl) fun _ => rfl

/-- Entering a type keeps the cursor where it is. -/
theorem enterTy (enter : TypeTable -> TyId × TypeTable) :
    Steady tokens low (enterTy enter) :=
  steady fun _ => ⟨_, _, rfl, rfl, rfl⟩

theorem pointerTo (base : TyId) : Steady tokens low (pointerTo base) := .enterTy _

/-- Entering a symbol keeps the cursor where it is. -/
theorem newSymbol (symbol : Symbol) : Steady tokens low (newSymbol symbol) :=
  steady fun _ => ⟨_, _, rfl, rfl, rfl⟩

theorem addGlobal (id : SymbolId) : Steady tokens low (addGlobal id) :=
  .modify (fun _ => rfl) fun _ => rfl

/-- A local variable is entered, remembered for its function and declared. -/
theorem newLocal (name : String) (ty : TyId) : Steady tokens low (newLocal name ty) :=
  .seq (.newSymbol _) fun _ => .seq (.modifyFunction _) fun _ =>
    .seq (.modifyScopes _) fun _ => .pure rfl

/-- A global variable is entered, listed and declared. -/
theorem newGlobal (name : String) (ty : TyId) (isStatic : Bool) :
    Steady tokens low (newGlobal name ty isStatic) :=
  .seq (.newSymbol _) fun _ => .seq (.addGlobal _) fun _ =>
    .seq (.modifyScopes _) fun _ => .pure rfl

/-- A function is entered, listed and declared. -/
theorem newFunction (name : String) (ty : TyId) (isStatic : Bool) :
    Steady tokens low (newFunction name ty isStatic) :=
  .seq (.newSymbol _) fun _ => .seq (.addGlobal _) fun _ =>
    .seq (.modifyScopes _) fun _ => .pure rfl

/-- An array that is too large is rejected, and any other failure is one of the tables. -/
theorem arrayOf (element : TyId) (length : Int) (tok : Nat) (cause : TypingError) :
    Steady tokens low (arrayOf element length tok cause) := by
  refine .read fun state => ?_
  have avoids := state.program.types.arrayOf_avoids element length
  split
  · exact .seq (.modify (fun _ => rfl) fun _ => rfl) fun _ => .pure rfl
  · exact .failAt
  · rename_i reason failed
    exact .throw fun same => avoids (by simp_all)

/-- A struct or union that is too large is rejected, and any other failure is one of the
tables. -/
theorem completeTy (id : TyId) (fields : List Field) (tok : Nat) :
    Steady tokens low (completeTy id fields tok) := by
  refine .read fun state => ?_
  have avoids := state.program.types.complete_avoids id fields
  split
  · exact .modify (fun _ => rfl) fun _ => rfl
  · exact .failAt
  · rename_i reason failed
    exact .throw fun same => avoids (by simp_all)

/-- A string literal is a global variable with an array type. -/
theorem newStringLiteral (data : List UInt8) (tok : Nat) :
    Steady tokens low (newStringLiteral data tok) :=
  .seq (.arrayOf _ _ _ _) fun _ => .seq (steady fun _ => ⟨_, _, rfl, rfl, rfl⟩) fun _ =>
    .seq (.newSymbol _) fun _ => .seq (.addGlobal _) fun _ => .pure rfl

/-- A variable of type `void` or of an incomplete type is rejected. -/
theorem checkVariableTy (id : TyId) (tok : Nat) :
    Steady tokens low (checkVariableTy id tok) :=
  .seq (.lookupTy id) fun _ => .first_if .failAt fun _ => .ite .failAt (.pure rfl)

/-! ## Nodes -/

/-- The common type of two operands is chosen by their types. -/
theorem arithmeticTy (lhs rhs : TyId) : Steady tokens low (arithmeticTy lhs rhs) :=
  .seq (.lookupTy lhs) fun _ => .seq (.lookupTy rhs) fun _ =>
    .ite (.pure rfl) (.ite (.pure rfl) (.ite (.pure rfl) (.pure rfl)))

/-- An array as a value is a pointer, for which a type is entered. -/
theorem decayed (id : TyId) : Steady tokens low (decayed id) := by
  refine .seq (.lookupTy id) fun ty => ?_
  split
  · exact .pointerTo _
  · exact .pure rfl

/-- A statement expression without a value at its end is rejected. -/
theorem lastValueTy (body : List NodeId) (tok : Nat) :
    Steady tokens low (lastValueTy body tok) := by
  unfold Grammar.lastValueTy
  split
  · exact .failAt
  · refine .seq (.lookupNode _) fun node => ?_
    split
    · exact .typeOf _
    · exact .failAt

/-- The type of a node is found from those of its children, which are recorded, so that no
child is gone into. -/
theorem inferTy (kind : NodeKind) (tok : Nat) : Steady tokens low (inferTy kind tok) := by
  unfold Grammar.inferTy
  split
  · exact .pure rfl
  · exact .seq (.lookupSymbol _) fun _ => .pure rfl
  · exact .seq (.nodeTy _) fun _ => .first_if .failAt fun _ => .pure rfl
  · exact .seq (.typeOf _) fun _ => .seq (.lookupTy _) fun _ =>
      .first_unless .failAt fun _ => .arithmeticTy _ _
  · exact .ite (.pure rfl) (.seq (.typeOf _) fun _ => .seq (.typeOf _) fun _ =>
      .arithmeticTy _ _)
  · exact .seq (.typeOf _) fun _ => .seq (.lookupTy _) fun _ =>
      .first_if .failAt fun _ => .pure rfl
  · exact .typeOf _
  · exact .seq (.query fun program => program.lookupMember_avoids _ _) fun _ => .pure rfl
  · refine .seq (.typeOf _) fun _ => .seq (.lookupTy _) fun _ => ?_
    split <;> exact .pointerTo _
  · refine .seq (.nodeTy _) fun _ => ?_
    split
    · exact .failAt
    · exact .seq (.lookupTy _) fun _ => .first_if .failAt fun _ => .pure rfl
  · exact .typeOf _
  · refine .seq (.lookupSymbol _) fun _ => .seq (.lookupTy _) fun _ => ?_
    split <;> exact .pure rfl
  · exact .lastValueTy _ _
  all_goals exact .pure rfl

/-- Entering a node keeps the cursor where it is. -/
theorem newTyped (kind : NodeKind) (ty : TyId) (tok : Nat) :
    Steady tokens low (newTyped kind ty tok) :=
  steady fun _ => ⟨_, _, rfl, rfl, rfl⟩

/-- A node is entered behind the search for its type. -/
theorem newNode (kind : NodeKind) (tok : Nat) : Steady tokens low (newNode kind tok) :=
  .seq (.inferTy kind tok) fun _ => .newTyped _ _ _

/-- An operand that is no scalar is rejected. -/
theorem checkScalar (node : NodeId) (tok : Nat) :
    Steady tokens low (checkScalar node tok) :=
  .seq (.nodeTy node) fun _ => .ite .failAt (.pure rfl)

/-- An operand that is no integer is rejected. -/
theorem checkInteger (node : NodeId) (tok : Nat) :
    Steady tokens low (checkInteger node tok) :=
  .seq (.nodeTy node) fun _ => .ite (.pure rfl) .failAt

/-- An operand of a sum or difference is a number or points to something. -/
theorem checkArithmetic (ty : Ty) (tok : Nat) :
    Steady tokens low (checkArithmetic ty tok) :=
  .ite (.pure rfl) .failAt

/-- The operands of an operator are scalars. -/
theorem newBinary (op : BinaryOp) (lhs rhs : NodeId) (tok : Nat) :
    Steady tokens low (newBinary op lhs rhs tok) :=
  .seq (.checkScalar lhs tok) fun _ => .seq (.checkScalar rhs tok) fun _ => .newNode _ _

/-- The operands of an operator on integers. -/
theorem newIntegerBinary (op : BinaryOp) (lhs rhs : NodeId) (tok : Nat) :
    Steady tokens low (newIntegerBinary op lhs rhs tok) :=
  .seq (.checkInteger lhs tok) fun _ => .seq (.checkInteger rhs tok) fun _ =>
    .newBinary _ _ _ _

/-- A conversion to a struct or union is rejected, and so is one from it unless to
`void`. -/
theorem newCast (operand : NodeId) (ty : TyId) (tok : Nat) :
    Steady tokens low (newCast operand ty tok) :=
  .seq (.lookupTy ty) fun _ => .first_if .failAt fun _ => .seq (.nodeTy operand) fun _ =>
    .first_if .failAt fun _ => .newTyped _ _ _

/-- An assignment to an array is rejected, and so is one of structs or unions of different
types. -/
theorem newAssign (lhs rhs : NodeId) (tok : Nat) :
    Steady tokens low (newAssign lhs rhs tok) :=
  .seq (.typeOf lhs) fun _ => .seq (.typeOf rhs) fun _ => .seq (.lookupTy _) fun _ =>
    .first_if .failAt fun _ =>
      .ite (.first_if .failAt fun _ => .newNode _ _)
        (.seq (.newCast _ _ _) fun _ => .newNode _ _)

/-- A number of elements is multiplied by their size, if they have one. -/
theorem scale (operand : NodeId) (element : TyId) (tok : Nat) :
    Steady tokens low (scale operand element tok) :=
  .seq (.lookupTy element) fun _ => .first_if .failAt fun _ =>
    .seq (.newTyped _ _ _) fun _ => .newBinary _ _ _ _

/-- A pointer keeps its type when it is moved. -/
theorem movePointer (op : BinaryOp) (pointer operand : NodeId)
    (element : TyId) (tok : Nat) :
    Steady tokens low (movePointer op pointer operand element tok) :=
  .seq (.scale operand element tok) fun _ => .seq (.typeOf pointer) fun _ =>
    .seq (.decayed _) fun _ => .newTyped _ _ _

/-- The elements of subtracted pointers have to have a size. -/
theorem pointerDistance (lhs rhs : NodeId) (element : TyId) (tok : Nat) :
    Steady tokens low (pointerDistance lhs rhs element tok) :=
  .seq (.lookupTy element) fun _ => .first_if .failAt fun _ =>
    .seq (.typeOf lhs) fun _ => .seq (.decayed _) fun _ => .seq (.newTyped _ _ _) fun _ =>
      .seq (.newTyped _ _ _) fun _ => .newTyped _ _ _

/-- A sum takes two numbers, or one pointer and a number. -/
theorem newAdd (lhs rhs : NodeId) (tok : Nat) :
    Steady tokens low (newAdd lhs rhs tok) := by
  refine .seq (.nodeTy lhs) fun _ => .seq (.nodeTy rhs) fun _ =>
    .seq (.checkArithmetic _ _) fun _ => .seq (.checkArithmetic _ _) fun _ => ?_
  split
  · exact .newBinary _ _ _ _
  · exact .failAt
  · exact .movePointer _ _ _ _ _
  · exact .movePointer _ _ _ _ _

/-- A difference takes two numbers, a pointer and a number, or two pointers. -/
theorem newSub (lhs rhs : NodeId) (tok : Nat) :
    Steady tokens low (newSub lhs rhs tok) := by
  refine .seq (.nodeTy lhs) fun _ => .seq (.nodeTy rhs) fun _ =>
    .seq (.checkArithmetic _ _) fun _ => .seq (.checkArithmetic _ _) fun _ => ?_
  split
  · exact .newBinary _ _ _ _
  · exact .movePointer _ _ _ _ _
  · exact .pointerDistance _ _ _ _
  · exact .failAt

/-- A statement expression takes over the statements of its block. -/
theorem takeBlock (block : NodeId) (tok : Nat) :
    Steady tokens low (takeBlock block tok) := by
  refine .seq (.lookupNode block) fun node => ?_
  split
  · exact .seq (.modify (fun _ => rfl) fun _ => rfl) fun _ => .pure rfl
  · exact .failAt

/-! ## Declarations -/

theorem parameterTy (id : TyId) : Steady tokens low (parameterTy id) := .decayed id

/-- A declarator without a name is rejected where one is needed. -/
theorem requireName (declared : Declarator) : Steady tokens low declared.requireName := by
  unfold Declarator.requireName
  split
  · exact .pure rfl
  · exact .failAt

/-- A tag that is not in scope, or that names an enumeration, is rejected. -/
theorem taggedAggregate (form : Form) (tag : String) (tok : Nat) :
    Steady tokens low (taggedAggregate form tag tok) := by
  refine .read fun state => ?_
  split
  · exact .failAt
  · exact .seq (.lookupTy _) fun _ => .ite (.pure rfl) .failAt

/-- A tag that is not in scope, or that names a struct or union, is rejected. -/
theorem taggedEnum (tag : String) (tok : Nat) :
    Steady tokens low (taggedEnum tag tok) := by
  refine .read fun state => ?_
  split
  · exact .failAt
  · exact .seq (.lookupTy _) fun _ => .ite (.pure rfl) .failAt

theorem bindTag (tag : Option (String × Nat)) (ty : TyId) :
    Steady tokens low (bindTag tag ty) := by
  unfold Grammar.bindTag
  split
  · exact .modifyScopes _
  · exact .pure rfl

/-- A member of an incomplete type is rejected. -/
theorem addField (fields : List Field) (declared : Declarator) (tok : Nat) :
    Steady tokens low (addField fields declared tok) :=
  .seq (.lookupTy _) fun _ => .first_if .failAt fun _ => .read fun _ => .pure rfl

/-- A name that is called has to be bound to a variable or function. -/
theorem callee (name : String) (tok : Nat) : Steady tokens low (callee name tok) := by
  refine .read fun state => ?_
  split
  · exact .pure rfl
  · exact .failAt
  · exact .failAt

/-- A function that returns a struct or union or has too many parameters is rejected. -/
theorem signature (ty : TyId) (tok : Nat) : Steady tokens low (signature ty tok) := by
  refine .seq (.lookupTy ty) fun entry => ?_
  split
  · exact .seq (.lookupTy _) fun _ => .first_if .failAt fun _ =>
      .first_if .failAt fun _ => .pure rfl
  · exact .failAt

/-- A parameter of a definition has to have a name and may be no struct or union. -/
theorem declareParameter (param : Param) :
    Steady tokens low (declareParameter param) := by
  unfold Grammar.declareParameter
  split
  · exact .failHere
  · exact .seq (.lookupTy _) fun _ => .first_if .failAt fun _ => .read
      fun _ => .newLocal _ _

theorem finishFunction : Steady tokens low finishFunction := by
  refine .read fun state => ?_
  split
  · exact .throw (by simp)
  · exact .seq (.modify (fun _ => rfl) fun _ => rfl) fun _ => .pure rfl

/-- The jumps of a function are checked one after the other. -/
theorem checkGotos (function : FunctionContext) :
    Steady tokens low (checkGotos function) :=
  .forM (fun _ => .ite (.pure rfl) .failAt) _

/-- A frame that is too large is rejected. -/
theorem layoutFrame (id : SymbolId) (tok : Nat) :
    Steady tokens low (layoutFrame id tok) := by
  refine .read fun state => ?_
  have ends := Program.FrameM.Ends.layoutFrame id state.program
  split
  · exact .modify (fun _ => rfl) fun _ => rfl
  · exact .failAt
  · rename_i reason after failed
    exact .throw fun same => ends _ _ failed (by simp_all)

/-- A global variable has a name and a type with a size. -/
theorem declareGlobal (storage : Storage) (declared : Declarator) :
    Steady tokens low (declareGlobal storage declared) :=
  .seq (.requireName declared) fun _ => .seq (.checkVariableTy _ _) fun _ =>
    .read fun _ => .seq (.newGlobal _ _ _) fun _ => .pure rfl

end Halts
end Grammar
end MiniC
