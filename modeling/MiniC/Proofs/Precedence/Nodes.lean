import MiniC.Grammar.Expression
import MiniC.Proofs.Precedence.Cursor

/-!
# Nodes for operators

Between operands of type `int` or `long` no check fails: every operator enters one node
for itself, again of type `int` or `long`, and an assignment one more for the conversion
of its right side.
-/

namespace MiniC

open Precedence

/-- A node of type `int` or `long`. -/
def Program.IsNumber (program : Program) (id : NodeId) : Prop :=
  program.HasTy id .int ⟨.int, 4, 4, none⟩ ∨ program.HasTy id .long ⟨.long, 8, 8, none⟩

/-- A node that stands for a number keeps doing so. -/
theorem Program.Extends.isNumber {old new : Program}
    (extended : old.Extends new) {id : NodeId}
    (number : old.IsNumber id) : new.IsNumber id :=
  number.imp extended.hasTy extended.hasTy

/-- What the checks of an operand ask for. -/
theorem Program.IsNumber.entry {program : Program} {id : NodeId}
    (number : program.IsNumber id) :
    ∃ ty entry, program.HasTy id ty entry ∧ (ty = .int ∨ ty = .long) ∧
      program.types.get? ty = some entry ∧ entry.isInteger = true ∧
      entry.isAggregate = false ∧ entry.base? = none := by
  rcases number with has | has
  · obtain ⟨node, found, typed, there⟩ := has
    exact ⟨_, _, ⟨node, found, typed, there⟩, .inl rfl, there, rfl, rfl, rfl⟩
  · obtain ⟨node, found, typed, there⟩ := has
    exact ⟨_, _, ⟨node, found, typed, there⟩, .inr rfl, there, rfl, rfl, rfl⟩

namespace Grammar

/-- The primitive types have their places, the given names stand for variables, and no
name stands for a type. -/
structure Ready (names : List Identifier) (locals : List SymbolId)
    (state : State) : Prop where
  int : state.program.types.get? .int = some ⟨.int, 4, 4, none⟩
  long : state.program.types.get? .long = some ⟨.long, 8, 8, none⟩
  declared : ∀ name ∈ names, ∃ symbol,
    state.scopes.lookupVariable? name.text = some (.object symbol) ∧
      state.program.IsVariable locals name symbol
  clean : state.NoTypedef

/-- Variables stay declared while expressions are read. -/
theorem Walked.ready {names : List Identifier} {locals : List SymbolId}
    {before after : State}
    {count : Nat} (walked : Walked before count after)
    (ready : Ready names locals before) :
    Ready names locals after := by
  obtain ⟨nodes, rfl⟩ := walked
  exact ⟨ready.int, ready.long, ready.declared, ready.clean⟩

/-- A parser reads nothing and enters a node of the given kind, of type `int` or
`long`. -/
def Enters (parser : Parser NodeId) (state : State) (kind : NodeKind) : Prop :=
  ∃ id after, parser state = .ok id after ∧ Walked state 0 after ∧
    after.program.kind? id = some kind ∧ after.program.IsNumber id

variable {names : List Identifier} {locals : List SymbolId} {state : State}
  {lhs rhs operand : NodeId}

/-! ## Types of numbers -/

/-- Arithmetic stays within the two types. -/
theorem Ready.arithmeticTy_run (ready : Ready names locals state) {left right : TyId}
    (leftIs : left = .int ∨ left = .long) (rightIs : right = .int ∨ right = .long) :
    ∃ ty, (ty = .int ∨ ty = .long) ∧ arithmeticTy left right state = .ok ty state := by
  have runInt (rest : Ty -> Parser TyId) :
      (lookupTy .int >>= rest) state = rest ⟨.int, 4, 4, none⟩ state :=
    query_run (lookupTy_eq_ok ready.int)
  have runLong (rest : Ty -> Parser TyId) :
      (lookupTy .long >>= rest) state = rest ⟨.long, 8, 8, none⟩ state :=
    query_run (lookupTy_eq_ok ready.long)
  unfold arithmeticTy
  rcases leftIs with rfl | rfl
  · rcases rightIs with rfl | rfl
    · exact ⟨.int, .inl rfl, by rw [runInt, runInt]; rfl⟩
    · exact ⟨.long, .inr rfl, by rw [runInt, runLong]; rfl⟩
  · rcases rightIs with rfl | rfl
    · exact ⟨.long, .inr rfl, by rw [runLong, runInt]; rfl⟩
    · exact ⟨.long, .inr rfl, by rw [runLong, runLong]; rfl⟩

/-! ## Entering nodes -/

/-- A node whose type is known is entered behind the others. -/
theorem newTyped_enters (ready : Ready names locals state) (kind : NodeKind) {ty : TyId}
    (is : ty = .int ∨ ty = .long) (tok : Nat) :
    Enters (newTyped kind ty tok) state kind := by
  refine ⟨⟨state.program.nodes.size⟩, _, rfl, .push state _, ?_, ?_⟩
  · simp [Program.kind?, Program.node?]
  · rcases is with rfl | rfl
    · exact .inl ⟨_, Array.getElem?_push_size, rfl, ready.int⟩
    · exact .inr ⟨_, Array.getElem?_push_size, rfl, ready.long⟩

/-- A statement is entered with the type `void`. -/
theorem newNode_statement {kind : NodeKind} {tok : Nat}
    (inferred : inferTy kind tok state = .ok .void state) :
    ∃ id after, newNode kind tok state = .ok id after ∧ Walked state 0 after ∧
      after.program.kind? id = some kind :=
  ⟨_, _, bind_run inferred, .push state _, by simp [Program.kind?, Program.node?]⟩

/-- A node whose type is found to be an integer type is entered with it. -/
theorem newNode_enters (ready : Ready names locals state) {kind : NodeKind}
    {ty : TyId} {tok : Nat}
    (is : ty = .int ∨ ty = .long) (inferred : inferTy kind tok state = .ok ty state) :
    Enters (newNode kind tok) state kind := by
  obtain ⟨id, after, run, entered⟩ := newTyped_enters ready kind is tok
  exact ⟨id, after, (bind_run inferred).trans run, entered⟩

theorem newNode_num (ready : Ready names locals state) (value : Int) (tok : Nat) :
    Enters (newNode (.num value) tok) state (.num value) := by
  refine newNode_enters ready ?_ rfl
  unfold literalTy
  split
  · exact .inl rfl
  · exact .inr rfl

/-- A variable is entered with its type `int`. -/
theorem newNode_var (ready : Ready names locals state) {name : Identifier}
    {symbol : SymbolId} (is : state.program.IsVariable locals name symbol) (tok : Nat) :
    ∃ id after, newNode (.var symbol) tok state = .ok id after ∧ Walked state 0 after ∧
      after.program.kind? id = some (.var symbol) ∧
      after.program.HasTy id .int ⟨.int, 4, 4, none⟩ := by
  obtain ⟨-, entry, found, -, typed⟩ := is
  have inferred : inferTy (.var symbol) tok state = .ok .int state := by
    rw [← typed]
    exact query_run (lookupSymbol_of_some found)
  exact ⟨_, _, bind_run inferred, .push state _, by simp [Program.kind?, Program.node?],
    _, Array.getElem?_push_size, rfl, ready.int⟩

theorem newNode_unary (ready : Ready names locals state) (op : UnaryOp)
    (number : state.program.IsNumber operand) (tok : Nat) :
    Enters (newNode (.unary op operand) tok) state (.unary op operand) := by
  obtain ⟨ty, entry, has, is, there, integer, scalar, -⟩ := number.entry
  obtain ⟨result, resultIs, arithmetic⟩ := ready.arithmeticTy_run is is
  have signed : (do
      let ty ← typeOf operand
      unless (← lookupTy ty).isInteger do
        failAt tok (.typing .invalidOperand)
      arithmeticTy ty ty : Parser TyId) state = .ok result state := by
    refine (query_run (typeOf_eq_ok has)).trans ?_
    refine (query_run (lookupTy_eq_ok there)).trans ?_
    rw [if_pos integer]
    exact arithmetic
  cases op with
  | neg => exact newNode_enters ready resultIs signed
  | bitNot => exact newNode_enters ready resultIs signed
  | not =>
      have run : inferTy (.unary .not operand) tok state = .ok .int state := by
        refine (query_run (nodeTy_eq_ok has)).trans ?_
        rw [if_neg (by simp [scalar])]
        rfl
      exact newNode_enters ready (.inl rfl) run

/-- The node of an operator on numbers stands for a number. -/
theorem newNode_binary (ready : Ready names locals state) (op : BinaryOp)
    (left : state.program.IsNumber lhs) (right : state.program.IsNumber rhs) (tok : Nat) :
    Enters (newNode (.binary op lhs rhs) tok) state (.binary op lhs rhs) := by
  obtain ⟨leftTy, _, leftHas, leftIs, -⟩ := left.entry
  obtain ⟨rightTy, _, rightHas, rightIs, -⟩ := right.entry
  obtain ⟨result, resultIs, arithmetic⟩ := ready.arithmeticTy_run leftIs rightIs
  by_cases truth : op.isTruth = true
  · have run : inferTy (.binary op lhs rhs) tok state = .ok .int state := by
      change (if op.isTruth = true then _ else _ : Parser TyId) state = _
      rw [if_pos truth]
      rfl
    exact newNode_enters ready (.inl rfl) run
  · have run : inferTy (.binary op lhs rhs) tok state = .ok result state := by
      change (if op.isTruth = true then _ else _ : Parser TyId) state = _
      rw [if_neg truth]
      refine (query_run (typeOf_eq_ok leftHas)).trans ?_
      refine (query_run (typeOf_eq_ok rightHas)).trans ?_
      exact arithmetic
    exact newNode_enters ready resultIs run

theorem newNode_comma (ready : Ready names locals state) (lhs : NodeId)
    (right : state.program.IsNumber rhs) (tok : Nat) :
    Enters (newNode (.comma lhs rhs) tok) state (.comma lhs rhs) := by
  obtain ⟨ty, _, has, is, -⟩ := right.entry
  have inferred : inferTy (.comma lhs rhs) tok state = .ok ty state := by
    change query (·.typeOf rhs) state = _
    exact query_eq_ok (typeOf_eq_ok has)
  exact newNode_enters ready is inferred

/-! ## Operators -/

/-- How a binary operator joins its operands. -/
def joinOf : BinaryOp -> Join
  | .add => newAdd
  | .sub => newSub
  | .mul => newIntegerBinary .mul
  | .div => newIntegerBinary .div
  | .mod => newIntegerBinary .mod
  | op => newBinary op

/-- Numbers pass the check for scalars. -/
theorem newBinary_run (op : BinaryOp) (left : state.program.IsNumber lhs)
    (right : state.program.IsNumber rhs) (tok : Nat) :
    newBinary op lhs rhs tok state = newNode (.binary op lhs rhs) tok state := by
  obtain ⟨_, leftEntry, leftHas, -, -, -, leftScalar, -⟩ := left.entry
  obtain ⟨_, rightEntry, rightHas, -, -, -, rightScalar, -⟩ := right.entry
  have scalar {node : NodeId} {ty : TyId} {entry : Ty}
      (has : state.program.HasTy node ty entry)
      (is : entry.isAggregate = false) : checkScalar node tok state = .ok () state := by
    refine (query_run (nodeTy_eq_ok has)).trans ?_
    rw [if_neg (by simp [is])]
    rfl
  unfold newBinary
  rw [bind_run (scalar leftHas leftScalar), bind_run (scalar rightHas rightScalar)]

/-- Numbers pass the check for integers. -/
theorem newIntegerBinary_run (op : BinaryOp) (left : state.program.IsNumber lhs)
    (right : state.program.IsNumber rhs) (tok : Nat) :
    newIntegerBinary op lhs rhs tok state = newNode (.binary op lhs rhs) tok state := by
  obtain ⟨_, leftEntry, leftHas, -, -, leftInteger, -⟩ := left.entry
  obtain ⟨_, rightEntry, rightHas, -, -, rightInteger, -⟩ := right.entry
  have integer {node : NodeId} {ty : TyId} {entry : Ty}
      (has : state.program.HasTy node ty entry)
      (is : entry.isInteger = true) : checkInteger node tok state = .ok () state := by
    refine (query_run (nodeTy_eq_ok has)).trans ?_
    rw [if_pos is]
    rfl
  unfold newIntegerBinary
  rw [bind_run (integer leftHas leftInteger), bind_run (integer rightHas rightInteger)]
  exact newBinary_run op left right tok

/-- The checks of a sum or a difference let numbers pass. -/
theorem checkArithmetic_run {join : Ty -> Ty -> Parser NodeId}
    (left : state.program.IsNumber lhs) (right : state.program.IsNumber rhs) (tok : Nat) :
    ∃ leftEntry rightEntry, leftEntry.base? = none ∧ rightEntry.base? = none ∧
      (do
        let left ← nodeTy lhs
        let right ← nodeTy rhs
        checkArithmetic left tok
        checkArithmetic right tok
        join left right : Parser NodeId) state = join leftEntry rightEntry state := by
  obtain ⟨_, leftEntry, leftHas, -, -, leftInteger, -, leftBase⟩ := left.entry
  obtain ⟨_, rightEntry, rightHas, -, -, rightInteger, -, rightBase⟩ := right.entry
  have arithmetic {entry : Ty} (is : entry.isInteger = true) :
      checkArithmetic entry tok state = .ok () state := by
    unfold checkArithmetic
    rw [if_pos (by simp [is])]
    rfl
  refine ⟨leftEntry, rightEntry, leftBase, rightBase, ?_⟩
  refine (query_run (nodeTy_eq_ok leftHas)).trans ?_
  refine (query_run (nodeTy_eq_ok rightHas)).trans ?_
  rw [bind_run (arithmetic leftInteger), bind_run (arithmetic rightInteger)]

/-- Numbers are joined by one node, whatever the operator. -/
theorem joinOf_run (op : BinaryOp) (left : state.program.IsNumber lhs)
    (right : state.program.IsNumber rhs) (tok : Nat) :
    joinOf op lhs rhs tok state = newNode (.binary op lhs rhs) tok state := by
  cases op with
  | add =>
      obtain ⟨leftEntry, rightEntry, leftBase, rightBase, run⟩ :=
        checkArithmetic_run left right tok
      refine run.trans ?_
      rw [leftBase, rightBase]
      exact newBinary_run .add left right tok
  | sub =>
      obtain ⟨leftEntry, rightEntry, leftBase, rightBase, run⟩ :=
        checkArithmetic_run left right tok
      refine run.trans ?_
      rw [leftBase, rightBase]
      exact newBinary_run .sub left right tok
  | mul => exact newIntegerBinary_run .mul left right tok
  | div => exact newIntegerBinary_run .div left right tok
  | mod => exact newIntegerBinary_run .mod left right tok
  | eq | ne | lt | le | gt | ge | logAnd | logOr => exact newBinary_run _ left right tok

/-- An operator joins two numbers to a number. -/
theorem joinOf_enters (ready : Ready names locals state) (op : BinaryOp)
    (left : state.program.IsNumber lhs) (right : state.program.IsNumber rhs) (tok : Nat) :
    Enters (joinOf op lhs rhs tok) state (.binary op lhs rhs) := by
  unfold Enters
  rw [joinOf_run op left right tok]
  exact newNode_binary ready op left right tok

/-- A number assigned to a variable is converted to `int`. -/
theorem newAssign_run (ready : Ready names locals state)
    (target : state.program.HasTy lhs .int ⟨.int, 4, 4, none⟩)
    (value : state.program.IsNumber rhs) (tok : Nat) :
    ∃ id after cast, newAssign lhs rhs tok state = .ok id after ∧ Walked state 0 after ∧
      after.program.kind? id = some (.assign lhs cast) ∧
      after.program.IsIntCast cast rhs ∧
      after.program.IsNumber id := by
  obtain ⟨rhsTy, rhsEntry, rhsHas, -, -, -, rhsScalar, -⟩ := value.entry
  let converted : State :=
    { state with
      program :=
        { state.program with
          nodes := state.program.nodes.push
            ⟨.cast rhs, some .int, (state.token tok).loc, (state.token tok).line⟩ } }
  have walked : Walked state 0 converted := .push state _
  have cast : newCast rhs .int tok state = .ok ⟨state.program.nodes.size⟩ converted := by
    refine (query_run (lookupTy_eq_ok ready.int)).trans ?_
    rw [if_neg (by decide)]
    refine (query_run (nodeTy_eq_ok rhsHas)).trans ?_
    rw [if_neg (by simp [rhsScalar])]
    rfl
  have casts : converted.program.IsIntCast ⟨state.program.nodes.size⟩ rhs :=
    ⟨_, Array.getElem?_push_size, rfl, rfl⟩
  have inferred : inferTy (.assign lhs ⟨state.program.nodes.size⟩) tok converted =
      .ok .int converted := by
    refine (query_run (typeOf_eq_ok (walked.extends_.hasTy target))).trans ?_
    refine (query_run (lookupTy_eq_ok ready.int)).trans ?_
    rfl
  obtain ⟨id, after, entered, further, kind, number⟩ :=
    newNode_enters (walked.ready ready) (.inl rfl) inferred
  refine ⟨id, after, _, ?_, walked.trans further, kind,
    further.extends_.grows.isIntCast casts, number⟩
  refine (query_run (typeOf_eq_ok target)).trans ?_
  refine (query_run (typeOf_eq_ok rhsHas)).trans ?_
  refine (query_run (lookupTy_eq_ok ready.int)).trans ?_
  rw [if_neg (by decide), if_neg (by decide)]
  exact (bind_run cast).trans entered

end Grammar
end MiniC
