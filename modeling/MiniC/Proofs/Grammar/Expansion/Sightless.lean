import MiniC.Proofs.Grammar.Runs

/-!
# Parsers that do not look at the cursor

Building a node neither reads the token at the cursor nor moves the cursor.  Such a parser
does the same wherever the cursor stands.
-/

namespace MiniC
namespace Grammar

variable {α β : Type}

/-- The state with the cursor at another token. -/
def State.at_ (state : State) (pos : Nat) : State := { state with pos := pos }

/-- The end of a run with the cursor at another token. -/
def placed (pos : Nat) : EStateM.Result Error State α -> EStateM.Result Error State α
  | .ok value after => .ok value (after.at_ pos)
  | .error error after => .error error (after.at_ pos)

/-- A parser that does the same wherever the cursor stands. -/
structure Sightless (parser : Parser α) : Prop where
  moved : ∀ (state : State) (pos : Nat),
    parser (state.at_ pos) = placed pos (parser state)
  tokens : ∀ (state : State) (value : α) (after : State),
    parser state = .ok value after -> after.tokens = state.tokens

namespace Sightless

variable {parser : Parser α} {rest : α -> Parser β} {state after : State}

/-- The cursor stays where it is. -/
theorem pos (sightless : Sightless parser) {value : α}
    (run : parser state = .ok value after) :
    after.pos = state.pos := by
  have same := sightless.moved state state.pos
  rw [show state.at_ state.pos = state from rfl, run] at same
  injection same with _ stays
  have unmoved := congrArg State.pos stays
  exact unmoved

/-- What stands at the cursor stays there. -/
theorem sees (sightless : Sightless parser) {value : α}
    (run : parser state = .ok value after)
    (symbol : String) : after.sees symbol = state.sees symbol := by
  unfold State.sees State.seesAt State.token
  rw [sightless.pos run, sightless.tokens _ _ _ run]

/-- A value is given wherever the cursor stands. -/
theorem pure (value : α) : Sightless (Pure.pure value) where
  moved := fun _ _ => rfl
  tokens := fun _ _ _ run => by cases run; rfl

/-- Two such parsers, one behind the other. -/
theorem bind (first : Sightless parser) (second : ∀ value, Sightless (rest value)) :
    Sightless (parser >>= rest) where
  moved := fun state pos => by
    have moved := first.moved state pos
    cases run : parser state with
    | ok value after =>
        rw [run] at moved
        rw [bind_run run, bind_run moved]
        exact (second value).moved after pos
    | error error after =>
        rw [run] at moved
        rw [bind_fail run, bind_fail moved]
        rfl
  tokens := fun state value after run => by
    cases known : parser state with
    | ok middle between =>
        rw [bind_run known] at run
        exact ((second middle).tokens _ _ _ run).trans (first.tokens _ _ _ known)
    | error error between =>
        rw [bind_fail known] at run
        cases run

/-- A choice between two such parsers, by a condition that does not depend on the cursor.
-/
theorem ite {condition : Prop} [Decidable condition] {yes no : Parser α}
    (first : Sightless yes)
    (second : Sightless no) : Sightless (if condition then yes else no) := by
  split
  · exact first
  · exact second

/-- A check in front of a parser. -/
theorem first_if {condition : Prop} [Decidable condition] {check : Parser Unit}
    {rest : Unit -> Parser α} (checks : Sightless check) (others : Sightless (rest ())) :
    Sightless (if condition then check >>= rest else rest ()) :=
  .ite (.bind checks fun _ => others) others

/-- A check the other way round in front of a parser. -/
theorem first_unless {condition : Prop} [Decidable condition] {check : Parser Unit}
    {rest : Unit -> Parser α} (checks : Sightless check) (others : Sightless (rest ())) :
    Sightless (if condition then rest () else check >>= rest) :=
  .ite others (.bind checks fun _ => others)

/-- A failure is at a given token, wherever the cursor stands. -/
theorem failAt (index : Nat) (cause : Cause) :
    Sightless (failAt index cause : Parser α) where
  moved := fun _ _ => rfl
  tokens := fun _ _ _ run => by cases run

/-- The program may be read. -/
theorem query (read : Program -> Except Error α) : Sightless (query read) where
  moved := fun state pos => by
    change ofExcept (read state.program) (state.at_ pos) =
      placed pos (ofExcept (read state.program) state)
    cases read state.program <;> rfl
  tokens := fun state value after run => by
    change ofExcept (read state.program) state = _ at run
    cases known : read state.program with
    | ok value =>
        rw [known] at run
        cases run
        rfl
    | error error =>
        rw [known] at run
        cases run

theorem lookupTy (id : TyId) : Sightless (lookupTy id) := .query _

theorem typeOf (id : NodeId) : Sightless (typeOf id) := .query _

theorem nodeTy (id : NodeId) : Sightless (nodeTy id) := .query _

/-- A type may be entered. -/
theorem enterTy (enter : TypeTable -> TyId × TypeTable) : Sightless (enterTy enter) where
  moved := fun _ _ => rfl
  tokens := fun _ _ _ run => by cases run; rfl

/-- A node may be entered. -/
theorem newTyped (kind : NodeKind) (ty : TyId) (tok : Nat) :
    Sightless (newTyped kind ty tok) where
  moved := fun _ _ => rfl
  tokens := fun _ _ _ run => by cases run; rfl

theorem arithmeticTy (lhs rhs : TyId) : Sightless (arithmeticTy lhs rhs) :=
  .bind (.lookupTy _) fun _ => .bind (.lookupTy _) fun _ =>
    .ite (.pure _) (.ite (.pure _) (.ite (.pure _) (.pure _)))

theorem decayed (id : TyId) : Sightless (decayed id) :=
  .bind (.lookupTy id) fun ty => by
    split
    · exact .enterTy _
    · exact .pure _

theorem lastValueTy (body : List NodeId) (tok : Nat) :
    Sightless (lastValueTy body tok) := by
  unfold Grammar.lastValueTy
  split
  · exact .failAt _ _
  · refine .bind (.query _) fun _ => ?_
    split
    · exact .typeOf _
    · exact .failAt _ _

/-- The type of a node depends on the types of its operands. -/
theorem inferTy (kind : NodeKind) (tok : Nat) : Sightless (inferTy kind tok) := by
  cases kind with
  | num value => exact .pure _
  | var symbol => exact .bind (.query _) fun _ => .pure _
  | unary op operand =>
      have numeric : Sightless (do
          let ty ← Grammar.typeOf operand
          unless (← Grammar.lookupTy ty).isInteger do
            Grammar.failAt tok (.typing .invalidOperand)
          Grammar.arithmeticTy ty ty) :=
        .bind (.typeOf _) fun _ => .bind (.lookupTy _) fun _ =>
          .first_unless (.failAt _ _) (.arithmeticTy _ _)
      cases op with
      | not => exact .bind (.nodeTy _) fun _ => .first_if (.failAt _ _) (.pure _)
      | _ => exact numeric
  | binary op lhs rhs =>
      exact .ite (.pure _) (.bind (.typeOf _) fun _ => .bind (.typeOf _) fun _ =>
        .arithmeticTy _ _)
  | assign lhs rhs =>
      exact .bind (.typeOf _) fun _ => .bind (.lookupTy _) fun _ =>
        .first_if (.failAt _ _) (.pure _)
  | comma lhs rhs => exact .typeOf _
  | member base aggregate index => exact .bind (.query _) fun _ => .pure _
  | addr operand =>
      refine .bind (.typeOf _) fun _ => .bind (.lookupTy _) fun ty => ?_
      split <;> exact .enterTy _
  | deref operand =>
      refine .bind (.nodeTy _) fun ty => ?_
      split
      · exact .failAt _ _
      · exact .bind (.lookupTy _) fun _ => .first_if (.failAt _ _) (.pure _)
  | cast operand => exact .typeOf _
  | call function args =>
      refine .bind (.query _) fun _ => .bind (.lookupTy _) fun ty => ?_
      split <;> exact .pure _
  | stmtExpr body => exact .lastValueTy _ _
  | _ => exact .pure _

/-- So a node with the type that it has. -/
theorem newNode (kind : NodeKind) (tok : Nat) : Sightless (newNode kind tok) :=
  .bind (.inferTy kind tok) fun _ => .newTyped _ _ _

/-- A cast checks the types and adds a node. -/
theorem newCast (operand : NodeId) (ty : TyId) (tok : Nat) :
    Sightless (newCast operand ty tok) :=
  .bind (.lookupTy _) fun _ => .first_if (.failAt _ _) <| .bind (.nodeTy _) fun _ =>
    .first_if (.failAt _ _) (.newTyped _ _ _)

theorem newBinary (op : BinaryOp) (lhs rhs : NodeId) (tok : Nat) :
    Sightless (newBinary op lhs rhs tok) := by
  have scalar (node : NodeId) : Sightless (checkScalar node tok) :=
    .bind (.nodeTy _) fun _ => .ite (.failAt _ _) (.pure _)
  exact .bind (scalar lhs) fun _ => .bind (scalar rhs) fun _ => .newNode _ _

theorem newIntegerBinary (op : BinaryOp) (lhs rhs : NodeId) (tok : Nat) :
    Sightless (newIntegerBinary op lhs rhs tok) := by
  have integer (node : NodeId) : Sightless (checkInteger node tok) :=
    .bind (.nodeTy _) fun _ => .ite (.pure _) (.failAt _ _)
  exact .bind (integer lhs) fun _ => .bind (integer rhs) fun _ => .newBinary _ _ _ _

theorem movePointer (op : BinaryOp) (pointer operand : NodeId)
    (element : TyId) (tok : Nat) :
    Sightless (movePointer op pointer operand element tok) := by
  have scaled : Sightless (scale operand element tok) :=
    .bind (.lookupTy _) fun _ => .first_if (.failAt _ _) <|
      .bind (.newTyped _ _ _) fun _ => .newBinary _ _ _ _
  exact .bind scaled fun _ => .bind (.typeOf _) fun _ => .bind (.decayed _) fun _ =>
    .newTyped _ _ _

theorem checkArithmetic (ty : Ty) (tok : Nat) : Sightless (checkArithmetic ty tok) :=
  .ite (.pure _) (.failAt _ _)

/-- A sum is built from its operands. -/
theorem newAdd (lhs rhs : NodeId) (tok : Nat) : Sightless (newAdd lhs rhs tok) := by
  refine .bind (.nodeTy _) fun left => .bind (.nodeTy _) fun right =>
    .bind (.checkArithmetic left _) fun _ => .bind (.checkArithmetic right _) fun _ => ?_
  split
  · exact .newBinary _ _ _ _
  · exact .failAt _ _
  · exact .movePointer _ _ _ _ _
  · exact .movePointer _ _ _ _ _

/-- So is a difference. -/
theorem newSub (lhs rhs : NodeId) (tok : Nat) : Sightless (newSub lhs rhs tok) := by
  have distance (element : TyId) : Sightless (pointerDistance lhs rhs element tok) :=
    .bind (.lookupTy _) fun _ => .first_if (.failAt _ _) <| .bind (.typeOf _) fun _ =>
      .bind (.decayed _) fun _ => .bind (.newTyped _ _ _) fun _ =>
        .bind (.newTyped _ _ _) fun _ => .newTyped _ _ _
  refine .bind (.nodeTy _) fun left => .bind (.nodeTy _) fun right =>
    .bind (.checkArithmetic left _) fun _ => .bind (.checkArithmetic right _) fun _ => ?_
  split
  · exact .newBinary _ _ _ _
  · exact .movePointer _ _ _ _ _
  · exact distance _
  · exact .failAt _ _

end Sightless

end Grammar
end MiniC
