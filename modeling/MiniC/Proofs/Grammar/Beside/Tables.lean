import MiniC.Proofs.Grammar.Beside

/-!
# Tables beside each other

What parsers enter into the tables of types, nodes and symbols they also enter beside
another stream of tokens.  A node takes its line from a token, so that token has to be
shown to both.
-/

namespace MiniC

/-- An array type that could be entered. -/
theorem TypeTable.insert_of_arrayOf {types : TypeTable} {element : TyId} {length : Int}
    {entered : TyId × TypeTable} (known : types.arrayOf element length = .ok entered) :
    ∃ size align, entered = types.insert ⟨.array element length, size, align, none⟩ := by
  obtain ⟨ty, -, rest⟩ := bind_eq_ok.mp known
  obtain ⟨size, -, same⟩ := bind_eq_ok.mp rest
  exact ⟨size, ty.align, (Except.ok.inj same).symm⟩

namespace Grammar

/-- A token that is shown to parsers that have come as far as a given index. -/
def Comparison.Seen (c : Comparison) (low tok : Nat) : Prop :=
  tok < low ∨ tok < c.tokens.last

namespace Comparison.Seen

variable {c : Comparison} {state : State} {low tok : Nat}

/-- A token that is shown stands in front of the end. -/
theorem lt_last (seen : c.Seen low tok) (within : state.Within c.tokens)
    (reached : low ≤ state.pos) : tok < c.tokens.last := by
  have := within.cursor
  rcases seen with before | inside <;> omega

/-- An identifier is shown wherever parsers have come. -/
theorem of_identifier (identifier : (c.tokens.get tok).isIdentifier = true) :
    c.Seen low tok :=
  .inr (lt_last_of_identifier identifier)

end Comparison.Seen

variable {c : Comparison} {state : State} {low : Nat} {α β σ : Type}

/-- A lookup that fails leaves the state as it is. -/
theorem query_eq_error {read : Program -> Except Error α} {error : Error}
    (failed : read state.program = .error error) :
    query read state = .error error state := by
  change ofExcept (read state.program) state = _
  rw [failed]
  rfl

namespace Follows

variable {mode : Mode α}

/-! ## Reading the tables -/

theorem lookupTy (id : TyId) :
    Follows c low .blind (Grammar.lookupTy id) (Grammar.lookupTy id) :=
  .query (fun _ => rfl) fun _ => .lookupTy _ _

theorem lookupSymbol (id : SymbolId) :
    Follows c low .blind (Grammar.query (·.lookupSymbol id))
      (Grammar.query (·.lookupSymbol id)) :=
  .query (fun _ => rfl) fun _ => .lookupSymbol _ _

/-- A member is looked up alike, since types are entered alike. -/
theorem lookupMember (aggregate : TyId) (index : Nat) :
    Follows c low .blind (Grammar.query (·.lookupMember aggregate index))
      (Grammar.query (·.lookupMember aggregate index)) :=
  .query (fun _ => rfl) fun _ => .lookupMember _ _ _

/-- The type of a node is looked up alike, wherever the node is placed. -/
theorem typeOf (id : NodeId) :
    Follows c low .blind (Grammar.typeOf id) (Grammar.typeOf id) :=
  .query (fun _ => Program.typeOf_relocate _ _ _) fun _ => .typeOf _ _

theorem nodeTy (id : NodeId) :
    Follows c low .blind (Grammar.nodeTy id) (Grammar.nodeTy id) :=
  .query (fun _ => Program.nodeTy_relocate _ _ _) fun _ => .nodeTy _ _

/-- A node is read whose place does not matter. -/
theorem lookupNode_bind {rest behind : Node -> Parser α} (id : NodeId)
    (other : ∀ node, Follows c low mode (rest node) (behind (node.relocate c.place))) :
    Follows c low mode (Grammar.query (·.lookupNode id) >>= rest)
      (Grammar.query (·.lookupNode id) >>= behind) := by
  intro state within reached
  cases known : state.program.lookupNode id with
  | ok node =>
      have beside :
          (c.view state).program.lookupNode id = .ok (node.relocate c.place) := by
        rw [Comparison.view_program, Program.lookupNode_relocate, known]
        rfl
      exact .congr (query_run known) (query_run beside) (other node state within reached)
  | error error =>
      have failed :
          (Grammar.query (·.lookupNode id) >>= rest) state = .error error state :=
        bind_fail (query_eq_error known)
      refine .of_error failed fun _ => ⟨c.view state, bind_fail ?_⟩
      have beside : (c.view state).program.lookupNode id =
          .error (error.relocate c.place) := by
        rw [Comparison.view_program, Program.lookupNode_relocate, known,
          Program.Unlocated.lookupNode _ _ error known]
        rfl
      exact query_eq_error beside

/-! ## Entering types -/

/-- A type is entered whose parameters, if it has any, are named. -/
theorem enterTy
    {enter : TypeTable -> TyId × TypeTable}
    {ty : Ty}
    (inserts : ∀ types, enter types = types.insert ty)
    (named : ∀ result params, ty.kind = .func result params -> Named c.tokens params) :
    Follows c low .blind (Grammar.enterTy enter) (Grammar.enterTy enter) := by
  obtain rfl : enter = fun types => types.insert ty := funext inserts
  intro state within reached
  exact .of_ok rfl (.enter within (within.types.insert named) (.push _ _) (.refl _))
    trivial (fun never => never.elim) fun _ => rfl

/-- A pointer type is entered alike. -/
theorem pointerTo (base : TyId) :
    Follows c low .blind (Grammar.pointerTo base) (Grammar.pointerTo base) :=
  .enterTy (fun _ => rfl) fun _ _ never => by cases never

/-- A function type refers to the tokens that name its parameters. -/
theorem enterFunction (result : TyId) {params : List Param}
    (named : Named c.tokens params) :
    Follows c low .blind (Grammar.enterTy (·.function result params))
      (Grammar.enterTy (·.function result params)) :=
  .enterTy (fun _ => rfl) fun _ _ same => by cases same; exact named

/-- An array type is entered alike, or rejected at the token for it. -/
theorem arrayOf (element : TyId) (length : Int) (tok : Nat) (cause : TypingError) :
    Follows c low .blind (Grammar.arrayOf element length tok cause)
      (Grammar.arrayOf element length tok cause) := by
  refine .get_bind fun state within reached => ?_
  rw [Comparison.view_program, Program.relocate_types]
  cases known : state.program.types.arrayOf element length with
  | ok entered =>
      obtain ⟨size, align, rfl⟩ := TypeTable.insert_of_arrayOf known
      exact .of_ok rfl (.enter within
        (within.types.insert fun _ _ never => by cases never)
        (.push _ _) (.refl _)) trivial (fun never => never.elim) fun _ => rfl
  | error error =>
      cases error with
      | sizeOverflow => exact Follows.failAt tok _ state within reached
      | fault reason => exact Follows.throw rfl state within reached

/-! ## Entering nodes -/

/-- A node is entered with the line and the offset of a token that is shown. -/
theorem newTyped {tok : Nat} (seen : c.Seen low tok) (kind : NodeKind) (ty : TyId) :
    Follows c low .blind (Grammar.newTyped kind ty tok)
      (Grammar.newTyped kind ty tok) := by
  intro state within reached
  refine .of_ok rfl (.enter within within.types (.refl _) (.push _ _)) trivial
    (fun never => never.elim) fun _ => ?_
  have shown : (c.view state).token tok = (state.token tok).relocate c.place :=
    Comparison.Shown.token (.inr (seen.lt_last within reached)) within.same
  change EStateM.Result.ok _ _ = EStateM.Result.ok _ _
  rw [shown]
  simp only [Comparison.view, Program.relocate, Array.map_push, Array.size_map]
  rfl

/-- The common type of two operands is the same. -/
theorem arithmeticTy (lhs rhs : TyId) :
    Follows c low .blind (Grammar.arithmeticTy lhs rhs) (Grammar.arithmeticTy lhs rhs) :=
  .bind (.lookupTy lhs) fun _ => .bind (.lookupTy rhs) fun _ =>
    .ite (.pure id trivial) <| .ite (.pure id trivial) <| .ite (.pure id trivial)
      (.pure id trivial)

/-- A pointer in place of an array. -/
theorem decayed (id : TyId) :
    Follows c low .blind (Grammar.decayed id) (Grammar.decayed id) := by
  refine .bind (.lookupTy id) fun ty => ?_
  split
  · exact .pointerTo _
  · exact .pure False.elim trivial

/-- The type of a statement expression is the same. -/
theorem lastValueTy (body : List NodeId) (tok : Nat) :
    Follows c low .blind (Grammar.lastValueTy body tok)
      (Grammar.lastValueTy body tok) := by
  unfold Grammar.lastValueTy
  split
  · exact .failAt _ _
  · refine .lookupNode_bind _ fun node => ?_
    rw [Node.relocate_kind]
    split
    · exact .typeOf _
    · exact .failAt _ _

/-- The type that is found for a node is the same. -/
theorem inferTy (kind : NodeKind) (tok : Nat) :
    Follows c low .blind (Grammar.inferTy kind tok) (Grammar.inferTy kind tok) := by
  unfold Grammar.inferTy
  cases kind with
  | num value => exact .pure id trivial
  | var symbol => exact .bind (.lookupSymbol _) fun _ => .pure id trivial
  | unary op operand =>
      have integer : Follows c low .blind (Grammar.inferTy (.unary .neg operand) tok)
          (Grammar.inferTy (.unary .neg operand) tok) :=
        .bind (.typeOf _) fun _ => .bind (.lookupTy _) fun _ =>
          .first_unless (.failAt _ _) fun _ => .arithmeticTy _ _
      cases op with
      | not =>
          exact .bind (.nodeTy _) fun _ => .first_if (.failAt _ _) fun _ =>
            .pure id trivial
      | neg => exact integer
      | bitNot => exact integer
  | binary op lhs rhs =>
      exact .ite (.pure id trivial) <| .bind (.typeOf _) fun _ =>
        .bind (.typeOf _) fun _ => .arithmeticTy _ _
  | assign lhs rhs =>
      exact .bind (.typeOf _) fun _ => .bind (.lookupTy _) fun _ =>
        .first_if (.failAt _ _) fun _ => .pure id trivial
  | comma lhs rhs => exact .typeOf _
  | member base aggregate index =>
      exact .bind (.lookupMember _ _) fun _ => .pure id trivial
  | addr operand =>
      refine .bind (.typeOf _) fun _ => .bind (.lookupTy _) fun ty => ?_
      split
      · exact .pointerTo _
      · exact .pointerTo _
  | deref operand =>
      refine .bind (.nodeTy _) fun ty => ?_
      split
      · exact .failAt _ _
      · exact .bind (.lookupTy _) fun _ => .first_if (.failAt _ _) fun _ =>
          .pure id trivial
  | cast operand => exact .typeOf _
  | call function args =>
      refine .bind (.lookupSymbol _) fun _ => .bind (.lookupTy _) fun ty => ?_
      split
      · exact .pure id trivial
      · exact .pure id trivial
  | stmtExpr body => exact .lastValueTy _ _
  | ret _ => exact .pure id trivial
  | branch _ _ _ => exact .pure id trivial
  | loop _ _ _ _ => exact .pure id trivial
  | block _ => exact .pure id trivial
  | exprStmt _ => exact .pure id trivial
  | goto _ => exact .pure id trivial
  | label _ _ => exact .pure id trivial

section

variable {tok : Nat} (seen : c.Seen low tok)

include seen

/-- A node is entered with the type that is found for it. -/
theorem newNode (kind : NodeKind) :
    Follows c low .blind (Grammar.newNode kind tok) (Grammar.newNode kind tok) :=
  .bind (.inferTy kind tok) fun _ => .newTyped seen kind _

omit seen in
/-- An operand is refused in both streams or in neither. -/
theorem checkScalar (node : NodeId) (tok : Nat) :
    Follows c low .blind (Grammar.checkScalar node tok) (Grammar.checkScalar node tok) :=
  .bind (.nodeTy _) fun _ => .ite (.failAt _ _) (.pure id trivial)

omit seen in
theorem checkInteger (node : NodeId) (tok : Nat) :
    Follows c low .blind (Grammar.checkInteger node tok)
      (Grammar.checkInteger node tok) :=
  .bind (.nodeTy _) fun _ => .ite (.pure id trivial) (.failAt _ _)

omit seen in
theorem checkArithmetic (ty : Ty) (tok : Nat) :
    Follows c low .blind (Grammar.checkArithmetic ty tok)
      (Grammar.checkArithmetic ty tok) :=
  .ite (.pure id trivial) (.failAt _ _)

/-- The operands are checked in both streams before the node is entered. -/
theorem newBinary (op : BinaryOp) (lhs rhs : NodeId) :
    Follows c low .blind (Grammar.newBinary op lhs rhs tok)
      (Grammar.newBinary op lhs rhs tok) :=
  .bind (.checkScalar _ _) fun _ => .bind (.checkScalar _ _) fun _ => .newNode seen _

theorem newIntegerBinary (op : BinaryOp) (lhs rhs : NodeId) :
    Follows c low .blind (Grammar.newIntegerBinary op lhs rhs tok)
      (Grammar.newIntegerBinary op lhs rhs tok) :=
  .bind (.checkInteger _ _) fun _ => .bind (.checkInteger _ _) fun _ =>
    .newBinary seen _ _ _

/-- A conversion is refused in both streams or in neither. -/
theorem newCast (operand : NodeId) (ty : TyId) :
    Follows c low .blind (Grammar.newCast operand ty tok)
      (Grammar.newCast operand ty tok) :=
  .bind (.lookupTy _) fun _ => .first_if (.failAt _ _) fun _ => .bind (.nodeTy _) fun _ =>
    .first_if (.failAt _ _) fun _ => .newTyped seen _ _

/-- An assignment is refused in both streams or in neither. -/
theorem newAssign (lhs rhs : NodeId) :
    Follows c low .blind (Grammar.newAssign lhs rhs tok)
      (Grammar.newAssign lhs rhs tok) :=
  .bind (.typeOf _) fun _ => .bind (.typeOf _) fun _ => .bind (.lookupTy _) fun _ =>
    .first_if (.failAt _ _) fun _ =>
      .ite (.first_if (.failAt _ _) fun _ => .newNode seen _) <|
        .bind (.newCast seen _ _) fun _ => .newNode seen _

/-- The size of an element is the same in both tables. -/
theorem scale (operand : NodeId) (element : TyId) :
    Follows c low .blind (Grammar.scale operand element tok)
      (Grammar.scale operand element tok) :=
  .bind (.lookupTy _) fun _ => .first_if (.failAt _ _) fun _ =>
    .bind (.newTyped seen _ _) fun _ => .newBinary seen _ _ _

/-- A pointer is moved by the same number of bytes. -/
theorem movePointer (op : BinaryOp) (pointer operand : NodeId) (element : TyId) :
    Follows c low .blind (Grammar.movePointer op pointer operand element tok)
      (Grammar.movePointer op pointer operand element tok) :=
  .bind (.scale seen _ _) fun _ => .bind (.typeOf _) fun _ => .bind (.decayed _) fun _ =>
    .newTyped seen _ _

/-- The distance of two pointers is divided by the same size. -/
theorem pointerDistance (lhs rhs : NodeId) (element : TyId) :
    Follows c low .blind (Grammar.pointerDistance lhs rhs element tok)
      (Grammar.pointerDistance lhs rhs element tok) :=
  .bind (.lookupTy _) fun _ => .first_if (.failAt _ _) fun _ => .bind (.typeOf _) fun _ =>
    .bind (.decayed _) fun _ => .bind (.newTyped seen _ _) fun _ =>
      .bind (.newTyped seen _ _) fun _ => .newTyped seen _ _

/-- The types of the operands decide in both streams which sum it is. -/
theorem newAdd (lhs rhs : NodeId) :
    Follows c low .blind (Grammar.newAdd lhs rhs tok) (Grammar.newAdd lhs rhs tok) := by
  refine .bind (.nodeTy lhs) fun left => .bind (.nodeTy rhs) fun right => ?_
  refine .bind (.checkArithmetic left tok) fun _ =>
    .bind (.checkArithmetic right tok) fun _ => ?_
  split
  · exact .newBinary seen _ _ _
  · exact .failAt _ _
  · exact .movePointer seen _ _ _ _
  · exact .movePointer seen _ _ _ _

/-- The types of the operands decide in both streams which difference it is. -/
theorem newSub (lhs rhs : NodeId) :
    Follows c low .blind (Grammar.newSub lhs rhs tok) (Grammar.newSub lhs rhs tok) := by
  refine .bind (.nodeTy lhs) fun left => .bind (.nodeTy rhs) fun right => ?_
  refine .bind (.checkArithmetic left tok) fun _ =>
    .bind (.checkArithmetic right tok) fun _ => ?_
  split
  · exact .newBinary seen _ _ _
  · exact .movePointer seen _ _ _ _
  · exact .pointerDistance seen _ _ _
  · exact .failAt _ _

end

/-! ## Declaring symbols -/

/-- A local variable is entered and declared alike. -/
theorem newLocal (name : String) (ty : TyId) :
    Follows c low .blind (Grammar.newLocal name ty) (Grammar.newLocal name ty) :=
  fun _ within _ => .of_ok rfl (.pushLocal within name ty _) trivial
    (fun never => never.elim) fun _ => rfl

/-- A global variable may have any name that is not reserved for string literals. -/
theorem newGlobal {name : String} (undotted : Undotted name) (ty : TyId)
    (isStatic : Bool) :
    Follows c low .blind (Grammar.newGlobal name ty isStatic)
      (Grammar.newGlobal name ty isStatic) :=
  fun _ within _ => .of_ok rfl (.pushGlobal within undotted _) trivial
    (fun never => never.elim) fun _ => rfl

/-- A function may have any name that is not reserved for string literals. -/
theorem newFunction {name : String} (undotted : Undotted name) (ty : TyId)
    (isStatic : Bool) :
    Follows c low .blind (Grammar.newFunction name ty isStatic)
      (Grammar.newFunction name ty isStatic) :=
  fun _ within _ => .of_ok rfl (.pushGlobal within undotted _) trivial
    (fun never => never.elim) fun _ => rfl

/-- The type of a variable is refused in both streams or in neither. -/
theorem checkVariableTy (ty : TyId) (tok : Nat) :
    Follows c low .blind (Grammar.checkVariableTy ty tok)
      (Grammar.checkVariableTy ty tok) :=
  .bind (.lookupTy _) fun _ => .first_if (.failAt _ _) fun _ =>
    .ite (.failAt _ _) (.pure id trivial)

end Follows

/-- An array type whose size is in range is entered. -/
theorem arrayOf_run {element id : TyId} {length : Int} {types : TypeTable} {tok : Nat}
    {cause : TypingError}
    (known : state.program.types.arrayOf element length = .ok (id, types)) :
    arrayOf element length tok cause state =
      .ok id { state with program := { state.program with types := types } } := by
  unfold arrayOf
  rw [get_run, known]
  rfl

/-- An array type whose size is out of range is rejected. -/
theorem arrayOf_fails {element : TyId} {length : Int} {tok : Nat} {cause : TypingError}
    (known : state.program.types.arrayOf element length = .error .sizeOverflow) :
    arrayOf element length tok cause state =
      (failAt tok (.typing cause) : Parser TyId) state := by
  unfold arrayOf
  rw [get_run, known]

/-- A string literal is entered as a global variable under a name of its own. -/
theorem newStringLiteral_run {data : List UInt8} {tok : Nat} {id : TyId}
    {types : TypeTable}
    (known : state.program.types.arrayOf .char data.length = .ok (id, types)) :
    newStringLiteral data tok state = .ok ⟨state.program.symbols.size⟩
      { state with
        program :=
          { state.program with
            types := types
            symbols := state.program.symbols.push
              ⟨literalName state.literals, id, true, .globalVar (some data)⟩
            globals := state.program.globals.push ⟨state.program.symbols.size⟩ }
        literals := state.literals + 1 } := by
  unfold newStringLiteral
  rw [bind_run (arrayOf_run known)]
  rfl

/-- A string literal that is too large is rejected. -/
theorem newStringLiteral_fails {data : List UInt8} {tok : Nat}
    (known : state.program.types.arrayOf .char data.length = .error .sizeOverflow) :
    newStringLiteral data tok state =
      .error (.rejected (.typing .stringTooLarge) (state.token tok).loc) state := by
  unfold newStringLiteral
  rw [bind_fail]
  exact arrayOf_fails known

/-- A string literal is passed, and its array is entered. -/
theorem FollowsAt.stringLiteral {data : List UInt8} (tok : Nat)
    (within : state.Within c.tokens) (here : state.current.kind = .str data) :
    FollowsAt c state .closing (Grammar.advance >>= fun _ => newStringLiteral data tok)
      (Grammar.advance >>= fun _ => newStringLiteral data tok) := by
  have further : state.pos < c.tokens.last :=
    lt_last c.sound.ended within.same (by rw [here]; exact TokenKind.noConfusion)
  have own : (c.tokens.get state.pos).kind = .str data := by
    rw [← within.same]
    exact here
  have passing : Grammar.advance state = .ok () state.next :=
    advance_run (within.same ▸ further)
  have besidePassing : Grammar.advance (c.view state) = .ok () (c.view state.next) :=
    advance_run (Nat.lt_of_lt_of_le further c.last_le)
  rcases TypeTable.arrayOf_cases within.types.char
    data.length with overflows | ⟨-, entered⟩
  · have failed : newStringLiteral data tok state.next = _ :=
      newStringLiteral_fails overflows
    have besideFailed : newStringLiteral data tok (c.view state.next) = _ :=
      newStringLiteral_fails overflows
    refine .of_error ((bind_run passing).trans failed)
      fun whole => ⟨c.view state.next, ?_⟩
    rw [bind_run besidePassing, besideFailed,
      @Comparison.Shown.token c state.next tok (.inl whole) within.same]
    rfl
  · rw [Int.one_mul] at entered
    have ran : newStringLiteral data tok state.next = _ := newStringLiteral_run entered
    have besideRan : newStringLiteral data tok (c.view state.next) = _ :=
      newStringLiteral_run entered
    exact .of_ok ((bind_run passing).trans ran) (.pushLiteral within further own) trivial
      (fun _ => Nat.lt_succ_self _) fun _ => (bind_run besidePassing).trans besideRan

end Grammar
end MiniC
