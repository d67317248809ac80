import MiniC.Proofs.Grammar.Beside.Types

/-!
# Expressions and statements beside each other

Expressions and statements pass at least one token.  A node is placed at a token behind
which the cursor has come, or at an identifier, so its line is the same beside it.  The
body of a statement expression is taken out of a block that was entered with the
expression.
-/

namespace MiniC
namespace Grammar

variable {c : Comparison} {state : State} {low : Nat} {α β σ : Type}

/-- A token in front of where parsers have come is shown. -/
theorem Comparison.Seen.before {low tok : Nat} (before : tok < low) : c.Seen low tok :=
  .inl before

/-- How an operator joins its operands is followed if its token is shown. -/
def Comparison.Joins (c : Comparison) (join : Join) : Prop :=
  ∀ low lhs rhs tok, c.Seen low tok ->
    Follows c low .blind (join lhs rhs tok) (join lhs rhs tok)

namespace Comparison

/-- Operators on scalars join their operands alike. -/
theorem joins_newBinary (c : Comparison) (op : BinaryOp) : c.Joins (newBinary op) :=
  fun _ lhs rhs _ seen => .newBinary seen op lhs rhs

/-- Operators on integers join their operands alike. -/
theorem joins_newIntegerBinary (c : Comparison) (op : BinaryOp) :
    c.Joins (newIntegerBinary op) :=
  fun _ lhs rhs _ seen => .newIntegerBinary seen op lhs rhs

/-- Sums join their operands alike. -/
theorem joins_newAdd (c : Comparison) : c.Joins newAdd :=
  fun _ lhs rhs _ seen => .newAdd seen lhs rhs

/-- Differences join their operands alike. -/
theorem joins_newSub (c : Comparison) : c.Joins newSub :=
  fun _ lhs rhs _ seen => .newSub seen lhs rhs

end Comparison

/-! ## Statement expressions -/

/-- The block of a statement expression, whose braces have been passed. -/
def bracedBlock (again : Productions) : Parser NodeId := do
  let block ← again.block
  expect ")"
  return block

/-- A statement expression is a block between parentheses, from which the statements are
taken. -/
theorem statementExpression_eq (again : Productions) :
    statementExpression again = (do
      let tok ← position
      advance
      advance
      newNode (.stmtExpr (← bracedBlock again >>= fun block => takeBlock block tok))
        tok) := by
  simp only [statementExpression, bracedBlock, bind_assoc, pure_bind]

/-- The state in which a block has lost its statements. -/
def State.emptied (state : State) (block : NodeId) : State :=
  { state with
    program :=
      { state.program with
        nodes := state.program.nodes.modify block.index fun node =>
          { node with kind := .block [] } } }

/-- The statements of a block are taken from it. -/
theorem takeBlock_run {block : NodeId} {node : Node} {body : List NodeId} {tok : Nat}
    (known : state.program.lookupNode block = .ok node) (kind : node.kind = .block body) :
    takeBlock block tok state = .ok body (state.emptied block) := by
  unfold takeBlock
  rw [query_run known, kind]
  rfl

/-- What is no block is rejected. -/
theorem takeBlock_rejects {block : NodeId} {node : Node} {tok : Nat}
    (known : state.program.lookupNode block = .ok node)
    (kind : ∀ body, node.kind ≠ .block body) :
    takeBlock block tok state =
      (failAt tok (.grammar .expectedBlock) : Parser (List NodeId)) state := by
  unfold takeBlock
  rw [query_run known]
  cases form : node.kind with
  | block body => exact absurd form (kind body)
  | _ => rfl

/-- A block loses its statements in both streams alike. -/
theorem Comparison.view_emptied (c : Comparison) (state : State) (block : NodeId) :
    (c.view state).emptied block = c.view (state.emptied block) := by
  have same (nodes : Array Node) :
      (nodes.map (Node.relocate c.place)).modify block.index
          (fun node => { node with kind := .block [] }) =
        (nodes.modify block.index fun node => { node with kind := .block [] }).map
          (Node.relocate c.place) := by
    apply Array.ext_getElem?
    intro index
    simp only [Array.getElem?_modify, Array.getElem?_map]
    split
    · cases nodes[index]? <;> rfl
    · rfl
  unfold State.emptied Comparison.view Program.relocate
  simp only [same]

/-! ## Blocks -/

/-- A parser that gives a result inside a scope of its own. -/
theorem withScope_ok {parser : Parser α} {value : α} {after : State}
    (run : withScope parser state = .ok value after) :
    ∃ inner, parser { state with scopes := state.scopes.enter } = .ok value inner ∧
      after = { inner with scopes := inner.scopes.leave } := by
  unfold withScope at run
  split at run
  · cases run
    exact ⟨_, ‹_›, rfl⟩
  · cases run

/-- The items of a block and its closing brace. -/
def blockItems (again : Productions) : Parser (List NodeId) :=
  iterate [] fun body => do
    if ← accept closeBrace then
      return .done body
    else if (← get).current.isEof then
      failHere (.grammar (.expected closeBrace "EOF"))
    else
      return .again (body ++ (← blockItem again))

/-- A block is made of items inside a scope of its own. -/
theorem block_eq (again : Productions) (state : State) :
    block again state =
      (withScope do
        let body ← blockItems again
        newNode (.block body) (state.pos - 1)) state :=
  rfl

namespace Follows

section

variable {again beside : Productions} (followed : again.Followed c beside)

include followed

/-! ## Expressions -/

/-- An argument is converted alike. -/
theorem argument (param : Option Param) :
    Follows c low .passing (Grammar.argument again param)
      (Grammar.argument beside param) := by
  refine .position_bind fun tok _ => .lead (followed.assign _) fun value => ?_
  refine .bind (.nodeTy _) fun _ => .first_if (.failAt _ _) fun _ => ?_
  cases param with
  | some param => exact .of_blind (.newCast (.before (Nat.lt_succ_self _)) _ _)
  | none => exact .pure id trivial

/-- The arguments up to the closing parenthesis are read alike. -/
theorem arguments (params : List Param) :
    Follows c low .closing (Grammar.arguments again params)
      (Grammar.arguments beside params) :=
  .iterate (fun _ => True) trivial fun _ _ => .accept (.pure id trivial) <|
    .separated (.expect ",") fun _ => .peek (.loose (.argument followed _)) fun _ =>
      .pure id trivial

omit followed in
/-- The function that is called is looked up alike. -/
theorem callee (name : String) (tok : Nat) :
    Follows c low .blind (Grammar.callee name tok) (Grammar.callee name tok) := by
  refine .get_bind fun state within reached => ?_
  rw [Comparison.view_scopes]
  split
  · exact Follows.pure id trivial state within reached
  · exact Follows.failAt _ _ state within reached
  · exact Follows.failAt _ _ state within reached

/-- A call is closed by a parenthesis, so it does not look behind itself. -/
theorem call : Follows c low .closing (Grammar.call again) (Grammar.call beside) := by
  refine .close_gives .identifier fun named identifier => .close (.expect "(") fun _ => ?_
  refine .bind (.callee _ _) fun _ => .bind (.lookupSymbol _) fun _ =>
    .bind (.lookupTy _) fun ty => ?_
  split
  · exact .close (.arguments followed _) fun args => .first_if (.failAt _ _) fun _ =>
      .newTyped (.of_identifier identifier) _ _
  · exact .failAt _ _

omit followed in
/-- A variable is looked up alike. -/
theorem variableReference :
    Follows c low .closing Grammar.variableReference Grammar.variableReference := by
  refine .close_gives .identifier fun named identifier => .get_bind
    fun state within reached => ?_
  rw [Comparison.view_scopes]
  split
  · exact newNode (.of_identifier identifier) _ state within reached
  · exact newTyped (.of_identifier identifier) _ _ state within reached
  · exact Follows.failAt _ _ state within reached

/-- The operand of `sizeof` is a type in parentheses in both streams or in neither. -/
theorem sizeofOperand {tok : Nat} (before : tok < low) :
    Follows c low .passing (Grammar.sizeofOperand again tok)
      (Grammar.sizeofOperand beside tok) := by
  refine .get_bind fun state within reached => ?_
  refine .ahead (fun shown => by
    rw [(shown.mono (Nat.le_succ _)).sees within.same,
      (shown.mono (by omega)).startsType within.same]) ?_
  refine .ite (fun typed => ?_) fun _ => ?_
  · refine .skip within (Bool.and_eq_true_iff.mp typed).1 fun within => ?_
    refine Follows.peek (.typeName followed) (fun _ => ?_) _ within (Nat.zero_le _)
    exact .close (.expect ")") fun _ => .pure id trivial
  · exact Follows.lead (followed.unary _) (fun _ => .of_blind (.typeOf _)) state
      within reached

/-- The size of a type is the same in both tables. -/
theorem sizeof {tok : Nat} (before : tok < low) :
    Follows c low .passing (Grammar.sizeof again tok) (Grammar.sizeof beside tok) :=
  .lead (.sizeofOperand followed before) fun _ => .bind (.lookupTy _) fun _ =>
    .first_if (.failAt _ _) fun _ =>
      .of_blind (.newTyped (.before (Nat.lt_succ_of_lt before)) _ _)

/-- A literal, or what a name stands for. -/
theorem atom : Follows c low .passing (Grammar.atom again) (Grammar.atom beside) := by
  refine .get_bind fun state within reached => ?_
  refine .here (fun shown => by rw [shown.current within.same, Token.relocate_kind]) ?_
  cases kind : state.current.kind with
  | identifier =>
      change FollowsAt c state .passing
        (if state.seesAt (state.pos + 1) "(" then Grammar.call again
          else Grammar.variableReference)
        (if (c.view state).seesAt (state.pos + 1) "(" then Grammar.call beside
          else Grammar.variableReference)
      refine .ahead (fun shown => by rw [shown.seesAt within.same]) ?_
      exact .ite (fun _ => Follows.of_closing (.call followed) state within reached)
        fun _ => Follows.of_closing .variableReference state within reached
  | str data =>
      have literal : FollowsAt c state .passing
          ((advance >>= fun _ => newStringLiteral data state.pos) >>= fun symbol =>
            Grammar.newNode (.var symbol) state.pos)
          ((advance >>= fun _ => newStringLiteral data state.pos) >>= fun symbol =>
            Grammar.newNode (.var symbol) state.pos) :=
        .close (.stringLiteral state.pos within kind) fun _ _ =>
          .of_blind (.newNode (.before (Nat.lt_succ_self _)) _)
      rw [bind_assoc] at literal
      exact literal
  | num value =>
      have read : Follows c state.pos .passing
          (do Grammar.newNode (.num (← Grammar.number)) state.pos)
          (do Grammar.newNode (.num (← Grammar.number)) state.pos) :=
        .close .number fun _ => .of_blind (.newNode (.before (Nat.lt_succ_self _)) _)
      exact read state within (Nat.le_refl _)
  | punctuator => exact failHere _ state within reached
  | keyword => exact failHere _ state within reached
  | eof => exact failHere _ state within reached

/-- The statements are taken out of the block that has been read. -/
theorem takenBlock (within : state.Within c.tokens) (tok : Nat) :
    FollowsAt c state .closing (bracedBlock again >>= fun block => takeBlock block tok)
      (bracedBlock beside >>= fun block => takeBlock block tok) := by
  have read : Follows c state.pos .closing (bracedBlock again) (bracedBlock beside) :=
    .close (followed.block _) fun _ => .close (.expect ")") fun _ => .pure id trivial
  refine .settle (read _ within (Nat.le_refl _)) fun block after run added _ => ?_
  obtain ⟨entered, _, blockRun, rest⟩ := bind_ok run
  obtain ⟨_, _, _, done⟩ := bind_ok rest
  cases done
  have fresh := followed.fresh _ _ _ within blockRun
  cases known : after.program.lookupNode block with
  | error error =>
      have besideKnown : (c.view after).program.lookupNode block = .error error := by
        rw [Comparison.view_program, Program.lookupNode_relocate, known]
        rfl
      refine .inr ⟨error, after, bind_fail (query_eq_error known), fun _ =>
        ⟨c.view after, ?_⟩⟩
      rw [Program.Unlocated.lookupNode _ _ error known]
      exact bind_fail (query_eq_error besideKnown)
  | ok node =>
      have besideKnown : (c.view after).program.lookupNode block =
          .ok (node.relocate c.place) := by
        rw [Comparison.view_program, Program.lookupNode_relocate, known]
        rfl
      by_cases taken : ∃ body, node.kind = .block body
      · obtain ⟨body, kind⟩ := taken
        refine .inl ⟨body, after.emptied block, takeBlock_run known kind, ?_,
          added.modified fresh, rfl, id, id, trivial⟩
        rw [takeBlock_run besideKnown kind, c.view_emptied]
      · have kind (body : List NodeId) :
            node.kind ≠ .block body := fun same => taken ⟨body, same⟩
        refine .inr ⟨_, _, takeBlock_rejects known kind, fun whole => ?_⟩
        obtain ⟨last, failed⟩ := (@Follows.failAt c 0 (List NodeId) .blind tok
          (.grammar .expectedBlock) after added.within (Nat.zero_le _)).fails
            whole _ _ rfl
        exact ⟨last, (takeBlock_rejects besideKnown kind).trans failed⟩

/-- A statement expression, whose braces stand at the cursor. -/
theorem statementExpression (within : state.Within c.tokens)
    (opens : state.sees "(" = true)
    (brace : state.seesAt (state.pos + 1) openBrace = true) :
    FollowsAt c state .closing (Grammar.statementExpression again)
      (Grammar.statementExpression beside) := by
  rw [statementExpression_eq, statementExpression_eq]
  refine .position_bind <| .skip within opens fun within => .skip within brace
    fun within => ?_
  have before :
      state.pos < state.next.next.pos + 1 := by simp only [State.next_pos]; omega
  exact .close (takenBlock followed within state.pos)
    fun body _ => .newNode (.before before) _

/-- A primary expression. -/
theorem primary :
    Follows c low .passing (Grammar.primary again) (Grammar.primary beside) := by
  refine .get_bind fun state within reached => ?_
  change FollowsAt c state .passing
    (if state.sees "(" && state.seesAt (state.pos + 1) openBrace then _ else _)
    (if (c.view state).sees "(" && (c.view state).seesAt (state.pos + 1) openBrace
      then _ else _)
  refine .ahead (fun shown => by
    rw [(shown.mono (Nat.le_succ _)).sees within.same, shown.seesAt within.same]) ?_
  refine .ite (fun opens => ?_) fun _ => ?_
  · have ⟨parenthesis, brace⟩ := Bool.and_eq_true_iff.mp opens
    exact .of_closing (statementExpression followed within parenthesis brace)
  · refine .accept within ?_ <| .accept within ?_ (atom followed state within reached)
    · refine .lead (followed.expr _) fun _ => ?_
      exact .peek (.loose (.of_closing (.expect ")"))) fun _ => .pure id trivial
    · exact .loose (.sizeof followed (Nat.lt_succ_self _))

omit followed in
/-- A member is looked up alike. -/
theorem memberAccess (base : NodeId) :
    Follows c low .closing (Grammar.memberAccess base) (Grammar.memberAccess base) := by
  refine .bind (.typeOf base) fun _ => .close_gives .identifier fun named identifier =>
    .bind (.lookupTy _) fun ty => .first_unless (.failAt _ _) fun _ => ?_
  split
  · exact .failAt _ _
  · exact .newTyped (.of_identifier identifier) _ _

/-- Indices and members behind a primary expression are read alike. -/
theorem trailer :
    Follows c low .passing (Grammar.trailer again) (Grammar.trailer beside) := by
  refine .lead (.primary followed) fun first => .iterate
    (fun _ => True) trivial fun node _ => .position_bind fun tok _ => ?_
  have before : tok < tok + 1 := Nat.lt_succ_self tok
  refine .accept ?_ <| .accept ?_ <| .accept ?_ (.pure id trivial)
  · exact .lead (followed.expr _) fun index =>
      .peek (.loose (.of_closing (.expect "]"))) fun _ =>
      .bind (.newAdd (.before (Nat.lt_succ_of_lt before)) _ _) fun _ =>
        .bind (.newNode (.before (Nat.lt_succ_of_lt before)) _) fun _ => .pure id trivial
  · exact .peek (.loose (.of_closing (.memberAccess node))) fun _ => .pure id trivial
  · exact .bind (.newNode (.before before) _) fun _ =>
      .peek (.loose (.of_closing (.memberAccess _))) fun _ => .pure id trivial

/-- The same operators stand in front of the operand. -/
theorem unary : Follows c low .passing (Grammar.unary again) (Grammar.unary beside) := by
  refine .position_bind fun tok _ => ?_
  have operated (kind : NodeId -> NodeKind) : Follows c (tok + 1) .peeking
      (do Grammar.newNode (kind (← again.cast)) tok)
      (do Grammar.newNode (kind (← beside.cast)) tok) :=
    .lead (followed.cast _) fun _ => .of_blind (.newNode (.before (by omega)) _)
  exact .accept (.loose (followed.cast _)) <|
    .accept (operated (.unary .neg)) <| .accept (operated .addr) <|
      .accept (operated .deref) <| .accept (operated (.unary .not)) <|
        .accept (operated (.unary .bitNot)) (.trailer followed)

/-- The same types stand in parentheses in front of the operand. -/
theorem cast : Follows c low .passing (Grammar.cast again) (Grammar.cast beside) := by
  refine .get_bind fun state within reached => ?_
  change FollowsAt c state .passing
    (if state.sees "(" && state.startsType (state.pos + 1) then _ else _)
    (if (c.view state).sees "(" && (c.view state).startsType (state.pos + 1)
      then _ else _)
  refine .ahead (fun shown => by
    rw [(shown.mono (Nat.le_succ _)).sees within.same, shown.startsType within.same]) ?_
  refine .ite (fun typed => ?_) fun _ => unary followed state within reached
  refine .skip within (Bool.and_eq_true_iff.mp typed).1 fun behind => ?_
  have converted : Follows c (state.pos + 1) .peeking
      (do
        let ty ← Grammar.typeName again
        Grammar.expect ")"
        Grammar.newCast (← again.cast) ty state.pos)
      (do
        let ty ← Grammar.typeName beside
        Grammar.expect ")"
        Grammar.newCast (← beside.cast) ty state.pos) :=
    .peek (.typeName followed) fun _ => .close (.expect ")") fun _ =>
      .lead (followed.cast _) fun _ => .of_blind (.newCast (.before (by omega)) _ _)
  exact converted _ behind (Nat.le_refl _)

omit followed in
/-- A level of operators, if each joins its operands. -/
theorem leftChain {operators : List (String × Join)}
    {operand besideOperand : Parser NodeId}
    (joins : ∀ operator ∈ operators, c.Joins operator.2)
    (each : ∀ low, Follows c low .passing operand besideOperand) :
    Follows c low .passing (Grammar.leftChain operators operand)
      (Grammar.leftChain operators besideOperand) := by
  refine .lead (each _) fun _ => .iterate (fun _ => True) trivial fun lhs _ =>
    .get_bind fun state within reached => ?_
  have same (shown : c.Shown state.pos) :
      (operators.find? fun operator => (c.view state).sees operator.1) =
        operators.find? fun operator => state.sees operator.1 := by
    simp only [shown.sees within.same]
  refine .here (fun shown => by rw [same shown]) ?_
  cases found : operators.find? fun operator => state.sees operator.1 with
  | none => exact Follows.pure id trivial state within reached
  | some operator =>
      have here : state.sees operator.1 = true := by simpa using List.find?_some found
      have further := lt_last c.sound.ended within.same (kind_ne_eof_of_isSymbol here)
      have joined : Follows c (state.pos + 1)
          (.landed (.round (fun _ => True) (.pushed .passing))) (do
            let rhs ← operand
            return .again (← operator.2 lhs rhs state.pos) : Parser (Round NodeId NodeId))
          (do
            let rhs ← besideOperand
            return .again (← operator.2 lhs rhs state.pos)) :=
        .lead (each _) fun rhs =>
          .bind (joins operator (List.mem_of_find?_eq_some found) _
          lhs rhs state.pos (.before (by omega))) fun _ => .pure id trivial
      exact .behind_token within further (Token.string?_of_isSymbol here) rfl rfl
        (joined _ (next_within within further) (Nat.le_refl _))

/-- The operands of `*`, `/` and `%` are read alike. -/
theorem product :
    Follows c low .passing (Grammar.product again) (Grammar.product beside) :=
  .leftChain (by simp [c.joins_newIntegerBinary]) fun _ => .cast followed

/-- The operands of `+` and `-` are read alike. -/
theorem sum : Follows c low .passing (Grammar.sum again) (Grammar.sum beside) :=
  .leftChain (by simp [c.joins_newAdd, c.joins_newSub]) fun _ => .product followed

/-- The operands of comparisons are read alike. -/
theorem relational :
    Follows c low .passing (Grammar.relational again) (Grammar.relational beside) :=
  .leftChain (by simp [c.joins_newBinary]) fun _ => .sum followed

theorem equality :
    Follows c low .passing (Grammar.equality again) (Grammar.equality beside) :=
  .leftChain (by simp [c.joins_newBinary]) fun _ => .relational followed

theorem logAnd : Follows c low .passing (Grammar.logAnd again) (Grammar.logAnd beside) :=
  .leftChain (by simp [c.joins_newBinary]) fun _ => .equality followed

theorem logOr : Follows c low .passing (Grammar.logOr again) (Grammar.logOr beside) :=
  .leftChain (by simp [c.joins_newBinary]) fun _ => .logAnd followed

/-- The right side of an assignment is there in both streams or in neither. -/
theorem assign : Follows c low .passing (Grammar.assign again) (Grammar.assign beside) :=
  .lead (.logOr followed) fun _ => .position_bind fun tok _ => .accept
    (.lead (followed.assign _) fun _ => .of_blind (.newAssign (.before (by omega)) _ _))
    (.pure id trivial)

/-- An expression behind a comma is there in both streams or in neither. -/
theorem expr : Follows c low .passing (Grammar.expr again) (Grammar.expr beside) :=
  .lead (.assign followed) fun _ => .position_bind fun tok _ => .accept
    (.lead (followed.expr _) fun _ => .of_blind (.newNode (.before (by omega)) _))
    (.pure id trivial)

/-! ## Statements -/

/-- A variable has an initialiser in both streams or in neither. -/
theorem initialiser (symbol : SymbolId) {tok : Nat}
    (identifier : (c.tokens.get tok).isIdentifier = true) :
    Follows c low .peeking (Grammar.initialiser again symbol tok)
      (Grammar.initialiser beside symbol tok) :=
  .position_bind fun eq _ => .accept
    (.bind (.newNode (.of_identifier identifier) _) fun _ =>
      .lead (.assign followed) fun _ =>
      .bind (.newAssign (.before (by omega)) _ _) fun _ =>
        .bind (.newNode (.before (by omega)) _) fun _ => .pure id trivial)
    (.pure id trivial)

/-- A local variable is declared by the token of its name. -/
theorem declareLocal (body : List NodeId) (declared : Declarator) {tok : Nat}
    (identifier : (c.tokens.get tok).isIdentifier = true) :
    Follows c low .peeking (Grammar.declareLocal again body declared tok)
      (Grammar.declareLocal beside body declared tok) := by
  refine .bind (.checkVariableTy _ _) fun _ => .get_bind fun state within reached => ?_
  rw [Comparison.Shown.token
    (.inr (Comparison.lt_last_of_identifier identifier)) within.same, Token.relocate_text]
  exact Follows.bind (.newLocal _ _)
    (fun _ => .peek (.initialiser followed _ identifier) fun _ =>
    .pure id trivial) state within reached

/-- A declaration is closed by its semicolon. -/
theorem declaration (base : TyId) :
    Follows c low .closing (Grammar.declaration again base)
      (Grammar.declaration beside base) :=
  .position_bind fun _ _ => .close (.declaratorList followed
    (fun _ _ _ _ identifier => .declareLocal followed _ _ identifier) base) fun _ =>
      .newNode (.before (Nat.lt_succ_self _)) _

/-- A `typedef` is closed by its semicolon. -/
theorem typedefNames (base : TyId) :
    Follows c low .closing (Grammar.typedefNames again base)
      (Grammar.typedefNames beside base) :=
  .declaratorList followed
    (fun _ _ _ tok identifier => .get_bind fun state within reached => by
    rw [Comparison.Shown.token
      (.inr (Comparison.lt_last_of_identifier identifier)) within.same,
      Token.relocate_text]
    exact Follows.of_blind (.modifyScopes _) state within reached) base

/-- A statement that is an expression is closed by its semicolon. -/
theorem exprStmt :
    Follows c low .closing (Grammar.exprStmt again) (Grammar.exprStmt beside) :=
  .position_bind fun tok _ => .accept (.newNode (.before (Nat.lt_succ_self _)) _) <|
    .lead (.expr followed) fun _ => .close (.expect ";") fun _ =>
      .newNode (.before (by omega)) _

section

variable {tok : Nat} (before : tok ≤ low)

include before

/-- A `return` is closed by its semicolon. -/
theorem returnStmt :
    Follows c low .closing (Grammar.returnStmt again tok)
      (Grammar.returnStmt beside tok) := by
  refine .accept (.newNode (.before (by omega)) _) <| .lead (followed.expr _) fun _ =>
    .close (.expect ";") fun _ => .get_bind fun state within reached => ?_
  have seen : c.Seen (low + 1 + 1) tok := .before (by omega)
  rw [Comparison.view_function]
  cases state.function with
  | none => exact newNode seen _ state within reached
  | some function =>
      exact Follows.bind (.lookupTy _) (fun _ => .ite (.newNode seen _)
        (.bind (.newCast seen _ _) fun _ => .newNode seen _)) state within reached

omit before in
/-- A condition is closed by its parenthesis. -/
theorem condition (tok : Nat) :
    Follows c low .closing (Grammar.condition again tok) (Grammar.condition beside tok) :=
  .close (.expect "(") fun _ => .lead (followed.expr _) fun _ =>
    .bind (.checkScalar _ _) fun _ => .close (.expect ")") fun _ => .pure id trivial

/-- An `if` looks for an `else` behind its first branch. -/
theorem ifStmt :
    Follows c low .passing (Grammar.ifStmt again tok) (Grammar.ifStmt beside tok) :=
  .close (.condition followed tok) fun _ => .lead (followed.stmt _) fun _ => .accept
    (.lead (followed.stmt _) fun _ => .of_blind (.newNode (.before (by omega)) _))
    (.of_blind (.newNode (.before (by omega)) _))

omit before in
/-- The beginning of a `for` statement is closed by its semicolon. -/
theorem forInit :
    Follows c low .closing (Grammar.forInit again) (Grammar.forInit beside) := by
  refine .get_bind fun state within reached => ?_
  refine .here (fun shown => by rw [Comparison.view_pos, shown.startsType within.same]) ?_
  refine .ite (fun _ => ?_) fun _ => exprStmt followed state within reached
  exact Follows.peek (.specifiers followed false)
    (fun _ => .declaration followed _) state within reached

omit before in
/-- The condition of a `for` statement is closed by its semicolon. -/
theorem forCond (tok : Nat) :
    Follows c low .closing (Grammar.forCond again tok) (Grammar.forCond beside tok) :=
  .accept (.pure id trivial) <| .lead (followed.expr _) fun _ =>
    .bind (.checkScalar _ _) fun _ => .close (.expect ";") fun _ => .pure id trivial

omit before in
/-- The step of a `for` statement is closed by its parenthesis. -/
theorem forStep :
    Follows c low .closing (Grammar.forStep again) (Grammar.forStep beside) :=
  .accept (.pure id trivial) <| .lead (followed.expr _) fun _ =>
    .close (.expect ")") fun _ => .pure id trivial

/-- A `for` statement ends as its body does. -/
theorem forStmt :
    Follows c low .passing (Grammar.forStmt again tok) (Grammar.forStmt beside tok) :=
  .close (.expect "(") fun _ => .withScope <| .close (.forInit followed) fun _ =>
    .close (.forCond followed tok) fun _ => .close (.forStep followed) fun _ =>
      .lead (followed.stmt _) fun _ => .of_blind (.newNode (.before (by omega)) _)

/-- A `while` statement ends as its body does. -/
theorem whileStmt :
    Follows c low .passing (Grammar.whileStmt again tok) (Grammar.whileStmt beside tok) :=
  .close (.condition followed tok) fun _ => .lead (followed.stmt _) fun _ =>
    .of_blind (.newNode (.before (by omega)) _)

omit followed in
/-- A `goto` is closed by its semicolon. -/
theorem gotoStmt : Follows c low .closing (Grammar.gotoStmt tok) (Grammar.gotoStmt tok) :=
  .close_gives .identifier fun _ _ => .close (.expect ";") fun _ =>
    .bind (.modifyFunction fun _ => rfl) fun _ => .newNode (.before (by omega)) _

/-- A labelled statement. -/
theorem labelStmt :
    Follows c low .passing (Grammar.labelStmt again tok)
      (Grammar.labelStmt beside tok) := by
  refine .close_gives .identifier fun named _ => .close (.expect ":") fun _ =>
    .get_bind fun state within reached => ?_
  have labelled : Follows c (low + 1 + 1) .peeking
      (do
        if state.definesLabel named.1 then
          Grammar.failAt tok (.naming (.duplicateLabel named.1))
        Grammar.modifyFunction fun function =>
          { function with labels := function.labels ++ [named.1] }
        let body ← again.stmt
        Grammar.newNode (.label named.1 body) tok)
      (do
        if state.definesLabel named.1 then
          Grammar.failAt tok (.naming (.duplicateLabel named.1))
        Grammar.modifyFunction fun function =>
          { function with labels := function.labels ++ [named.1] }
        let body ← beside.stmt
        Grammar.newNode (.label named.1 body) tok) :=
    .first_if (.failAt _ _) fun _ => .bind (.modifyFunction fun _ => rfl) fun _ =>
      .lead (followed.stmt _) fun _ => .of_blind (.newNode (.before (by omega)) _)
  exact labelled state within reached

end

/-- The first token decides in both streams which statement it is. -/
theorem stmt : Follows c low .passing (Grammar.stmt again) (Grammar.stmt beside) := by
  refine .position_bind fun tok _ => ?_
  have before : tok ≤ tok + 1 := Nat.le_succ tok
  refine .accept (.loose (.of_closing (.returnStmt followed before))) <|
    .accept (.loose (.ifStmt followed before)) <|
    .accept (.loose (.forStmt followed before)) <|
    .accept (.loose (.whileStmt followed before)) <|
    .accept (.loose (.of_closing (.gotoStmt before))) ?_
  refine .get_bind fun state within reached => ?_
  refine .ahead (fun shown => by rw [shown.startsLabel within.same]) ?_
  refine .ite (fun _ => labelStmt followed (Nat.le_refl _) state within reached) fun _ =>
    ?_
  exact .accept within (.loose (.of_closing (followed.block _)))
      (Follows.of_closing (.exprStmt followed) state within reached)

/-! ## Blocks -/

/-- A declaration in a block is closed by its semicolon. -/
theorem blockDeclaration :
    Follows c low .closing (Grammar.blockDeclaration again)
      (Grammar.blockDeclaration beside) :=
  .position_bind fun _ _ => .peek (.specifiers followed true) fun _ => .ite
    (.close (.typedefNames followed _) fun _ => .pure id trivial) <| .ite (.failAt _ _) <|
      .close (.declaration followed _) fun _ => .pure id trivial

/-- A type begins a declaration in both streams or in neither. -/
theorem blockItem :
    Follows c low .passing (Grammar.blockItem again) (Grammar.blockItem beside) := by
  refine .get_bind fun state within reached => ?_
  refine .ahead (fun shown => by
    rw [Comparison.view_pos, (shown.mono (Nat.le_succ _)).startsType within.same,
      shown.startsLabel within.same]) ?_
  refine .ite (fun _ => ?_) fun _ => ?_
  · exact Follows.of_closing (.blockDeclaration followed) state within reached
  · have single : Follows c low .passing
        (do return [← Grammar.stmt again]) (do return [← Grammar.stmt beside]) :=
      .lead (.stmt followed) fun _ => .pure id trivial
    exact single state within reached

/-- The items of a block up to its closing brace. -/
theorem blockItems :
    Follows c low .closing (Grammar.blockItems again) (Grammar.blockItems beside) := by
  refine .iterate (fun _ => True) trivial fun _ _ => .accept (.pure id trivial) ?_
  refine .get_bind fun state within reached => ?_
  refine .here (fun shown => by rw [shown.current within.same, Token.relocate_isEof]) ?_
  refine .ite (fun _ => failHere _ state within reached) fun _ => ?_
  exact Follows.peek (.loose (.blockItem followed))
    (fun _ => .pure id trivial) state within reached

/-- A block is closed by its brace. -/
theorem block : Follows c low .closing (Grammar.block again) (Grammar.block beside) :=
  .position_bind fun _ _ => .withScope <| .close (.blockItems followed) fun _ =>
    .newNode (.before (by omega)) _

/-- The node of a block is entered behind its items. -/
theorem block_fresh {value : NodeId} {after : State} (within : state.Within c.tokens)
    (run : Grammar.block again state = .ok value after) :
    state.program.nodes.size ≤ value.index := by
  rw [block_eq] at run
  obtain ⟨inner, innerRun, rfl⟩ := withScope_ok run
  obtain ⟨body, middle, itemsRun, entered⟩ := bind_ok innerRun
  have opened : State.Within c.tokens { state with scopes := state.scopes.enter } :=
    ⟨within.same, within.cursor, within.types⟩
  have added := (blockItems followed _ opened (Nat.zero_le _)).added _ _ itemsRun
  cases entered
  exact added.begins.nodes.size_le

end

/-- Productions that may not be called are followed by any, unless both streams end
together. -/
theorem exhausted {mode : Mode α} {beside : Parser α}
    (same : c.whole -> beside = MonadExcept.throw (.fault .endless)) :
    Follows c low mode (MonadExcept.throw (.fault .endless)) beside :=
  fun state _ _ => .of_error rfl fun whole => ⟨c.view state, by rw [same whole]; rfl⟩

end Follows

/-- Productions are followed by those that may recur deeper. -/
theorem productions_followed (depth more : Nat) (enough : depth ≤ more)
    (same : c.whole -> depth = more) :
    (productions depth).Followed c (productions more) := by
  induction depth generalizing more with
  | zero =>
      have none (whole : c.whole) :
          productions more = .exhausted := by rw [← same whole]; rfl
      exact
        { specifiers := fun _ allowed =>
            .exhausted fun whole => congrArg (·.specifiers allowed) (none whole)
          declarator := fun _ ty => .exhausted fun whole =>
            congrArg (·.declarator ty) (none whole)
          suffix := fun _ ty => .exhausted fun whole =>
            congrArg (·.suffix ty) (none whole)
          expr := fun _ => .exhausted fun whole => congrArg (·.expr) (none whole)
          assign := fun _ => .exhausted fun whole => congrArg (·.assign) (none whole)
          cast := fun _ => .exhausted fun whole => congrArg (·.cast) (none whole)
          unary := fun _ => .exhausted fun whole => congrArg (·.unary) (none whole)
          stmt := fun _ => .exhausted fun whole => congrArg (·.stmt) (none whole)
          block := fun _ => .exhausted fun whole => congrArg (·.block) (none whole)
          closed := fun ty => (productions_balanced c.sound.ended 0).declarator ty 0
          fresh := fun _ _ _ _ run => by cases run }
  | succ depth hypothesis =>
      obtain ⟨fewer, rfl⟩ : ∃ fewer, more = fewer + 1 := ⟨more - 1, by omega⟩
      have followed :=
        hypothesis fewer (by omega) fun whole => by have := same whole; omega
      exact
        { specifiers := fun _ allowed => .specifiers followed allowed
          declarator := fun _ ty => .declarator followed ty
          suffix := fun _ ty => .suffix followed ty
          expr := fun _ => .expr followed
          assign := fun _ => .assign followed
          cast := fun _ => .cast followed
          unary := fun _ => .unary followed
          stmt := fun _ => .stmt followed
          block := fun _ => .block followed
          closed := fun ty => (productions_balanced c.sound.ended (depth + 1)).declarator
            ty 0
          fresh := fun _ _ _ within run => Follows.block_fresh followed within run }

end Grammar
end MiniC
