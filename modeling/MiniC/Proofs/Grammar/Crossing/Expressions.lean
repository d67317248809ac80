import MiniC.Proofs.Grammar.Crossing

/-!
# Expressions that cross

An expression crosses the place if the part of it does that is read there.  What it has
read before it reads in the other stream too, and what it reads behind it follows.
-/

namespace MiniC
namespace Grammar

variable {x : Crossing} {state middle after : State} {depth more : Nat}
    {ready : Prop} {α σ : Type}

/-- The productions before the place. -/
theorem Crossing.before_twin (names : Renaming) (fixes : x.Fixes names)
    (depth more : Nat) :
    (productions depth).Twin (x.before names fixes) False (productions more) :=
  productions_twin depth more

/-- The productions behind the place. -/
theorem Crossing.behind_twin (x : Crossing) (depth more : Nat) :
    (productions depth).Twin x.behind False (productions more) :=
  productions_twin depth more

/-! ## Runs at known tokens -/

/-- An identifier is not a symbol. -/
theorem State.isIdentifier_not_sees (identifier : state.current.isIdentifier = true)
    (symbol : String) : state.sees symbol = false := by
  cases sees : state.sees symbol with
  | false => rfl
  | true => cases identifier.symm.trans (Token.isIdentifier_eq_false sees)

/-- The operator of a level that stands at the cursor is found. -/
theorem find_operator {level : Nat} {op : BinaryOp} (known : op ∈ operatorsAt level)
    (here : state.sees op.text = true) :
    ((joinsAt level).find? fun operator => state.sees operator.1) =
      some (op.text, joinOf op) := by
  have sees : state.sees = fun symbol => op.text == symbol := by
    funext symbol
    by_cases same : op.text = symbol
    · rw [← same, here, beq_self_eq_true]
    · rw [State.sees_eq_false here same, beq_eq_false_iff_ne.mpr same]
  rw [sees, ← level_of_mem_operatorsAt known]
  cases op <;> rfl

/-- At an operator of its level a chain goes on with the right operand. -/
theorem chainRound_run {level : Nat} {op : BinaryOp}
    {operand : Parser NodeId} {lhs : NodeId}
    (known : op ∈ operatorsAt level) (here : state.sees op.text = true) :
    chainRound (joinsAt level) operand lhs state = (do
      let rhs ← operand
      return .again (← joinOf op lhs rhs state.pos) : Parser (Round NodeId NodeId))
        state.next := by
  unfold chainRound
  rw [get_run, find_operator known here]
  rfl

/-- The join of every operator is followed at the other place. -/
theorem Window.joins_joinOf {w : Window} {calm : Prop} (op : BinaryOp) :
    w.Joins calm (joinOf op) := by
  cases op <;>
    first
    | exact w.joins_newAdd
    | exact w.joins_newSub
    | exact w.joins_newIntegerBinary _
    | exact w.joins_newBinary _

/-- A round of a level of operators. -/
theorem Twins.joinRound {w : Window} {calm : Prop} [w.Closes calm] {low level : Nat}
    {operand besideOperand : Parser NodeId}
    (each : ∀ low, Twins w calm low .passing operand besideOperand) (lhs : NodeId) :
    Twins w calm low (.round (fun _ => True) (.pushed .passing))
      (Grammar.chainRound (joinsAt level) operand lhs)
      (Grammar.chainRound (joinsAt level) besideOperand (carry w.names lhs)) := by
  refine .chainRound (fun operator member => ?_) (fun operator member => ?_) each lhs
  · obtain ⟨op, -, rfl⟩ := List.mem_map.mp member
    exact Window.joins_joinOf op
  · obtain ⟨op, -, rfl⟩ := List.mem_map.mp member
    cases op <;> decide

/-- A cast reads a type and its operand. -/
theorem cast_run {again : Productions} (opens : state.sees "(" = true)
    (typed : state.startsType (state.pos + 1) = true)
    (further : state.pos < state.tokens.last) :
    cast again state = (do
      let ty ← typeName again
      expect ")"
      newCast (← again.cast) ty state.pos : Parser NodeId) state.next := by
  unfold cast
  rw [get_run, if_pos (by rw [opens, typed]; rfl), bind_run (advance_run further)]

/-- Without a type behind a parenthesis, a cast expression is a unary one. -/
theorem cast_of_untyped {again : Productions}
    (untyped : (state.sees "(" && state.startsType (state.pos + 1)) = false) :
    cast again state = unary again state := by
  unfold cast
  rw [get_run, if_neg (by rw [untyped]; decide)]

theorem primary_of_brace {again : Productions} (opens : state.sees "(" = true)
    (brace : state.seesAt (state.pos + 1) openBrace = true)
    (further : state.pos < state.tokens.last) :
    primary again state = (do
      advance
      newNode (.stmtExpr (← bracedBlock again >>= fun block => takeBlock block state.pos))
        state.pos
      : Parser NodeId) state.next := by
  unfold primary
  rw [get_run, if_pos (by rw [opens, brace]; rfl), statementExpression_run again further]

/-- An expression in parentheses. -/
theorem primary_of_parenthesis {again : Productions} (opens : state.sees "(" = true)
    (other : state.seesAt (state.pos + 1) openBrace = false) :
    primary again state = (do
      let inner ← again.expr
      expect ")"
      return inner : Parser NodeId) state.next := by
  unfold primary
  rw [get_run, if_neg (by rw [other, Bool.and_false]; decide), accept_then opens]

theorem sizeofOperand_of_untyped {again : Productions} {tok : Nat}
    (untyped : (state.sees "(" && state.startsType (tok + 2)) = false) :
    sizeofOperand again tok state = (again.unary >>= typeOf) state := by
  unfold sizeofOperand
  rw [get_run, if_neg (by rw [untyped]; decide)]

theorem primary_of_sizeof {again : Productions} (word : state.sees "sizeof" = true) :
    primary again state = sizeof again state.pos state.next := by
  have closed : state.sees "(" = false := State.sees_eq_false word (by decide)
  unfold primary
  rw [get_run, if_neg (by simp [closed]), accept_else closed, accept_then word]

theorem isIdentifier_of_identifier {named : String × Nat}
    (run : identifier state = .ok named after) : state.current.isIdentifier = true := by
  by_contra other
  change (if state.current.isIdentifier = true then _ else _ : Parser _) state = _ at run
  rw [if_neg other] at run
  cases run

/-- A call behind its opening parenthesis. -/
def applied (again : Productions) (named : String × Nat) : Parser NodeId := do
  let function ← callee named.1 named.2
  match (← lookupTy (← query (·.lookupSymbol function)).ty).kind with
  | .func result params =>
      let args ← arguments again params
      if args.length > maxArguments then
        failAt named.2 (.grammar .tooManyArguments)
      newTyped (.call function args) result named.2
  | _ => failAt named.2 (.typing .notFunction)

/-- Behind a round that gives an argument there are arguments. -/
theorem argumentRound_again {again : Productions} {params : List Param}
    {value args : List NodeId}
    (goes : argumentRound again params value state = .ok (.again args) after) :
    ¬ args.isEmpty = true := by
  unfold argumentRound at goes
  by_cases closes : state.sees ")" = true
  · rw [accept_then closes] at goes
    cases goes
  · rw [accept_else (by simpa using closes)] at goes
    have added {middle : State}
        (run : (do return .again (value ++ [← argument again params[value.length]?]) :
          Parser (Round (List NodeId) (List NodeId))) middle = .ok (.again args) after) :
        ¬ args.isEmpty = true := by
      obtain ⟨_, _, _, rest⟩ := bind_ok run
      cases rest
      simp
    by_cases empty : value.isEmpty = true
    · rw [if_pos empty] at goes
      exact added goes
    · rw [if_neg empty] at goes
      obtain ⟨_, _, _, rest⟩ := bind_ok goes
      exact added rest

/-- An identifier in front of a parenthesis calls a function. -/
theorem primary_of_call {again : Productions}
    (identifier : state.current.isIdentifier = true)
    (calls : state.seesAt (state.pos + 1) "(" = true) :
    primary again state = calling again (state.current.text, state.pos) state.next := by
  have closed := State.isIdentifier_not_sees identifier
  unfold primary
  rw [get_run, if_neg (by simp [closed]), accept_else (closed _), accept_else (closed _)]
  unfold atom
  rw [get_run]
  have kind : state.current.kind = .identifier := by
    exact eq_of_beq identifier
  rw [kind]
  change (if state.seesAt (state.pos + 1) "(" then call again else variableReference)
    state = _
  rw [if_pos calls, call_run again identifier]

/-- The last round of a loop has given its value, if there was one. -/
theorem Rounds.last {round : σ -> Parser (Round σ α)} {start current : σ}
    (rounds : Rounds round start state current middle) :
    (start = current ∧ state = middle) ∨
      ∃ value before, round value before = .ok (.again current) middle := by
  induction rounds with
  | none => exact .inl ⟨rfl, rfl⟩
  | more goes others hypothesis =>
      refine .inr (hypothesis.elim ?_ id)
      rintro ⟨rfl, rfl⟩
      exact ⟨_, _, goes⟩

namespace Crossing.Crosses

/-! ## Sequences and assignments -/

/-- The place may be in front of a comma. -/
theorem commaLeft
    (inner : x.Crosses True state (Grammar.assign (productions depth))
      (Grammar.assign (productions more))) :
    x.Crosses True state (Grammar.expr (productions depth))
      (Grammar.expr (productions more)) :=
  inner.lead .peeking fun _ _ => .position_any fun _ _ _ => .accept (fun _ => by decide)
    (.lead ((x.behind_twin depth more).expr _) fun _ => .of_blind (.newNode (.inl rfl)))
    (.pure id trivial)

/-- The place may be behind a comma. -/
theorem commaRight {lhs : NodeId}
    (left : Grammar.assign (productions depth) state = .ok lhs middle)
    (comma : middle.sees "," = true)
    (inner : x.Crosses True middle.next (productions depth).expr
      (productions more).expr) :
    x.Crosses True state (Grammar.expr (productions depth))
      (Grammar.expr (productions more)) :=
  .behind (fun names fixes => .assign (before_twin names fixes depth more)) left
    (fun within => .inl (inner.before (kind_ne_eof_of_isSymbol comma) within)) <|
    .position <| .accept_yes comma <| (inner.mono fun _ => trivial).lead .blind fun _ _ =>
      .newNode (.inl rfl)

/-- The place may be in front of an assignment sign. -/
theorem assignLeft
    (inner : x.Crosses True state (logOr (productions depth))
      (logOr (productions more))) :
    x.Crosses True state (Grammar.assign (productions depth))
      (Grammar.assign (productions more)) :=
  inner.lead .peeking fun _ _ => .position_any fun _ _ _ => .accept (fun _ => by decide)
    (.lead ((x.behind_twin depth more).assign _) fun _ => .of_blind (.newAssign _ _ _ _))
    (.pure id trivial)

/-- The place may be behind an assignment sign. -/
theorem assignRight {lhs : NodeId}
    (left : logOr (productions depth) state = .ok lhs middle)
    (equals : middle.sees "=" = true)
    (inner : x.Crosses True middle.next (productions depth).assign
      (productions more).assign) :
    x.Crosses True state (Grammar.assign (productions depth))
      (Grammar.assign (productions more)) :=
  .behind (fun names fixes => .logOr (before_twin names fixes depth more)) left
    (fun within => .inl (inner.before (kind_ne_eof_of_isSymbol equals) within)) <|
    .position <| .accept_yes equals <| (inner.mono fun _ => trivial).lead
      .blind fun _ _ => .newAssign _ _ _ _

/-! ## Binary operators -/

section

variable {level : Nat} (low : 2 ≤ level) (high : level ≤ 7)

include low high

/-- The place may be in the first operand of a chain. -/
theorem firstOperand
    (inner : x.Crosses True state (parserAt (productions depth) (level + 1))
      (parserAt (productions more) (level + 1))) :
    x.Crosses True state (parserAt (productions depth) level)
      (parserAt (productions more) level) := by
  rw [parserAt_eq_leftChain _ low high, parserAt_eq_leftChain _ low high]
  exact inner.lead (Mode.passing.pushed) fun _ _ => .iterate
    (fun _ => True) trivial fun lhs _ =>
    .joinRound (fun _ => .parserAt (x.behind_twin depth more) (by omega)) lhs

/-- The place may be in a later operand of a chain. -/
theorem laterOperand {lhs current : NodeId} {op : BinaryOp}
    (first : parserAt (productions depth) (level + 1) state = .ok lhs middle)
    (rounds : Rounds (chainRound (joinsAt level)
      (parserAt (productions depth) (level + 1))) lhs middle current after)
    (known : op ∈ operatorsAt level) (operator : after.sees op.text = true)
    (inner : x.Crosses True after.next (parserAt (productions depth) (level + 1))
      (parserAt (productions more) (level + 1))) :
    x.Crosses True state (parserAt (productions depth) level)
      (parserAt (productions more) level) := by
  have tight : 2 ≤ level + 1 := by omega
  have one names (fixes : x.Fixes names) current : Twins (x.before names fixes) False 0 _
      (chainRound (joinsAt level) (parserAt (productions depth) (level + 1)) current)
      (chainRound (joinsAt level) (parserAt (productions more) (level + 1))
        (carry names current)) :=
    .joinRound (fun _ => .parserAt (before_twin names fixes depth more) tight) current
  have near (within : after.Within x.behind.tokens) : after.pos < x.start :=
    inner.before (kind_ne_eof_of_isSymbol operator) within
  rw [parserAt_eq_leftChain _ low high, parserAt_eq_leftChain _ low high]
  refine .behind (fun names fixes => .parserAt (before_twin names fixes depth more) tight)
    first (fun within => ?_) ?_
  · have added := added_of_rounds _ one rounds within
    exact .inl (Nat.lt_of_le_of_lt added.forward (near added.within))
  refine .iterate Mode.passing.pushed
    (fun _ => chainRound (joinsAt level) (parserAt (productions more) (level + 1))) one
    (fun current => .joinRound (fun _ => .parserAt (x.behind_twin depth more) tight)
      current) rounds
    (fun _ _ _ => rfl) And.right (.inr fun within => .inl (near within)) ?_
  have joined : x.Crosses (True ∧ x.Settles lhs ∧ x.Settles current) after.next
      (do
        let rhs ← parserAt (productions depth) (level + 1)
        return Round.again (← joinOf op current rhs after.pos) : Parser
          (Round NodeId NodeId))
      (do
        let rhs ← parserAt (productions more) (level + 1)
        return .again (← joinOf op (carry x.behind.names current) rhs after.pos)) :=
    (inner.mono fun _ => trivial).lead (.round (fun _ => True) Mode.passing.pushed)
      fun _ rhs => .bind (Window.joins_joinOf op _ _ _ _ _) fun _ => .pure id trivial
  refine (joined.mono fun ⟨⟨_, first⟩, now⟩ => ⟨trivial, first, now⟩).next
    (kind_ne_eof_of_isSymbol operator) (fun _ => chainRound_run known operator)
    fun _ _ before there tied => ?_
  rw [chainRound_run known ((tied.sees before _).trans operator), tied.pos]

end

/-! ## Casts and unary operators -/

/-- The place may be in the operand of a cast. -/
theorem converted {ty : TyId} (opens : state.sees "(" = true)
    (typed : state.startsType (state.pos + 1) = true)
    (read : typeName (productions depth) state.next = .ok ty middle)
    (closes : middle.sees ")" = true)
    (inner : x.Crosses True middle.next (productions depth).cast
      (productions more).cast) :
    x.Crosses True state (Grammar.cast (productions depth))
      (Grammar.cast (productions more)) := by
  have near (within : middle.Within x.behind.tokens) : middle.pos < x.start :=
    inner.before (kind_ne_eof_of_isSymbol closes) within
  have named names (fixes : x.Fixes names) : Twins (x.before names fixes) False 0 .peeking
      (typeName (productions depth)) (typeName (productions more)) :=
    .typeName (before_twin names fixes depth more)
  have converts : x.Crosses True state.next
      (do
        let ty ← typeName (productions depth)
        Grammar.expect ")"
        newCast (← (productions depth).cast) ty state.pos)
      (do
        let ty ← typeName (productions more)
        Grammar.expect ")"
        newCast (← (productions more).cast) ty state.pos) :=
    .behind named read (fun within => .inl (near within)) <| .expect closes <|
      (inner.mono fun _ => trivial).lead .blind fun _ _ => .newCast _ _ _ _
  have further := kind_ne_eof_of_isSymbol opens
  refine converts.next further (fun within => cast_run opens typed
    (within.same.symm ▸ lt_last x.behind.sound.ended within.same further))
    fun _ ahead before there tied => ?_
  have within := Window.within_next (w := x.behind) ahead.within further
  have added := (named _ x.fixed (Nat.le_refl 0) _ state.next within
    (Nat.zero_le _)).own.added ty middle read
  have shown := Tied.shown (x := x) (Nat.lt_of_le_of_lt added.forward (near added.within))
  rw [← tied.pos]
  exact cast_run ((tied.sees before _).trans opens)
    ((shown.startsType tied.linked).trans typed) (tied.lt_last before further)

theorem unconverted
    (untyped : (state.sees "(" && state.startsType (state.pos + 1)) = false)
    (inner : x.Crosses True state (Grammar.unary (productions depth))
      (Grammar.unary (productions more))) :
    x.Crosses True state (Grammar.cast (productions depth))
      (Grammar.cast (productions more)) :=
  inner.swap (cast_of_untyped untyped) fun _ ahead _ tied =>
    cast_of_untyped (tied.untyped_other ahead untyped)

/-- The place may be in the operand of a unary operator. -/
theorem operated {symbol : String} (known : symbol ∈ unaryOperators)
    (operator : state.sees symbol = true)
    (inner : x.Crosses True state.next (productions depth).cast (productions more).cast) :
    x.Crosses True state (Grammar.unary (productions depth))
      (Grammar.unary (productions more)) := by
  refine .position ?_
  have crosses : x.Crosses (True ∧ state.pos ≤ x.start) state.next
      (productions depth).cast (productions more).cast :=
    inner.mono fun _ => trivial
  have builds (kind : NodeId -> NodeKind)
      (expression : ∀ operand, (kind operand).isExpression = true)
      (same : ∀ operand, kind (carry x.behind.names operand) =
          carry x.behind.names (kind operand)) :
      x.Crosses (True ∧ state.pos ≤ x.start) state.next
        (do newNode (kind (← (productions depth).cast)) state.pos)
        (do newNode (kind (← (productions more).cast)) state.pos) :=
    crosses.lead .blind fun _ operand => same operand ▸ .newNode
      (.inl (expression operand))
  have other {also : String} (differs : symbol ≠ also) : state.sees also = false :=
    State.sees_eq_false operator differs
  simp only [unaryOperators, List.mem_cons, List.not_mem_nil, or_false] at known
  rcases known with rfl | rfl | rfl | rfl | rfl | rfl
  · exact .accept_yes operator crosses
  · exact .accept_no (other (by decide)) (by decide) <|
      .accept_yes operator (builds (.unary .neg) (fun _ => rfl) fun _ => rfl)
  · exact .accept_no (other (by decide)) (by decide) <|
      .accept_no (other (by decide)) (by decide) <|
        .accept_yes operator (builds .addr (fun _ => rfl) fun _ => rfl)
  · exact .accept_no (other (by decide)) (by decide) <|
      .accept_no (other (by decide)) (by decide) <|
        .accept_no (other (by decide)) (by decide) <|
          .accept_yes operator (builds .deref (fun _ => rfl) fun _ => rfl)
  · exact .accept_no (other (by decide)) (by decide) <|
      .accept_no (other (by decide)) (by decide) <|
        .accept_no (other (by decide)) (by decide) <|
          .accept_no (other (by decide)) (by decide) <|
            .accept_yes operator (builds (.unary .not) (fun _ => rfl) fun _ => rfl)
  · exact .accept_no (other (by decide)) (by decide) <|
      .accept_no (other (by decide)) (by decide) <|
        .accept_no (other (by decide)) (by decide) <|
          .accept_no (other (by decide)) (by decide) <|
            .accept_no (other (by decide)) (by decide) <|
              .accept_yes operator (builds (.unary .bitNot) (fun _ => rfl) fun _ => rfl)

theorem unoperated (other : ∀ symbol ∈ unaryOperators, state.sees symbol = false)
    (inner : x.Crosses True state (Grammar.trailer (productions depth))
      (Grammar.trailer (productions more))) :
    x.Crosses True state (Grammar.unary (productions depth))
      (Grammar.unary (productions more)) :=
  .position <| .accept_no (other _ (by decide)) (by decide) <|
    .accept_no (other _ (by decide)) (by decide) <|
      .accept_no (other _ (by decide)) (by decide) <|
        .accept_no (other _ (by decide)) (by decide) <|
          .accept_no (other _ (by decide)) (by decide) <|
            .accept_no (other _ (by decide)) (by decide) <| inner.mono fun _ => trivial

/-! ## Postfix expressions -/

theorem trailed
    (inner : x.Crosses True state (Grammar.primary (productions depth))
      (Grammar.primary (productions more))) :
    x.Crosses True state (Grammar.trailer (productions depth))
      (Grammar.trailer (productions more)) :=
  inner.lead Mode.passing.pushed fun _ _ => .iterate (fun _ => True) trivial fun node _ =>
    .trailerRound (x.behind_twin depth more) node

/-- The place may be in the brackets of a subscript. -/
theorem index {first current : NodeId}
    (head : Grammar.primary (productions depth) state = .ok first middle)
    (rounds : Rounds (trailerRound (productions depth)) first middle current after)
    (bracket : after.sees "[" = true)
    (inner : x.Crosses True after.next (productions depth).expr (productions more).expr) :
    x.Crosses True state (Grammar.trailer (productions depth))
      (Grammar.trailer (productions more)) := by
  have one names (fixes : x.Fixes names) current : Twins (x.before names fixes) False 0 _
      (trailerRound (productions depth) current)
      (trailerRound (productions more) (carry names current)) :=
    .trailerRound (before_twin names fixes depth more) current
  have near (within : after.Within x.behind.tokens) : after.pos < x.start :=
    inner.before (kind_ne_eof_of_isSymbol bracket) within
  refine .behind (fun names fixes => .primary (before_twin names fixes depth more)) head
    (fun within => ?_) ?_
  · have added := added_of_rounds _ one rounds within
    exact .inl (Nat.lt_of_le_of_lt added.forward (near added.within))
  refine .iterate Mode.passing.pushed (fun _ => trailerRound (productions more)) one
    (fun current => .trailerRound (x.behind_twin depth more) current) rounds
    (fun _ _ _ => rfl) And.right (.inr fun within => .inl (near within)) ?_
  exact .position <| .accept_yes bracket <| (inner.mono fun _ => trivial).lead
    (.round (fun _ => True) Mode.passing.pushed) fun _ _ =>
      .peek (.loose (.of_closing (.expect "]"))) fun _ => .bind (.newAdd _ _ _ _) fun _ =>
        .bind (.newNode (.inl rfl)) fun _ => .pure id trivial

/-! ## Primary expressions -/

/-- The statements of a block that crosses the place are taken out of it. -/
theorem body (opens : state.sees "(" = true)
    (brace : state.seesAt (state.pos + 1) openBrace = true)
    (inner : x.Crosses True state.next.next (productions depth).block
      (productions more).block) :
    x.Crosses True state (Grammar.primary (productions depth))
      (Grammar.primary (productions more)) := by
  have block_ : x.Crosses True state.next.next (bracedBlock (productions depth))
      (bracedBlock (productions more)) :=
    inner.lead .closing fun _ _ => .close (.expect ")") fun _ => .pure id trivial
  have taken : x.Crosses True state.next.next
      (bracedBlock (productions depth) >>= fun block =>
        takeBlock block state.pos >>= fun body => newNode (.stmtExpr body) state.pos)
      (bracedBlock (productions more) >>= fun block =>
        takeBlock block state.pos >>= fun body => newNode (.stmtExpr body) state.pos) :=
    block_.first fun _ block _ _ linked =>
      .bind (takeBlock_linked x.braced linked block _ _)
        fun _ _ _ _ linked => .of_twins x.whole (@Twins.newNode _ False _ _ _ _ (.inl rfl)
          (Nat.le_refl _) _ _ linked.within linked.reached) linked
  have further := kind_ne_eof_of_isSymbol brace
  have skipped : x.Crosses True state.next
      (do
        advance
        newNode (.stmtExpr (← bracedBlock (productions depth) >>= fun block =>
          takeBlock block state.pos)) state.pos)
      (do
        advance
        newNode (.stmtExpr (← bracedBlock (productions more) >>= fun block =>
          takeBlock block state.pos)) state.pos) :=
    taken.next further
      (fun within => by
        rw [bind_run (advance_run
          (within.same.symm ▸ lt_last x.behind.sound.ended within.same further)),
          bind_assoc])
      fun _ _ before _ tied => by
        rw [bind_run (advance_run (tied.lt_last before further)), bind_assoc]
  have more_ := kind_ne_eof_of_isSymbol opens
  refine skipped.next more_ (fun within => primary_of_brace opens brace
    (within.same.symm ▸ lt_last x.behind.sound.ended within.same more_))
    fun _ ahead before there tied => ?_
  have within := Window.within_next (w := x.behind) ahead.within more_
  have shown : state.pos + 1 < x.start := taken.before further within
  rw [← tied.pos]
  exact primary_of_brace ((tied.sees before _).trans opens)
    ((tied.seesAt shown _).trans brace) (tied.lt_last before more_)

/-- The place may be in parentheses. -/
theorem parenthesised (opens : state.sees "(" = true)
    (other : state.seesAt (state.pos + 1) openBrace = false)
    (inner : x.Crosses True state.next (productions depth).expr (productions more).expr) :
    x.Crosses True state (Grammar.primary (productions depth))
      (Grammar.primary (productions more)) := by
  have closes : x.Crosses True state.next
      (do
        let inner ← (productions depth).expr
        Grammar.expect ")"
        return inner)
      (do
        let inner ← (productions more).expr
        Grammar.expect ")"
        return inner) :=
    inner.lead .closing fun _ _ => .close (.expect ")") fun _ => .pure id trivial
  exact closes.next (kind_ne_eof_of_isSymbol opens)
    (fun _ => primary_of_parenthesis opens other)
    fun _ ahead before _ tied => primary_of_parenthesis ((tied.sees before _).trans opens)
      (tied.seesAt_other ahead other (by decide) (by decide))

/-- The place may be in the operand of `sizeof`. -/
theorem sizeof (word : state.sees "sizeof" = true)
    (untyped : (state.next.sees "(" && state.next.startsType (state.pos + 2)) = false)
    (inner : x.Crosses True state.next (productions depth).unary
      (productions more).unary) :
    x.Crosses True state (Grammar.primary (productions depth))
      (Grammar.primary (productions more)) := by
  have operand : x.Crosses True state.next
      (sizeofOperand (productions depth) state.pos)
      (sizeofOperand (productions more) state.pos) :=
    (inner.lead .blind fun _ _ => .typeOf _).swap (sizeofOperand_of_untyped untyped)
      fun _ ahead there tied => by
        have pos : there.pos = state.pos + 1 := tied.pos
        have other := tied.untyped_other ahead untyped
        rw [pos] at other
        exact sizeofOperand_of_untyped other
  have sized : x.Crosses True state.next (Grammar.sizeof (productions depth) state.pos)
      (Grammar.sizeof (productions more) state.pos) :=
    operand.lead .blind fun _ _ => .bind (.lookupTy _) fun _ => .first_if (by simp)
      (.failAt _ _ _ _) fun _ => .newTyped_of_eq (.inl rfl) (x.behind.names.literalTy _)
  refine sized.next (kind_ne_eof_of_isSymbol word) (fun _ => primary_of_sizeof word)
    fun _ _ before there tied => ?_
  rw [← tied.pos]
  exact primary_of_sizeof ((tied.sees before _).trans word)

/-- Arguments of which one crosses the place. -/
theorem arguments {params : List Param} {args : List NodeId} {behind : State}
    (settled : ready -> x.Settles params)
    (rounds : Rounds (argumentRound (productions depth) params) [] middle args after)
    (open_ : after.sees ")" = false)
    (separated : (do unless args.isEmpty do Grammar.expect "," : Parser Unit) after =
      .ok () behind)
    (inner : x.Crosses True behind (productions depth).assign (productions more).assign) :
    x.Crosses ready middle (Grammar.arguments (productions depth) params)
      (Grammar.arguments (productions more) (carry x.behind.names params)) := by
  have one names (fixes : x.Fixes names) current : Twins (x.before names fixes) False 0 _
      (argumentRound (productions depth) params current)
      (argumentRound (productions more) (carry names params) (carry names current)) :=
    .argumentRound (before_twin names fixes depth more) params current
  have param : (carry x.behind.names params)[(carry x.behind.names args).length]? =
      carry x.behind.names params[args.length]? := by
    rw [show (carry x.behind.names args).length = args.length from List.length_map _]
    exact List.getElem?_map
  have here : x.Crosses (ready ∧ x.Settles args) behind
      (do return .again (args ++
        [← Grammar.argument (productions depth) params[args.length]?]) :
        Parser (Round (List NodeId) (List NodeId)))
      (do return .again (carry x.behind.names args ++
        [← Grammar.argument (productions more) (carry x.behind.names params)[
          (carry x.behind.names args).length]?])) := by
    rw [param]
    refine @Crosses.lead _ _ _ _ _ _ _ (Grammar.argument _ _) _ _ _ ?_ .blind
      fun _ value => .pure_of_eq id trivial ?_
    · refine .position <| (inner.mono fun _ => trivial).lead .peeking fun _ value => ?_
      refine .bind (.nodeTy _) fun _ => .first_if (by simp) (.failAt _ _ _ _) fun _ => ?_
      cases params[args.length]? with
      | some param => exact .of_blind (.newCast _ _ _ _)
      | none => exact .pure id trivial
    · simp [Round.carried, carry]
  refine .iterate .closing
    (fun names => argumentRound (productions more) (carry names params)) one
    (fun current => (Twins.argumentRound (x.behind_twin depth more) params current).weaken
      Mode.round_weaker_eager) rounds
    (fun holds names fixes => by rw [settled holds names fixes]) (fun _ _ _ => rfl) ?_ ?_
  · rcases rounds.last with ⟨same, stays⟩ | ⟨value, before, goes⟩
    · exact .inl ⟨same, stays⟩
    · rw [if_neg (argumentRound_again goes)] at separated
      have comma := sees_of_expect separated
      cases (expect_run comma).symm.trans separated
      exact .inr fun within => .inl (inner.before (kind_ne_eof_of_isSymbol comma) within)
  · refine .accept_no open_ (by decide) ?_
    have sameEmpty : (carry x.behind.names args).isEmpty = args.isEmpty := by simp [carry]
    by_cases empty : args.isEmpty = true
    · rw [if_pos empty] at separated
      cases separated
      rw [if_pos empty, if_pos (sameEmpty.trans empty)]
      exact here.mono fun holds => holds
    · rw [if_neg empty] at separated
      have comma := sees_of_expect separated
      cases (expect_run comma).symm.trans separated
      rw [if_neg empty, if_neg (sameEmpty ▸ empty)]
      exact .expect comma (here.mono fun holds => holds)

/-- The place may be in an argument of a call. -/
theorem argument {params : List Param} {args : List NodeId} {behind : State}
    (calls : state.seesAt (state.pos + 1) "(" = true)
    (head : callHead state = .ok params middle)
    (rounds : Rounds (argumentRound (productions depth) params) [] middle args after)
    (open_ : after.sees ")" = false)
    (separated : (do unless args.isEmpty do Grammar.expect "," : Parser Unit) after =
      .ok () behind)
    (inner : x.Crosses True behind (productions depth).assign (productions more).assign) :
    x.Crosses True state (Grammar.primary (productions depth))
      (Grammar.primary (productions more)) := by
  obtain ⟨named, _, name, rest⟩ := bind_ok head
  have identifier := isIdentifier_of_identifier name
  cases (identifier_run identifier).symm.trans name
  obtain ⟨_, _, opening, rest⟩ := bind_ok rest
  have opens := sees_of_expect opening
  cases (expect_run opens).symm.trans opening
  obtain ⟨function, first, named, rest⟩ := bind_ok rest
  obtain ⟨symbol, second, known, rest⟩ := bind_ok rest
  obtain ⟨⟨kind, size, align, declared⟩, third, typed, rest⟩ := bind_ok rest
  cases kind with
  | func result params =>
      cases rest
      have applied : x.Crosses True state.next.next
          (applied (productions depth) (state.current.text, state.pos))
          (Grammar.applied (productions more) (state.current.text, state.pos)) := by
        refine .blind (fun _ => callee _ _) (fun _ _ => .callee _ _ _)
          (fun _ _ _ => rfl) named <|
          .blind (fun _ => query _) (fun _ _ => .lookupSymbol _)
            (fun _ _ _ => rfl) known <|
          .blind (fun names => lookupTy (carry names symbol.ty))
            (fun _ _ => Twins.lookupTy _) (fun holds names fixes => ?_) typed ?_
        · exact congrArg (fun symbol => lookupTy symbol.ty) (holds.2 names fixes)
        · have settled names (same :
              carry names (⟨.func result params, size, align, declared⟩ : Ty) =
              carry x.behind.names ⟨.func result params, size, align, declared⟩) :
              carry names params = carry x.behind.names params := by
            injection same with same
            injection same
          exact (arguments (fun holds names fixes => settled names (holds.2 names fixes))
            rounds open_ separated
            inner).lead .blind fun _ args =>
              .first_if (by simp [carry]) (.failAt _ _ _ _) fun _ => .newTyped (.inl rfl)
      have further := kind_ne_eof_of_isIdentifier identifier
      have called : x.Crosses True state.next
          (calling (productions depth) (state.current.text, state.pos))
          (calling (productions more) (state.current.text, state.pos)) :=
        .expect opens applied
      refine called.next further (fun _ => primary_of_call identifier calls)
        fun _ ahead before there tied => ?_
      have shown : state.pos + 1 < x.start :=
        applied.before (kind_ne_eof_of_isSymbol opens)
        (Window.within_next (w := x.behind) ahead.within further)
      have same := Tied.shown (x := x) before
      rw [← same.text tied.linked, ← tied.pos]
      exact primary_of_call ((same.isIdentifier tied.linked).trans identifier)
        ((tied.seesAt shown _).trans calls)
  | _ => cases rest

end Crossing.Crosses

end Grammar
end MiniC
